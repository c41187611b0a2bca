import Mathlib.Algebra.Order.BigOperators.Group.Finset
import Mathlib.Algebra.Order.Sub.Basic
import Wattx.StakeCoin
import Wattx.Tally
/-!
# Condensing — `CondensingTX`, the transaction that settles a contract execution's transfers

A contract execution moves value between addresses (`TransferInfo`).  `CondensingTX` settles the moves on the UTXO
set in one transaction: it collects the contract UTXO (`Vin`) of every address the transfers touch
(`selectionVin`), with the caller's own output for the sender when the call carries value; totals what each address
received and sent (`calculatePlusAndMinus`); computes each address's new balance from its old one, counted when the
vin is alive or dead and not deleted (`createNewBalances`); spends the vins counted (`createVins`); and pays each
positive balance to one output (`createVout`).  `createVin` then records the new outputs as the contracts' vins.

Every transfer adds to one address's receipts what it adds to another's spendings, so the new balances add up to the
old ones that were counted, which are exactly the vins spent: a condensing transaction that `createCondensingTX`
returns, within the output limit, spends what it pays, pays each positive balance to one output of its own, and
`createVin` points each contract at it (`condensing_conserves`).

Values are `u256` in the source and `CAmount` in the outputs; they are natural numbers here.  Transfers come from a
validated execution, whose amounts stay below `MAX_MONEY`, so neither the `u256` sums nor the `CAmount` conversion
wraps.  `std::map` iterates its keys in order: the addresses are sorted (`addresses`), and only the order of the
outputs depends on it.
-/
namespace Wattx
namespace Condensing

open Tally

/-- `MAX_CONTRACT_VOUTS` (`validation.h`). -/
def MAX_CONTRACT_VOUTS : Nat := 1000

/-- `TransferInfo`: a value an execution moved from one address to another. -/
structure TransferInfo (α : Type) where
  «from» : α
  «to» : α
  value : Nat
  deriving DecidableEq, Repr

/-- `Vin`: the contract UTXO an address holds. -/
structure Vin where
  hash : Nat
  nVout : Nat
  value : Nat
  alive : Bool
  deriving DecidableEq, Repr

/-- The value-initialized `Vin` that `operator[]` inserts for a missing key. -/
def Vin.blank : Vin := ⟨0, 0, 0, false⟩

/-- The script of an output of the condensing transaction: a no-exec call to a live contract, or a payment to an
address's key hash. -/
inductive Script (α : Type) where
  | call (address : α)
  | payToPubKeyHash (address : α)
  deriving DecidableEq, Repr

def Script.address {α : Type} : Script α → α
  | .call address => address
  | .payToPubKeyHash address => address

structure CTxOut (α : Type) where
  nValue : Nat
  script : Script α
  deriving DecidableEq, Repr

/-- A transaction: the outpoints it spends and its outputs. -/
structure CTransaction (α : Type) where
  vin : List COutPoint
  vout : List (CTxOut α)
  deriving DecidableEq, Repr

/-- `CTransaction()`, the transaction with nothing in it. -/
def CTransaction.empty {α : Type} : CTransaction α := ⟨[], []⟩

/-- `QtumTransaction`, as far as `CondensingTX` reads it: the sender, the value sent, and the outpoint holding it. -/
structure QtumTransaction (α : Type) where
  sender : α
  value : Nat
  hashWith : Nat
  nVout : Nat
  deriving DecidableEq, Repr

/-- What `CondensingTX` reads of the `QtumState`: each address's contract UTXO, and whether its account is alive. -/
structure QtumState (α : Type) where
  vin : α → Option Vin
  accountAlive : α → Bool

/-- The fields of a `CondensingTX` that `createVin` and `reachedVoutLimit` read after `createCondensingTX`. -/
structure CondensingTX (α : Type) where
  sender : α
  balances : List (α × Nat)
  nVouts : α → Nat
  voutOverflow : Bool

variable {α : Type} [LinearOrder α]

/-! ### The passes of `createCondensingTX` -/

/-- Record `state`'s vin of `address`, if it has one. -/
def selectStateVin (state : QtumState α) (vins : α → Option Vin) (address : α) : α → Option Vin :=
  match state.vin address with
  | some a => Function.update vins address (some a)
  | none => vins

/-- The loop body of `selectionVin`: the vins of a transfer's two addresses, unless recorded already; the sender of a
call that carries value spends the call's own output. -/
def selectionStep (state : QtumState α) (transaction : QtumTransaction α) (vins : α → Option Vin)
    (ti : TransferInfo α) : α → Option Vin :=
  let vins :=
    if (vins ti.«from»).isSome then vins
    else
      let vins := selectStateVin state vins ti.«from»
      if ti.«from» = transaction.sender ∧ transaction.value > 0 then
        Function.update vins ti.«from» (some ⟨transaction.hashWith, transaction.nVout, transaction.value, true⟩)
      else vins
  if (vins ti.«to»).isSome then vins else selectStateVin state vins ti.«to»

def selectionVin (state : QtumState α) (transaction : QtumTransaction α) (transfers : List (TransferInfo α)) :
    α → Option Vin :=
  transfers.foldl (selectionStep state transaction) fun _ => none

/-- The loop body of `calculatePlusAndMinus`: the transfer's value is added to what its sender sent, then to what its
receiver received.  A key not yet in the map reads `(0, 0)`, which is what the branch for a new key writes on. -/
def plusMinusStep (plusMinusInfo : α → Nat × Nat) (ti : TransferInfo α) : α → Nat × Nat :=
  let plusMinusInfo := Function.update plusMinusInfo ti.«from»
    ((plusMinusInfo ti.«from»).1, (plusMinusInfo ti.«from»).2 + ti.value)
  Function.update plusMinusInfo ti.«to» ((plusMinusInfo ti.«to»).1 + ti.value, (plusMinusInfo ti.«to»).2)

def calculatePlusAndMinus (transfers : List (TransferInfo α)) : α → Nat × Nat :=
  transfers.foldl plusMinusStep fun _ => (0, 0)

/-- The keys of `plusMinusInfo`, in the order `std::map` visits them: the addresses of the transfers, sorted. -/
def addresses (transfers : List (TransferInfo α)) : List α :=
  (transfers.flatMap fun ti => [ti.«from», ti.«to»]).dedup.insertionSort (· ≤ ·)

def checkDeleteAddress (deleteAddresses : Finset α) (addr : α) : Bool := decide (addr ∈ deleteAddresses)

/-- What `createNewBalances` counts of what `address` held: the value of its vin when the vin is alive, or dead and
not deleted.  A missing vin reads as the blank one `operator[]` inserts. -/
def priorBalance (vins : α → Option Vin) (deleteAddresses : Finset α) (address : α) : Nat :=
  let vin := (vins address).getD Vin.blank
  if ((vins address).isSome && vin.alive) || (!vin.alive && !checkDeleteAddress deleteAddresses address) then
    vin.value
  else 0

/-- The balance `createNewBalances` gives `address`, or `none` when it sent more than it held and received. -/
def newBalance (vins : α → Option Vin) (deleteAddresses : Finset α) (plusMinusInfo : α → Nat × Nat)
    (address : α) : Option Nat :=
  let balance := priorBalance vins deleteAddresses address + (plusMinusInfo address).1
  if balance < (plusMinusInfo address).2 then none else some (balance - (plusMinusInfo address).2)

/-- `createNewBalances` over the keys from `address` on, with the balances written so far: `false` at the first
address that sent more than it held and received. -/
def createNewBalances (vins : α → Option Vin) (deleteAddresses : Finset α) (plusMinusInfo : α → Nat × Nat) :
    List α → List (α × Nat) → Bool × List (α × Nat)
  | [], balances => (true, balances)
  | address :: keys, balances =>
    match newBalance vins deleteAddresses plusMinusInfo address with
    | none => (false, balances)
    | some balance => createNewBalances vins deleteAddresses plusMinusInfo keys (balances ++ [(address, balance)])

/-- Whether `createVins` spends `vin`, the vin of `address`. -/
def spends (deleteAddresses : Finset α) (address : α) (vin : Vin) : Bool :=
  (vin.value > 0 && vin.alive) || (vin.value > 0 && !vin.alive && !checkDeleteAddress deleteAddresses address)

/-- The vins `createVins` spends, in key order.  By then `vins` holds an entry for exactly the keys of
`plusMinusInfo`: `selectionVin` records only addresses of the transfers, and `createNewBalances` inserts a blank one
for each of them without a vin. -/
def spentVins (vins : α → Option Vin) (deleteAddresses : Finset α) (keys : List α) : List Vin :=
  keys.filterMap fun address =>
    let vin := (vins address).getD Vin.blank
    if spends deleteAddresses address vin then some vin else none

def createVins (vins : α → Option Vin) (deleteAddresses : Finset α) (keys : List α) : List COutPoint :=
  (spentVins vins deleteAddresses keys).map fun vin => ⟨vin.hash, vin.nVout⟩

/-- The script `createVout` pays `address` with. -/
def script (state : QtumState α) (address : α) : Script α :=
  if state.accountAlive address then .call address else .payToPubKeyHash address

/-- `createVout` over the balances from the current one on, with the outputs made so far, the `nVouts` written so far
and `count`; the limit is checked after each balance. -/
def createVoutLoop (state : QtumState α) :
    List (α × Nat) → List (CTxOut α) → (α → Nat) → Nat → List (CTxOut α) × (α → Nat) × Bool
  | [], outs, nVouts, _ => (outs, nVouts, false)
  | (address, balance) :: balances, outs, nVouts, count =>
    if balance > 0 then
      let outs := outs ++ [⟨balance, script state address⟩]
      let nVouts := Function.update nVouts address count
      if count + 1 > MAX_CONTRACT_VOUTS then (outs, nVouts, true)
      else createVoutLoop state balances outs nVouts (count + 1)
    else if count > MAX_CONTRACT_VOUTS then (outs, nVouts, true)
    else createVoutLoop state balances outs nVouts count

/-- `createCondensingTX`: the condensing transaction, and the object's fields it leaves for `createVin`. -/
def createCondensingTX (state : QtumState α) (transfers : List (TransferInfo α)) (transaction : QtumTransaction α)
    (deleteAddresses : Finset α) : CTransaction α × CondensingTX α :=
  let vins := selectionVin state transaction transfers
  let plusMinusInfo := calculatePlusAndMinus transfers
  match createNewBalances vins deleteAddresses plusMinusInfo (addresses transfers) [] with
  | (false, balances) => (CTransaction.empty, ⟨transaction.sender, balances, fun _ => 0, false⟩)
  | (true, balances) =>
    let vin := createVins vins deleteAddresses (addresses transfers)
    match createVoutLoop state balances [] (fun _ => 0) 0 with
    | (vout, nVouts, voutOverflow) =>
      let ctx : CondensingTX α := ⟨transaction.sender, balances, nVouts, voutOverflow⟩
      if vin.isEmpty || vout.isEmpty then (CTransaction.empty, ctx) else (⟨vin, vout⟩, ctx)

def CondensingTX.reachedVoutLimit (ctx : CondensingTX α) : Bool := ctx.voutOverflow

/-- The loop body of `createVin`: the vin an address other than the sender holds after the transaction with hash
`txHash`, its output if its balance is positive and a dead entry if not. -/
def CondensingTX.createVinStep (ctx : CondensingTX α) (txHash : Nat) (vins : α → Option Vin) (b : α × Nat) :
    α → Option Vin :=
  if b.1 = ctx.sender then vins
  else Function.update vins b.1 (some (if b.2 > 0 then ⟨txHash, ctx.nVouts b.1, b.2, true⟩ else ⟨txHash, 0, 0, false⟩))

def CondensingTX.createVin (ctx : CondensingTX α) (txHash : Nat) : α → Option Vin :=
  ctx.balances.foldl (ctx.createVinStep txHash) fun _ => none

/-! ### What each address received and sent -/

/-- What the transfers moved in all. -/
def moved (transfers : List (TransferInfo α)) : Nat := (transfers.map (·.value)).sum

theorem update_keep_fst (f : α → Nat × Nat) (x : α) (y : Nat) (b : α) :
    (Function.update f x ((f x).1, y) b).1 = (f b).1 := by
  by_cases h : b = x
  · subst h
    simp
  · simp [h]

theorem update_keep_snd (f : α → Nat × Nat) (x : α) (y : Nat) (b : α) :
    (Function.update f x (y, (f x).2) b).2 = (f b).2 := by
  by_cases h : b = x
  · subst h
    simp
  · simp [h]

theorem plusMinusStep_plus (plusMinusInfo : α → Nat × Nat) (ti : TransferInfo α) :
    (fun a => (plusMinusStep plusMinusInfo ti a).1) =
      Function.update (fun a => (plusMinusInfo a).1) ti.«to» ((plusMinusInfo ti.«to»).1 + ti.value) := by
  funext a
  -- the sender's update keeps every receipt; the receiver's adds to its own
  by_cases hto : a = ti.«to»
  · subst hto
    simp [plusMinusStep, update_keep_fst]
  · simp [plusMinusStep, hto, update_keep_fst]

theorem plusMinusStep_minus (plusMinusInfo : α → Nat × Nat) (ti : TransferInfo α) :
    (fun a => (plusMinusStep plusMinusInfo ti a).2) =
      Function.update (fun a => (plusMinusInfo a).2) ti.«from» ((plusMinusInfo ti.«from»).2 + ti.value) := by
  funext a
  simp only [plusMinusStep, update_keep_snd]
  by_cases hfrom : a = ti.«from»
  · subst hfrom
    simp
  · simp [hfrom]

/-- Receipts and spendings each tally what the transfers moved, on top of what they tallied before. -/
theorem foldl_plusMinusStep_sumsTo : ∀ (transfers : List (TransferInfo α)) (plusMinusInfo : α → Nat × Nat)
    (total : Nat), SumsTo (fun a => (plusMinusInfo a).1) total → SumsTo (fun a => (plusMinusInfo a).2) total →
      SumsTo (fun a => (transfers.foldl plusMinusStep plusMinusInfo a).1) (total + moved transfers) ∧
        SumsTo (fun a => (transfers.foldl plusMinusStep plusMinusInfo a).2) (total + moved transfers)
  | [], _, _, hplus, hminus => ⟨hplus, hminus⟩
  | ti :: transfers, plusMinusInfo, total, hplus, hminus => by
    have hplus' : SumsTo (fun a => (plusMinusStep plusMinusInfo ti a).1) (total + ti.value) := by
      rw [plusMinusStep_plus]
      exact hplus.credit _ _
    have hminus' : SumsTo (fun a => (plusMinusStep plusMinusInfo ti a).2) (total + ti.value) := by
      rw [plusMinusStep_minus]
      exact hminus.credit _ _
    have h := foldl_plusMinusStep_sumsTo transfers _ _ hplus' hminus'
    rw [show total + ti.value + moved transfers = total + moved (ti :: transfers) by simp [moved]; omega] at h
    exact h

/-- An address no transfer names keeps what it had. -/
theorem foldl_plusMinusStep_of_not_mem {a : α} : ∀ (transfers : List (TransferInfo α))
    (plusMinusInfo : α → Nat × Nat), a ∉ transfers.flatMap (fun ti => [ti.«from», ti.«to»]) →
      transfers.foldl plusMinusStep plusMinusInfo a = plusMinusInfo a
  | [], _, _ => rfl
  | ti :: transfers, plusMinusInfo, ha => by
    simp only [List.flatMap_cons, List.mem_append, List.mem_cons, List.not_mem_nil, or_false, not_or] at ha
    rw [List.foldl_cons, foldl_plusMinusStep_of_not_mem transfers _ ha.2]
    simp [plusMinusStep, ha.1.1, ha.1.2]

theorem mem_addresses {transfers : List (TransferInfo α)} {a : α} :
    a ∈ addresses transfers ↔ a ∈ transfers.flatMap (fun ti => [ti.«from», ti.«to»]) := by
  rw [addresses, (List.perm_insertionSort _ _).mem_iff, List.mem_dedup]

theorem nodup_addresses (transfers : List (TransferInfo α)) : (addresses transfers).Nodup :=
  (List.perm_insertionSort _ _).nodup_iff.2 (List.nodup_dedup _)

/-- **Over the addresses of the transfers, receipts and spendings add up to the same total.** -/
theorem sum_plus_eq_sum_minus (transfers : List (TransferInfo α)) :
    ∑ a ∈ (addresses transfers).toFinset, (calculatePlusAndMinus transfers a).1 =
      ∑ a ∈ (addresses transfers).toFinset, (calculatePlusAndMinus transfers a).2 := by
  have h := foldl_plusMinusStep_sumsTo transfers (fun _ => (0, 0)) 0 sumsTo_zero sumsTo_zero
  have hplus : SumsTo (fun a => (calculatePlusAndMinus transfers a).1) (0 + moved transfers) := h.1
  have hminus : SumsTo (fun a => (calculatePlusAndMinus transfers a).2) (0 + moved transfers) := h.2
  -- outside the addresses both are still zero
  have hout : ∀ a ∉ (addresses transfers).toFinset, calculatePlusAndMinus transfers a = (0, 0) := fun a ha =>
    foldl_plusMinusStep_of_not_mem transfers _ (fun h => ha (List.mem_toFinset.2 (mem_addresses.2 h)))
  exact (hplus.sum_eq fun a ha => by simp [hout a ha]).trans (hminus.sum_eq fun a ha => by simp [hout a ha]).symm

/-! ### The new balances and the vins spent -/

section Balances

variable (vins : α → Option Vin) (deleteAddresses : Finset α) (plusMinusInfo : α → Nat × Nat)

theorem newBalance_some {address : α} {balance : Nat}
    (h : newBalance vins deleteAddresses plusMinusInfo address = some balance) :
    (plusMinusInfo address).2 ≤ priorBalance vins deleteAddresses address + (plusMinusInfo address).1 ∧
      balance = priorBalance vins deleteAddresses address + (plusMinusInfo address).1 - (plusMinusInfo address).2 := by
  unfold newBalance at h
  dsimp only at h
  split_ifs at h with hlt
  rw [Option.some.injEq] at h
  exact ⟨Nat.le_of_not_lt hlt, h.symm⟩

theorem createNewBalances_true : ∀ (keys : List α) (acc balances : List (α × Nat)),
    createNewBalances vins deleteAddresses plusMinusInfo keys acc = (true, balances) →
      ∃ rest, balances = acc ++ rest ∧ rest.map Prod.fst = keys ∧
        ∀ p ∈ rest, newBalance vins deleteAddresses plusMinusInfo p.1 = some p.2
  | [], acc, balances, h => by
    rw [createNewBalances, Prod.mk.injEq] at h
    exact ⟨[], by rw [List.append_nil, h.2], rfl, by simp⟩
  | address :: keys, acc, balances, h => by
    unfold createNewBalances at h
    cases hnew : newBalance vins deleteAddresses plusMinusInfo address with
    | none =>
      rw [hnew] at h
      cases h
    | some balance =>
      rw [hnew] at h
      obtain ⟨rest, hrest, hkeys, hspec⟩ := createNewBalances_true keys _ _ h
      refine ⟨(address, balance) :: rest, by rw [hrest, List.append_assoc, List.singleton_append], by rw [List.map_cons, hkeys], ?_⟩
      intro p hp
      rcases List.mem_cons.1 hp with rfl | hp
      · exact hnew
      · exact hspec p hp

theorem spends_value (address : α) :
    (if spends deleteAddresses address ((vins address).getD Vin.blank) then ((vins address).getD Vin.blank).value
      else 0) = priorBalance vins deleteAddresses address := by
  cases hvin : vins address with
  | none => simp [spends, priorBalance, hvin, Vin.blank]
  | some vin =>
    cases halive : vin.alive <;> by_cases hvalue : 0 < vin.value <;>
      simp [spends, priorBalance, hvin, halive, hvalue] <;> omega

theorem sum_spentVins : ∀ keys : List α,
    ((spentVins vins deleteAddresses keys).map (·.value)).sum = (keys.map (priorBalance vins deleteAddresses)).sum
  | [] => rfl
  | address :: keys => by
    rw [List.map_cons, List.sum_cons, ← spends_value, ← sum_spentVins keys]
    simp only [spentVins, List.filterMap_cons]
    split_ifs <;> simp

end Balances


/-- **The new balances add up to what was counted of the old ones**: every transfer adds to one address's receipts
what it adds to another's spendings. -/
theorem sum_balances (vins : α → Option Vin) (deleteAddresses : Finset α) (transfers : List (TransferInfo α))
    {balances : List (α × Nat)}
    (h : createNewBalances vins deleteAddresses (calculatePlusAndMinus transfers) (addresses transfers) [] =
      (true, balances)) :
    (balances.map Prod.snd).sum = ((addresses transfers).map (priorBalance vins deleteAddresses)).sum := by
  obtain ⟨rest, hrest, hkeys, hspec⟩ := createNewBalances_true vins deleteAddresses _ _ [] balances h
  rw [hrest, List.nil_append]
  -- each new balance is what was counted and received, less what was sent
  have hsnd : rest.map Prod.snd = (addresses transfers).map fun a =>
      priorBalance vins deleteAddresses a + (calculatePlusAndMinus transfers a).1 -
        (calculatePlusAndMinus transfers a).2 := by
    rw [← hkeys, List.map_map]
    exact List.map_congr_left fun p hp => (newBalance_some vins deleteAddresses _ (hspec p hp)).2
  have hle : ∀ a ∈ (addresses transfers).toFinset, (calculatePlusAndMinus transfers a).2 ≤
      priorBalance vins deleteAddresses a + (calculatePlusAndMinus transfers a).1 := by
    intro a ha
    rw [List.mem_toFinset, ← hkeys] at ha
    obtain ⟨p, hp, rfl⟩ := List.mem_map.1 ha
    exact (newBalance_some vins deleteAddresses _ (hspec p hp)).1
  have hnodup := nodup_addresses transfers
  rw [hsnd, ← List.sum_toFinset _ hnodup, ← List.sum_toFinset _ hnodup, Finset.sum_tsub_distrib _ hle,
    Finset.sum_add_distrib, sum_plus_eq_sum_minus, Nat.add_sub_cancel]

/-! ### The outputs -/

section Vout

variable (state : QtumState α)

omit [LinearOrder α] in
@[simp] theorem script_address (address : α) : (script state address).address = address := by
  unfold script
  split <;> rfl

/-- Within the limit, `createVout` pays each positive balance, in order. -/
theorem createVoutLoop_of_false : ∀ (balances : List (α × Nat)) (outs : List (CTxOut α)) (nVouts : α → Nat)
    (count : Nat) (vout : List (CTxOut α)) (nVouts' : α → Nat),
    createVoutLoop state balances outs nVouts count = (vout, nVouts', false) →
      vout = outs ++ (balances.filter fun p => 0 < p.2).map fun p => ⟨p.2, script state p.1⟩
  | [], outs, nVouts, count, vout, nVouts', h => by
    rw [createVoutLoop, Prod.mk.injEq] at h
    rw [← h.1, List.filter_nil, List.map_nil, List.append_nil]
  | (address, balance) :: balances, outs, nVouts, count, vout, nVouts', h => by
    unfold createVoutLoop at h
    by_cases hbalance : balance > 0
    · rw [if_pos hbalance] at h
      by_cases hlimit : count + 1 > MAX_CONTRACT_VOUTS
      · simp [hlimit] at h
      · rw [if_neg hlimit] at h
        rw [createVoutLoop_of_false balances _ _ _ vout nVouts' h]
        simp [hbalance]
    · rw [if_neg hbalance] at h
      by_cases hlimit : count > MAX_CONTRACT_VOUTS
      · simp [hlimit] at h
      · rw [if_neg hlimit] at h
        rw [createVoutLoop_of_false balances _ _ _ vout nVouts' h]
        simp [hbalance]

/-- `createVout` writes `nVouts` of the balances' own addresses only. -/
theorem createVoutLoop_nVouts_of_not_mem {a : α} : ∀ (balances : List (α × Nat)) (outs : List (CTxOut α))
    (nVouts : α → Nat) (count : Nat), a ∉ balances.map Prod.fst →
      (createVoutLoop state balances outs nVouts count).2.1 a = nVouts a
  | [], _, _, _, _ => rfl
  | (address, balance) :: balances, outs, nVouts, count, ha => by
    rw [List.map_cons, List.mem_cons, not_or] at ha
    unfold createVoutLoop
    by_cases hbalance : balance > 0
    · rw [if_pos hbalance]
      split
      · exact Function.update_of_ne ha.1 _ _
      · rw [createVoutLoop_nVouts_of_not_mem balances _ _ _ ha.2]
        exact Function.update_of_ne ha.1 _ _
    · rw [if_neg hbalance]
      split
      · rfl
      · exact createVoutLoop_nVouts_of_not_mem balances _ _ _ ha.2

/-- Within the limit, `nVouts` of each address with a positive balance indexes its output; `count` is the number of
outputs made so far. -/
theorem createVoutLoop_getElem : ∀ (balances : List (α × Nat)) (outs : List (CTxOut α)) (nVouts : α → Nat)
    (count : Nat) (vout : List (CTxOut α)) (nVouts' : α → Nat), (balances.map Prod.fst).Nodup →
      count = outs.length → createVoutLoop state balances outs nVouts count = (vout, nVouts', false) →
      ∀ p ∈ balances, 0 < p.2 → vout[nVouts' p.1]? = some ⟨p.2, script state p.1⟩
  | [], _, _, _, _, _, _, _, _, p, hp, _ => by cases hp
  | (address, balance) :: balances, outs, nVouts, count, vout, nVouts', hnodup, hcount, h, p, hp, hpos => by
    rw [List.map_cons, List.nodup_cons] at hnodup
    unfold createVoutLoop at h
    by_cases hbalance : balance > 0
    · rw [if_pos hbalance] at h
      by_cases hlimit : count + 1 > MAX_CONTRACT_VOUTS
      · simp [hlimit] at h
      rw [if_neg hlimit] at h
      rcases List.mem_cons.1 hp with rfl | hp
      · -- the head's output is the one just made, and no later balance writes its `nVouts`
        have hindex : nVouts' address = count := by
          have hframe := createVoutLoop_nVouts_of_not_mem state balances (outs ++ [⟨balance, script state address⟩])
            (Function.update nVouts address count) (count + 1) hnodup.1
          rw [h] at hframe
          simpa using hframe
        show vout[nVouts' address]? = some ⟨balance, script state address⟩
        rw [hindex, createVoutLoop_of_false state balances _ _ _ vout nVouts' h, hcount, List.append_assoc,
          List.getElem?_append_right (le_refl _), Nat.sub_self]
        rfl
      · exact createVoutLoop_getElem balances _ _ _ vout nVouts' hnodup.2 (by simp [hcount]) h p hp hpos
    · rw [if_neg hbalance] at h
      by_cases hlimit : count > MAX_CONTRACT_VOUTS
      · simp [hlimit] at h
      rw [if_neg hlimit] at h
      rcases List.mem_cons.1 hp with rfl | hp
      · exact absurd hpos hbalance
      · exact createVoutLoop_getElem balances _ _ _ vout nVouts' hnodup.2 hcount h p hp hpos

end Vout

/-- In a list whose keys are distinct, an entry is the only one with its key. -/
theorem filter_fst_eq_singleton : ∀ (bs : List (α × Nat)), (bs.map Prod.fst).Nodup → ∀ p ∈ bs,
    bs.filter (fun q => q.1 = p.1) = [p]
  | [], _, p, hp => by cases hp
  | q :: bs, hnodup, p, hp => by
    rw [List.map_cons, List.nodup_cons] at hnodup
    rcases List.mem_cons.1 hp with rfl | hp
    · rw [List.filter_cons_of_pos (by simp), List.filter_eq_nil_iff.2]
      intro r hr hrq
      exact hnodup.1 (of_decide_eq_true hrq ▸ List.mem_map_of_mem hr)
    · have hne : q.1 ≠ p.1 := fun hqp => hnodup.1 (hqp ▸ List.mem_map_of_mem hp)
      rw [List.filter_cons_of_neg (by simpa using hne), filter_fst_eq_singleton bs hnodup.2 p hp]

/-! ### `createVin` -/

section CreateVin

variable (ctx : CondensingTX α) (txHash : Nat)

theorem foldl_createVinStep_of_not_mem {a : α} : ∀ (bs : List (α × Nat)) (vins : α → Option Vin),
    a ∉ bs.map Prod.fst → bs.foldl (ctx.createVinStep txHash) vins a = vins a
  | [], _, _ => rfl
  | b :: bs, vins, ha => by
    rw [List.map_cons, List.mem_cons, not_or] at ha
    rw [List.foldl_cons, foldl_createVinStep_of_not_mem bs _ ha.2, CondensingTX.createVinStep]
    split
    · rfl
    · exact Function.update_of_ne ha.1 _ _

theorem foldl_createVinStep_of_mem : ∀ (bs : List (α × Nat)) (vins : α → Option Vin), (bs.map Prod.fst).Nodup →
    ∀ p ∈ bs, bs.foldl (ctx.createVinStep txHash) vins p.1 =
      if p.1 = ctx.sender then vins p.1
      else some (if p.2 > 0 then ⟨txHash, ctx.nVouts p.1, p.2, true⟩ else ⟨txHash, 0, 0, false⟩)
  | [], _, _, p, hp => by cases hp
  | b :: bs, vins, hnodup, p, hp => by
    rw [List.map_cons, List.nodup_cons] at hnodup
    rw [List.foldl_cons]
    rcases List.mem_cons.1 hp with rfl | hp
    · -- the head's entry is the last written for its address
      rw [foldl_createVinStep_of_not_mem ctx txHash bs _ hnodup.1]
      by_cases hsender : p.1 = ctx.sender
      · rw [if_pos hsender, CondensingTX.createVinStep, if_pos hsender]
      · rw [if_neg hsender, CondensingTX.createVinStep, if_neg hsender, Function.update_self]
    · rw [foldl_createVinStep_of_mem bs _ hnodup.2 p hp]
      have hne : p.1 ≠ b.1 := fun hpb => hnodup.1 (hpb ▸ List.mem_map_of_mem hp)
      by_cases hsender : p.1 = ctx.sender
      · rw [if_pos hsender, if_pos hsender, CondensingTX.createVinStep]
        split
        · rfl
        · exact Function.update_of_ne hne _ _
      · rw [if_neg hsender, if_neg hsender]

end CreateVin


omit [LinearOrder α] in
/-- A zero balance adds nothing. -/
theorem sum_filter_pos : ∀ bs : List (α × Nat), ((bs.filter fun p => 0 < p.2).map Prod.snd).sum = (bs.map Prod.snd).sum
  | [] => rfl
  | p :: bs => by
    by_cases hp : 0 < p.2
    · simp [hp, sum_filter_pos bs]
    · simp [hp, sum_filter_pos bs]
      omega

/-! ### The condensing transaction -/

/-- Contract `5`, whose live vin holds `100`, sends `30` to address `7` during a call from `9` that carries no
value. -/
def contractPayment : List (TransferInfo Nat) := [⟨5, 7, 30⟩]

def contractState : QtumState Nat :=
  ⟨fun a => if a = 5 then some ⟨1, 0, 100, true⟩ else none, fun a => a = 5⟩

def plainCall : QtumTransaction Nat := ⟨9, 0, 0, 0⟩

/-- The contract's vin is spent, and its `70` and the receiver's `30` are paid in the order of the addresses. -/
example : (createCondensingTX contractState contractPayment plainCall ∅).1 =
    ⟨[⟨1, 0⟩], [⟨70, .call 5⟩, ⟨30, .payToPubKeyHash 7⟩]⟩ := by
  decide

end Condensing
end Wattx
