import Wattx.Validators.ValidatorDb
import Wattx.TrustScore
/-!
# Delegation — the delegation database (`validators/delegation.cpp`)

`DelegationDB` keeps a `DelegationEntry` per delegation id, the ids of each delegator's and of each validator's
delegations in the order they were made, an index from outpoints to ids, and the chain height.  A delegation is
created `PENDING`, becomes `ACTIVE` `DELEGATION_MATURITY` blocks later, is moved to `UNBONDING` by an undelegation
and is `WITHDRAWN` `DELEGATION_UNBONDING_PERIOD` blocks after that.  Creating a delegation adds its amount to the
validator's `totalDelegated` in the `ValidatorDB` (`AddDelegation`); undelegating subtracts the amount undelegated
(`RemoveDelegation`).

A delegation id is the hash `GetDelegationId`, `Crypto.delegationId`.  `ProcessBlock` treats every entry alone, so
the `std::map` of entries is a function; the index vectors are lists.  The node creates both databases at startup,
so `g_validator_db` is always set.  `DistributeBlockReward` holds `cs_delegations` when it calls
`GetTotalDelegationForValidator`, which locks it again (`Trust.lock`), and the loop it would run takes the `int64_t`
product of the delegators' share and an amount, which one coin of reward on a delegation of the minimum amount
already overflows (`block_reward_distribution_faults`).  `Stores` are the node's two databases, and
`Stores.run` a sequence of calls on them.  Amounts and heights wrap as in `ValidatorDb`.  Left out: the views that
list or count delegations, and `Serialize` and `Unserialize`, whose `CustomUintFormatter<1>` does not take the
`enum class` of a status: no stream of a `DelegationDB` builds.
-/
namespace Wattx
namespace Validators

open Trust (Fault lock)
open SignedWord (wrap)

inductive DelegationStatus where
  | PENDING
  | ACTIVE
  | UNBONDING
  | WITHDRAWN
  deriving DecidableEq, Repr

/-- A delegation's entry, with the defaults of its constructor. -/
structure DelegationEntry (κ : Type) where
  delegatorId : κ
  validatorId : κ
  amount : Int := 0
  delegationHeight : Int := 0
  lastRewardHeight : Int := 0
  status : DelegationStatus := .PENDING
  delegationOutpoint : COutPoint := COutPoint.null
  unbondingStartHeight : Int := 0
  pendingRewards : Int := 0

def MIN_DELEGATION_AMOUNT : Int := 1000 * 100000000
def DELEGATION_MATURITY : Int := 500
def DELEGATION_UNBONDING_PERIOD : Int := 259200

variable {κ π σ : Type}

namespace DelegationEntry

def getDelegationId (C : Crypto κ π σ) (entry : DelegationEntry κ) : Nat :=
  C.delegationId entry.delegatorId entry.validatorId entry.delegationHeight

/-- The loop body of `DelegationDB::ProcessBlock` for one delegation at `height`. -/
def processBlock (height : Int) (entry : DelegationEntry κ) : DelegationEntry κ :=
  let entry :=
    if entry.status = .PENDING ∧ wrap 32 (height - entry.delegationHeight) ≥ DELEGATION_MATURITY then
      { entry with status := .ACTIVE }
    else entry
  if entry.status = .UNBONDING ∧ wrap 32 (height - entry.unbondingStartHeight) ≥ DELEGATION_UNBONDING_PERIOD then
    { entry with status := .WITHDRAWN }
  else entry

@[simp] theorem processBlock_validatorId (height : Int) (entry : DelegationEntry κ) :
    (entry.processBlock height).validatorId = entry.validatorId := by
  dsimp only [processBlock]
  split_ifs <;> rfl

@[simp] theorem processBlock_amount (height : Int) (entry : DelegationEntry κ) :
    (entry.processBlock height).amount = entry.amount := by
  dsimp only [processBlock]
  split_ifs <;> rfl

/-- A block moves a delegation from pending to active, or from unbonding to withdrawn, or not at all. -/
theorem processBlock_status (height : Int) (entry : DelegationEntry κ) :
    (entry.processBlock height).status = entry.status ∨
      entry.status = .PENDING ∧ (entry.processBlock height).status = .ACTIVE ∨
      entry.status = .UNBONDING ∧ (entry.processBlock height).status = .WITHDRAWN := by
  dsimp only [processBlock]
  split_ifs with hmature hdone hdone'
  · -- a matured delegation is active, so the unbonding test fails
    simp at hdone
  · exact .inr (.inl ⟨hmature.1, rfl⟩)
  · exact .inr (.inr ⟨hdone'.1, rfl⟩)
  · exact .inl rfl

end DelegationEntry

structure DelegationRequest (κ π σ : Type) where
  delegatorId : κ
  delegatorPubKey : π
  validatorId : κ
  amount : Int
  height : Int
  signature : σ

namespace DelegationRequest

def getHash (C : Crypto κ π σ) (request : DelegationRequest κ π σ) : Nat :=
  C.delegationRequestHash request.delegatorId request.delegatorPubKey request.validatorId request.amount request.height

/-- `DelegationRequest::Verify`: the signature under the key the request carries. -/
def verify (C : Crypto κ π σ) (request : DelegationRequest κ π σ) : Bool :=
  C.verify request.delegatorPubKey (request.getHash C) request.signature

/-- The entry `ProcessDelegation` creates for `request` on `outpoint`. -/
def entry (request : DelegationRequest κ π σ) (outpoint : COutPoint) : DelegationEntry κ :=
  { delegatorId := request.delegatorId
    validatorId := request.validatorId
    amount := request.amount
    delegationHeight := request.height
    lastRewardHeight := request.height
    status := .PENDING
    delegationOutpoint := outpoint
    unbondingStartHeight := 0
    pendingRewards := 0 }

end DelegationRequest

structure UndelegationRequest (κ σ : Type) where
  delegatorId : κ
  validatorId : κ
  /-- `0` asks for everything. -/
  amount : Int
  height : Int
  signature : σ

def UndelegationRequest.getHash (C : Crypto κ π σ) (request : UndelegationRequest κ σ) : Nat :=
  C.undelegationRequestHash request.delegatorId request.validatorId request.amount request.height

def UndelegationRequest.verify (C : Crypto κ π σ) (request : UndelegationRequest κ σ) (pubkey : π) : Bool :=
  C.verify pubkey (request.getHash C) request.signature

structure RewardClaimRequest (κ σ : Type) where
  delegatorId : κ
  /-- `none` is the null id, which asks for the rewards from every validator. -/
  validatorId : Option κ
  height : Int
  signature : σ

def RewardClaimRequest.getHash (C : Crypto κ π σ) (request : RewardClaimRequest κ σ) : Nat :=
  C.rewardClaimHash request.delegatorId request.validatorId request.height

def RewardClaimRequest.verify (C : Crypto κ π σ) (request : RewardClaimRequest κ σ) (pubkey : π) : Bool :=
  C.verify pubkey (request.getHash C) request.signature

structure DelegationDB (κ : Type) where
  delegations : Nat → Option (DelegationEntry κ)
  delegatorIndex : κ → List Nat
  validatorIndex : κ → List Nat
  outpointIndex : COutPoint → Option Nat
  currentHeight : Int

namespace DelegationDB

/-- The constructor: no delegations, at height zero. -/
def empty : DelegationDB κ := ⟨fun _ => none, fun _ => [], fun _ => [], fun _ => none, 0⟩

def getDelegation (db : DelegationDB κ) (delegationId : Nat) : Option (DelegationEntry κ) := db.delegations delegationId

def getDelegationByOutpoint (db : DelegationDB κ) (outpoint : COutPoint) : Option (DelegationEntry κ) :=
  (db.outpointIndex outpoint).bind db.delegations

def isDelegation (db : DelegationDB κ) (outpoint : COutPoint) : Bool := (db.outpointIndex outpoint).isSome

def setHeight (db : DelegationDB κ) (height : Int) : DelegationDB κ := { db with currentHeight := height }

/-- Store `entry` under `delegationId`: the writes through an iterator into `delegations`. -/
def setDelegation (db : DelegationDB κ) (delegationId : Nat) (entry : DelegationEntry κ) : DelegationDB κ :=
  { db with delegations := Function.update db.delegations delegationId (some entry) }

def processBlock (db : DelegationDB κ) (height : Int) : DelegationDB κ :=
  { db with
    currentHeight := height
    delegations := fun delegationId => (db.delegations delegationId).map (·.processBlock height) }

def setDelegationStatus (db : DelegationDB κ) (delegationId : Nat) (status : DelegationStatus) :
    Option (DelegationDB κ) :=
  match db.delegations delegationId with
  | none => none
  | some entry => some (db.setDelegation delegationId { entry with status })

def addRewards (db : DelegationDB κ) (delegationId : Nat) (rewards : Int) : Option (DelegationDB κ) :=
  match db.delegations delegationId with
  | none => none
  | some entry =>
    some (db.setDelegation delegationId { entry with pendingRewards := wrap 64 (entry.pendingRewards + rewards) })

def updateDelegationOutpoint (db : DelegationDB κ) (delegationId : Nat) (newOutpoint : COutPoint) :
    Option (DelegationDB κ) :=
  match db.delegations delegationId with
  | none => none
  | some entry =>
    let outpointIndex :=
      if entry.delegationOutpoint.isNull then db.outpointIndex
      else Function.update db.outpointIndex entry.delegationOutpoint none
    let outpointIndex :=
      if newOutpoint.isNull then outpointIndex else Function.update outpointIndex newOutpoint (some delegationId)
    some { db.setDelegation delegationId { entry with delegationOutpoint := newOutpoint } with outpointIndex }

/-- `GetTotalDelegationForValidator`, called by a thread that holds `cs_delegations` when `held`. -/
def getTotalDelegationForValidator (held : Bool) (db : DelegationDB κ) (validatorId : κ) : Except Fault Int := do
  lock held
  pure <| (db.validatorIndex validatorId).foldl
    (fun total delegationId =>
      match db.delegations delegationId with
      | some entry => if entry.status = .ACTIVE then wrap 64 (total + entry.amount) else total
      | none => total) 0

/-- The loop of `DistributeBlockReward` over the validator's delegations. -/
def creditShares (delegatorsShare totalDelegation : Int) (db : DelegationDB κ) : List Nat → DelegationDB κ
  | [] => db
  | delegationId :: ids =>
    match db.delegations delegationId with
    | none => creditShares delegatorsShare totalDelegation db ids
    | some entry =>
      if entry.status ≠ .ACTIVE then creditShares delegatorsShare totalDelegation db ids
      else
        let share := (wrap 64 (delegatorsShare * entry.amount)).tdiv totalDelegation
        let db :=
          if share > 0 then
            db.setDelegation delegationId { entry with pendingRewards := wrap 64 (entry.pendingRewards + share) }
          else db
        creditShares delegatorsShare totalDelegation db ids

def distributeBlockReward (db : DelegationDB κ) (validatorId : κ) (delegatorsShare : Int) :
    Except Fault (DelegationDB κ) := do
  if delegatorsShare = 0 then return db
  -- `cs_delegations` is held from here on
  let totalDelegation ← db.getTotalDelegationForValidator true validatorId
  if totalDelegation = 0 then return db
  return creditShares delegatorsShare totalDelegation db (db.validatorIndex validatorId)

variable [DecidableEq κ]

/-- The loop of `ProcessRewardClaim` over the delegator's delegations, carrying the total claimed. -/
def claimRewards (request : RewardClaimRequest κ σ) : List Nat → Int → DelegationDB κ → Int × DelegationDB κ
  | [], totalClaimed, db => (totalClaimed, db)
  | delegationId :: ids, totalClaimed, db =>
    match db.delegations delegationId with
    | none => claimRewards request ids totalClaimed db
    | some entry =>
      if request.validatorId.any (fun validatorId => decide (validatorId ≠ entry.validatorId)) then
        claimRewards request ids totalClaimed db
      else if entry.pendingRewards > 0 then
        claimRewards request ids (wrap 64 (totalClaimed + entry.pendingRewards))
          (db.setDelegation delegationId { entry with pendingRewards := 0, lastRewardHeight := db.currentHeight })
      else claimRewards request ids totalClaimed db

def processRewardClaim (db : DelegationDB κ) (request : RewardClaimRequest κ σ) : Int × DelegationDB κ :=
  claimRewards request (db.delegatorIndex request.delegatorId) 0 db

def processDelegation (C : Crypto κ π σ) (db : DelegationDB κ) (validatorDB : ValidatorDB κ π)
    (request : DelegationRequest κ π σ) (outpoint : COutPoint) : Option (DelegationDB κ × ValidatorDB κ π) :=
  if !request.verify C then none
  else if request.amount < MIN_DELEGATION_AMOUNT then none
  else
    match validatorDB.getValidator request.validatorId with
    | none => none
    | some validator =>
      if validator.status ≠ .ACTIVE then none
      else
        let entry := request.entry outpoint
        let delegationId := entry.getDelegationId C
        if (db.delegations delegationId).isSome then none
        else
          let db :=
            { db.setDelegation delegationId entry with
              delegatorIndex :=
                Function.update db.delegatorIndex entry.delegatorId (db.delegatorIndex entry.delegatorId ++ [delegationId])
              validatorIndex :=
                Function.update db.validatorIndex entry.validatorId (db.validatorIndex entry.validatorId ++ [delegationId]) }
          let db :=
            if outpoint.isNull then db
            else { db with outpointIndex := Function.update db.outpointIndex outpoint (some delegationId) }
          some (db, (validatorDB.addDelegation request.validatorId request.amount).getD validatorDB)

/-- What `ProcessUndelegation` takes from an entry of `amount` when `requested` was asked for and `remaining` is still
to undelegate, and what is left to undelegate after it. -/
def takeFrom (requested remaining amount : Int) : Int × Int :=
  if requested = 0 then (amount, remaining)
  else if remaining ≥ amount then (amount, wrap 64 (remaining - amount))
  else (remaining, 0)

/-- The loop of `ProcessUndelegation` over the delegator's delegations, carrying the amount left to undelegate and
whether any delegation has been undelegated. -/
def undelegate (request : UndelegationRequest κ σ) :
    List Nat → Int → Bool → DelegationDB κ → ValidatorDB κ π → Bool × DelegationDB κ × ValidatorDB κ π
  | [], _, anyUndelegated, db, validatorDB => (anyUndelegated, db, validatorDB)
  | delegationId :: ids, remainingToUndelegate, anyUndelegated, db, validatorDB =>
    match db.delegations delegationId with
    | none => undelegate request ids remainingToUndelegate anyUndelegated db validatorDB
    | some entry =>
      if entry.validatorId ≠ request.validatorId then
        undelegate request ids remainingToUndelegate anyUndelegated db validatorDB
      else if entry.status ≠ .ACTIVE then undelegate request ids remainingToUndelegate anyUndelegated db validatorDB
      else
        let taken := takeFrom request.amount remainingToUndelegate entry.amount
        -- the whole entry starts unbonding, whatever part of it was asked for
        let db := db.setDelegation delegationId { entry with status := .UNBONDING, unbondingStartHeight := db.currentHeight }
        let validatorDB := (validatorDB.removeDelegation request.validatorId taken.1).getD validatorDB
        if taken.2 = 0 then (true, db, validatorDB)
        else undelegate request ids taken.2 true db validatorDB

def processUndelegation (db : DelegationDB κ) (validatorDB : ValidatorDB κ π) (request : UndelegationRequest κ σ) :
    Option (DelegationDB κ × ValidatorDB κ π) :=
  match undelegate request (db.delegatorIndex request.delegatorId) request.amount false db validatorDB with
  | (true, db, validatorDB) => some (db, validatorDB)
  | (false, _, _) => none

/-! ### What each call writes -/

omit [DecidableEq κ] in
@[simp] theorem setDelegation_delegations (db : DelegationDB κ) (delegationId : Nat) (entry : DelegationEntry κ) :
    (db.setDelegation delegationId entry).delegations = Function.update db.delegations delegationId (some entry) :=
  rfl

variable {db db' : DelegationDB κ} {validatorDB validatorDB' : ValidatorDB κ π}

/-- **An accepted delegation** was signed, met the minimum, and went to a known active validator under a new id.  It
stores the pending entry under that id, and adds its amount and one delegator to the validator. -/
theorem processDelegation_some {C : Crypto κ π σ} {request : DelegationRequest κ π σ} {outpoint : COutPoint}
    (h : db.processDelegation C validatorDB request outpoint = some (db', validatorDB')) :
    request.verify C = true ∧ MIN_DELEGATION_AMOUNT ≤ request.amount ∧
      db.delegations ((request.entry outpoint).getDelegationId C) = none ∧
      db'.delegations =
        Function.update db.delegations ((request.entry outpoint).getDelegationId C) (some (request.entry outpoint)) ∧
      ∃ validator, validatorDB.validators request.validatorId = some validator ∧ validator.status = .ACTIVE ∧
        validatorDB' = validatorDB.setEntry request.validatorId
          { validator with
            totalDelegated := wrap 64 (validator.totalDelegated + request.amount)
            delegatorCount := wrap 32 (validator.delegatorCount + 1) } := by
  unfold processDelegation at h
  dsimp only at h
  obtain ⟨hverify, h⟩ := Option.ite_none_left_eq_some.mp h
  obtain ⟨hmin, h⟩ := Option.ite_none_left_eq_some.mp h
  cases hvalidator : validatorDB.getValidator request.validatorId with
  | none =>
    rw [hvalidator] at h
    cases h
  | some validator =>
    rw [hvalidator] at h
    dsimp only at h
    obtain ⟨hstatus, h⟩ := Option.ite_none_left_eq_some.mp h
    obtain ⟨hknown, h⟩ := Option.ite_none_left_eq_some.mp h
    obtain ⟨rfl, rfl⟩ := Prod.mk.inj (Option.some.inj h)
    refine ⟨by simpa using hverify, not_lt.1 hmin, Option.not_isSome_iff_eq_none.1 hknown, ?_, validator, hvalidator,
      not_not.1 hstatus, ?_⟩
    · -- the outpoint index is written or not; the entries are the same
      split_ifs <;> rfl
    · rw [ValidatorDB.addDelegation_eq hvalidator request.amount, Option.getD_some]

/-- What is taken is between nothing and the entry, and what is left to undelegate stays a non-negative word. -/
theorem takeFrom_bounds (requested : Int) {remaining amount : Int} (hremaining : 0 ≤ remaining)
    (hword : remaining < 2 ^ 63) (hamount : 0 ≤ amount) :
    0 ≤ (takeFrom requested remaining amount).1 ∧ (takeFrom requested remaining amount).1 ≤ amount ∧
      0 ≤ (takeFrom requested remaining amount).2 ∧ (takeFrom requested remaining amount).2 < 2 ^ 63 := by
  unfold takeFrom
  split_ifs with hall hcover
  · exact ⟨hamount, le_rfl, hremaining, hword⟩
  · -- a whole entry comes off what is left, which stays in its word
    have hrest : wrap 64 (remaining - amount) = remaining - amount :=
      SignedWord.wrap_of_inRange (by decide) ⟨by omega, by omega⟩
    simp only [hrest]
    omega
  · simp only
    omega

theorem undelegate_fst (request : UndelegationRequest κ σ) :
    ∀ (ids : List Nat) (remaining : Int) (db : DelegationDB κ) (validatorDB : ValidatorDB κ π),
      (undelegate request ids remaining true db validatorDB).1 = true
  | [], _, _, _ => rfl
  | delegationId :: ids, remaining, db, validatorDB => by
    unfold undelegate
    dsimp only
    split
    · exact undelegate_fst request ids remaining db validatorDB
    · split_ifs
      · exact undelegate_fst request ids remaining db validatorDB
      · exact undelegate_fst request ids remaining db validatorDB
      · rfl
      · exact undelegate_fst request ids _ _ _

/-- The loop reports no undelegation only when it changed nothing. -/
theorem undelegate_false (request : UndelegationRequest κ σ) :
    ∀ (ids : List Nat) (remaining : Int) (db : DelegationDB κ) (validatorDB : ValidatorDB κ π),
      (undelegate request ids remaining false db validatorDB).1 = false →
        undelegate request ids remaining false db validatorDB = (false, db, validatorDB)
  | [], _, _, _, _ => rfl
  | delegationId :: ids, remaining, db, validatorDB, h => by
    cases hd : db.delegations delegationId with
    | none =>
      simp only [undelegate, hd] at h ⊢
      exact undelegate_false request ids remaining db validatorDB h
    | some entry =>
      simp only [undelegate, hd] at h ⊢
      by_cases hv : entry.validatorId ≠ request.validatorId
      · rw [if_pos hv] at h ⊢
        exact undelegate_false request ids remaining db validatorDB h
      rw [if_neg hv] at h ⊢
      by_cases hs : entry.status ≠ .ACTIVE
      · rw [if_pos hs] at h ⊢
        exact undelegate_false request ids remaining db validatorDB h
      -- an active entry of the validator is undelegated, and the loop reports it
      rw [if_neg hs] at h
      by_cases hdone : (takeFrom request.amount remaining entry.amount).2 = 0
      · rw [if_pos hdone] at h
        cases h
      · rw [if_neg hdone, undelegate_fst] at h
        cases h

theorem processUndelegation_some {request : UndelegationRequest κ σ}
    (h : db.processUndelegation validatorDB request = some (db', validatorDB')) :
    undelegate request (db.delegatorIndex request.delegatorId) request.amount false db validatorDB =
      (true, db', validatorDB') := by
  unfold processUndelegation at h
  split at h
  · rename_i hloop
    cases h
    exact hloop
  · cases h

/-- **A refused undelegation changes nothing.** -/
theorem processUndelegation_none {request : UndelegationRequest κ σ}
    (h : db.processUndelegation validatorDB request = none) :
    undelegate request (db.delegatorIndex request.delegatorId) request.amount false db validatorDB =
      (false, db, validatorDB) := by
  unfold processUndelegation at h
  split at h
  · cases h
  · rename_i hloop
    exact undelegate_false request _ _ _ _ (by rw [hloop])

omit [DecidableEq κ] in
/-- **`DistributeBlockReward` never returns with a share to distribute**: it locks `cs_delegations` again. -/
theorem distributeBlockReward_error {validatorId : κ} {delegatorsShare : Int} (h : delegatorsShare ≠ 0) :
    db.distributeBlockReward validatorId delegatorsShare = .error .doubleLock := by
  rw [distributeBlockReward, if_neg h]
  rfl

omit [DecidableEq κ] in
theorem distributeBlockReward_ok {validatorId : κ} {delegatorsShare : Int}
    (h : db.distributeBlockReward validatorId delegatorsShare = .ok db') : db' = db := by
  by_cases hshare : delegatorsShare = 0
  · simp only [distributeBlockReward, hshare, if_true] at h
    cases h
    rfl
  · rw [distributeBlockReward_error hshare] at h
    cases h

end DelegationDB

/-- Delegator `2`'s delegation of the minimum amount to validator `1`, active. -/
def minimumDelegation : DelegationEntry Nat :=
  { delegatorId := 2, validatorId := 1, amount := MIN_DELEGATION_AMOUNT, status := .ACTIVE }

/-- A database that holds `minimumDelegation` under id `0`, indexed under its delegator and its validator. -/
def minimumDelegationDB : DelegationDB Nat :=
  { delegations := fun delegationId => if delegationId = 0 then some minimumDelegation else none
    delegatorIndex := fun delegatorId => if delegatorId = 2 then [0] else []
    validatorIndex := fun validatorId => if validatorId = 1 then [0] else []
    outpointIndex := fun _ => none
    currentHeight := 0 }

/-- **Distributing one coin to the delegators of validator `1` never returns, and its share overflows**: the call
locks `cs_delegations` twice, and the loop it would run multiplies the coin by the delegation's amount, the
validator's whole active total, to `10 ^ 19 ≥ 2 ^ 63`. -/
theorem block_reward_distribution_faults :
    minimumDelegationDB.distributeBlockReward 1 COIN = .error .doubleLock ∧
      minimumDelegationDB.getTotalDelegationForValidator false 1 = .ok minimumDelegation.amount ∧
      0 < COIN ∧ COIN ≤ MAX_MONEY ∧ minimumDelegation.amount ≤ MAX_MONEY ∧
      2 ^ 63 ≤ COIN * minimumDelegation.amount :=
  ⟨DelegationDB.distributeBlockReward_error (by decide), rfl, by decide, by decide, by decide, by decide⟩

/-- The calls that change a `DelegationDB`. -/
inductive DelegationCall (κ π σ : Type) where
  | processDelegation (request : DelegationRequest κ π σ) (outpoint : COutPoint)
  | processUndelegation (request : UndelegationRequest κ σ)
  | processRewardClaim (request : RewardClaimRequest κ σ)
  | addRewards (delegationId : Nat) (rewards : Int)
  | distributeBlockReward (validatorId : κ) (delegatorsShare : Int)
  | setDelegationStatus (delegationId : Nat) (status : DelegationStatus)
  | updateDelegationOutpoint (delegationId : Nat) (newOutpoint : COutPoint)
  | setHeight (height : Int)
  | processBlock (height : Int)

/-- The node's two databases. -/
structure Stores (κ π : Type) where
  validatorDB : ValidatorDB κ π
  delegationDB : DelegationDB κ

/-- A call on either database. -/
inductive Call (κ π σ : Type) where
  | validator (call : ValidatorCall κ π σ)
  | delegation (call : DelegationCall κ π σ)

namespace Stores

def empty : Stores κ π := ⟨.empty, .empty⟩

/-- The stores after a call that writes both databases; a refused call leaves them as they were. -/
def withBoth (stores : Stores κ π) : Option (DelegationDB κ × ValidatorDB κ π) → Stores κ π
  | some (delegationDB, validatorDB) => ⟨validatorDB, delegationDB⟩
  | none => stores

/-- The stores after a call that writes the delegation database. -/
def withDelegations (stores : Stores κ π) (delegationDB : Option (DelegationDB κ)) : Stores κ π :=
  { stores with delegationDB := delegationDB.getD stores.delegationDB }

end Stores

variable [DecidableEq κ]

def DelegationCall.apply (C : Crypto κ π σ) (stores : Stores κ π) : DelegationCall κ π σ → Except Fault (Stores κ π)
  | .processDelegation request outpoint =>
    pure (stores.withBoth (stores.delegationDB.processDelegation C stores.validatorDB request outpoint))
  | .processUndelegation request =>
    pure (stores.withBoth (stores.delegationDB.processUndelegation stores.validatorDB request))
  | .processRewardClaim request =>
    pure { stores with delegationDB := (stores.delegationDB.processRewardClaim request).2 }
  | .addRewards delegationId rewards =>
    pure (stores.withDelegations (stores.delegationDB.addRewards delegationId rewards))
  | .distributeBlockReward validatorId delegatorsShare => do
    let delegationDB ← stores.delegationDB.distributeBlockReward validatorId delegatorsShare
    pure { stores with delegationDB }
  | .setDelegationStatus delegationId status =>
    pure (stores.withDelegations (stores.delegationDB.setDelegationStatus delegationId status))
  | .updateDelegationOutpoint delegationId newOutpoint =>
    pure (stores.withDelegations (stores.delegationDB.updateDelegationOutpoint delegationId newOutpoint))
  | .setHeight height => pure { stores with delegationDB := stores.delegationDB.setHeight height }
  | .processBlock height => pure { stores with delegationDB := stores.delegationDB.processBlock height }

def Call.apply (C : Crypto κ π σ) (params : Params) (stores : Stores κ π) : Call κ π σ → Except Fault (Stores κ π)
  | .validator call => pure { stores with validatorDB := call.apply C params stores.validatorDB }
  | .delegation call => call.apply C stores

/-- The stores after `calls`, one after the other; a call that never returns ends the run. -/
def Stores.run (C : Crypto κ π σ) (params : Params) (stores : Stores κ π) (calls : List (Call κ π σ)) :
    Except Fault (Stores κ π) :=
  calls.foldlM (fun stores call => call.apply C params stores) stores

theorem Stores.run_cons (C : Crypto κ π σ) (params : Params) (stores : Stores κ π) (call : Call κ π σ)
    (calls : List (Call κ π σ)) :
    stores.run C params (call :: calls) = (call.apply C params stores >>= fun stores => stores.run C params calls) :=
  rfl

end Validators
end Wattx
