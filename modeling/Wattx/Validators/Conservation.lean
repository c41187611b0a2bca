import Mathlib.Data.Nat.Pairing
import Wattx.Tally
import Wattx.Validators.Delegation
/-!
# Conservation — the validators' delegated totals against the delegations

`ValidatorDB` keeps a running `totalDelegated` and `delegatorCount` per validator, and the delegation database the
delegations themselves.  `AddDelegation` counts a delegation in when it is made; `RemoveDelegation` subtracts the
amount undelegated when it starts unbonding.  `tally weight v` reads each delegation of `v` through `weight`: its
amount while it is counted (pending or active), one while it is counted, or its amount.

Undelegating part of an entry moves the whole entry to `UNBONDING` but subtracts only that part, so the rest stays
in `totalDelegated` with no counted delegation behind it; a negative amount adds to the total instead.  What every
run keeps, when it makes no raw status writes, undelegates non-negative amounts and registers validators with zero
counters: the count is the number of counted delegations, and the total lies between what the counted delegations
hold and what all of the validator's delegations hold.  The counters are an `int64_t` and an `int`, so this needs
them not to wrap: no counter exceeds what the run has asked to delegate and the calls it has made
(`ValidatorDB.Within`), and a run that asks for less than `2 ^ 63` in fewer than `2 ^ 31` calls keeps both in their
words.  Each call within that budget keeps `Conserved`, and so does every run.

The outpoint indexes of the two databases are written without looking at what they held: a delegation or a
registration on an outpoint that another delegation or validator already holds takes the index over, and the first
record keeps its outpoint with no index entry pointing at it (`outpoint_index_overwritten`).
-/
namespace Wattx
namespace Validators

open Trust (Fault)
open SignedWord (wrap)

/-- The statuses that `totalDelegated` counts: `AddDelegation` has counted the delegation and `RemoveDelegation`
has not been called for it. -/
def DelegationStatus.counted : DelegationStatus → Bool
  | .PENDING => true
  | .ACTIVE => true
  | .UNBONDING => false
  | .WITHDRAWN => false

namespace DelegationEntry

variable {κ : Type}

/-- A delegation's amount while it is counted. -/
def countedAmount (entry : DelegationEntry κ) : Int := if entry.status.counted then entry.amount else 0

/-- One while a delegation is counted. -/
def countedOne (entry : DelegationEntry κ) : Int := if entry.status.counted then 1 else 0

/-- What the counters depend on: a delegation's validator, amount, and whether it is counted. -/
def bond (entry : DelegationEntry κ) : κ × Int × Bool := (entry.validatorId, entry.amount, entry.status.counted)

theorem countedAmount_congr {entry entry' : DelegationEntry κ} (h : entry'.bond = entry.bond) :
    entry'.countedAmount = entry.countedAmount := by
  simp only [bond, Prod.mk.injEq] at h
  simp only [countedAmount, h]

theorem countedOne_congr {entry entry' : DelegationEntry κ} (h : entry'.bond = entry.bond) :
    entry'.countedOne = entry.countedOne := by
  simp only [bond, Prod.mk.injEq] at h
  simp only [countedOne, h]

theorem amount_congr {entry entry' : DelegationEntry κ} (h : entry'.bond = entry.bond) : entry'.amount = entry.amount := by
  simp only [bond, Prod.mk.injEq] at h
  exact h.2.1

theorem countedOne_nonneg (entry : DelegationEntry κ) : 0 ≤ entry.countedOne := by
  unfold countedOne
  split_ifs <;> decide

theorem countedAmount_nonneg {entry : DelegationEntry κ} (h : 0 ≤ entry.amount) : 0 ≤ entry.countedAmount := by
  unfold countedAmount
  split_ifs
  · exact h
  · exact le_rfl

/-- A block keeps a delegation counted or not: it only moves pending to active and unbonding to withdrawn. -/
theorem bond_processBlock (height : Int) (entry : DelegationEntry κ) : (entry.processBlock height).bond = entry.bond := by
  simp only [bond, processBlock_validatorId, processBlock_amount, Prod.mk.injEq, true_and]
  rcases processBlock_status height entry with h | ⟨hold, hnew⟩ | ⟨hold, hnew⟩
  · rw [h]
  · rw [hold, hnew]
    rfl
  · rw [hold, hnew]
    rfl

end DelegationEntry

namespace DelegationDB

variable {κ : Type}

/-- `db'` has the delegations of `db` under the same ids, with the same validators, amounts and counted statuses. -/
def SameBonds (db db' : DelegationDB κ) : Prop :=
  ∀ delegationId, (db'.delegations delegationId).map DelegationEntry.bond = (db.delegations delegationId).map DelegationEntry.bond

variable {db db' db'' : DelegationDB κ} {delegationId : Nat} {entry : DelegationEntry κ}

theorem SameBonds.refl (db : DelegationDB κ) : SameBonds db db := fun _ => rfl

theorem SameBonds.trans (h : SameBonds db db') (h' : SameBonds db' db'') : SameBonds db db'' :=
  fun id => (h' id).trans (h id)

theorem SameBonds.exists_of_some (h : SameBonds db db') (he : db'.delegations delegationId = some entry) :
    ∃ entry₀, db.delegations delegationId = some entry₀ ∧ entry.bond = entry₀.bond := by
  obtain ⟨entry₀, hentry₀, hbond⟩ := Option.map_eq_some_iff.1 ((h delegationId).symm.trans (by rw [he, Option.map_some]))
  exact ⟨entry₀, hentry₀, hbond.symm⟩

theorem sameBonds_setDelegation {entry' : DelegationEntry κ} (h : db.delegations delegationId = some entry)
    (hbond : entry'.bond = entry.bond) : SameBonds db (db.setDelegation delegationId entry') := by
  intro id
  by_cases hid : id = delegationId
  · subst hid
    simp [h, hbond]
  · simp [Function.update_of_ne hid]

theorem sameBonds_processBlock (height : Int) : SameBonds db (db.processBlock height) := by
  intro id
  simp only [processBlock, Option.map_map]
  congr 1
  funext entry
  exact DelegationEntry.bond_processBlock height entry

theorem sameBonds_addRewards {rewards : Int} (h : db.addRewards delegationId rewards = some db') : SameBonds db db' := by
  unfold addRewards at h
  split at h
  · cases h
  · rename_i entry hentry
    cases h
    exact sameBonds_setDelegation hentry rfl

theorem sameBonds_updateDelegationOutpoint {newOutpoint : COutPoint}
    (h : db.updateDelegationOutpoint delegationId newOutpoint = some db') : SameBonds db db' := by
  unfold updateDelegationOutpoint at h
  split at h
  · cases h
  · rename_i entry hentry
    cases h
    exact sameBonds_setDelegation hentry rfl

variable [DecidableEq κ]

theorem sameBonds_claimRewards {σ : Type} (request : RewardClaimRequest κ σ) :
    ∀ (ids : List Nat) (totalClaimed : Int) (db : DelegationDB κ),
      SameBonds db (claimRewards request ids totalClaimed db).2
  | [], _, db => SameBonds.refl db
  | id :: ids, totalClaimed, db => by
    unfold claimRewards
    split
    · exact sameBonds_claimRewards request ids totalClaimed db
    · rename_i entry hentry
      split_ifs
      · exact sameBonds_claimRewards request ids totalClaimed db
      · -- claiming zeroes the pending rewards, and keeps the bond
        have hclaim : SameBonds db
            (db.setDelegation id { entry with pendingRewards := 0, lastRewardHeight := db.currentHeight }) :=
          sameBonds_setDelegation hentry rfl
        exact hclaim.trans (sameBonds_claimRewards request ids _ _)
      · exact sameBonds_claimRewards request ids totalClaimed db

/-- Each delegation of `validatorId` read through `weight`, and nothing for another validator's. -/
def tally (db : DelegationDB κ) (weight : DelegationEntry κ → Int) (validatorId : κ) (delegationId : Nat) : Int :=
  match db.delegations delegationId with
  | some entry => if entry.validatorId = validatorId then weight entry else 0
  | none => 0

variable {weight : DelegationEntry κ → Int} {validatorId : κ}

theorem tally_some (h : db.delegations delegationId = some entry) (hv : entry.validatorId = validatorId) :
    db.tally weight validatorId delegationId = weight entry := by
  simp [tally, h, hv]

theorem tally_eq_zero (h : ∀ entry, db.delegations delegationId = some entry → entry.validatorId ≠ validatorId) :
    db.tally weight validatorId delegationId = 0 := by
  unfold tally
  split
  · rename_i entry hentry
    rw [if_neg (h entry hentry)]
  · rfl

theorem tally_nonneg (hweight : ∀ delegationId entry, db.delegations delegationId = some entry → 0 ≤ weight entry)
    (delegationId : Nat) : 0 ≤ db.tally weight validatorId delegationId := by
  unfold tally
  split
  · rename_i entry hentry
    split_ifs
    · exact hweight delegationId entry hentry
    · exact le_rfl
  · exact le_rfl

theorem tally_of_delegations (h : db'.delegations = Function.update db.delegations delegationId (some entry)) :
    db'.tally weight validatorId =
      Function.update (db.tally weight validatorId) delegationId
        (if entry.validatorId = validatorId then weight entry else 0) := by
  funext id
  by_cases hid : id = delegationId
  · subst hid
    simp [tally, h]
  · simp [tally, h, Function.update_of_ne hid]

theorem tally_write_self (hd : db'.delegations = Function.update db.delegations delegationId (some entry))
    (hkey : entry.validatorId = validatorId) (weight : DelegationEntry κ → Int) :
    db'.tally weight validatorId = Function.update (db.tally weight validatorId) delegationId (weight entry) := by
  rw [tally_of_delegations hd, if_pos hkey]

/-- A write over an entry of the same validator, or over nothing, leaves every other validator's tallies. -/
theorem tally_write_other (hd : db'.delegations = Function.update db.delegations delegationId (some entry))
    (hold : ∀ e, db.delegations delegationId = some e → e.validatorId = entry.validatorId) (hv : validatorId ≠ entry.validatorId)
    (weight : DelegationEntry κ → Int) : db'.tally weight validatorId = db.tally weight validatorId := by
  rw [tally_of_delegations hd, if_neg (Ne.symm hv)]
  refine Function.update_eq_self_iff.2 (tally_eq_zero fun e he => ?_).symm
  rw [hold e he]
  exact Ne.symm hv

theorem tally_of_sameBonds (h : SameBonds db db')
    (hweight : ∀ entry entry' : DelegationEntry κ, entry'.bond = entry.bond → weight entry' = weight entry) :
    db'.tally weight validatorId = db.tally weight validatorId := by
  funext id
  have hid := h id
  cases hd : db.delegations id with
  | none =>
    rw [hd, Option.map_none, Option.map_eq_none_iff] at hid
    simp only [tally, hd, hid]
  | some entry =>
    rw [hd, Option.map_some, Option.map_eq_some_iff] at hid
    obtain ⟨entry', hd', hbond⟩ := hid
    have hv : entry'.validatorId = entry.validatorId := congrArg Prod.fst hbond
    simp only [tally, hd, hd', hv, hweight entry entry' hbond]

end DelegationDB

open DelegationDB

variable {κ π σ : Type} [DecidableEq κ]

/-- One validator's counters agree with its delegations: the count is the number of its counted delegations, and
the total lies between what its counted delegations hold and what all of its delegations hold. -/
structure Accounted (db : DelegationDB κ) (validatorId : κ) (entry : ValidatorEntry κ π) : Prop where
  count : Tally.SumsTo (db.tally DelegationEntry.countedOne validatorId) entry.delegatorCount
  counted : ∃ total, Tally.SumsTo (db.tally DelegationEntry.countedAmount validatorId) total ∧
    total ≤ entry.totalDelegated
  held : ∃ total, Tally.SumsTo (db.tally DelegationEntry.amount validatorId) total ∧ entry.totalDelegated ≤ total

/-- The stores' counters agree with the delegations: every delegation holds at least the minimum, belongs to a
known validator, and every validator is accounted for. -/
structure Conserved (stores : Stores κ π) : Prop where
  minimum : ∀ delegationId entry, stores.delegationDB.delegations delegationId = some entry →
    MIN_DELEGATION_AMOUNT ≤ entry.amount
  known : ∀ delegationId entry, stores.delegationDB.delegations delegationId = some entry →
    (stores.validatorDB.validators entry.validatorId).isSome
  accounted : ∀ validatorId entry, stores.validatorDB.validators validatorId = some entry →
    Accounted stores.delegationDB validatorId entry

/-- The calls under which the counters stay accounted for: registrations with zero counters, undelegations of a
non-negative amount, and no raw status writes. -/
def Call.Conserving : Call κ π σ → Prop
  | .validator (.registerValidator entry) => entry.totalDelegated = 0 ∧ entry.delegatorCount = 0
  | .delegation (.processUndelegation request) => 0 ≤ request.amount ∧ request.amount < 2 ^ 63
  | .delegation (.setDelegationStatus _ _) => False
  | _ => True

/-- What a call asks to delegate: a delegation request's amount, and nothing for any other call. -/
def Call.delegationAmount : Call κ π σ → Nat
  | .delegation (.processDelegation request _) => request.amount.toNat
  | _ => 0

/-- Every validator's delegated total is at most `spent`, and its count at most `made`: what a run that has asked
to delegate `spent` in `made` calls can have counted. -/
def ValidatorDB.Within (spent made : Nat) (validatorDB : ValidatorDB κ π) : Prop :=
  validatorDB.Every fun entry => entry.totalDelegated ≤ spent ∧ entry.delegatorCount ≤ made

section Within

variable {validatorDB validatorDB' : ValidatorDB κ π} {spent made : Nat}

omit [DecidableEq κ] in
theorem ValidatorDB.Within.mono (h : validatorDB.Within spent made) {spent' made' : Nat} (hspent : spent ≤ spent')
    (hmade : made ≤ made') : validatorDB.Within spent' made' :=
  ValidatorDB.Every.mono h fun _ he => ⟨by omega, by omega⟩

omit [DecidableEq κ] in
theorem ValidatorDB.Within.of_delegated (h : validatorDB.Within spent made)
    (hd : validatorDB'.delegated = validatorDB.delegated) : validatorDB'.Within spent made := by
  intro v entry' hentry'
  have hv := congrFun hd v
  unfold ValidatorDB.delegated at hv
  rw [hentry', Option.map_some] at hv
  obtain ⟨entry, hentry, hcounters⟩ := Option.map_eq_some_iff.1 hv.symm
  simp only [Prod.mk.injEq] at hcounters
  rw [← hcounters.1, ← hcounters.2]
  exact h v entry hentry

end Within

section Accounted

variable {db db' : DelegationDB κ} {validatorId : κ} {entry entry' : ValidatorEntry κ π}

theorem Accounted.of_counters (h : Accounted db validatorId entry) (htotal : entry'.totalDelegated = entry.totalDelegated)
    (hcount : entry'.delegatorCount = entry.delegatorCount) : Accounted db validatorId entry' := by
  obtain ⟨hcount', ⟨c, hc, hcle⟩, ⟨o, ho, hole⟩⟩ := h
  exact ⟨hcount ▸ hcount', ⟨c, hc, htotal ▸ hcle⟩, ⟨o, ho, htotal ▸ hole⟩⟩

theorem Accounted.of_sameBonds (h : Accounted db validatorId entry) (hb : SameBonds db db') :
    Accounted db' validatorId entry := by
  obtain ⟨hcount, ⟨c, hc, hcle⟩, ⟨o, ho, hole⟩⟩ := h
  rw [← tally_of_sameBonds hb fun _ _ => DelegationEntry.countedOne_congr] at hcount
  rw [← tally_of_sameBonds hb fun _ _ => DelegationEntry.countedAmount_congr] at hc
  rw [← tally_of_sameBonds hb fun _ _ => DelegationEntry.amount_congr] at ho
  exact ⟨hcount, ⟨c, hc, hcle⟩, ⟨o, ho, hole⟩⟩

theorem Accounted.of_tallies (h : Accounted db validatorId entry)
    (htally : ∀ weight, db'.tally weight validatorId = db.tally weight validatorId) : Accounted db' validatorId entry := by
  obtain ⟨hcount, hc, ho⟩ := h
  rw [← htally] at hcount
  simp only [← htally] at hc ho
  exact ⟨hcount, hc, ho⟩

theorem accounted_of_none (h : ∀ delegationId e, db.delegations delegationId = some e → e.validatorId ≠ validatorId)
    (htotal : entry.totalDelegated = 0) (hcount : entry.delegatorCount = 0) : Accounted db validatorId entry := by
  have hzero : ∀ weight, Tally.SumsTo (db.tally weight validatorId) 0 := fun weight =>
    Tally.sumsTo_zero.congr fun id => tally_eq_zero (h id)
  exact ⟨hcount ▸ hzero _, ⟨0, hzero _, htotal ▸ le_rfl⟩, ⟨0, hzero _, htotal ▸ le_rfl⟩⟩

end Accounted

namespace Conserved

variable {validatorDB validatorDB' : ValidatorDB κ π} {db db' : DelegationDB κ} {spent made : Nat}

theorem empty : Conserved (Stores.empty : Stores κ π) where
  minimum _ _ h := by cases h
  known _ _ h := by cases h
  accounted _ _ h := by cases h

theorem registered (h : Conserved ⟨validatorDB, db⟩) {delegationId : Nat} {entry : DelegationEntry κ}
    (hentry : db.delegations delegationId = some entry) :
    ∃ validator, validatorDB.validators entry.validatorId = some validator :=
  Option.isSome_iff_exists.1 (h.known delegationId entry hentry)

theorem amount_nonneg (h : Conserved ⟨validatorDB, db⟩) {delegationId : Nat} {entry : DelegationEntry κ}
    (hentry : db.delegations delegationId = some entry) : 0 ≤ entry.amount :=
  le_trans (by decide) (h.minimum delegationId entry hentry)

/-- A validator's counters are not negative: they bound sums of non-negative amounts and ones. -/
theorem counters_nonneg (h : Conserved ⟨validatorDB, db⟩) {validatorId : κ} {validator : ValidatorEntry κ π}
    (hvalidator : validatorDB.validators validatorId = some validator) :
    0 ≤ validator.totalDelegated ∧ 0 ≤ validator.delegatorCount := by
  obtain ⟨hcount, ⟨c, hc, hcle⟩, -⟩ := h.accounted validatorId validator hvalidator
  have hc0 : 0 ≤ c :=
    hc.nonneg (tally_nonneg fun _ _ he => DelegationEntry.countedAmount_nonneg (h.amount_nonneg he))
  exact ⟨le_trans hc0 hcle, hcount.nonneg (tally_nonneg fun _ e _ => e.countedOne_nonneg)⟩

theorem of_sameBonds (h : Conserved ⟨validatorDB, db⟩) (hb : SameBonds db db') : Conserved ⟨validatorDB, db'⟩ where
  minimum id entry' hentry' := by
    obtain ⟨entry, hentry, hbond⟩ := hb.exists_of_some hentry'
    rw [DelegationEntry.amount_congr hbond]
    exact h.minimum id entry hentry
  known id entry' hentry' := by
    obtain ⟨entry, hentry, hbond⟩ := hb.exists_of_some hentry'
    have hv : entry'.validatorId = entry.validatorId := congrArg Prod.fst hbond
    rw [hv]
    exact h.known id entry hentry
  accounted v entry hv := (h.accounted v entry hv).of_sameBonds hb

theorem of_delegated (h : Conserved ⟨validatorDB, db⟩) (hd : validatorDB'.delegated = validatorDB.delegated) :
    Conserved ⟨validatorDB', db⟩ where
  minimum := h.minimum
  known id entry hentry := by
    have hv := congrArg Option.isSome (congrFun hd entry.validatorId)
    unfold ValidatorDB.delegated at hv
    rw [Option.isSome_map, Option.isSome_map] at hv
    rw [hv]
    exact h.known id entry hentry
  accounted v entry' hentry' := by
    have hv := congrFun hd v
    unfold ValidatorDB.delegated at hv
    rw [hentry', Option.map_some] at hv
    obtain ⟨entry, hentry, hcounters⟩ := Option.map_eq_some_iff.1 hv.symm
    simp only [Prod.mk.injEq] at hcounters
    exact (h.accounted v entry hentry).of_counters hcounters.1.symm hcounters.2.symm

theorem register (h : Conserved ⟨validatorDB, db⟩) {entry : ValidatorEntry κ π}
    (hnew : validatorDB.validators entry.validatorId = none) (htotal : entry.totalDelegated = 0)
    (hcount : entry.delegatorCount = 0)
    (hvalidators : validatorDB'.validators = Function.update validatorDB.validators entry.validatorId (some entry)) :
    Conserved ⟨validatorDB', db⟩ where
  minimum := h.minimum
  known id e he := by
    obtain ⟨validator, hvalidator⟩ := h.registered he
    rw [hvalidators]
    by_cases hv : e.validatorId = entry.validatorId
    · rw [hv, Function.update_self]
      rfl
    · rw [Function.update_of_ne hv, hvalidator]
      rfl
  accounted v e he := by
    rw [hvalidators] at he
    by_cases hv : v = entry.validatorId
    · -- the new validator: no delegation can be its yet
      subst hv
      rw [Function.update_self, Option.some.injEq] at he
      subst he
      refine accounted_of_none (fun id e' he' hv' => ?_) htotal hcount
      obtain ⟨validator, hvalidator⟩ := h.registered he'
      rw [hv', hnew] at hvalidator
      cases hvalidator
    · rw [Function.update_of_ne hv] at he
      exact h.accounted v e he

/-- Writing one delegation of at least the minimum, over nothing or over an entry of the same validator, and that
validator's entry keeps the stores accounted for once the validator is. -/
theorem write (h : Conserved ⟨validatorDB, db⟩) {delegationId : Nat} {entry : DelegationEntry κ} {validatorId : κ}
    {validator : ValidatorEntry κ π} (hd : db'.delegations = Function.update db.delegations delegationId (some entry))
    (hkey : entry.validatorId = validatorId)
    (hold : ∀ e, db.delegations delegationId = some e → e.validatorId = validatorId)
    (hmin : MIN_DELEGATION_AMOUNT ≤ entry.amount) (haccounted : Accounted db' validatorId validator) :
    Conserved ⟨validatorDB.setEntry validatorId validator, db'⟩ := by
  subst hkey
  refine ⟨fun id e he => ?_, fun id e he => ?_, fun v e he => ?_⟩
  · rw [hd] at he
    by_cases hid : id = delegationId
    · subst hid
      rw [Function.update_self, Option.some.injEq] at he
      exact he ▸ hmin
    · rw [Function.update_of_ne hid] at he
      exact h.minimum id e he
  · rw [ValidatorDB.setEntry_validators]
    by_cases hv : e.validatorId = entry.validatorId
    · rw [hv, Function.update_self]
      rfl
    rw [Function.update_of_ne hv]
    rw [hd] at he
    by_cases hid : id = delegationId
    · subst hid
      rw [Function.update_self, Option.some.injEq] at he
      exact absurd (congrArg DelegationEntry.validatorId he).symm hv
    · rw [Function.update_of_ne hid] at he
      exact h.known id e he
  · rw [ValidatorDB.setEntry_validators] at he
    by_cases hv : v = entry.validatorId
    · subst hv
      rw [Function.update_self, Option.some.injEq] at he
      exact he ▸ haccounted
    · rw [Function.update_of_ne hv] at he
      exact (h.accounted v e he).of_tallies (tally_write_other hd hold hv)

/-- A delegation within the budget keeps the stores accounted for, and the counters within the budget: it writes a
new pending entry under a fresh id, and counts its amount and one delegator in for its validator, where neither
word wraps. -/
theorem delegate (h : Conserved ⟨validatorDB, db⟩) (hw : validatorDB.Within spent made) {C : Crypto κ π σ}
    {request : DelegationRequest κ π σ} {outpoint : COutPoint} (hspent : spent + request.amount.toNat < 2 ^ 63)
    (hmade : made + 1 < 2 ^ 31)
    (hcall : db.processDelegation C validatorDB request outpoint = some (db', validatorDB')) :
    Conserved ⟨validatorDB', db'⟩ ∧ validatorDB'.Within (spent + request.amount.toNat) (made + 1) := by
  obtain ⟨-, hmin, hfresh, hd, validator, hvalidator, -, rfl⟩ := DelegationDB.processDelegation_some hcall
  obtain ⟨htotal0, hcount0⟩ := h.counters_nonneg hvalidator
  obtain ⟨htotal, hcount⟩ := hw _ validator hvalidator
  have hamount : (request.amount.toNat : Int) = request.amount := Int.toNat_of_nonneg (le_trans (by decide) hmin)
  -- the budget keeps both sums in their words
  have hsum : wrap 64 (validator.totalDelegated + request.amount) = validator.totalDelegated + request.amount :=
    SignedWord.wrap_of_inRange (by decide) ⟨by omega, by omega⟩
  have hone : wrap 32 (validator.delegatorCount + 1) = validator.delegatorCount + 1 :=
    SignedWord.wrap_of_inRange (by decide) ⟨by omega, by omega⟩
  rw [hsum, hone]
  refine ⟨?_, ValidatorDB.Every.setEntry (hw.mono (by omega) (by omega)) ⟨by dsimp only; omega, by dsimp only; omega⟩⟩
  have hkey : (request.entry outpoint).validatorId = request.validatorId := rfl
  have hnone : ∀ e, db.delegations ((request.entry outpoint).getDelegationId C) = some e →
      e.validatorId = request.validatorId := fun e he => by
    rw [hfresh] at he
    cases he
  -- the fresh id tallied nothing, and now tallies the new entry's weight for its validator
  have hzero : ∀ weight, db.tally weight request.validatorId ((request.entry outpoint).getDelegationId C) = 0 :=
    fun _ => tally_eq_zero fun e he => by rw [hfresh] at he; cases he
  obtain ⟨hcount, ⟨c, hc, hcle⟩, ⟨o, ho, hole⟩⟩ := h.accounted _ validator hvalidator
  refine h.write hd hkey hnone hmin ⟨?_, ⟨c + request.amount, ?_, ?_⟩, ⟨o + request.amount, ?_, ?_⟩⟩
  · rw [tally_write_self hd hkey]
    exact hcount.update_of_add_eq _ _ (by rw [hzero, add_zero]; rfl)
  · rw [tally_write_self hd hkey]
    exact hc.update_of_add_eq _ _ (by rw [hzero, add_zero]; rfl)
  · show c + request.amount ≤ validator.totalDelegated + request.amount
    omega
  · rw [tally_write_self hd hkey]
    exact ho.update_of_add_eq _ _ (by rw [hzero, add_zero]; rfl)
  · show validator.totalDelegated + request.amount ≤ o + request.amount
    omega

/-- One undelegated entry keeps the stores accounted for, and the counters within the budget: the entry stops being
counted, and the amount taken, at most its own, comes off its validator's total and one off the validator's count. -/
theorem unbond (h : Conserved ⟨validatorDB, db⟩) (hw : validatorDB.Within spent made) (hspent : spent < 2 ^ 63)
    {request : UndelegationRequest κ σ} {delegationId : Nat} {entry : DelegationEntry κ}
    (hentry : db.delegations delegationId = some entry) (hv : entry.validatorId = request.validatorId)
    (hactive : entry.status = .ACTIVE) {taken : Int} (htaken : 0 ≤ taken) (hle : taken ≤ entry.amount) :
    Conserved ⟨(validatorDB.removeDelegation request.validatorId taken).getD validatorDB,
        db.setDelegation delegationId { entry with status := .UNBONDING, unbondingStartHeight := db.currentHeight }⟩ ∧
      ((validatorDB.removeDelegation request.validatorId taken).getD validatorDB).Within spent made := by
  obtain ⟨validator, hvalidator⟩ := h.registered hentry
  rw [hv] at hvalidator
  obtain ⟨hcount, ⟨c, hc, hcle⟩, ⟨o, ho, hole⟩⟩ := h.accounted _ validator hvalidator
  obtain ⟨htotal, hmade⟩ := hw _ validator hvalidator
  have hd := DelegationDB.setDelegation_delegations db delegationId
    { entry with status := .UNBONDING, unbondingStartHeight := db.currentHeight }
  have hsame : ∀ e, db.delegations delegationId = some e → e.validatorId = request.validatorId := fun e he => by
    rw [hentry, Option.some.injEq] at he
    rw [← he, hv]
  -- the entry is counted for its validator, so the total and the count cover it
  have hcounted : db.tally DelegationEntry.countedAmount request.validatorId delegationId = entry.amount := by
    rw [tally_some hentry hv, DelegationEntry.countedAmount, hactive]
    rfl
  have hone : db.tally DelegationEntry.countedOne request.validatorId delegationId = 1 := by
    rw [tally_some hentry hv, DelegationEntry.countedOne, hactive]
    rfl
  have hc_ge : entry.amount ≤ c := hcounted ▸ hc.le_of_nonneg
    (tally_nonneg fun _ _ he => DelegationEntry.countedAmount_nonneg (h.amount_nonneg he)) delegationId
  have hcount_ge : 1 ≤ validator.delegatorCount := hone ▸ hcount.le_of_nonneg
    (tally_nonneg fun _ e _ => e.countedOne_nonneg) delegationId
  -- what is left of the total is between nothing and the total, so it does not wrap
  have hrest : wrap 64 (validator.totalDelegated - taken) = validator.totalDelegated - taken :=
    SignedWord.wrap_of_inRange (by decide) ⟨by omega, by omega⟩
  rw [ValidatorDB.removeDelegation_eq hvalidator (by omega), Option.getD_some, hrest]
  refine ⟨?_, ValidatorDB.Every.setEntry hw ⟨by dsimp only; omega, ?count⟩⟩
  case count =>
    dsimp only
    split_ifs <;> omega
  -- the entry leaves the counted tallies, and stays in the held one
  refine h.write hd hv hsame (h.minimum _ entry hentry) ⟨?_, ⟨c - entry.amount, ?_, ?_⟩, ⟨o, ?_, ?_⟩⟩
  · rw [tally_write_self hd hv]
    refine hcount.update_of_add_eq _ _ ?_
    rw [hone]
    show (if validator.delegatorCount > 0 then validator.delegatorCount - 1 else validator.delegatorCount) + 1 =
      validator.delegatorCount + 0
    rw [if_pos (by omega)]
    omega
  · rw [tally_write_self hd hv]
    refine hc.update_of_add_eq _ _ ?_
    rw [hcounted]
    show c - entry.amount + entry.amount = c + 0
    omega
  · show c - entry.amount ≤ validator.totalDelegated - taken
    omega
  · have hheld : db.tally DelegationEntry.amount request.validatorId delegationId = entry.amount := tally_some hentry hv
    rw [tally_write_self hd hv, Function.update_eq_self_iff.2 hheld.symm]
    exact ho
  · show validator.totalDelegated - taken ≤ o
    omega

/-- The undelegation loop keeps the stores accounted for and the counters within the budget, while what is left to
undelegate is a non-negative word. -/
theorem undelegate (request : UndelegationRequest κ σ) (hspent : spent < 2 ^ 63) :
    ∀ (ids : List Nat) (remaining : Int) (anyUndelegated : Bool) (db : DelegationDB κ)
      (validatorDB : ValidatorDB κ π), 0 ≤ remaining → remaining < 2 ^ 63 → Conserved ⟨validatorDB, db⟩ →
        validatorDB.Within spent made →
        Conserved ⟨(DelegationDB.undelegate request ids remaining anyUndelegated db validatorDB).2.2,
            (DelegationDB.undelegate request ids remaining anyUndelegated db validatorDB).2.1⟩ ∧
          (DelegationDB.undelegate request ids remaining anyUndelegated db validatorDB).2.2.Within spent made
  | [], _, _, _, _, _, _, h, hw => ⟨h, hw⟩
  | id :: ids, remaining, anyUndelegated, db, validatorDB, hremaining, hword, h, hw => by
    cases hd : db.delegations id with
    | none =>
      simp only [DelegationDB.undelegate, hd]
      exact undelegate request hspent ids remaining anyUndelegated db validatorDB hremaining hword h hw
    | some entry =>
      simp only [DelegationDB.undelegate, hd]
      by_cases hv : entry.validatorId ≠ request.validatorId
      · rw [if_pos hv]
        exact undelegate request hspent ids remaining anyUndelegated db validatorDB hremaining hword h hw
      rw [if_neg hv]
      by_cases hs : entry.status ≠ .ACTIVE
      · rw [if_pos hs]
        exact undelegate request hspent ids remaining anyUndelegated db validatorDB hremaining hword h hw
      rw [if_neg hs]
      -- the entry is undelegated: the amount taken is between nothing and the entry, and the rest is a word
      obtain ⟨htaken, hle, hrest, hrest'⟩ :=
        takeFrom_bounds request.amount hremaining hword (h.amount_nonneg hd)
      obtain ⟨hunbond, hw'⟩ := h.unbond hw hspent hd (not_not.1 hv) (not_not.1 hs) htaken hle
      split_ifs
      · exact ⟨hunbond, hw'⟩
      · exact undelegate request hspent ids _ true _ _ hrest hrest' hunbond hw'

/-- **Each call within the budget keeps the stores accounted for, and the counters within the budget** once the
call's amount and one more call are counted in. -/
theorem apply (h : Conserved stores) (hw : stores.validatorDB.Within spent made) {C : Crypto κ π σ}
    {params : Params} {call : Call κ π σ} (hcall : call.Conserving) (hspent : spent + call.delegationAmount < 2 ^ 63)
    (hmade : made + 1 < 2 ^ 31) {stores' : Stores κ π} (happly : call.apply C params stores = .ok stores') :
    Conserved stores' ∧ stores'.validatorDB.Within (spent + call.delegationAmount) (made + 1) := by
  obtain ⟨validatorDB, db⟩ := stores
  -- every call but a delegation counts nothing in, and keeps the counters within the budget they were in
  have hw' : validatorDB.Within (spent + call.delegationAmount) (made + 1) := hw.mono (by omega) (by omega)
  cases call with
  | validator call =>
    cases happly
    rcases ValidatorCall.delegated_apply C params validatorDB call with hd | ⟨entry, rfl, hnew, hvalidators⟩
    · exact ⟨h.of_delegated hd, hw'.of_delegated hd⟩
    · refine ⟨h.register hnew hcall.1 hcall.2 hvalidators, ValidatorDB.Every.of_validators hw' hvalidators ?_⟩
      rw [hcall.1, hcall.2]
      omega
  | delegation call =>
    cases call with
    | processDelegation request outpoint =>
      cases happly
      cases hd : db.processDelegation C validatorDB request outpoint with
      | none => exact ⟨h, hw'⟩
      | some result => exact h.delegate hw hspent hmade hd
    | processUndelegation request =>
      cases happly
      cases hd : db.processUndelegation validatorDB request with
      | none => exact ⟨h, hw'⟩
      | some result =>
        have hloop := h.undelegate request (by omega) (db.delegatorIndex request.delegatorId) request.amount false db
          validatorDB hcall.1 hcall.2 hw'
        rw [DelegationDB.processUndelegation_some hd] at hloop
        exact hloop
    | processRewardClaim request =>
      cases happly
      exact ⟨h.of_sameBonds (sameBonds_claimRewards request _ 0 db), hw'⟩
    | addRewards delegationId rewards =>
      cases happly
      cases hd : db.addRewards delegationId rewards with
      | none => exact ⟨h, hw'⟩
      | some db' => exact ⟨h.of_sameBonds (sameBonds_addRewards hd), hw'⟩
    | distributeBlockReward validatorId delegatorsShare =>
      obtain ⟨db', hdistribute, hstores⟩ := Checked.bind_ok_iff.1 happly
      cases hstores
      rw [DelegationDB.distributeBlockReward_ok hdistribute]
      exact ⟨h, hw'⟩
    | setDelegationStatus delegationId status => exact hcall.elim
    | updateDelegationOutpoint delegationId newOutpoint =>
      cases happly
      cases hd : db.updateDelegationOutpoint delegationId newOutpoint with
      | none => exact ⟨h, hw'⟩
      | some db' => exact ⟨h.of_sameBonds (sameBonds_updateDelegationOutpoint hd), hw'⟩
    | setHeight height =>
      cases happly
      exact ⟨h.of_sameBonds (SameBonds.refl db), hw'⟩
    | processBlock height =>
      cases happly
      exact ⟨h.of_sameBonds (sameBonds_processBlock height), hw'⟩

/-- Every run within the budget keeps the stores accounted for: induction on the calls, carrying the amounts asked
for and the calls made so far. -/
theorem run {C : Crypto κ π σ} {params : Params} :
    ∀ {calls : List (Call κ π σ)} {stores stores' : Stores κ π} {spent made : Nat}, (∀ call ∈ calls, call.Conserving) →
      spent + (calls.map Call.delegationAmount).sum < 2 ^ 63 → made + calls.length < 2 ^ 31 →
      Conserved stores → stores.validatorDB.Within spent made → stores.run C params calls = .ok stores' →
        Conserved stores'
  | [], _, _, _, _, _, _, _, h, _, hrun => by
    cases hrun
    exact h
  | call :: calls, _, _, _, _, hcalls, hspent, hmade, h, hw, hrun => by
    rw [Stores.run_cons] at hrun
    obtain ⟨stores, happly, hrest⟩ := Checked.bind_ok_iff.1 hrun
    rw [List.map_cons, List.sum_cons] at hspent
    rw [List.length_cons] at hmade
    obtain ⟨h₁, hw₁⟩ := h.apply hw (hcalls call List.mem_cons_self) (by omega) (by omega) happly
    exact run (fun c hc => hcalls c (List.mem_cons_of_mem call hc)) (by omega) (by omega) h₁ hw₁ hrest

omit [DecidableEq κ] in
theorem within_empty : (Stores.empty : Stores κ π).validatorDB.Within 0 0 := fun _ _ h => by cases h

end Conserved

/-- **Over every run that makes no raw status writes, undelegates non-negative amounts, registers validators with
zero counters, asks to delegate less than `2 ^ 63` in all and makes fewer than `2 ^ 31` calls, each validator's
`delegatorCount` is the number of its pending and active delegations, and its `totalDelegated` lies between what
those hold and what all of its delegations hold.** -/
theorem delegated_totals_bounded (C : Crypto κ π σ) (params : Params) (calls : List (Call κ π σ))
    (hcalls : ∀ call ∈ calls, call.Conserving) (hamounts : (calls.map Call.delegationAmount).sum < 2 ^ 63)
    (hlength : calls.length < 2 ^ 31) (stores : Stores κ π)
    (hrun : Stores.empty.run C params calls = .ok stores) (validatorId : κ) (entry : ValidatorEntry κ π)
    (hentry : stores.validatorDB.validators validatorId = some entry) :
    entry.delegatorCount = ∑ᶠ id, stores.delegationDB.tally DelegationEntry.countedOne validatorId id ∧
      ∑ᶠ id, stores.delegationDB.tally DelegationEntry.countedAmount validatorId id ≤ entry.totalDelegated ∧
      entry.totalDelegated ≤ ∑ᶠ id, stores.delegationDB.tally DelegationEntry.amount validatorId id := by
  obtain ⟨hcount, ⟨c, hc, hcle⟩, ⟨o, ho, hole⟩⟩ :=
    (Conserved.empty.run hcalls (by omega) (by omega) Conserved.within_empty hrun).accounted validatorId entry hentry
  rw [hcount.finsum_eq, hc.finsum_eq, ho.finsum_eq]
  exact ⟨rfl, hcle, hole⟩

theorem countedAmount_eq_zero_of_count {db : DelegationDB κ} {validatorId : κ}
    (h : Tally.SumsTo (db.tally DelegationEntry.countedOne validatorId) 0) (delegationId : Nat) :
    db.tally DelegationEntry.countedAmount validatorId delegationId = 0 := by
  have hle := h.le_of_nonneg (tally_nonneg fun _ e _ => e.countedOne_nonneg) delegationId
  cases hd : db.delegations delegationId with
  | none => simp [tally, hd]
  | some e =>
    by_cases hv : e.validatorId = validatorId
    · rw [tally_some hd hv] at hle ⊢
      unfold DelegationEntry.countedOne at hle
      unfold DelegationEntry.countedAmount
      split_ifs at hle ⊢
      · omega
      · rfl
    · exact tally_eq_zero fun e' he' => by
        rw [hd, Option.some.injEq] at he'
        exact he' ▸ hv

/-- A signature scheme for runs on concrete inputs: a key is its own id, a signature is the pair of the key and the
hash it signs, every request hashes to `0`, and a delegation's id pairs its delegator, validator and height. -/
def pairKeys : Crypto Nat Nat (Nat × Nat) where
  getId pubkey := pubkey
  verify pubkey hash signature := decide (signature = (pubkey, hash))
  updateHash _ _ _ _ _ := 0
  delegationRequestHash _ _ _ _ _ := 0
  undelegationRequestHash _ _ _ _ := 0
  rewardClaimHash _ _ _ := 0
  delegationId delegator validator height := Nat.pair delegator (Nat.pair validator height.toNat)

/-- Validator `1` registers on the main chain, active; delegator `2` delegates `2000` coins to it at height `0`; block
`500` matures the delegation. -/
def delegationCalls : List (Call Nat Nat (Nat × Nat)) :=
  [.validator (.registerValidator
      { validatorId := 1, validatorPubKey := 1, stakeAmount := Params.main.nMinValidatorStake, status := .ACTIVE }),
    .delegation (.processDelegation
      { delegatorId := 2, delegatorPubKey := 2, validatorId := 1, amount := 2000 * COIN, height := 0,
        signature := (2, 0) } ⟨7, 0⟩),
    .delegation (.processBlock 500)]

theorem delegationCalls_conserving : ∀ call ∈ delegationCalls, call.Conserving := by
  intro call hcall
  simp only [delegationCalls, List.mem_cons, List.not_mem_nil, or_false] at hcall
  rcases hcall with rfl | rfl | rfl
  · exact ⟨rfl, rfl⟩
  · trivial
  · trivial

/-- Validator `1` with the matured delegation of `2000` coins: its counters are what the bounds say. -/
theorem delegated_totals_bounded_after_delegation :
    ∃ stores entry, Stores.empty.run pairKeys Params.main delegationCalls = .ok stores ∧
      stores.validatorDB.validators 1 = some entry ∧ entry.totalDelegated = 2000 * COIN ∧ entry.delegatorCount = 1 ∧
      (entry.delegatorCount = ∑ᶠ id, stores.delegationDB.tally DelegationEntry.countedOne 1 id ∧
        ∑ᶠ id, stores.delegationDB.tally DelegationEntry.countedAmount 1 id ≤ entry.totalDelegated ∧
        entry.totalDelegated ≤ ∑ᶠ id, stores.delegationDB.tally DelegationEntry.amount 1 id) := by
  have hrun : Stores.empty.run pairKeys Params.main delegationCalls = .ok _ := rfl
  exact ⟨_, _, hrun, rfl, rfl, rfl,
    delegated_totals_bounded pairKeys Params.main delegationCalls delegationCalls_conserving (by decide) (by decide) _
      hrun 1 _ rfl⟩

/-- **A partial undelegation strands the rest of the entry in the validator's total**: after the delegation of
`2000` coins has matured, delegator `2` undelegates `1000`.  The whole entry starts unbonding and the count drops to
zero, but `totalDelegated` keeps `1000` coins while no pending or active delegation of validator `1` holds any. -/
theorem partial_undelegation_strands :
    ∃ stores entry, Stores.empty.run pairKeys Params.main (delegationCalls ++
        [.delegation (.processUndelegation
          { delegatorId := 2, validatorId := 1, amount := 1000 * COIN, height := 500, signature := (2, 0) })]) =
        .ok stores ∧
      stores.validatorDB.validators 1 = some entry ∧ entry.totalDelegated = 1000 * COIN ∧ entry.delegatorCount = 0 ∧
      ∑ᶠ id, stores.delegationDB.tally DelegationEntry.countedAmount 1 id = 0 := by
  have hrun : Stores.empty.run pairKeys Params.main (delegationCalls ++
      [.delegation (.processUndelegation
        { delegatorId := 2, validatorId := 1, amount := 1000 * COIN, height := 500, signature := (2, 0) })]) =
      .ok _ := rfl
  have hcalls : ∀ call ∈ delegationCalls ++ [.delegation (.processUndelegation
      { delegatorId := 2, validatorId := 1, amount := 1000 * COIN, height := 500, signature := (2, 0) })],
      call.Conserving := by
    refine List.forall_mem_append.2 ⟨delegationCalls_conserving, ?_⟩
    simp only [List.mem_singleton, forall_eq]
    show (0 : Int) ≤ 1000 * COIN ∧ 1000 * COIN < 2 ^ 63
    decide
  -- the counters still agree with the delegations, and the count is zero: no delegation of `1` is counted
  obtain ⟨hcount, -, -⟩ :=
    (Conserved.empty.run hcalls (by decide) (by decide) Conserved.within_empty hrun).accounted 1 _ rfl
  exact ⟨_, _, hrun, rfl, rfl, rfl, finsum_eq_zero_of_forall_eq_zero (countedAmount_eq_zero_of_count hcount)⟩

/-- The stake outpoint `⟨9, 0⟩` registered by validators `2` and `3` in turn, each with the minimum stake. -/
def sharedStakeRegistration (validatorId : Nat) : Call Nat Nat (Nat × Nat) :=
  .validator (.registerValidator
    { validatorId, validatorPubKey := validatorId, stakeAmount := Params.main.nMinValidatorStake,
      stakeOutpoint := ⟨9, 0⟩ })

/-- `delegationCalls`, whose delegation by `2` holds outpoint `⟨7, 0⟩`; a delegation by `3` on the same outpoint;
and two registrations on one stake outpoint. -/
def collidingCalls : List (Call Nat Nat (Nat × Nat)) :=
  delegationCalls ++
    [.delegation (.processDelegation
      { delegatorId := 3, delegatorPubKey := 3, validatorId := 1, amount := 1000 * COIN, height := 500,
        signature := (3, 0) } ⟨7, 0⟩),
      sharedStakeRegistration 2, sharedStakeRegistration 3]

/-- **An outpoint held twice is indexed only for the later record**: the delegations of `2` and of `3` both hold
`⟨7, 0⟩` and validators `2` and `3` both stake `⟨9, 0⟩`, while the outpoint indexes name only the delegation of `3`
and validator `3`; `GetDelegationByOutpoint` and `GetValidatorByOutpoint` return those for both. -/
theorem outpoint_index_overwritten :
    ∃ stores : Stores Nat Nat, ∃ first second : DelegationEntry Nat, ∃ validator validator' : ValidatorEntry Nat Nat,
      Stores.empty.run pairKeys Params.main collidingCalls = .ok stores ∧
      stores.delegationDB.delegations (pairKeys.delegationId 2 1 0) = some first ∧
        first.delegationOutpoint = ⟨7, 0⟩ ∧
      stores.delegationDB.delegations (pairKeys.delegationId 3 1 500) = some second ∧
        second.delegationOutpoint = ⟨7, 0⟩ ∧ pairKeys.delegationId 2 1 0 ≠ pairKeys.delegationId 3 1 500 ∧
      stores.delegationDB.outpointIndex ⟨7, 0⟩ = some (pairKeys.delegationId 3 1 500) ∧
      stores.delegationDB.getDelegationByOutpoint ⟨7, 0⟩ = some second ∧
      stores.validatorDB.validators 2 = some validator ∧ validator.stakeOutpoint = ⟨9, 0⟩ ∧
      stores.validatorDB.validators 3 = some validator' ∧ validator'.stakeOutpoint = ⟨9, 0⟩ ∧
      stores.validatorDB.outpointIndex ⟨9, 0⟩ = some 3 ∧
      stores.validatorDB.getValidatorByOutpoint ⟨9, 0⟩ = some validator' := by
  have hrun : Stores.empty.run pairKeys Params.main collidingCalls = .ok _ := rfl
  refine ⟨_, _, _, _, _, hrun, rfl, rfl, rfl, rfl, ?_, rfl, rfl, rfl, rfl, rfl, rfl, rfl, rfl⟩
  decide

end Validators
end Wattx
