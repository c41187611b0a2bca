import Wattx.Validators.Conservation
/-!
# Lifecycle — a validator's stake and status over runs of the registry's calls

`RegisterValidator` admits an entry whose stake is at least `nMinValidatorStake`, and afterwards only signed
`ProcessUpdate`s move the stake.  `DECREASE_STAKE` keeps the minimum, since it checks the wrapped difference it then
stores, but neither stake update bounds its signed delta: `INCREASE_STAKE` adds a negative one with no check, and a
negative decrease passes both of its checks and raises the stake.  What the checks do keep is the minimum, over every
run whose stake increases are not negative and whose stakes, raised by every increase and negated decrease, stay in
their `int64_t` (`stake_floor_kept`); past `2 ^ 63` an increase wraps the stake negative.

A validator's status moves by the updates, by jailing and unjailing, and by `ProcessBlock`, which releases an
unbonding validator once `UNBONDING_PERIOD` blocks have passed since its `lastActiveHeight`.  Only the raw status
setter writes that height, so a validator registered as the wallet registers it keeps the `0` of its constructor, and
a deactivation at any height past the period is released at the next block.  From `JAILED`, a deactivation and that
release lead to `REACTIVATE`, whose jail check reads only the `JAILED` status it has already left.
-/
namespace Wattx
namespace Validators

open SignedWord (wrap)

variable {κ π σ : Type} [DecidableEq κ]

/-- The registry after `calls`, one after the other. -/
def ValidatorDB.run (C : Crypto κ π σ) (params : Params) (db : ValidatorDB κ π) (calls : List (ValidatorCall κ π σ)) :
    ValidatorDB κ π :=
  calls.foldl (fun db call => call.apply C params db) db

/-- What an accepted update of each type passed and wrote to the validator's entry. -/
def ValidatorUpdate.Effect (params : Params) (currentHeight : Int) (update : ValidatorUpdate κ σ)
    (entry entry' : ValidatorEntry κ π) : Prop :=
  match update.updateType with
  | .UPDATE_FEE => ¬(update.newValue < MIN_POOL_FEE ∨ update.newValue > MAX_POOL_FEE) ∧
      entry' = { entry with poolFeeRate := update.newValue }
  | .UPDATE_NAME => ¬update.newName.utf8ByteSize > MAX_VALIDATOR_NAME ∧
      entry' = { entry with validatorName := update.newName }
  | .DEACTIVATE => entry' = { entry with status := .UNBONDING }
  | .REACTIVATE => ¬(entry.status = .JAILED ∧ currentHeight < entry.jailReleaseHeight) ∧
      entry' = if entry.status = .INACTIVE ∨ entry.status = .JAILED then { entry with status := .ACTIVE } else entry
  | .INCREASE_STAKE => entry' = { entry with stakeAmount := wrap 64 (entry.stakeAmount + update.newValue) }
  | .DECREASE_STAKE => ¬update.newValue > entry.stakeAmount ∧
      ¬wrap 64 (entry.stakeAmount - update.newValue) < params.nMinValidatorStake ∧
      entry' = { entry with stakeAmount := wrap 64 (entry.stakeAmount - update.newValue) }

namespace ValidatorDB

variable {db db' : ValidatorDB κ π}

theorem setEntry_self {validatorId : κ} {entry : ValidatorEntry κ π} (h : db.validators validatorId = some entry) :
    db.setEntry validatorId entry = db := by
  unfold setEntry
  rw [Function.update_eq_self_iff.2 h.symm]

theorem registerValidator_stake {params : Params} {entry : ValidatorEntry κ π}
    (h : db.registerValidator params entry = some db') : params.nMinValidatorStake ≤ entry.stakeAmount := by
  unfold registerValidator at h
  by_cases hstake : entry.stakeAmount < params.nMinValidatorStake
  · split_ifs at h
  · exact not_lt.1 hstake

/-- **An accepted update** names a registered validator, is signed under its key, and writes the entry its type
describes. -/
theorem processUpdate_some {C : Crypto κ π σ} {params : Params} {update : ValidatorUpdate κ σ}
    (h : db.processUpdate C params update = some db') :
    ∃ entry entry', db.validators update.validatorId = some entry ∧ update.verify C entry.validatorPubKey = true ∧
      update.Effect params db.currentHeight entry entry' ∧ db' = db.setEntry update.validatorId entry' := by
  unfold processUpdate at h
  split at h
  · cases h
  rename_i entry hentry
  obtain ⟨hverify, h⟩ := Option.ite_none_left_eq_some.mp h
  have hsigned : update.verify C entry.validatorPubKey = true := by simpa using hverify
  refine ⟨entry, ?_⟩
  unfold ValidatorUpdate.Effect
  -- each type's checks, then the entry it writes
  cases hty : update.updateType with
  | UPDATE_FEE =>
    simp only [hty] at h
    obtain ⟨hfee, h⟩ := Option.ite_none_left_eq_some.mp h
    exact ⟨_, hentry, hsigned, ⟨hfee, rfl⟩, (Option.some.inj h).symm⟩
  | UPDATE_NAME =>
    simp only [hty] at h
    obtain ⟨hname, h⟩ := Option.ite_none_left_eq_some.mp h
    exact ⟨_, hentry, hsigned, ⟨hname, rfl⟩, (Option.some.inj h).symm⟩
  | DEACTIVATE =>
    simp only [hty, Option.some.injEq] at h
    exact ⟨_, hentry, hsigned, rfl, h.symm⟩
  | REACTIVATE =>
    simp only [hty] at h
    obtain ⟨hjailed, h⟩ := Option.ite_none_left_eq_some.mp h
    by_cases hreleased : entry.status = .INACTIVE ∨ entry.status = .JAILED
    · rw [if_pos hreleased, Option.some.injEq] at h
      exact ⟨_, hentry, hsigned, ⟨hjailed, by rw [if_pos hreleased]⟩, h.symm⟩
    · -- a validator neither inactive nor jailed is left as it was
      rw [if_neg hreleased, Option.some.injEq] at h
      exact ⟨entry, hentry, hsigned, ⟨hjailed, by rw [if_neg hreleased]⟩, h.symm.trans (setEntry_self hentry).symm⟩
  | INCREASE_STAKE =>
    simp only [hty, Option.some.injEq] at h
    exact ⟨_, hentry, hsigned, rfl, h.symm⟩
  | DECREASE_STAKE =>
    simp only [hty] at h
    obtain ⟨hover, h⟩ := Option.ite_none_left_eq_some.mp h
    obtain ⟨hmin, h⟩ := Option.ite_none_left_eq_some.mp h
    exact ⟨_, hentry, hsigned, ⟨hover, hmin, rfl⟩, (Option.some.inj h).symm⟩

end ValidatorDB

/-! ### The stake floor -/

/-- Every registered validator holds at least the minimum stake. -/
def ValidatorDB.StakeFloor (params : Params) (db : ValidatorDB κ π) : Prop :=
  db.Every fun entry => params.nMinValidatorStake ≤ entry.stakeAmount

/-- Every registered validator's stake can still be raised by `raise` within its word. -/
def ValidatorDB.StakeRoom (raise : Nat) (db : ValidatorDB κ π) : Prop :=
  db.Every fun entry => entry.stakeAmount + raise < 2 ^ 63

/-- The calls of the claim's runs, registrations and updates, with stake increases that are not negative. -/
def ValidatorCall.StakeSafe : ValidatorCall κ π σ → Prop
  | .registerValidator _ => True
  | .processUpdate update => update.updateType = .INCREASE_STAKE → 0 ≤ update.newValue
  | _ => False

/-- How far a call can raise a stake: an increase by its amount, a decrease by the negation of its amount, and
nothing for any other call. -/
def ValidatorCall.stakeRaise : ValidatorCall κ π σ → Nat
  | .processUpdate update =>
    match update.updateType with
    | .INCREASE_STAKE => update.newValue.toNat
    | .DECREASE_STAKE => (-update.newValue).toNat
    | _ => 0
  | _ => 0

omit [DecidableEq κ] in
/-- An accepted update of an entry at the minimum, whose stake stays in its word when raised by the update's raise,
keeps the minimum and raises the stake by at most that much.  A decrease checks the wrapped difference it then
stores, so it keeps the minimum whatever its sign; an increase keeps it by not being negative. -/
theorem ValidatorUpdate.Effect.stake {params : Params} {currentHeight : Int} {update : ValidatorUpdate κ σ}
    {entry entry' : ValidatorEntry κ π} (heffect : update.Effect params currentHeight entry entry')
    (hsafe : update.updateType = .INCREASE_STAKE → 0 ≤ update.newValue)
    (hfloor : params.nMinValidatorStake ≤ entry.stakeAmount) (hmin : -2 ^ 63 ≤ params.nMinValidatorStake)
    (hroom : entry.stakeAmount + (ValidatorCall.processUpdate (π := π) update).stakeRaise < 2 ^ 63) :
    params.nMinValidatorStake ≤ entry'.stakeAmount ∧
      entry'.stakeAmount ≤ entry.stakeAmount + (ValidatorCall.processUpdate (π := π) update).stakeRaise := by
  unfold ValidatorUpdate.Effect at heffect
  simp only [ValidatorCall.stakeRaise] at hroom ⊢
  -- only the two stake updates move the stake; every other type keeps the entry's
  cases hty : update.updateType <;> simp only [hty] at heffect hroom ⊢
  · rw [heffect.2]
    exact ⟨hfloor, by dsimp only; omega⟩
  · rw [heffect.2]
    exact ⟨hfloor, by dsimp only; omega⟩
  · rw [heffect]
    exact ⟨hfloor, by dsimp only; omega⟩
  · rw [heffect.2]
    split_ifs
    · exact ⟨hfloor, by dsimp only; omega⟩
    · exact ⟨hfloor, by omega⟩
  · -- a non-negative increase that fits its word is exact
    have hv := hsafe hty
    have hsum : wrap 64 (entry.stakeAmount + update.newValue) = entry.stakeAmount + update.newValue :=
      SignedWord.wrap_of_inRange (by decide) ⟨by omega, by omega⟩
    rw [heffect, hsum]
    dsimp only
    exact ⟨by omega, by omega⟩
  · -- the checked difference is what is stored, and it is at most the stake raised by the negation of the amount
    obtain ⟨hover, hcheck, rfl⟩ := heffect
    have hdiff : wrap 64 (entry.stakeAmount - update.newValue) = entry.stakeAmount - update.newValue :=
      SignedWord.wrap_of_inRange (by decide) ⟨by omega, by omega⟩
    refine ⟨not_lt.1 hcheck, ?_⟩
    dsimp only
    omega

namespace ValidatorDB

variable {params : Params} {db db' : ValidatorDB κ π} {raise : Nat}

omit [DecidableEq κ] in
theorem StakeRoom.mono (h : db.StakeRoom raise) {raise' : Nat} (hle : raise' ≤ raise) : db.StakeRoom raise' :=
  Every.mono h fun _ he => by omega

theorem stakeFloor_register (h : db.StakeFloor params ∧ db.StakeRoom raise) {entry : ValidatorEntry κ π}
    (hroom : entry.stakeAmount + raise < 2 ^ 63) (hregister : db.registerValidator params entry = some db') :
    db'.StakeFloor params ∧ db'.StakeRoom raise := by
  obtain ⟨-, hvalidators⟩ := registerValidator_some hregister
  exact ⟨h.1.of_validators hvalidators (registerValidator_stake hregister), h.2.of_validators hvalidators hroom⟩

/-- An update keeps the floor, and takes its raise off the room. -/
theorem stakeFloor_update (h : db.StakeFloor params ∧ db.StakeRoom raise) (hmin : -2 ^ 63 ≤ params.nMinValidatorStake)
    {C : Crypto κ π σ} {update : ValidatorUpdate κ σ}
    (hsafe : update.updateType = .INCREASE_STAKE → 0 ≤ update.newValue)
    (hraise : (ValidatorCall.processUpdate (π := π) update).stakeRaise ≤ raise)
    (hupdate : db.processUpdate C params update = some db') :
    db'.StakeFloor params ∧ db'.StakeRoom (raise - (ValidatorCall.processUpdate (π := π) update).stakeRaise) := by
  obtain ⟨entry, entry', hentry, -, heffect, rfl⟩ := processUpdate_some hupdate
  obtain ⟨hfloor', hle⟩ := heffect.stake hsafe (h.1 _ entry hentry) hmin (by have := h.2 _ entry hentry; omega)
  have hroom := h.2 _ entry hentry
  exact ⟨h.1.setEntry hfloor', (h.2.mono (Nat.sub_le _ _)).setEntry (by omega)⟩

theorem stakeFloor_apply (C : Crypto κ π σ) (h : db.StakeFloor params ∧ db.StakeRoom raise)
    (hmin : -2 ^ 63 ≤ params.nMinValidatorStake) {call : ValidatorCall κ π σ} (hcall : call.StakeSafe)
    (hraise : call.stakeRaise ≤ raise)
    (hroom : ∀ entry : ValidatorEntry κ π, call = .registerValidator entry → entry.stakeAmount + raise < 2 ^ 63) :
    (call.apply C params db).StakeFloor params ∧ (call.apply C params db).StakeRoom (raise - call.stakeRaise) := by
  cases call with
  | registerValidator entry =>
    cases hregister : db.registerValidator params entry with
    | none => simpa [ValidatorCall.apply, ValidatorCall.stakeRaise, hregister] using h
    | some db' =>
      simp only [ValidatorCall.apply, hregister, Option.getD_some, ValidatorCall.stakeRaise, Nat.sub_zero]
      exact stakeFloor_register h (hroom entry rfl) hregister
  | processUpdate update =>
    cases hupdate : db.processUpdate C params update with
    | none =>
      simp only [ValidatorCall.apply, hupdate, Option.getD_none]
      exact ⟨h.1, h.2.mono (Nat.sub_le _ _)⟩
    | some db' =>
      simp only [ValidatorCall.apply, hupdate, Option.getD_some]
      exact stakeFloor_update h hmin hcall hraise hupdate
  | updateStakeOutpoint => exact hcall.elim
  | setValidatorStatus => exact hcall.elim
  | jailValidator => exact hcall.elim
  | unjailValidator => exact hcall.elim
  | setHeight => exact hcall.elim
  | processBlock => exact hcall.elim

/-- Induction on the calls, with the room for the raises of the calls still to come. -/
theorem stakeFloor_run (C : Crypto κ π σ) (params : Params) (hmin : -2 ^ 63 ≤ params.nMinValidatorStake) :
    ∀ (calls : List (ValidatorCall κ π σ)) (db : ValidatorDB κ π), (∀ call ∈ calls, call.StakeSafe) →
      (∀ entry : ValidatorEntry κ π, .registerValidator entry ∈ calls →
        entry.stakeAmount + (calls.map ValidatorCall.stakeRaise).sum < 2 ^ 63) →
      db.StakeFloor params ∧ db.StakeRoom (calls.map ValidatorCall.stakeRaise).sum →
        (db.run C params calls).StakeFloor params
  | [], _, _, _, h => h.1
  | call :: calls, _, hcalls, hroom, h => by
    simp only [List.map_cons, List.sum_cons] at hroom h
    have hstep := stakeFloor_apply C h hmin (hcalls call List.mem_cons_self) (Nat.le_add_right _ _)
      fun entry he => hroom entry (he ▸ List.mem_cons_self)
    rw [Nat.add_sub_cancel_left] at hstep
    exact stakeFloor_run C params hmin calls _ (fun c hc => hcalls c (List.mem_cons_of_mem call hc))
      (fun entry he => by have := hroom entry (List.mem_cons_of_mem call he); omega) hstep

end ValidatorDB

/-- **Registrations and updates whose stake increases are not negative keep every validator at the minimum stake**,
from an empty registry, while the minimum is an `int64_t` and each registered stake, raised by every increase and
by the negation of every decrease, stays below `2 ^ 63`. -/
theorem stake_floor_kept (C : Crypto κ π σ) (params : Params) (hmin : -2 ^ 63 ≤ params.nMinValidatorStake)
    (calls : List (ValidatorCall κ π σ)) (hcalls : ∀ call ∈ calls, call.StakeSafe)
    (hroom : ∀ entry : ValidatorEntry κ π, .registerValidator entry ∈ calls →
      entry.stakeAmount + (calls.map ValidatorCall.stakeRaise).sum < 2 ^ 63)
    (validatorId : κ) (entry : ValidatorEntry κ π)
    (hentry : (ValidatorDB.empty.run C params calls).validators validatorId = some entry) :
    params.nMinValidatorStake ≤ entry.stakeAmount := by
  have hempty : (ValidatorDB.empty : ValidatorDB κ π).StakeFloor params ∧
      (ValidatorDB.empty : ValidatorDB κ π).StakeRoom (calls.map ValidatorCall.stakeRaise).sum :=
    ⟨fun _ _ h => (by cases h), fun _ _ h => by cases h⟩
  exact ValidatorDB.stakeFloor_run C params hmin calls _ hcalls hroom hempty validatorId entry hentry

/-- Validator `1` registers on the main chain with the minimum stake, as the wallet builds its entry. -/
def minimumRegistration : ValidatorCall Nat Nat (Nat × Nat) :=
  .registerValidator { validatorId := 1, validatorPubKey := 1, stakeAmount := Params.main.nMinValidatorStake }

/-- An update of validator `1` at height `0`, signed under its key. -/
def signedUpdate (updateType : ValidatorUpdateType) (newValue : Int) : ValidatorCall Nat Nat (Nat × Nat) :=
  .processUpdate { validatorId := 1, updateType, newValue, newName := "", updateHeight := 0, signature := (1, 0) }

theorem stake_floor_kept_after_increase :
    ∃ entry, (ValidatorDB.empty.run pairKeys Params.main
        [minimumRegistration, signedUpdate .INCREASE_STAKE COIN]).validators 1 = some entry ∧
      Params.main.nMinValidatorStake ≤ entry.stakeAmount := by
  have hcalls : ∀ call ∈ [minimumRegistration, signedUpdate .INCREASE_STAKE COIN], call.StakeSafe := by
    intro call hcall
    simp only [List.mem_cons, List.not_mem_nil, or_false] at hcall
    rcases hcall with rfl | rfl
    · trivial
    · intro _
      decide
  have hroom : ∀ entry : ValidatorEntry Nat Nat,
      .registerValidator entry ∈ [minimumRegistration, signedUpdate .INCREASE_STAKE COIN] →
      entry.stakeAmount + (([minimumRegistration, signedUpdate .INCREASE_STAKE COIN] : List (ValidatorCall Nat Nat
        (Nat × Nat))).map ValidatorCall.stakeRaise).sum < 2 ^ 63 := by
    intro entry hentry
    simp only [minimumRegistration, signedUpdate, List.mem_cons, ValidatorCall.registerValidator.injEq,
      reduceCtorEq, List.not_mem_nil, or_false] at hentry
    subst hentry
    decide
  exact ⟨_, rfl, stake_floor_kept pairKeys Params.main (by decide) _ hcalls hroom 1 _ rfl⟩

/-- **A signed stake update moves a validator out of the range `[nMinValidatorStake, MAX_MONEY]`**: validator `1`
registers with the minimum stake; an `INCREASE_STAKE` of `-1` leaves it one satoshi below the minimum, and a
`DECREASE_STAKE` of `-MAX_MONEY` after it raises the stake above `MAX_MONEY`. -/
theorem validator_stake_leaves_range :
    ∃ db db' entry entry',
      ValidatorDB.empty.run pairKeys Params.main [minimumRegistration, signedUpdate .INCREASE_STAKE (-1)] = db ∧
      db.validators 1 = some entry ∧ entry.stakeAmount < Params.main.nMinValidatorStake ∧
      db.run pairKeys Params.main [signedUpdate .DECREASE_STAKE (-MAX_MONEY)] = db' ∧
      db'.validators 1 = some entry' ∧ MAX_MONEY < entry'.stakeAmount := by
  have hrun : ValidatorDB.empty.run pairKeys Params.main [minimumRegistration, signedUpdate .INCREASE_STAKE (-1)] =
      _ := rfl
  refine ⟨_, _, _, _, hrun, rfl, ?_, rfl, rfl, ?_⟩
  · decide
  · decide

/-! ### The time locks -/

/-- Validator `1` registered as the wallet registers it: pending, at height `0`, with the `lastActiveHeight` of `0`
its constructor gives. -/
def walletRegistered : ValidatorDB Nat Nat := ValidatorDB.empty.run pairKeys Params.main [minimumRegistration]

/-- Block `300000`; a jail of `1000000` blocks; a signed deactivation; block `300000` again; a signed reactivation. -/
def jailEscape : List (ValidatorCall Nat Nat (Nat × Nat)) :=
  [.processBlock 300000, .jailValidator 1 1000000, signedUpdate .DEACTIVATE 0, .processBlock 300000,
    signedUpdate .REACTIVATE 0]

/-- **A deactivation releases at once, and a jailed validator is active again before its jail ends**: validator `1`,
jailed at height `300000` for `1000000` blocks, deactivates at `300000`.  The next block, at the same height, finds
`300000 - lastActiveHeight` past `UNBONDING_PERIOD` and makes it `INACTIVE`, and `REACTIVATE` then makes it `ACTIVE`,
still at height `300000`. -/
theorem lifecycle_locks_escaped :
    ∃ jailed released active : ValidatorDB Nat Nat, ∃ entry entry' entry'' : ValidatorEntry Nat Nat,
      walletRegistered.run pairKeys Params.main (jailEscape.take 2) = jailed ∧ jailed.validators 1 = some entry ∧
        entry.status = .JAILED ∧ entry.jailReleaseHeight = 300000 + 1000000 ∧
      walletRegistered.run pairKeys Params.main (jailEscape.take 4) = released ∧ released.validators 1 = some entry' ∧
        entry'.status = .INACTIVE ∧ released.currentHeight < 300000 + UNBONDING_PERIOD ∧
      walletRegistered.run pairKeys Params.main jailEscape = active ∧ active.validators 1 = some entry'' ∧
        entry''.status = .ACTIVE ∧ active.currentHeight < 300000 + 1000000 := by
  refine ⟨_, _, _, _, _, _, rfl, rfl, rfl, rfl, rfl, rfl, rfl, ?_, rfl, rfl, rfl, ?_⟩
  · decide
  · decide

end Validators
end Wattx
