import Wattx.SignedWord
import Wattx.StakeCoin
/-!
# ValidatorDb — the validator registry (`validators/validatordb.cpp`)

`ValidatorDB` keeps a `ValidatorEntry` per key id, the chain height, and an index from stake outpoints to key ids.
A validator registers with its stake, pool fee and name; signed `ValidatorUpdate`s change its fee, name, status and
stake; jailing, unjailing and the raw status setter move its status; at each block the validators whose unbonding
period is over become inactive.  The delegation database adds and removes delegated stake through `addDelegation`
and `removeDelegation`.

Key ids, public keys and signatures are type parameters; `CPubKey::GetID`, `CPubKey::Verify` of a hash, and the
hashes the validator layer signs are the fields of a `Crypto`, each hash over the fields its `GetHash` writes.
`CAmount`, `int64_t` and `int` are `Int`.  Each sum, difference and product of them is the machine's, the exact
result wrapped into 64 or 32 bits (`SignedWord.wrap`); a quotient is `Int.tdiv`, which stays in its word but for
`INT64_MIN / -1`, where the processor traps and no value comes back.  A call that returns `false` is `none`: every
such return comes before the first write.  Left out: the views that list or count validators, and `Serialize`.
-/
namespace Wattx
namespace Validators

open SignedWord (wrap)

inductive ValidatorStatus where
  | PENDING
  | ACTIVE
  | INACTIVE
  | JAILED
  | UNBONDING
  deriving DecidableEq, Repr

/-- The signature scheme of the validator layer. -/
structure Crypto (κ π σ : Type) where
  getId : π → κ
  verify : π → Nat → σ → Bool
  /-- `ValidatorUpdate::GetHash`: validator id, update type byte, new value, new name, update height. -/
  updateHash : κ → Nat → Int → String → Int → Nat
  /-- `DelegationRequest::GetHash`: delegator id, delegator key, validator id, amount, height. -/
  delegationRequestHash : κ → π → κ → Int → Int → Nat
  /-- `UndelegationRequest::GetHash`: delegator id, validator id, amount, height. -/
  undelegationRequestHash : κ → κ → Int → Int → Nat
  /-- `RewardClaimRequest::GetHash`: delegator id, validator id (`none` for the null id), height. -/
  rewardClaimHash : κ → Option κ → Int → Nat
  /-- `DelegationEntry::GetDelegationId`: delegator id, validator id, delegation height. -/
  delegationId : κ → κ → Int → Nat

def MIN_POOL_FEE : Int := 0
def MAX_POOL_FEE : Int := 10000
def MAX_VALIDATOR_NAME : Nat := 64
def UNBONDING_PERIOD : Int := 259200

/-- A validator's entry, with the defaults of its constructor. -/
structure ValidatorEntry (κ π : Type) where
  validatorId : κ
  validatorPubKey : π
  stakeAmount : Int := 0
  poolFeeRate : Int := 0
  registrationHeight : Int := 0
  lastActiveHeight : Int := 0
  status : ValidatorStatus := .PENDING
  validatorName : String := ""
  stakeOutpoint : COutPoint := COutPoint.null
  jailReleaseHeight : Int := 0
  totalDelegated : Int := 0
  delegatorCount : Int := 0

namespace ValidatorEntry

variable {κ π : Type}

def getTotalStake (entry : ValidatorEntry κ π) : Int := wrap 64 (entry.stakeAmount + entry.totalDelegated)

def meetsMinimumStake (entry : ValidatorEntry κ π) (params : Params) : Bool :=
  entry.getTotalStake ≥ params.nMinValidatorStake

def isEligibleForStaking (entry : ValidatorEntry κ π) (params : Params) (currentHeight : Int) : Bool :=
  if entry.status ≠ .ACTIVE then false
  else if !entry.meetsMinimumStake params then false
  else if wrap 32 (currentHeight - entry.registrationHeight) < 2000 then false
  else true

def calculateValidatorReward (entry : ValidatorEntry κ π) (blockReward : Int) : Int :=
  if entry.totalDelegated = 0 then blockReward
  else
    let totalStake := entry.getTotalStake
    if totalStake = 0 then 0
    else
      let validatorStakeShare := (wrap 64 (blockReward * entry.stakeAmount)).tdiv totalStake
      let delegatorsShare := wrap 64 (blockReward - validatorStakeShare)
      let poolFee := (wrap 64 (delegatorsShare * entry.poolFeeRate)).tdiv 10000
      wrap 64 (validatorStakeShare + poolFee)

def calculateDelegatorsReward (entry : ValidatorEntry κ π) (blockReward : Int) : Int :=
  if entry.totalDelegated = 0 then 0
  else
    let totalStake := entry.getTotalStake
    if totalStake = 0 then 0
    else
      let delegatorsShare := (wrap 64 (blockReward * entry.totalDelegated)).tdiv totalStake
      let poolFee := (wrap 64 (delegatorsShare * entry.poolFeeRate)).tdiv 10000
      wrap 64 (delegatorsShare - poolFee)

/-- The loop body of `ValidatorDB::ProcessBlock` for one validator at `height`. -/
def processBlock (height : Int) (entry : ValidatorEntry κ π) : ValidatorEntry κ π :=
  if entry.status = .UNBONDING ∧ wrap 32 (height - entry.lastActiveHeight) ≥ UNBONDING_PERIOD then
    { entry with status := .INACTIVE }
  else entry

end ValidatorEntry

inductive ValidatorUpdateType where
  | UPDATE_FEE
  | UPDATE_NAME
  | DEACTIVATE
  | REACTIVATE
  | INCREASE_STAKE
  | DECREASE_STAKE
  deriving DecidableEq, Repr

/-- The byte an update type is written as. -/
def ValidatorUpdateType.toByte : ValidatorUpdateType → Nat
  | .UPDATE_FEE => 1
  | .UPDATE_NAME => 2
  | .DEACTIVATE => 3
  | .REACTIVATE => 4
  | .INCREASE_STAKE => 5
  | .DECREASE_STAKE => 6

structure ValidatorUpdate (κ σ : Type) where
  validatorId : κ
  updateType : ValidatorUpdateType
  newValue : Int
  newName : String
  updateHeight : Int
  signature : σ

variable {κ π σ : Type}

def ValidatorUpdate.getHash (C : Crypto κ π σ) (update : ValidatorUpdate κ σ) : Nat :=
  C.updateHash update.validatorId update.updateType.toByte update.newValue update.newName update.updateHeight

def ValidatorUpdate.verify (C : Crypto κ π σ) (update : ValidatorUpdate κ σ) (pubkey : π) : Bool :=
  C.verify pubkey (update.getHash C) update.signature

structure ValidatorDB (κ π : Type) where
  validators : κ → Option (ValidatorEntry κ π)
  currentHeight : Int
  outpointIndex : COutPoint → Option κ

namespace ValidatorDB

/-- The constructor: no validators, at height zero. -/
def empty : ValidatorDB κ π := ⟨fun _ => none, 0, fun _ => none⟩

def getValidator (db : ValidatorDB κ π) (validatorId : κ) : Option (ValidatorEntry κ π) := db.validators validatorId

def getValidatorByOutpoint (db : ValidatorDB κ π) (outpoint : COutPoint) : Option (ValidatorEntry κ π) :=
  (db.outpointIndex outpoint).bind db.validators

def isValidatorStake (db : ValidatorDB κ π) (outpoint : COutPoint) : Bool := (db.outpointIndex outpoint).isSome

def setHeight (db : ValidatorDB κ π) (height : Int) : ValidatorDB κ π := { db with currentHeight := height }

variable [DecidableEq κ]

/-- Store `entry` under `validatorId`: the writes through `it->second`. -/
def setEntry (db : ValidatorDB κ π) (validatorId : κ) (entry : ValidatorEntry κ π) : ValidatorDB κ π :=
  { db with validators := Function.update db.validators validatorId (some entry) }

def registerValidator (params : Params) (db : ValidatorDB κ π) (entry : ValidatorEntry κ π) :
    Option (ValidatorDB κ π) :=
  if (db.validators entry.validatorId).isSome then none
  else if entry.poolFeeRate < MIN_POOL_FEE ∨ entry.poolFeeRate > MAX_POOL_FEE then none
  else if entry.stakeAmount < params.nMinValidatorStake then none
  else if entry.validatorName.utf8ByteSize > MAX_VALIDATOR_NAME then none
  else
    let db := db.setEntry entry.validatorId entry
    if entry.stakeOutpoint.isNull then some db
    else some { db with outpointIndex := Function.update db.outpointIndex entry.stakeOutpoint (some entry.validatorId) }

def processUpdate (C : Crypto κ π σ) (params : Params) (db : ValidatorDB κ π) (update : ValidatorUpdate κ σ) :
    Option (ValidatorDB κ π) :=
  match db.validators update.validatorId with
  | none => none
  | some entry =>
    if !update.verify C entry.validatorPubKey then none
    else
      match update.updateType with
      | .UPDATE_FEE =>
        if update.newValue < MIN_POOL_FEE ∨ update.newValue > MAX_POOL_FEE then none
        else some (db.setEntry update.validatorId { entry with poolFeeRate := update.newValue })
      | .UPDATE_NAME =>
        if update.newName.utf8ByteSize > MAX_VALIDATOR_NAME then none
        else some (db.setEntry update.validatorId { entry with validatorName := update.newName })
      | .DEACTIVATE => some (db.setEntry update.validatorId { entry with status := .UNBONDING })
      | .REACTIVATE =>
        if entry.status = .JAILED ∧ db.currentHeight < entry.jailReleaseHeight then none
        else if entry.status = .INACTIVE ∨ entry.status = .JAILED then
          some (db.setEntry update.validatorId { entry with status := .ACTIVE })
        else some db
      | .INCREASE_STAKE =>
        some (db.setEntry update.validatorId
          { entry with stakeAmount := wrap 64 (entry.stakeAmount + update.newValue) })
      | .DECREASE_STAKE =>
        if update.newValue > entry.stakeAmount then none
        else if wrap 64 (entry.stakeAmount - update.newValue) < params.nMinValidatorStake then none
        else
          some (db.setEntry update.validatorId
            { entry with stakeAmount := wrap 64 (entry.stakeAmount - update.newValue) })

def updateStakeOutpoint (db : ValidatorDB κ π) (validatorId : κ) (newOutpoint : COutPoint) :
    Option (ValidatorDB κ π) :=
  match db.validators validatorId with
  | none => none
  | some entry =>
    let outpointIndex :=
      if entry.stakeOutpoint.isNull then db.outpointIndex
      else Function.update db.outpointIndex entry.stakeOutpoint none
    let outpointIndex :=
      if newOutpoint.isNull then outpointIndex else Function.update outpointIndex newOutpoint (some validatorId)
    some { db.setEntry validatorId { entry with stakeOutpoint := newOutpoint } with outpointIndex }

def setValidatorStatus (db : ValidatorDB κ π) (validatorId : κ) (status : ValidatorStatus) :
    Option (ValidatorDB κ π) :=
  match db.validators validatorId with
  | none => none
  | some entry =>
    if status = .ACTIVE then some (db.setEntry validatorId { entry with status, lastActiveHeight := db.currentHeight })
    else some (db.setEntry validatorId { entry with status })

def jailValidator (db : ValidatorDB κ π) (validatorId : κ) (jailBlocks : Int) : Option (ValidatorDB κ π) :=
  match db.validators validatorId with
  | none => none
  | some entry =>
    some (db.setEntry validatorId
      { entry with status := .JAILED, jailReleaseHeight := wrap 32 (db.currentHeight + jailBlocks) })

def unjailValidator (db : ValidatorDB κ π) (validatorId : κ) : Option (ValidatorDB κ π) :=
  match db.validators validatorId with
  | none => none
  | some entry =>
    if entry.status ≠ .JAILED then none
    else if db.currentHeight < entry.jailReleaseHeight then none
    else some (db.setEntry validatorId { entry with status := .ACTIVE, jailReleaseHeight := 0 })

def addDelegation (db : ValidatorDB κ π) (validatorId : κ) (amount : Int) : Option (ValidatorDB κ π) :=
  match db.validators validatorId with
  | none => none
  | some entry =>
    some (db.setEntry validatorId
      { entry with
        totalDelegated := wrap 64 (entry.totalDelegated + amount)
        delegatorCount := wrap 32 (entry.delegatorCount + 1) })

def removeDelegation (db : ValidatorDB κ π) (validatorId : κ) (amount : Int) : Option (ValidatorDB κ π) :=
  match db.validators validatorId with
  | none => none
  | some entry =>
    if amount > entry.totalDelegated then none
    else
      some (db.setEntry validatorId
        { entry with
          totalDelegated := wrap 64 (entry.totalDelegated - amount)
          delegatorCount := if entry.delegatorCount > 0 then entry.delegatorCount - 1 else entry.delegatorCount })

def processBlock (db : ValidatorDB κ π) (height : Int) : ValidatorDB κ π :=
  { db with currentHeight := height, validators := fun validatorId => (db.validators validatorId).map (·.processBlock height) }

/-! ### What each call writes -/

@[simp] theorem setEntry_validators (db : ValidatorDB κ π) (validatorId : κ) (entry : ValidatorEntry κ π) :
    (db.setEntry validatorId entry).validators = Function.update db.validators validatorId (some entry) := rfl

/-- Every registered validator's entry satisfies `P`. -/
def Every (P : ValidatorEntry κ π → Prop) (db : ValidatorDB κ π) : Prop :=
  ∀ validatorId entry, db.validators validatorId = some entry → P entry

section Every

variable {P Q : ValidatorEntry κ π → Prop} {db db' : ValidatorDB κ π} {validatorId : κ} {entry : ValidatorEntry κ π}

/-- A write of one entry that satisfies `P` keeps every entry satisfying it. -/
theorem Every.of_validators (h : db.Every P)
    (hvalidators : db'.validators = Function.update db.validators validatorId (some entry)) (hentry : P entry) :
    db'.Every P := by
  intro v e he
  rw [hvalidators] at he
  by_cases hv : v = validatorId
  · subst hv
    rw [Function.update_self, Option.some.injEq] at he
    exact he ▸ hentry
  · rw [Function.update_of_ne hv] at he
    exact h v e he

theorem Every.setEntry (h : db.Every P) (hentry : P entry) : (db.setEntry validatorId entry).Every P :=
  h.of_validators (setEntry_validators db validatorId entry) hentry

omit [DecidableEq κ] in
theorem Every.mono (h : db.Every P) (hPQ : ∀ entry, P entry → Q entry) : db.Every Q :=
  fun v e he => hPQ e (h v e he)

end Every

/-- The delegated total and count of each validator, `none` for an unknown id: what the delegation database
writes, and no other call changes. -/
def delegated (db : ValidatorDB κ π) (validatorId : κ) : Option (Int × Int) :=
  (db.validators validatorId).map fun entry => (entry.totalDelegated, entry.delegatorCount)

variable {db db' : ValidatorDB κ π}

theorem delegated_setEntry {validatorId : κ} {entry entry' : ValidatorEntry κ π}
    (h : db.validators validatorId = some entry) (htotal : entry'.totalDelegated = entry.totalDelegated)
    (hcount : entry'.delegatorCount = entry.delegatorCount) : (db.setEntry validatorId entry').delegated = db.delegated := by
  funext v
  by_cases hv : v = validatorId
  · subst hv
    simp [delegated, h, htotal, hcount]
  · simp [delegated, Function.update_of_ne hv]

omit [DecidableEq κ] in
theorem delegated_getD {o : Option (ValidatorDB κ π)} (h : ∀ db', o = some db' → db'.delegated = db.delegated) :
    (o.getD db).delegated = db.delegated := by
  cases o with
  | none => rfl
  | some db' => exact h db' rfl

theorem registerValidator_some {params : Params} {entry : ValidatorEntry κ π}
    (h : db.registerValidator params entry = some db') :
    db.validators entry.validatorId = none ∧
      db'.validators = Function.update db.validators entry.validatorId (some entry) := by
  unfold registerValidator at h
  split_ifs at h with hknown
  all_goals
    cases h
    exact ⟨Option.not_isSome_iff_eq_none.1 hknown, rfl⟩

theorem processUpdate_delegated {C : Crypto κ π σ} {params : Params} {update : ValidatorUpdate κ σ}
    (h : db.processUpdate C params update = some db') : db'.delegated = db.delegated := by
  unfold processUpdate at h
  split at h
  · cases h
  · rename_i entry hentry
    obtain ⟨-, h⟩ := Option.ite_none_left_eq_some.mp h
    -- every accepted update rewrites the fee, name, status or stake of the entry, or nothing
    cases hty : update.updateType <;> simp only [hty] at h <;> (try split_ifs at h) <;> cases h <;>
      first | rfl | exact delegated_setEntry hentry rfl rfl

theorem updateStakeOutpoint_delegated {validatorId : κ} {newOutpoint : COutPoint}
    (h : db.updateStakeOutpoint validatorId newOutpoint = some db') : db'.delegated = db.delegated := by
  unfold updateStakeOutpoint at h
  split at h
  · cases h
  · rename_i entry hentry
    cases h
    exact delegated_setEntry hentry rfl rfl

theorem setValidatorStatus_delegated {validatorId : κ} {status : ValidatorStatus}
    (h : db.setValidatorStatus validatorId status = some db') : db'.delegated = db.delegated := by
  unfold setValidatorStatus at h
  split at h
  · cases h
  · rename_i entry hentry
    split_ifs at h <;> cases h <;> exact delegated_setEntry hentry rfl rfl

theorem jailValidator_delegated {validatorId : κ} {jailBlocks : Int}
    (h : db.jailValidator validatorId jailBlocks = some db') : db'.delegated = db.delegated := by
  unfold jailValidator at h
  split at h
  · cases h
  · rename_i entry hentry
    cases h
    exact delegated_setEntry hentry rfl rfl

theorem unjailValidator_delegated {validatorId : κ} (h : db.unjailValidator validatorId = some db') :
    db'.delegated = db.delegated := by
  unfold unjailValidator at h
  split at h
  · cases h
  · rename_i entry hentry
    split_ifs at h
    cases h
    exact delegated_setEntry hentry rfl rfl

omit [DecidableEq κ] in
theorem processBlock_delegated (height : Int) : (db.processBlock height).delegated = db.delegated := by
  funext v
  simp only [delegated, processBlock, Option.map_map]
  congr 1
  funext entry
  simp only [Function.comp, ValidatorEntry.processBlock]
  split_ifs <;> rfl

theorem addDelegation_eq {validatorId : κ} {entry : ValidatorEntry κ π} (h : db.validators validatorId = some entry)
    (amount : Int) :
    db.addDelegation validatorId amount = some (db.setEntry validatorId
      { entry with
        totalDelegated := wrap 64 (entry.totalDelegated + amount)
        delegatorCount := wrap 32 (entry.delegatorCount + 1) }) := by
  simp [addDelegation, h]

theorem removeDelegation_eq {validatorId : κ} {entry : ValidatorEntry κ π} (h : db.validators validatorId = some entry)
    {amount : Int} (hle : amount ≤ entry.totalDelegated) :
    db.removeDelegation validatorId amount = some (db.setEntry validatorId
      { entry with
        totalDelegated := wrap 64 (entry.totalDelegated - amount)
        delegatorCount := if entry.delegatorCount > 0 then entry.delegatorCount - 1 else entry.delegatorCount }) := by
  simp [removeDelegation, h, not_lt.2 hle]

end ValidatorDB

/-- The calls that change a `ValidatorDB`, other than the two the delegation database makes. -/
inductive ValidatorCall (κ π σ : Type) where
  | registerValidator (entry : ValidatorEntry κ π)
  | processUpdate (update : ValidatorUpdate κ σ)
  | updateStakeOutpoint (validatorId : κ) (newOutpoint : COutPoint)
  | setValidatorStatus (validatorId : κ) (status : ValidatorStatus)
  | jailValidator (validatorId : κ) (jailBlocks : Int)
  | unjailValidator (validatorId : κ)
  | setHeight (height : Int)
  | processBlock (height : Int)

variable [DecidableEq κ]

/-- The database after a call; a refused call leaves it as it was. -/
def ValidatorCall.apply (C : Crypto κ π σ) (params : Params) (db : ValidatorDB κ π) : ValidatorCall κ π σ → ValidatorDB κ π
  | .registerValidator entry => (db.registerValidator params entry).getD db
  | .processUpdate update => (db.processUpdate C params update).getD db
  | .updateStakeOutpoint validatorId newOutpoint => (db.updateStakeOutpoint validatorId newOutpoint).getD db
  | .setValidatorStatus validatorId status => (db.setValidatorStatus validatorId status).getD db
  | .jailValidator validatorId jailBlocks => (db.jailValidator validatorId jailBlocks).getD db
  | .unjailValidator validatorId => (db.unjailValidator validatorId).getD db
  | .setHeight height => db.setHeight height
  | .processBlock height => db.processBlock height

/-- **Only a registration changes the delegation counters**: every other call keeps each validator's delegated total
and count, and which validators are known; a registration adds its entry under a new id. -/
theorem ValidatorCall.delegated_apply (C : Crypto κ π σ) (params : Params) (db : ValidatorDB κ π)
    (call : ValidatorCall κ π σ) :
    (call.apply C params db).delegated = db.delegated ∨
      ∃ entry, call = .registerValidator entry ∧ db.validators entry.validatorId = none ∧
        (call.apply C params db).validators = Function.update db.validators entry.validatorId (some entry) := by
  cases call with
  | registerValidator entry =>
    cases h : db.registerValidator params entry with
    | none =>
      left
      simp [apply, h]
    | some db' =>
      right
      simp only [apply, h, Option.getD_some]
      exact ⟨entry, rfl, ValidatorDB.registerValidator_some h⟩
  | processUpdate update => exact .inl (ValidatorDB.delegated_getD fun _ => ValidatorDB.processUpdate_delegated)
  | updateStakeOutpoint validatorId newOutpoint =>
    exact .inl (ValidatorDB.delegated_getD fun _ => ValidatorDB.updateStakeOutpoint_delegated)
  | setValidatorStatus validatorId status =>
    exact .inl (ValidatorDB.delegated_getD fun _ => ValidatorDB.setValidatorStatus_delegated)
  | jailValidator validatorId jailBlocks =>
    exact .inl (ValidatorDB.delegated_getD fun _ => ValidatorDB.jailValidator_delegated)
  | unjailValidator validatorId => exact .inl (ValidatorDB.delegated_getD fun _ => ValidatorDB.unjailValidator_delegated)
  | setHeight height => exact .inl rfl
  | processBlock height => exact .inl (ValidatorDB.processBlock_delegated height)

end Validators
end Wattx
