import Mathlib.Data.Finset.Sort
import Wattx.Checked
import Wattx.Params
import Wattx.SignedWord
/-!
# TrustScore — the validator registry, heartbeats and uptime (`trust/trustscore.cpp`, `trust/heartbeat_net.cpp`)

`TrustScoreManager` keeps a `ValidatorInfo` per key id and the chain height.  A validator is registered with its
stake, pool fee and registration height; each heartbeat it is credited for raises `heartbeatsReceived` and moves
`lastHeartbeatHeight`, at least `nHeartbeatInterval` blocks after the previous one; at each block
`UpdateHeartbeatExpectations` recomputes `heartbeatsExpected` from the height, capped at `nUptimeWindow` blocks.
The uptime is `heartbeatsReceived * 1000 / heartbeatsExpected`, and the trust tier its threshold.

`HeartbeatManager` is the node's P2P side.  It keeps the hashes of the heartbeats it has seen, and handles the three
messages: `HEARTBEAT` (`processHeartbeat`), `VALIDATORS` (`processValidatorList`) and `REGVALIDATOR`
(`processValidatorRegistration`), and each connected block (`onNewBlock`).  Key ids, public keys and signatures are
type parameters; hashing, `CPubKey::GetID` and `CPubKey::Verify` are the fields of a `Crypto`.

`processHeartbeat` holds `cs_heartbeat` for its whole body and calls `CleanupSeenHeartbeats`, which locks it again: a
`Mutex` is not recursive, so the call never completes (`Fault.doubleLock`).  The lock is modelled as the flag `held`
that `lock` is passed.

Heights, stakes and counters are C++ `int` and `int64_t`: `Int`, divided by `Int.tdiv`.  The spacing check compares
a heartbeat's height with the `int` sum `lastHeartbeatHeight + nHeartbeatInterval`, which wraps as the machine's
does (`SignedWord.wrap 32`): past `INT_MAX` it comes back negative, and every later height passes.  The other
differences and counts are exact here; they leave their `int` only for heights `2 ^ 31` apart or after `2 ^ 31`
heartbeats.  Left out: the node's own
heartbeats and registrations (`BroadcastHeartbeat`, `CreateRegistration`), the address and check-in fields and the
peer discovery a heartbeat's address feeds, and the views that only read the registry.
-/
namespace Wattx
namespace Trust

inductive TrustTier where
  | NONE
  | BRONZE
  | SILVER
  | GOLD
  | PLATINUM
  deriving DecidableEq, Repr

/-- A validator's entry in the registry: the fields the trust code reads and writes. -/
structure ValidatorInfo (κ : Type) where
  validatorId : κ
  stakeAmount : Int
  poolFeeRate : Int
  registrationHeight : Int
  lastHeartbeatHeight : Int
  heartbeatsExpected : Int
  heartbeatsReceived : Int
  isActive : Bool
  deriving DecidableEq, Repr

namespace ValidatorInfo

variable {κ : Type}

def getUptimePercentage (info : ValidatorInfo κ) : Int :=
  if info.heartbeatsExpected = 0 then 1000
  else (info.heartbeatsReceived * 1000).tdiv info.heartbeatsExpected

def getTrustTier (info : ValidatorInfo κ) (params : Params) : TrustTier :=
  if !info.isActive ∨ info.stakeAmount < params.nMinValidatorStake then .NONE
  else
    let uptime := info.getUptimePercentage
    if uptime ≥ params.nPlatinumUptimeThreshold then .PLATINUM
    else if uptime ≥ params.nGoldUptimeThreshold then .GOLD
    else if uptime ≥ params.nSilverUptimeThreshold then .SILVER
    else if uptime ≥ params.nBronzeUptimeThreshold then .BRONZE
    else .NONE

def meetsMinimumStake (info : ValidatorInfo κ) (params : Params) : Bool :=
  info.stakeAmount ≥ params.nMinValidatorStake

/-- The body of the loop of `UpdateHeartbeatExpectations` for one validator at `height`. -/
def updateExpectation (params : Params) (height : Int) (info : ValidatorInfo κ) : ValidatorInfo κ :=
  if !info.isActive then info
  else
    let blocksSinceRegistration := height - info.registrationHeight
    let info :=
      if blocksSinceRegistration > 0 then
        { info with heartbeatsExpected := blocksSinceRegistration.tdiv params.nHeartbeatInterval }
      else info
    let windowBlocks := min blocksSinceRegistration params.nUptimeWindow
    if windowBlocks > 0 then { info with heartbeatsExpected := windowBlocks.tdiv params.nHeartbeatInterval }
    else info

end ValidatorInfo

/-- A heartbeat message, less the address it announces. -/
structure Heartbeat (κ σ : Type) where
  validatorId : κ
  blockHeight : Int
  blockHash : Nat
  timestamp : Int
  signature : σ

/-- A `REGVALIDATOR` message. -/
structure ValidatorRegistration (π σ : Type) where
  validatorPubKey : π
  stakeAmount : Int
  poolFeeRate : Int
  registrationHeight : Int
  signature : σ

/-- The primitives the trust code calls: the id of a public key, signature verification of a hash, and the two
message hashes. -/
structure Crypto (κ π σ : Type) where
  getId : π → κ
  verify : π → Nat → σ → Bool
  registrationHash : ValidatorRegistration π σ → Nat
  heartbeatHash : Heartbeat κ σ → Nat

variable {κ π σ : Type}

/-- `Heartbeat::Verify`: the heartbeat's signature under `pubkey`. -/
def Heartbeat.verify (C : Crypto κ π σ) (heartbeat : Heartbeat κ σ) (pubkey : π) : Bool :=
  C.verify pubkey (C.heartbeatHash heartbeat) heartbeat.signature

/-- `ValidatorRegistration::Verify`: the registration's signature under the key it registers. -/
def ValidatorRegistration.verify (C : Crypto κ π σ) (reg : ValidatorRegistration π σ) : Bool :=
  C.verify reg.validatorPubKey (C.registrationHash reg) reg.signature

structure TrustScoreManager (κ : Type) where
  validators : κ → Option (ValidatorInfo κ)
  currentHeight : Int

namespace TrustScoreManager

/-- The constructor: no validators, at height zero. -/
def empty : TrustScoreManager κ := ⟨fun _ => none, 0⟩

variable [DecidableEq κ]

/-- `RegisterValidator`; `none` is a refusal, which changes nothing. -/
def registerValidator (params : Params) (m : TrustScoreManager κ) (validatorId : κ) (stakeAmount poolFeeRate : Int)
    (height : Int) : Option (TrustScoreManager κ) :=
  if stakeAmount < params.nMinValidatorStake then none
  else if (m.validators validatorId).isSome then none
  else if poolFeeRate < 0 ∨ poolFeeRate > 10000 then none
  else
    let info : ValidatorInfo κ :=
      { validatorId, stakeAmount, poolFeeRate, registrationHeight := height, lastHeartbeatHeight := height,
        heartbeatsExpected := 0, heartbeatsReceived := 0, isActive := true }
    some { m with validators := Function.update m.validators validatorId (some info) }

/-- `TrustScoreManager::ProcessHeartbeat` at `height`; `none` is a refusal, which changes nothing. -/
def processHeartbeat (params : Params) (m : TrustScoreManager κ) (heartbeat : Heartbeat κ σ) (height : Int) :
    Option (TrustScoreManager κ) :=
  match m.validators heartbeat.validatorId with
  | none => none
  | some info =>
    if !info.isActive then none
    -- too early for the next heartbeat
    else if height < SignedWord.wrap 32 (info.lastHeartbeatHeight + params.nHeartbeatInterval) then none
    else
      let info := { info with heartbeatsReceived := info.heartbeatsReceived + 1, lastHeartbeatHeight := height }
      some { m with validators := Function.update m.validators heartbeat.validatorId (some info) }

def updateHeartbeatExpectations (params : Params) (m : TrustScoreManager κ) (height : Int) : TrustScoreManager κ :=
  { currentHeight := height, validators := fun id => (m.validators id).map (·.updateExpectation params height) }

def setHeight (m : TrustScoreManager κ) (height : Int) : TrustScoreManager κ := { m with currentHeight := height }

variable {params : Params} {m m' : TrustScoreManager κ}

/-- A registration that went through: the stake, the id and the fee passed their checks, and a fresh entry was
written under the id. -/
theorem registerValidator_some {validatorId : κ} {stakeAmount poolFeeRate height : Int}
    (h : m.registerValidator params validatorId stakeAmount poolFeeRate height = some m') :
    params.nMinValidatorStake ≤ stakeAmount ∧ m.validators validatorId = none ∧ 0 ≤ poolFeeRate ∧
      poolFeeRate ≤ 10000 ∧
      m' = { m with
        validators := Function.update m.validators validatorId
          (some { validatorId, stakeAmount, poolFeeRate, registrationHeight := height, lastHeartbeatHeight := height,
                  heartbeatsExpected := 0, heartbeatsReceived := 0, isActive := true }) } := by
  unfold registerValidator at h
  split_ifs at h with hstake hknown hfee
  cases h
  exact ⟨Int.not_lt.1 hstake, Option.not_isSome_iff_eq_none.1 hknown, by omega, by omega, rfl⟩

/-- A credited heartbeat: its validator is known and active, and `height` is at least the wrapped sum of the last
height and an interval; the count goes up by one and the last height becomes `height`. -/
theorem processHeartbeat_some {heartbeat : Heartbeat κ σ} {height : Int}
    (h : m.processHeartbeat params heartbeat height = some m') :
    ∃ info, m.validators heartbeat.validatorId = some info ∧ info.isActive = true ∧
      SignedWord.wrap 32 (info.lastHeartbeatHeight + params.nHeartbeatInterval) ≤ height ∧
      m' = { m with
        validators := Function.update m.validators heartbeat.validatorId
          (some { info with heartbeatsReceived := info.heartbeatsReceived + 1, lastHeartbeatHeight := height }) } := by
  unfold processHeartbeat at h
  split at h
  · cases h
  · rename_i info hinfo
    split_ifs at h with hactive htime
    cases h
    exact ⟨info, hinfo, by simpa using hactive, Int.not_lt.1 htime, rfl⟩

theorem processHeartbeat_eq_some {heartbeat : Heartbeat κ σ} {height : Int} {info : ValidatorInfo κ}
    (hinfo : m.validators heartbeat.validatorId = some info) (hactive : info.isActive = true)
    (htime : SignedWord.wrap 32 (info.lastHeartbeatHeight + params.nHeartbeatInterval) ≤ height) :
    m.processHeartbeat params heartbeat height =
      some { m with
        validators := Function.update m.validators heartbeat.validatorId
          (some { info with heartbeatsReceived := info.heartbeatsReceived + 1, lastHeartbeatHeight := height }) } := by
  simp only [processHeartbeat, hinfo, hactive, Bool.not_true, Bool.false_eq_true, if_false, if_neg (Int.not_lt.2 htime)]

end TrustScoreManager

namespace ValidatorInfo

variable {params : Params} {height : Int} {info : ValidatorInfo κ}

/-- `UpdateHeartbeatExpectations` writes only the expected count: from the blocks since registration capped at the
window when that is positive, else from the blocks since registration when those are, else not at all. -/
theorem updateExpectation_eq :
    info.updateExpectation params height =
      { info with
        heartbeatsExpected :=
          if info.isActive ∧ 0 < min (height - info.registrationHeight) params.nUptimeWindow then
            (min (height - info.registrationHeight) params.nUptimeWindow).tdiv params.nHeartbeatInterval
          else if info.isActive ∧ 0 < height - info.registrationHeight then
            (height - info.registrationHeight).tdiv params.nHeartbeatInterval
          else info.heartbeatsExpected } := by
  obtain ⟨_, _, _, _, _, _, _, isActive⟩ := info
  cases isActive with
  | false => rfl
  | true =>
    simp only [updateExpectation, Bool.not_true, Bool.false_eq_true, if_false, true_and]
    split_ifs <;> rfl

end ValidatorInfo

/-- How a call of the node fails to complete. -/
inductive Fault where
  /-- a thread locks `cs_heartbeat` while it holds it -/
  | doubleLock
  deriving DecidableEq, Repr

/-- `LOCK(cs_heartbeat)` by a thread that already holds it when `held`. -/
def lock (held : Bool) : Except Fault Unit := if held then .error .doubleLock else .ok ()

def MAX_SEEN_HEARTBEATS : Nat := 10000

structure HeartbeatManager (κ : Type) where
  trust : TrustScoreManager κ
  seenHeartbeats : Finset Nat

namespace HeartbeatManager

/-- A node just started: the trust manager as constructed, no heartbeat seen. -/
def empty : HeartbeatManager κ := ⟨TrustScoreManager.empty, ∅⟩

/-- `CleanupSeenHeartbeats`: it locks `cs_heartbeat`, then erases the first half of the seen hashes in the set's
order. -/
def cleanupSeenHeartbeats (held : Bool) (seen : Finset Nat) : Except Fault (Finset Nat) := do
  lock held
  if seen.card > MAX_SEEN_HEARTBEATS / 2 then
    pure (((seen.sort (· ≤ ·)).drop (seen.card / 2)).toFinset)
  else pure seen

variable [DecidableEq κ]

/-- `HeartbeatManager::ProcessHeartbeat`: whether the heartbeat was credited, and the manager after it.  The hash is
recorded as seen before the trust manager is asked, so a refused heartbeat is not tried again. -/
def processHeartbeat (C : Crypto κ π σ) (params : Params) (m : HeartbeatManager κ) (heartbeat : Heartbeat κ σ) :
    Except Fault (Bool × HeartbeatManager κ) := do
  lock false
  let hbHash := C.heartbeatHash heartbeat
  if hbHash ∈ m.seenHeartbeats then pure (false, m)
  else
    let seen := insert hbHash m.seenHeartbeats
    -- `cs_heartbeat` is still held here
    let seen ← if seen.card > MAX_SEEN_HEARTBEATS then cleanupSeenHeartbeats true seen else pure seen
    match m.trust.processHeartbeat params heartbeat heartbeat.blockHeight with
    | none => pure (false, { m with seenHeartbeats := seen })
    | some trust => pure (true, { trust, seenHeartbeats := seen })

def processValidatorRegistration (C : Crypto κ π σ) (params : Params) (m : HeartbeatManager κ)
    (reg : ValidatorRegistration π σ) : Bool × HeartbeatManager κ :=
  if !reg.verify C then (false, m)
  else if reg.stakeAmount < params.nMinValidatorStake then (false, m)
  else
    match m.trust.registerValidator params (C.getId reg.validatorPubKey) reg.stakeAmount reg.poolFeeRate
        reg.registrationHeight with
    | none => (false, m)
    | some trust => (true, { m with trust })

/-- One entry of a `VALIDATORS` list: an active entry with the minimum stake and an id not yet known is registered
as it stands, the result of `RegisterValidator` ignored. -/
def processValidatorInfo (params : Params) (m : HeartbeatManager κ) (info : ValidatorInfo κ) : HeartbeatManager κ :=
  if info.isActive ∧ info.meetsMinimumStake params then
    if (m.trust.validators info.validatorId).isNone then
      match m.trust.registerValidator params info.validatorId info.stakeAmount info.poolFeeRate
          info.registrationHeight with
      | none => m
      | some trust => { m with trust }
    else m
  else m

def processValidatorList (params : Params) (m : HeartbeatManager κ) (list : List (ValidatorInfo κ)) :
    HeartbeatManager κ :=
  list.foldl (processValidatorInfo params) m

def onNewBlock (params : Params) (m : HeartbeatManager κ) (height : Int) : HeartbeatManager κ :=
  { m with trust := (m.trust.updateHeartbeatExpectations params height).setHeight height }

end HeartbeatManager

/-- What reaches the node: the three messages of `PeerManagerImpl::ProcessMessage`, and a connected block. -/
inductive Event (κ π σ : Type) where
  | heartbeat (heartbeat : Heartbeat κ σ)
  | validators (list : List (ValidatorInfo κ))
  | regValidator (reg : ValidatorRegistration π σ)
  | newBlock (height : Int)

namespace HeartbeatManager

variable [DecidableEq κ]

/-- The node's handling of one event, what the handlers return dropped. -/
def handle (C : Crypto κ π σ) (params : Params) (m : HeartbeatManager κ) : Event κ π σ → Except Fault (HeartbeatManager κ)
  | .heartbeat hb => Prod.snd <$> m.processHeartbeat C params hb
  | .validators list => .ok (m.processValidatorList params list)
  | .regValidator reg => .ok (m.processValidatorRegistration C params reg).2
  | .newBlock height => .ok (m.onNewBlock params height)

/-- The node's handling of a sequence of events, stopped by the first that does not complete. -/
def run (C : Crypto κ π σ) (params : Params) (m : HeartbeatManager κ) (events : List (Event κ π σ)) :
    Except Fault (HeartbeatManager κ) :=
  events.foldlM (handle C params) m

open Checked

variable {C : Crypto κ π σ} {params : Params} {m m' : HeartbeatManager κ}

theorem cleanupSeenHeartbeats_held (seen : Finset Nat) : cleanupSeenHeartbeats true seen = .error .doubleLock := rfl

/-- What a completed `processHeartbeat` did: a hash already seen changes nothing; a new one is recorded, the set
not having outgrown its bound, and the trust manager credits the heartbeat or refuses it. -/
theorem processHeartbeat_ok {heartbeat : Heartbeat κ σ} {credited : Bool}
    (h : m.processHeartbeat C params heartbeat = .ok (credited, m')) :
    (C.heartbeatHash heartbeat ∈ m.seenHeartbeats ∧ credited = false ∧ m' = m) ∨
    (C.heartbeatHash heartbeat ∉ m.seenHeartbeats ∧
      (insert (C.heartbeatHash heartbeat) m.seenHeartbeats).card ≤ MAX_SEEN_HEARTBEATS ∧
      m'.seenHeartbeats = insert (C.heartbeatHash heartbeat) m.seenHeartbeats ∧
      ((m.trust.processHeartbeat params heartbeat heartbeat.blockHeight = none ∧ credited = false ∧
          m'.trust = m.trust) ∨
        (m.trust.processHeartbeat params heartbeat heartbeat.blockHeight = some m'.trust ∧ credited = true))) := by
  simp only [processHeartbeat, lock, Bool.false_eq_true, if_false, bind_ok_iff] at h
  obtain ⟨_, -, h⟩ := h
  split at h
  · rename_i hseen
    cases h
    exact .inl ⟨hseen, rfl, rfl⟩
  · rename_i hnew
    split at h
    · -- the cleanup locks `cs_heartbeat` a second time
      rw [cleanupSeenHeartbeats_held] at h
      cases h
    · rename_i hcard
      simp only [pure, Except.pure, bind_ok_iff, Except.ok.injEq, exists_eq_left'] at h
      refine .inr ⟨hnew, Nat.le_of_not_lt hcard, ?_⟩
      split at h
      · rename_i hnone
        cases h
        exact ⟨rfl, .inl ⟨hnone, rfl, rfl⟩⟩
      · rename_i trust hsome
        cases h
        exact ⟨rfl, .inr ⟨hsome, rfl⟩⟩

/-- `processHeartbeat` fails to complete exactly when a new hash takes the seen set past its bound. -/
theorem processHeartbeat_error {heartbeat : Heartbeat κ σ} {e : Fault}
    (h : m.processHeartbeat C params heartbeat = .error e) :
    C.heartbeatHash heartbeat ∉ m.seenHeartbeats ∧
      MAX_SEEN_HEARTBEATS < (insert (C.heartbeatHash heartbeat) m.seenHeartbeats).card := by
  simp only [processHeartbeat, lock, Bool.false_eq_true, if_false, bind_error_iff, reduceCtorEq, false_or] at h
  obtain ⟨_, -, h⟩ := h
  split at h
  · cases h
  · rename_i hnew
    split at h
    · exact ⟨hnew, ‹_›⟩
    · simp only [pure, Except.pure, bind_error_iff, reduceCtorEq, false_or, Except.ok.injEq, exists_eq_left'] at h
      split at h <;> cases h

/-- A registration message either changes nothing, or carries a signature that verifies and registers the id of its
key. -/
theorem processValidatorRegistration_snd (reg : ValidatorRegistration π σ) :
    (m.processValidatorRegistration C params reg).2 = m ∨
    (reg.verify C = true ∧
      m.trust.registerValidator params (C.getId reg.validatorPubKey) reg.stakeAmount reg.poolFeeRate
        reg.registrationHeight = some (m.processValidatorRegistration C params reg).2.trust ∧
      (m.processValidatorRegistration C params reg).2.seenHeartbeats = m.seenHeartbeats) := by
  unfold processValidatorRegistration
  split_ifs with hverify hstake
  · exact .inl rfl
  · exact .inl rfl
  · split
    · exact .inl rfl
    · rename_i trust hreg
      exact .inr ⟨by simpa using hverify, hreg, rfl⟩

/-- One entry of a `VALIDATORS` list either changes nothing, or is active with the minimum stake and registers its
own id, with no signature checked. -/
theorem processValidatorInfo_eq (info : ValidatorInfo κ) :
    m.processValidatorInfo params info = m ∨
    (info.isActive = true ∧ info.meetsMinimumStake params = true ∧
      m.trust.registerValidator params info.validatorId info.stakeAmount info.poolFeeRate info.registrationHeight =
        some (m.processValidatorInfo params info).trust ∧
      (m.processValidatorInfo params info).seenHeartbeats = m.seenHeartbeats) := by
  unfold processValidatorInfo
  split_ifs with hlisted hunknown
  · split
    · exact .inl rfl
    · rename_i trust hreg
      exact .inr ⟨hlisted.1, hlisted.2, hreg, rfl⟩
  · exact .inl rfl
  · exact .inl rfl

theorem processValidatorList_cons (info : ValidatorInfo κ) (list : List (ValidatorInfo κ)) :
    m.processValidatorList params (info :: list) = (m.processValidatorInfo params info).processValidatorList params list :=
  rfl

omit [DecidableEq κ] in
@[simp] theorem onNewBlock_validators (height : Int) (id : κ) :
    (m.onNewBlock params height).trust.validators id =
      (m.trust.validators id).map (·.updateExpectation params height) := rfl

omit [DecidableEq κ] in
@[simp] theorem onNewBlock_currentHeight (height : Int) : (m.onNewBlock params height).trust.currentHeight = height :=
  rfl

omit [DecidableEq κ] in
@[simp] theorem onNewBlock_seenHeartbeats (height : Int) :
    (m.onNewBlock params height).seenHeartbeats = m.seenHeartbeats := rfl

theorem handle_heartbeat {heartbeat : Heartbeat κ σ} :
    m.handle C params (.heartbeat heartbeat) = .ok m' ↔ ∃ credited, m.processHeartbeat C params heartbeat = .ok (credited, m') := by
  rw [handle, map_ok_iff]
  constructor
  · rintro ⟨⟨credited, _⟩, h, rfl⟩
    exact ⟨credited, h⟩
  · rintro ⟨credited, h⟩
    exact ⟨_, h, rfl⟩

theorem run_cons (e : Event κ π σ) (events : List (Event κ π σ)) :
    m.run C params (e :: events) = (m.handle C params e >>= fun m => m.run C params events) := rfl

theorem run_append (events events' : List (Event κ π σ)) :
    m.run C params (events ++ events') = (m.run C params events >>= fun m => m.run C params events') :=
  List.foldlM_append

end HeartbeatManager

end Trust
end Wattx
