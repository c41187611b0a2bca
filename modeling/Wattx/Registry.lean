import Wattx.TrustScore
/-!
# Registry — which messages put a validator in the registry

A key id enters `TrustScoreManager`'s map only through `RegisterValidator`, and the node calls it from two
handlers: `REGVALIDATOR` registers the id of a key whose signature over the registration verifies, and `VALIDATORS`
registers every active entry with the minimum stake of a list a peer sends, as it stands.  Heartbeats and blocks
only change entries that exist.  So every id in the registry of a node was vouched for by an event it received: a
verified registration of a key with that id, or a list entry (`run_registered`).  The list entries carry no
signature at all, and one `VALIDATORS` message from any peer registers any id.
-/
namespace Wattx
namespace Trust

variable {κ π σ : Type} [DecidableEq κ]

/-- The event vouches for `id`: a registration whose signature verifies, by a key with that id, or an active entry
with the minimum stake for `id` in a `VALIDATORS` list. -/
def Event.Vouches (C : Crypto κ π σ) (params : Params) : Event κ π σ → κ → Prop
  | .regValidator reg, id => reg.verify C = true ∧ C.getId reg.validatorPubKey = id
  | .validators list, id =>
    ∃ info ∈ list, info.validatorId = id ∧ info.isActive = true ∧ info.meetsMinimumStake params = true
  | .heartbeat _, _ => False
  | .newBlock _, _ => False

/-- The heights an event can write into an entry as its registration height or its last heartbeat's: a
registration's own, those of a list's entries, and a heartbeat's. -/
def Event.entryHeights : Event κ π σ → List Int
  | .regValidator reg => [reg.registrationHeight]
  | .validators list => list.map (·.registrationHeight)
  | .heartbeat hb => [hb.blockHeight]
  | .newBlock _ => []

/-- The entry `RegisterValidator` writes for `id`: at least the minimum stake, a fee in range, the registration
height as the last heartbeat's, no heartbeat expected or received, and active. -/
structure ValidatorInfo.Fresh (params : Params) (id : κ) (info : ValidatorInfo κ) : Prop where
  validatorId : info.validatorId = id
  stake : params.nMinValidatorStake ≤ info.stakeAmount
  fee : 0 ≤ info.poolFeeRate ∧ info.poolFeeRate ≤ 10000
  last : info.lastHeartbeatHeight = info.registrationHeight
  expected : info.heartbeatsExpected = 0
  received : info.heartbeatsReceived = 0
  active : info.isActive = true

namespace TrustScoreManager

variable {params : Params} {m m' : TrustScoreManager κ}

/-- A registration writes a fresh entry at its height under an id that had none, and nothing else. -/
theorem registerValidator_entry {validatorId : κ} {stakeAmount poolFeeRate height : Int}
    (h : m.registerValidator params validatorId stakeAmount poolFeeRate height = some m') (id : κ) :
    m'.validators id = m.validators id ∨
      (m.validators id = none ∧
        ∃ info, m'.validators id = some info ∧ info.Fresh params id ∧ info.registrationHeight = height) := by
  obtain ⟨hstake, hnone, hfee0, hfee1, rfl⟩ := registerValidator_some h
  by_cases he : id = validatorId
  · subst he
    exact .inr ⟨hnone, _, Function.update_self _ _ _, ⟨rfl, hstake, ⟨hfee0, hfee1⟩, rfl, rfl, rfl, rfl⟩, rfl⟩
  · exact .inl (Function.update_of_ne he _ _)

theorem registerValidator_isSome {validatorId id : κ} {stakeAmount poolFeeRate height : Int}
    (h : m.registerValidator params validatorId stakeAmount poolFeeRate height = some m')
    (hid : (m'.validators id).isSome) : (m.validators id).isSome ∨ id = validatorId := by
  obtain ⟨-, -, -, -, rfl⟩ := registerValidator_some h
  by_cases he : id = validatorId
  · exact .inr he
  · dsimp only at hid
    rw [Function.update_of_ne he] at hid
    exact .inl hid

/-- A credited heartbeat writes only the entry of a validator that has one. -/
theorem processHeartbeat_isSome {heartbeat : Heartbeat κ σ} {height : Int} {id : κ}
    (h : m.processHeartbeat params heartbeat height = some m') (hid : (m'.validators id).isSome) :
    (m.validators id).isSome := by
  obtain ⟨info, hinfo, -, -, rfl⟩ := processHeartbeat_some h
  by_cases he : id = heartbeat.validatorId
  · rw [he, hinfo]
    rfl
  · dsimp only at hid
    rwa [Function.update_of_ne he] at hid

end TrustScoreManager

namespace HeartbeatManager

variable {C : Crypto κ π σ} {params : Params} {m m' : HeartbeatManager κ}

theorem processValidatorList_registered {id : κ} :
    ∀ (list : List (ValidatorInfo κ)) (m : HeartbeatManager κ),
      ((m.processValidatorList params list).trust.validators id).isSome →
        (m.trust.validators id).isSome ∨
          ∃ info ∈ list, info.validatorId = id ∧ info.isActive = true ∧ info.meetsMinimumStake params = true
  | [], _, h => .inl h
  | info :: list, m, h => by
    -- the rest of the list runs from the state the first entry leaves
    obtain h' | ⟨info', hmem, hinfo'⟩ := processValidatorList_registered list (m.processValidatorInfo params info) h
    · obtain heq | ⟨hactive, hstake, hreg, -⟩ : m.processValidatorInfo params info = m ∨ _ :=
        processValidatorInfo_eq info
      · rw [heq] at h'
        exact .inl h'
      · obtain hold | rfl := TrustScoreManager.registerValidator_isSome hreg h'
        · exact .inl hold
        · exact .inr ⟨info, List.mem_cons_self, rfl, hactive, hstake⟩
    · exact .inr ⟨info', List.mem_cons_of_mem _ hmem, hinfo'⟩

/-- **One event adds only an id it vouches for.** -/
theorem handle_registered {e : Event κ π σ} {id : κ} (h : m.handle C params e = .ok m')
    (hid : (m'.trust.validators id).isSome) : (m.trust.validators id).isSome ∨ e.Vouches C params id := by
  cases e with
  | heartbeat hb =>
    obtain ⟨_, hp⟩ := handle_heartbeat.1 h
    rcases processHeartbeat_ok hp with ⟨-, -, rfl⟩ | ⟨-, -, -, ⟨-, -, htrust⟩ | ⟨hsome, -⟩⟩
    · exact .inl hid
    · rw [htrust] at hid
      exact .inl hid
    · exact .inl (TrustScoreManager.processHeartbeat_isSome hsome hid)
  | validators list =>
    cases h
    exact processValidatorList_registered list m hid
  | regValidator reg =>
    cases h
    obtain heq | ⟨hverify, hreg, -⟩ : (m.processValidatorRegistration C params reg).2 = m ∨ _ :=
      processValidatorRegistration_snd reg
    · rw [heq] at hid
      exact .inl hid
    · obtain hold | hkey := TrustScoreManager.registerValidator_isSome hreg hid
      · exact .inl hold
      · exact .inr ⟨hverify, hkey.symm⟩
  | newBlock height =>
    cases h
    rw [onNewBlock_validators, Option.isSome_map] at hid
    exact .inl hid

/-- **Every id a run adds was vouched for by one of its events.** -/
theorem run_registered {id : κ} :
    ∀ (events : List (Event κ π σ)) (m : HeartbeatManager κ), m.run C params events = .ok m' →
      (m'.trust.validators id).isSome → (m.trust.validators id).isSome ∨ ∃ e ∈ events, e.Vouches C params id
  | [], m, h, hid => by
    cases h
    exact .inl hid
  | e :: events, m, h, hid => by
    rw [run_cons, Checked.bind_ok_iff] at h
    obtain ⟨m₁, h₁, hrest⟩ := h
    obtain hmid | ⟨e', he', hv⟩ := run_registered events m₁ hrest hid
    · obtain hold | hv := handle_registered h₁ hmid
      · exact .inl hold
      · exact .inr ⟨e, List.mem_cons_self, hv⟩
    · exact .inr ⟨e', List.mem_cons_of_mem _ he', hv⟩

/-! ## What one event does to an entry -/

theorem processValidatorList_entry {id : κ} :
    ∀ (list : List (ValidatorInfo κ)) (m : HeartbeatManager κ),
      (m.processValidatorList params list).trust.validators id = m.trust.validators id ∨
        (m.trust.validators id = none ∧
          ∃ info, (m.processValidatorList params list).trust.validators id = some info ∧ info.Fresh params id ∧
            info.registrationHeight ∈ list.map (·.registrationHeight))
  | [], _ => .inl rfl
  | info :: list, m => by
    -- the first entry registers `id` or leaves it; the rest then register it only if it is still unknown
    have hfirst : (m.processValidatorInfo params info).trust.validators id = m.trust.validators id ∨
        (m.trust.validators id = none ∧
          ∃ info', (m.processValidatorInfo params info).trust.validators id = some info' ∧ info'.Fresh params id ∧
            info'.registrationHeight = info.registrationHeight) := by
      obtain heq | ⟨-, -, hreg, -⟩ : m.processValidatorInfo params info = m ∨ _ := processValidatorInfo_eq info
      · rw [heq]
        exact .inl rfl
      · exact TrustScoreManager.registerValidator_entry hreg id
    have hrest := @processValidatorList_entry id list (m.processValidatorInfo params info)
    rw [processValidatorList_cons]
    rcases hfirst with h₁ | ⟨hnone, info', h₁, hfresh, hheight⟩ <;>
      rcases hrest with h₂ | ⟨hnone', info'', h₂, hfresh', hheight'⟩
    · exact .inl (h₂.trans h₁)
    · rw [h₁] at hnone'
      exact .inr ⟨hnone', info'', h₂, hfresh', List.mem_cons_of_mem _ hheight'⟩
    · exact .inr ⟨hnone, info', h₂.trans h₁, hfresh, hheight ▸ List.mem_cons_self⟩
    · rw [h₁] at hnone'
      cases hnone'

/-- **What one event does to the entry of `id`**: nothing; a fresh registration of an unknown id; the credit of a
heartbeat of `id`, at the heartbeat's own height and at least the wrapped sum of the last height and an interval;
or the recomputation of the expected count at a new block. -/
theorem handle_entry {e : Event κ π σ} (h : m.handle C params e = .ok m') (id : κ) :
    m'.trust.validators id = m.trust.validators id ∨
    (m.trust.validators id = none ∧
      ∃ info, m'.trust.validators id = some info ∧ info.Fresh params id ∧ info.registrationHeight ∈ e.entryHeights) ∨
    (∃ heartbeat info, e = .heartbeat heartbeat ∧ heartbeat.validatorId = id ∧
      m.trust.validators id = some info ∧ info.isActive = true ∧
      SignedWord.wrap 32 (info.lastHeartbeatHeight + params.nHeartbeatInterval) ≤ heartbeat.blockHeight ∧
      m'.trust.validators id =
        some { info with heartbeatsReceived := info.heartbeatsReceived + 1,
                         lastHeartbeatHeight := heartbeat.blockHeight }) ∨
    (∃ height, e = .newBlock height ∧
      m'.trust.validators id = (m.trust.validators id).map (·.updateExpectation params height)) := by
  cases e with
  | heartbeat hb =>
    obtain ⟨_, hp⟩ := handle_heartbeat.1 h
    rcases processHeartbeat_ok hp with ⟨-, -, rfl⟩ | ⟨-, -, -, ⟨-, -, htrust⟩ | ⟨hsome, -⟩⟩
    · exact .inl rfl
    · rw [htrust]
      exact .inl rfl
    · obtain ⟨info, hinfo, hactive, htime, htrust⟩ := TrustScoreManager.processHeartbeat_some hsome
      rw [htrust]
      by_cases he : id = hb.validatorId
      · subst he
        exact .inr (.inr (.inl ⟨hb, info, rfl, rfl, hinfo, hactive, htime, Function.update_self _ _ _⟩))
      · exact .inl (Function.update_of_ne he _ _)
  | validators list =>
    cases h
    obtain h₁ | h₁ := @processValidatorList_entry κ _ params id list m
    · exact .inl h₁
    · exact .inr (.inl h₁)
  | regValidator reg =>
    cases h
    obtain heq | ⟨-, hreg, -⟩ : (m.processValidatorRegistration C params reg).2 = m ∨ _ :=
      processValidatorRegistration_snd reg
    · rw [heq]
      exact .inl rfl
    · obtain h₁ | ⟨hnone, info, h₁, hfresh, hheight⟩ := TrustScoreManager.registerValidator_entry hreg id
      · exact .inl h₁
      · exact .inr (.inl ⟨hnone, info, h₁, hfresh, hheight ▸ List.mem_singleton_self _⟩)
  | newBlock height =>
    cases h
    exact .inr (.inr (.inr ⟨height, rfl, rfl⟩))

theorem processValidatorInfo_currentHeight (info : ValidatorInfo κ) :
    (m.processValidatorInfo params info).trust.currentHeight = m.trust.currentHeight := by
  obtain heq | ⟨-, -, hreg, -⟩ : m.processValidatorInfo params info = m ∨ _ := processValidatorInfo_eq info
  · rw [heq]
  · obtain ⟨-, -, -, -, htrust⟩ := TrustScoreManager.registerValidator_some hreg
    rw [htrust]

theorem processValidatorList_currentHeight :
    ∀ (list : List (ValidatorInfo κ)) (m : HeartbeatManager κ),
      (m.processValidatorList params list).trust.currentHeight = m.trust.currentHeight
  | [], _ => rfl
  | info :: list, m =>
    (processValidatorList_currentHeight list (m.processValidatorInfo params info)).trans
      (processValidatorInfo_currentHeight info)

/-- Only a block moves the height. -/
theorem handle_currentHeight {e : Event κ π σ} (h : m.handle C params e = .ok m') :
    m'.trust.currentHeight = m.trust.currentHeight ∨ ∃ height, e = .newBlock height ∧ m'.trust.currentHeight = height := by
  cases e with
  | heartbeat hb =>
    obtain ⟨_, hp⟩ := handle_heartbeat.1 h
    rcases processHeartbeat_ok hp with ⟨-, -, rfl⟩ | ⟨-, -, -, ⟨-, -, htrust⟩ | ⟨hsome, -⟩⟩
    · exact .inl rfl
    · rw [htrust]
      exact .inl rfl
    · obtain ⟨info, -, -, -, htrust⟩ := TrustScoreManager.processHeartbeat_some hsome
      rw [htrust]
      exact .inl rfl
  | validators list =>
    cases h
    exact .inl (processValidatorList_currentHeight list m)
  | regValidator reg =>
    cases h
    obtain heq | ⟨-, hreg, -⟩ : (m.processValidatorRegistration C params reg).2 = m ∨ _ :=
      processValidatorRegistration_snd reg
    · rw [heq]
      exact .inl rfl
    · obtain ⟨-, -, -, -, htrust⟩ := TrustScoreManager.registerValidator_some hreg
      rw [htrust]
      exact .inl rfl
  | newBlock height =>
    cases h
    exact .inr ⟨height, rfl, rfl⟩

end HeartbeatManager

open HeartbeatManager

/-- **Every validator a node has registered was vouched for by a message it received**: a `REGVALIDATOR` whose
signature verifies under a key with the validator's id, or an active entry with the minimum stake in a `VALIDATORS`
list, whatever the order of the messages and blocks. -/
theorem registry_vouched (C : Crypto κ π σ) (params : Params) (events : List (Event κ π σ))
    (m' : HeartbeatManager κ) (h : HeartbeatManager.empty.run C params events = .ok m') (id : κ)
    (hid : (m'.trust.validators id).isSome) :
    (∃ reg, .regValidator reg ∈ events ∧ reg.verify C = true ∧ C.getId reg.validatorPubKey = id) ∨
    (∃ list, .validators list ∈ events ∧
      ∃ info ∈ list, info.validatorId = id ∧ info.isActive = true ∧ info.meetsMinimumStake params = true) := by
  obtain hnone | ⟨e, he, hv⟩ := run_registered events HeartbeatManager.empty h hid
  · exact absurd hnone (by simp [HeartbeatManager.empty, TrustScoreManager.empty])
  · cases e with
    | regValidator reg => exact .inl ⟨reg, he, hv⟩
    | validators list => exact .inr ⟨list, he, hv⟩
    | heartbeat _ => exact hv.elim
    | newBlock _ => exact hv.elim

/-- A node that received one registration of key `7`, under a scheme that accepts every signature. -/
theorem registry_vouched_after_registration :
    let C : Crypto Nat Nat Unit := ⟨fun pubkey => pubkey, fun _ _ _ => true, fun _ => 0, fun _ => 0⟩
    let events : List (Event Nat Nat Unit) := [.regValidator ⟨7, Params.main.nMinValidatorStake, 0, 0, ()⟩]
    ∃ m', HeartbeatManager.empty.run C Params.main events = .ok m' ∧ (m'.trust.validators 7).isSome ∧
      ((∃ reg, .regValidator reg ∈ events ∧ reg.verify C = true ∧ C.getId reg.validatorPubKey = 7) ∨
        (∃ list, .validators list ∈ events ∧
          ∃ info ∈ list, info.validatorId = 7 ∧ info.isActive = true ∧
            info.meetsMinimumStake Params.main = true)) := by
  intro C events
  exact ⟨_, rfl, rfl, registry_vouched C Params.main events _ rfl 7 rfl⟩

/-- **A validator list registers an id that no registration vouched for**: a node that receives one `VALIDATORS`
message, and nothing else, registers validator `7` from its entry, whatever the signature scheme and parameters; so
not every registered id comes from a verified registration. -/
theorem registry_admits_unsigned {π σ : Type} (C : Crypto Nat π σ) (params : Params) :
    let listed : ValidatorInfo Nat :=
      { validatorId := 7, stakeAmount := params.nMinValidatorStake, poolFeeRate := 0, registrationHeight := 0,
        lastHeartbeatHeight := 0, heartbeatsExpected := 0, heartbeatsReceived := 0, isActive := true }
    (∃ m', HeartbeatManager.empty.run C params [.validators [listed]] = .ok m' ∧ (m'.trust.validators 7).isSome) ∧
    ¬ ∀ (events : List (Event Nat π σ)) (m' : HeartbeatManager Nat),
        HeartbeatManager.empty.run C params events = .ok m' → ∀ id, (m'.trust.validators id).isSome →
          ∃ reg, .regValidator reg ∈ events ∧ reg.verify C = true ∧ C.getId reg.validatorPubKey = id := by
  intro listed
  have hrun : ∃ m', HeartbeatManager.empty.run C params [.validators [listed]] = .ok m' ∧
      (m'.trust.validators 7).isSome := by
    refine ⟨_, rfl, ?_⟩
    simp [listed, processValidatorList, processValidatorInfo, ValidatorInfo.meetsMinimumStake,
      TrustScoreManager.registerValidator, HeartbeatManager.empty, TrustScoreManager.empty]
  refine ⟨hrun, fun hauth => ?_⟩
  obtain ⟨m', hm', h7⟩ := hrun
  -- the only event is the list, so no registration is among the events
  obtain ⟨reg, hreg, -⟩ := hauth _ m' hm' 7 h7
  simp at hreg

end Trust
end Wattx
