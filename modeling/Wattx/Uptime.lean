import Wattx.Registry
/-!
# Uptime — what a credited heartbeat proves, and how high the uptime goes

A heartbeat is credited on its validator's entry, its spacing and its hash alone (`processHeartbeat_credits`):
nothing reads its signature, and nothing compares its height with the chain's.  What every run does keep is the
spacing: the credited heartbeats of an entry lie an interval apart between its registration height and its last
heartbeat (`ValidatorInfo.Spaced`).

When the timing is honest (blocks in non-decreasing height, no heartbeat dated after the last block) the last
heartbeat is also no later than the chain, and the expected count is the one `UpdateHeartbeatExpectations` computed
at the last block (`ValidatorInfo.Timely`).  The received count covers a validator's whole life while the expected
count is capped at `nUptimeWindow` blocks, so the uptime stays at most 1000 only while the validator is younger
than the window: a validator that beats at every interval for 4325 intervals reaches 1001.
-/
namespace Wattx
namespace Trust

variable {κ π σ : Type}

/-! ## Crediting a heartbeat -/

namespace HeartbeatManager

variable [DecidableEq κ] {C : Crypto κ π σ} {params : Params} {m m' : HeartbeatManager κ}

/-- **A heartbeat is credited on its validator's entry, its spacing and its hash alone**: a known and active
validator, a height at least the wrapped sum of its last heartbeat's and an interval, a hash not seen, and room in the
seen set. -/
theorem processHeartbeat_credits {heartbeat : Heartbeat κ σ} {info : ValidatorInfo κ}
    (hinfo : m.trust.validators heartbeat.validatorId = some info) (hactive : info.isActive = true)
    (htime : SignedWord.wrap 32 (info.lastHeartbeatHeight + params.nHeartbeatInterval) ≤ heartbeat.blockHeight)
    (hnew : C.heartbeatHash heartbeat ∉ m.seenHeartbeats)
    (hroom : (insert (C.heartbeatHash heartbeat) m.seenHeartbeats).card ≤ MAX_SEEN_HEARTBEATS) :
    m.processHeartbeat C params heartbeat =
      .ok (true,
        { trust :=
            { m.trust with
              validators := Function.update m.trust.validators heartbeat.validatorId
                (some { info with heartbeatsReceived := info.heartbeatsReceived + 1,
                                  lastHeartbeatHeight := heartbeat.blockHeight }) },
          seenHeartbeats := insert (C.heartbeatHash heartbeat) m.seenHeartbeats }) := by
  simp only [processHeartbeat, lock, Bool.false_eq_true, if_false, hnew, gt_iff_lt, not_lt.2 hroom,
    TrustScoreManager.processHeartbeat_eq_some hinfo hactive htime]
  rfl

end HeartbeatManager

/-- Signatures that name the key that made them and the hash they sign, with a registration hashed to its height and
a heartbeat to its block height. -/
def pairSignatures : Crypto Nat Nat (Nat × Nat) where
  getId pubkey := pubkey
  verify pubkey hash signature := decide (signature = (pubkey, hash))
  registrationHash reg := reg.registrationHeight.toNat
  heartbeatHash heartbeat := heartbeat.blockHeight.toNat

/-- Key `7`'s registration at height `0` with the main chain's minimum stake, signed by it. -/
def signedRegistration : ValidatorRegistration Nat (Nat × Nat) :=
  { validatorPubKey := 7, stakeAmount := Params.main.nMinValidatorStake, poolFeeRate := 0, registrationHeight := 0,
    signature := (7, 0) }

/-- Validator `7`'s heartbeat at `height`, signed by it. -/
def signedBeat (height : Int) : Heartbeat Nat (Nat × Nat) :=
  { validatorId := 7, blockHeight := height, blockHash := 0, timestamp := 0, signature := (7, height.toNat) }

/-- **A forged heartbeat dated after the chain is credited**: on a node that has registered key `7` at height `0`
and connected no block, a heartbeat of `7` at height `600` whose signature does not verify under `7` is credited,
one more than the intervals since the registration. -/
theorem heartbeat_forged_credited :
    let forged : Heartbeat Nat (Nat × Nat) := { signedBeat 600 with signature := (0, 0) }
    forged.verify pairSignatures 7 = false ∧
    ∃ m', HeartbeatManager.empty.run pairSignatures Params.main
        [.regValidator signedRegistration, .heartbeat forged] = .ok m' ∧
      ∃ info, m'.trust.validators 7 = some info ∧ info.heartbeatsReceived = 1 ∧
        m'.trust.currentHeight < forged.blockHeight ∧
        (m'.trust.currentHeight - info.registrationHeight).tdiv Params.main.nHeartbeatInterval <
          info.heartbeatsReceived := by
  intro forged
  refine ⟨rfl, _, rfl, _, rfl, rfl, by decide, by decide⟩

/-! ## What the runs keep of an entry -/

namespace ValidatorInfo

variable {params : Params} {id : κ} {info : ValidatorInfo κ} {height : Int}

/-- The credited heartbeats of an entry lie an interval apart, from its registration height to its last one. -/
def Spaced (params : Params) (info : ValidatorInfo κ) : Prop :=
  0 ≤ info.heartbeatsReceived ∧
    info.registrationHeight + info.heartbeatsReceived * params.nHeartbeatInterval ≤ info.lastHeartbeatHeight

/-- The spacing check's sum over the entry's last height does not wrap. -/
def Fits (params : Params) (info : ValidatorInfo κ) : Prop :=
  SignedWord.InRange 32 (info.lastHeartbeatHeight + params.nHeartbeatInterval)

theorem Fresh.spaced (hf : info.Fresh params id) : info.Spaced params := by
  rw [Spaced, hf.received, hf.last]
  omega

theorem Fresh.fits (hf : info.Fresh params id)
    (hheight : SignedWord.InRange 32 (info.registrationHeight + params.nHeartbeatInterval)) : info.Fits params := by
  rw [Fits, hf.last]
  exact hheight

/-- Where the sum does not wrap, the check the code makes is the spacing. -/
theorem Fits.spacing (hfit : info.Fits params)
    (htime : SignedWord.wrap 32 (info.lastHeartbeatHeight + params.nHeartbeatInterval) ≤ height) :
    info.lastHeartbeatHeight + params.nHeartbeatInterval ≤ height := by
  rwa [SignedWord.wrap_of_inRange (by decide) hfit] at htime

theorem Spaced.credit (hs : info.Spaced params)
    (htime : info.lastHeartbeatHeight + params.nHeartbeatInterval ≤ height) :
    Spaced params { info with heartbeatsReceived := info.heartbeatsReceived + 1, lastHeartbeatHeight := height } := by
  obtain ⟨h0, hle⟩ := hs
  have hmul : (info.heartbeatsReceived + 1) * params.nHeartbeatInterval =
      info.heartbeatsReceived * params.nHeartbeatInterval + params.nHeartbeatInterval := by ring
  refine ⟨by dsimp only; omega, ?_⟩
  dsimp only
  rw [hmul]
  omega

theorem Spaced.updateExpectation (hs : info.Spaced params) :
    (info.updateExpectation params height).Spaced params := by
  rw [updateExpectation_eq]
  exact hs

theorem Fits.updateExpectation (hfit : info.Fits params) : (info.updateExpectation params height).Fits params := by
  rw [updateExpectation_eq]
  exact hfit

end ValidatorInfo

/-! Honest timing, and what it keeps of an entry. -/

/-- The height of the last block after `events` from a last block at `tip`, when their timing is honest: blocks
come in non-decreasing height, and no heartbeat is dated after the last block. -/
def honestTip (tip : Int) : List (Event κ π σ) → Option Int
  | [] => some tip
  | .newBlock height :: events => if tip ≤ height then honestTip height events else none
  | .heartbeat heartbeat :: events => if heartbeat.blockHeight ≤ tip then honestTip tip events else none
  | .validators _ :: events => honestTip tip events
  | .regValidator _ :: events => honestTip tip events

theorem honestTip_append (tip : Int) (events events' : List (Event κ π σ)) :
    honestTip tip (events ++ events') = (honestTip tip events).bind fun tip => honestTip tip events' := by
  induction events generalizing tip with
  | nil => rfl
  | cons e events ih =>
    cases e with
    | newBlock height =>
      simp only [List.cons_append, honestTip]
      split_ifs
      · exact ih height
      · rfl
    | heartbeat heartbeat =>
      simp only [List.cons_append, honestTip]
      split_ifs
      · exact ih tip
      · rfl
    | validators _ => exact ih tip
    | regValidator _ => exact ih tip

namespace ValidatorInfo

variable {params : Params} {id : κ} {info : ValidatorInfo κ} {tip height : Int}

/-- What an honest run keeps of an entry while the last block is at `tip`: its heartbeats spaced, the last no later
than its registration or the tip, the entry active, and its expected count zero or the one computed at `tip`. -/
structure Timely (params : Params) (tip : Int) (info : ValidatorInfo κ) : Prop where
  spaced : info.Spaced params
  fits : info.Fits params
  last : info.lastHeartbeatHeight ≤ max info.registrationHeight tip
  active : info.isActive = true
  expected : info.heartbeatsExpected = 0 ∨
    (0 < tip - info.registrationHeight ∧
      info.heartbeatsExpected =
        (min (tip - info.registrationHeight) params.nUptimeWindow).tdiv params.nHeartbeatInterval)

theorem Fresh.timely (hf : info.Fresh params id)
    (hheight : SignedWord.InRange 32 (info.registrationHeight + params.nHeartbeatInterval)) :
    info.Timely params tip where
  spaced := hf.spaced
  fits := hf.fits hheight
  last := by
    rw [hf.last]
    exact le_max_left _ _
  active := hf.active
  expected := .inl hf.expected

theorem Timely.credit (ht : info.Timely params tip)
    (htime : SignedWord.wrap 32 (info.lastHeartbeatHeight + params.nHeartbeatInterval) ≤ height) (hh : height ≤ tip)
    (hheight : SignedWord.InRange 32 (height + params.nHeartbeatInterval)) :
    Timely params tip { info with heartbeatsReceived := info.heartbeatsReceived + 1, lastHeartbeatHeight := height } where
  spaced := ht.spaced.credit (ht.fits.spacing htime)
  fits := hheight
  last := le_trans hh (le_max_right _ _)
  active := ht.active
  expected := ht.expected

/-- A block at a height no lower than the tip recomputes the expected count at that height. -/
theorem Timely.updateExpectation (ht : info.Timely params tip) (htip : tip ≤ height)
    (hW : 0 < params.nUptimeWindow) : (info.updateExpectation params height).Timely params height := by
  rw [updateExpectation_eq, ht.active]
  refine ⟨ht.spaced, ht.fits, le_trans ht.last (max_le_max_left _ htip), rfl, ?_⟩
  dsimp only
  by_cases hpos : 0 < min (height - info.registrationHeight) params.nUptimeWindow
  · -- a block past the registration: the count at `height`
    rw [if_pos ⟨rfl, hpos⟩]
    exact .inr ⟨lt_of_lt_of_le hpos (min_le_left _ _), rfl⟩
  · -- a block at or before the registration: the tip was there too, and nothing was expected
    have hreg : height - info.registrationHeight ≤ 0 := by
      by_contra hgt
      exact hpos (lt_min (not_le.1 hgt) hW)
    rw [if_neg (fun h => hpos h.2), if_neg (fun h => by omega)]
    rcases ht.expected with h0 | ⟨hlt, -⟩
    · exact .inl h0
    · omega

/-- **A timely entry no older than the window has an uptime between 0 and 1000.** -/
theorem Timely.uptime_le (ht : info.Timely params tip) (hI : 0 < params.nHeartbeatInterval)
    (hage : tip - info.registrationHeight ≤ params.nUptimeWindow) :
    0 ≤ info.getUptimePercentage ∧ info.getUptimePercentage ≤ 1000 := by
  unfold getUptimePercentage
  split
  · omega
  · rename_i hne
    obtain h0 | ⟨hlt, hexp⟩ := ht.expected
    · exact absurd h0 hne
    rw [min_eq_left hage, Int.tdiv_eq_ediv_of_nonneg hlt.le] at hexp
    obtain ⟨hrec, hspaced⟩ := ht.spaced
    -- the credited heartbeats fit between the registration and the tip
    have hlast : info.lastHeartbeatHeight ≤ tip := le_trans ht.last (max_le (by omega) le_rfl)
    have hcount : info.heartbeatsReceived ≤ info.heartbeatsExpected := by
      rw [hexp, Int.le_ediv_iff_mul_le hI]
      omega
    have hexp_pos : 0 < info.heartbeatsExpected := by omega
    rw [Int.tdiv_eq_ediv_of_nonneg (by omega)]
    exact ⟨Int.ediv_nonneg (by omega) hexp_pos.le, Int.ediv_le_of_le_mul hexp_pos (by omega)⟩

end ValidatorInfo

/-! ## What the runs keep of every entry -/

/-- Every height the event writes into an entry leaves an interval of room in its `int`, so that the spacing check's
sum over it does not wrap. -/
def Event.HeightsFit (params : Params) (e : Event κ π σ) : Prop :=
  ∀ height ∈ e.entryHeights, SignedWord.InRange 32 (height + params.nHeartbeatInterval)

instance (params : Params) (e : Event κ π σ) : Decidable (e.HeightsFit params) :=
  inferInstanceAs (Decidable (∀ height ∈ e.entryHeights, _))

variable [DecidableEq κ]

namespace HeartbeatManager

variable {C : Crypto κ π σ} {params : Params} {m m' : HeartbeatManager κ}

/-- Every entry spaced, with room for the spacing check's sum over its last height. -/
def AllSpaced (params : Params) (m : HeartbeatManager κ) : Prop :=
  ∀ id info, m.trust.validators id = some info → info.Spaced params ∧ info.Fits params

theorem handle_allSpaced {e : Event κ π σ} (hfit : e.HeightsFit params) (h : m.handle C params e = .ok m')
    (hs : m.AllSpaced params) : m'.AllSpaced params := by
  intro id info hinfo
  rcases handle_entry h id with heq | ⟨-, info', h', hf, hheight⟩ | ⟨hb, info₀, he, -, h₀, -, htime, h'⟩ |
    ⟨height, -, h'⟩
  · rw [heq] at hinfo
    exact hs id info hinfo
  · rw [h', Option.some.injEq] at hinfo
    subst hinfo
    exact ⟨hf.spaced, hf.fits (hfit _ hheight)⟩
  · -- the check did not wrap, and the new last height is the heartbeat's, which has room too
    rw [h', Option.some.injEq] at hinfo
    subst hinfo he
    obtain ⟨hs₀, hfit₀⟩ := hs id info₀ h₀
    exact ⟨hs₀.credit (hfit₀.spacing htime), hfit hb.blockHeight List.mem_cons_self⟩
  · -- a block recomputes only the expected count
    rw [h', Option.map_eq_some_iff] at hinfo
    obtain ⟨info₀, h₀, rfl⟩ := hinfo
    obtain ⟨hs₀, hfit₀⟩ := hs id info₀ h₀
    exact ⟨hs₀.updateExpectation, hfit₀.updateExpectation⟩

theorem run_allSpaced : ∀ (events : List (Event κ π σ)) (m : HeartbeatManager κ),
    (∀ e ∈ events, e.HeightsFit params) → m.run C params events = .ok m' → m.AllSpaced params →
      m'.AllSpaced params
  | [], m, _, h, hs => by
    cases h
    exact hs
  | e :: events, m, hfit, h, hs => by
    rw [run_cons, Checked.bind_ok_iff] at h
    obtain ⟨m₁, h₁, hrest⟩ := h
    exact run_allSpaced events m₁ (fun e' he' => hfit e' (List.mem_cons_of_mem e he')) hrest
      (handle_allSpaced (hfit e List.mem_cons_self) h₁ hs)

end HeartbeatManager

/-- **In every run whose heights leave an interval of room in an `int`, the credited heartbeats of a validator lie
an interval apart**, from its registration height to the height of its last credited heartbeat, whatever the
messages and their order. -/
theorem heartbeats_spaced (C : Crypto κ π σ) (params : Params) (events : List (Event κ π σ))
    (hfit : ∀ e ∈ events, e.HeightsFit params) (m' : HeartbeatManager κ)
    (h : HeartbeatManager.empty.run C params events = .ok m') (id : κ) (info : ValidatorInfo κ)
    (hinfo : m'.trust.validators id = some info) :
    0 ≤ info.heartbeatsReceived ∧
      info.registrationHeight + info.heartbeatsReceived * params.nHeartbeatInterval ≤ info.lastHeartbeatHeight :=
  (HeartbeatManager.run_allSpaced events _ hfit h (fun _ _ h => by cases h) id info hinfo).1

/-- Validator `7` registered on the main chain and credited one heartbeat at height `600`. -/
theorem heartbeats_spaced_after_one_beat :
    ∃ m' info, HeartbeatManager.empty.run pairSignatures Params.main
        [.regValidator signedRegistration, .heartbeat (signedBeat 600)] = .ok m' ∧
      m'.trust.validators 7 = some info ∧ info.heartbeatsReceived = 1 ∧
      0 ≤ info.heartbeatsReceived ∧
        info.registrationHeight + info.heartbeatsReceived * Params.main.nHeartbeatInterval ≤ info.lastHeartbeatHeight :=
by
  refine ⟨_, _, rfl, rfl, rfl, ?_⟩
  exact heartbeats_spaced pairSignatures Params.main [.regValidator signedRegistration, .heartbeat (signedBeat 600)]
    (by decide) _ rfl 7 _ rfl


namespace HeartbeatManager

variable {C : Crypto κ π σ} {params : Params} {m m' : HeartbeatManager κ}

/-- Every entry timely at the node's height. -/
def AllTimely (params : Params) (m : HeartbeatManager κ) : Prop :=
  ∀ id info, m.trust.validators id = some info → info.Timely params m.trust.currentHeight

/-- An event other than a block keeps the height; what it writes is fresh, or a heartbeat no later than the tip. -/
theorem handle_allTimely_of_height {e : Event κ π σ} (hfit : e.HeightsFit params)
    (hblock : ∀ height, e ≠ .newBlock height)
    (hbeat : ∀ hb, e = .heartbeat hb → hb.blockHeight ≤ m.trust.currentHeight)
    (h : m.handle C params e = .ok m') (ht : m.AllTimely params) :
    m'.trust.currentHeight = m.trust.currentHeight ∧ m'.AllTimely params := by
  have hcur : m'.trust.currentHeight = m.trust.currentHeight := by
    rcases handle_currentHeight h with hcur | ⟨height, he, -⟩
    · exact hcur
    · exact absurd he (hblock height)
  refine ⟨hcur, fun id info hinfo => ?_⟩
  rw [hcur]
  rcases handle_entry h id with heq | ⟨-, info', h', hf, hheight⟩ | ⟨hb, info₀, he, -, h₀, -, htime, h'⟩ |
    ⟨height, he, -⟩
  · rw [heq] at hinfo
    exact ht id info hinfo
  · rw [h', Option.some.injEq] at hinfo
    subst hinfo
    exact hf.timely (hfit _ hheight)
  · rw [h', Option.some.injEq] at hinfo
    subst hinfo he
    exact (ht id info₀ h₀).credit htime (hbeat hb rfl) (hfit hb.blockHeight List.mem_cons_self)
  · exact absurd he (hblock height)

/-- **One honest event keeps every entry timely**, at the height after it. -/
theorem handle_allTimely {e : Event κ π σ} {events : List (Event κ π σ)} {final : Int}
    (hW : 0 < params.nUptimeWindow) (hfit : e.HeightsFit params)
    (hhonest : honestTip m.trust.currentHeight (e :: events) = some final)
    (h : m.handle C params e = .ok m') (ht : m.AllTimely params) :
    honestTip m'.trust.currentHeight events = some final ∧ m'.AllTimely params := by
  cases e with
  | newBlock height =>
    cases h
    simp only [honestTip] at hhonest
    split_ifs at hhonest with htip
    refine ⟨hhonest, fun id info hinfo => ?_⟩
    rw [onNewBlock_validators, Option.map_eq_some_iff] at hinfo
    obtain ⟨info₀, h₀, rfl⟩ := hinfo
    exact (ht id info₀ h₀).updateExpectation htip hW
  | heartbeat hb =>
    simp only [honestTip] at hhonest
    split_ifs at hhonest with hh
    obtain ⟨hcur, ht'⟩ := handle_allTimely_of_height hfit (fun _ he => by cases he)
      (fun _ he => by cases he; exact hh) h ht
    rw [hcur]
    exact ⟨hhonest, ht'⟩
  | validators _ | regValidator _ =>
    -- lists and registrations neither move the height nor credit a heartbeat
    obtain ⟨hcur, ht'⟩ := handle_allTimely_of_height hfit (fun _ he => by cases he) (fun _ he => by cases he) h ht
    rw [hcur]
    exact ⟨hhonest, ht'⟩

theorem run_allTimely (hW : 0 < params.nUptimeWindow) :
    ∀ (events : List (Event κ π σ)) (m : HeartbeatManager κ) (final : Int),
      (∀ e ∈ events, e.HeightsFit params) → honestTip m.trust.currentHeight events = some final →
        m.run C params events = .ok m' → m.AllTimely params → m'.trust.currentHeight = final ∧ m'.AllTimely params
  | [], m, final, _, hhonest, h, ht => by
    cases h
    cases hhonest
    exact ⟨rfl, ht⟩
  | e :: events, m, final, hfit, hhonest, h, ht => by
    rw [run_cons, Checked.bind_ok_iff] at h
    obtain ⟨m₁, h₁, hrest⟩ := h
    obtain ⟨hhonest₁, ht₁⟩ := handle_allTimely hW (hfit e List.mem_cons_self) hhonest h₁ ht
    exact run_allTimely hW events m₁ final (fun e' he' => hfit e' (List.mem_cons_of_mem e he')) hhonest₁ hrest ht₁

end HeartbeatManager

/-- **While a validator is no older than the uptime window, honest timing keeps its uptime in `[0, 1000]`**: in every
run of a fresh node whose blocks come in non-decreasing height, whose heartbeats are dated no later than the last
block and whose heights leave an interval of room in an `int`, a validator registered at most `nUptimeWindow` blocks
before the last block has an uptime between 0 and 1000. -/
theorem uptime_within_window (C : Crypto κ π σ) (params : Params) (hI : 0 < params.nHeartbeatInterval)
    (hW : 0 < params.nUptimeWindow) (events : List (Event κ π σ)) (hfit : ∀ e ∈ events, e.HeightsFit params)
    (tip : Int) (hhonest : honestTip 0 events = some tip) (m' : HeartbeatManager κ)
    (h : HeartbeatManager.empty.run C params events = .ok m') (id : κ) (info : ValidatorInfo κ)
    (hinfo : m'.trust.validators id = some info) (hage : tip - info.registrationHeight ≤ params.nUptimeWindow) :
    0 ≤ info.getUptimePercentage ∧ info.getUptimePercentage ≤ 1000 := by
  obtain ⟨hcur, ht⟩ :=
    HeartbeatManager.run_allTimely hW events HeartbeatManager.empty tip hfit hhonest h (fun _ _ h => by cases h)
  rw [← hcur] at hage
  exact (ht id info hinfo).uptime_le hI hage

/-- Key `7` registered on the main chain, before any block. -/
theorem uptime_within_window_after_registration :
    ∃ m' info, HeartbeatManager.empty.run pairSignatures Params.main [.regValidator signedRegistration] = .ok m' ∧
      m'.trust.validators 7 = some info ∧ 0 ≤ info.getUptimePercentage ∧ info.getUptimePercentage ≤ 1000 :=
  ⟨_, _, rfl, rfl, uptime_within_window pairSignatures Params.main (by decide) (by decide)
    [.regValidator signedRegistration] (by decide) 0 rfl _ rfl 7 _ rfl (by decide)⟩

/-! ## A validator older than the window -/

/-- Round `k` of validator `7`'s run on the main chain: the block at height `600 (k + 1)`, then `7`'s signed
heartbeat at that height. -/
def round (k : Nat) : List (Event Nat Nat (Nat × Nat)) :=
  [.newBlock ((600 * (k + 1) : Nat) : Int), .heartbeat (signedBeat ((600 * (k + 1) : Nat) : Int))]

def rounds : Nat → List (Event Nat Nat (Nat × Nat))
  | 0 => []
  | k + 1 => rounds k ++ round k

/-- Validator `7`'s entry after `k` rounds. -/
def roundsEntry (k : Nat) : ValidatorInfo Nat :=
  { validatorId := 7, stakeAmount := Params.main.nMinValidatorStake, poolFeeRate := 0, registrationHeight := 0,
    lastHeartbeatHeight := ((600 * k : Nat) : Int),
    heartbeatsExpected :=
      if k = 0 then 0
      else (min ((600 * k : Nat) : Int) Params.main.nUptimeWindow).tdiv Params.main.nHeartbeatInterval,
    heartbeatsReceived := k, isActive := true }

/-- The node after the registration and `k` rounds. -/
def afterRounds (k : Nat) : HeartbeatManager Nat :=
  { trust :=
      { validators := Function.update (fun _ => none) 7 (some (roundsEntry k)),
        currentHeight := ((600 * k : Nat) : Int) },
    seenHeartbeats := (Finset.range k).image fun j => 600 * (j + 1) }

theorem handle_signedRegistration :
    HeartbeatManager.empty.handle pairSignatures Params.main (.regValidator signedRegistration) =
      .ok (afterRounds 0) := rfl

theorem signedBeat_verify (height : Nat) : (signedBeat (height : Int)).verify pairSignatures 7 = true := by
  simp [Heartbeat.verify, pairSignatures, signedBeat]

theorem honestTip_rounds : ∀ k, honestTip 0 (rounds k) = some ((600 * k : Nat) : Int)
  | 0 => rfl
  | k + 1 => by
    rw [rounds, honestTip_append, honestTip_rounds k, Option.bind_some]
    -- the block is higher than the last, and the heartbeat is at the block
    have hle : ((600 * k : Nat) : Int) ≤ ((600 * (k + 1) : Nat) : Int) := by omega
    have hbeat : (signedBeat ((600 * (k + 1) : Nat) : Int)).blockHeight ≤ ((600 * (k + 1) : Nat) : Int) := le_rfl
    rw [round, honestTip, if_pos hle, honestTip, if_pos hbeat]
    rfl

/-- The block of round `k`: the entry's expected count is recomputed at its height. -/
theorem onNewBlock_afterRounds (k : Nat) :
    (afterRounds k).onNewBlock Params.main ((600 * (k + 1) : Nat) : Int) =
      { trust :=
          { validators := Function.update (fun _ => none) 7
              (some { roundsEntry k with heartbeatsExpected := (roundsEntry (k + 1)).heartbeatsExpected }),
            currentHeight := ((600 * (k + 1) : Nat) : Int) },
        seenHeartbeats := (afterRounds k).seenHeartbeats } := by
  rw [HeartbeatManager.onNewBlock, HeartbeatManager.mk.injEq]
  refine ⟨?_, rfl⟩
  rw [TrustScoreManager.setHeight, TrustScoreManager.updateHeartbeatExpectations, TrustScoreManager.mk.injEq]
  refine ⟨funext fun id => ?_, rfl⟩
  by_cases hid : id = 7
  · subst hid
    have hpos : 0 < min (((600 * (k + 1) : Nat) : Int) - 0) Params.main.nUptimeWindow := by
      rw [show Params.main.nUptimeWindow = 2592000 from rfl]
      omega
    simp only [afterRounds, Function.update_self, Option.map_some, ValidatorInfo.updateExpectation_eq]
    rw [if_pos ⟨rfl, hpos⟩]
    simp [roundsEntry]
  · simp [afterRounds, Function.update_of_ne hid]

/-- **One round credits the heartbeat**: the node after `k` rounds runs round `k` into the node after `k + 1`, while
the seen set has room. -/
theorem run_round {k : Nat} (hk : k < MAX_SEEN_HEARTBEATS) :
    (afterRounds k).run pairSignatures Params.main (round k) = .ok (afterRounds (k + 1)) := by
  have hhash : pairSignatures.heartbeatHash (signedBeat ((600 * (k + 1) : Nat) : Int)) = 600 * (k + 1) :=
    Int.toNat_natCast _
  -- earlier heartbeats were at lower heights, so the hash is new and the set grows by one
  have hnew : 600 * (k + 1) ∉ (afterRounds k).seenHeartbeats := by
    simp only [afterRounds, Finset.mem_image, Finset.mem_range, not_exists, not_and]
    omega
  have hcard : (insert (600 * (k + 1)) (afterRounds k).seenHeartbeats).card = k + 1 := by
    have hinj : Function.Injective fun j : Nat => 600 * (j + 1) := fun a b h => by
      simp only at h
      omega
    rw [Finset.card_insert_of_notMem hnew, afterRounds, Finset.card_image_of_injective _ hinj, Finset.card_range]
  -- the block recomputed the expected count; the heartbeat comes an interval after the last
  have hinfo : ((afterRounds k).onNewBlock Params.main ((600 * (k + 1) : Nat) : Int)).trust.validators 7 =
      some { roundsEntry k with heartbeatsExpected := (roundsEntry (k + 1)).heartbeatsExpected } := by
    rw [onNewBlock_afterRounds]
    rfl
  -- the sum stays far below the top of an int, so the check does not wrap
  have htime : SignedWord.wrap 32
      ({ roundsEntry k with heartbeatsExpected := (roundsEntry (k + 1)).heartbeatsExpected }.lastHeartbeatHeight +
        Params.main.nHeartbeatInterval) ≤ (signedBeat ((600 * (k + 1) : Nat) : Int)).blockHeight := by
    have hk' : k < 10000 := hk
    rw [show Params.main.nHeartbeatInterval = 600 from rfl]
    simp only [roundsEntry, signedBeat]
    rw [SignedWord.wrap_of_inRange (by decide) ⟨by omega, by omega⟩]
    omega
  have hroom : (insert (pairSignatures.heartbeatHash (signedBeat ((600 * (k + 1) : Nat) : Int)))
      ((afterRounds k).onNewBlock Params.main ((600 * (k + 1) : Nat) : Int)).seenHeartbeats).card ≤
        MAX_SEEN_HEARTBEATS := by
    rw [HeartbeatManager.onNewBlock_seenHeartbeats, hhash, hcard]
    exact hk
  have hnew' : pairSignatures.heartbeatHash (signedBeat ((600 * (k + 1) : Nat) : Int)) ∉
      ((afterRounds k).onNewBlock Params.main ((600 * (k + 1) : Nat) : Int)).seenHeartbeats := by
    rw [HeartbeatManager.onNewBlock_seenHeartbeats, hhash]
    exact hnew
  have hbeat : ((afterRounds k).onNewBlock Params.main ((600 * (k + 1) : Nat) : Int)).handle pairSignatures
      Params.main (.heartbeat (signedBeat ((600 * (k + 1) : Nat) : Int))) = .ok (afterRounds (k + 1)) := by
    rw [HeartbeatManager.handle, HeartbeatManager.processHeartbeat_credits hinfo rfl htime hnew' hroom,
      Checked.map_ok_iff]
    refine ⟨_, rfl, ?_⟩
    rw [onNewBlock_afterRounds, hhash]
    dsimp only [signedBeat]
    rw [Function.update_idem, afterRounds, afterRounds, HeartbeatManager.mk.injEq, TrustScoreManager.mk.injEq]
    refine ⟨⟨congrArg (fun info => Function.update (fun _ => none) 7 (some info)) ?_, rfl⟩, ?_⟩
    · simp [roundsEntry]
    · rw [Finset.range_add_one, Finset.image_insert]
  rw [round, HeartbeatManager.run_cons, Checked.bind_ok_iff]
  exact ⟨_, rfl, by rw [HeartbeatManager.run_cons, hbeat]; rfl⟩

theorem run_rounds : ∀ k, k ≤ MAX_SEEN_HEARTBEATS →
    (afterRounds 0).run pairSignatures Params.main (rounds k) = .ok (afterRounds k)
  | 0, _ => rfl
  | k + 1, hk => by
    rw [rounds, HeartbeatManager.run_append, run_rounds k (by omega)]
    exact run_round (by omega)

/-- **An honest validator older than the uptime window has an uptime above 1000**: key `7` registers at height `0`
with a signature that verifies; then for 4325 intervals of the main chain a block arrives and `7` sends a heartbeat
signed by it at the block's height.  The timing is honest throughout, and at the last block, 2,595,000 blocks after
the registration, `7` has been credited 4325 heartbeats against 4320 expected over the window: an uptime of 1001. -/
theorem uptime_exceeds_window :
    signedRegistration.verify pairSignatures = true ∧
    (∀ height : Nat, (signedBeat height).verify pairSignatures 7 = true) ∧
    honestTip 0 (.regValidator signedRegistration :: rounds 4325) = some 2595000 ∧
    ∃ m', HeartbeatManager.empty.run pairSignatures Params.main (.regValidator signedRegistration :: rounds 4325) =
        .ok m' ∧
      ∃ info, m'.trust.validators 7 = some info ∧ info.heartbeatsReceived = 4325 ∧
        info.heartbeatsExpected = 4320 ∧ info.getUptimePercentage = 1001 := by
  have htip : honestTip 0 (.regValidator signedRegistration :: rounds 4325) = some 2595000 := by
    -- the registration leaves the tip at `0`; split it off so that `rounds 4325` is never unfolded
    rw [← List.singleton_append, honestTip_append, show honestTip 0 [.regValidator signedRegistration] = some 0 from rfl,
      Option.bind_some, honestTip_rounds 4325]
    norm_num
  have hrun : HeartbeatManager.empty.run pairSignatures Params.main (.regValidator signedRegistration :: rounds 4325) =
      .ok (afterRounds 4325) := by
    rw [HeartbeatManager.run_cons]
    exact Checked.bind_ok_iff.2 ⟨_, handle_signedRegistration, run_rounds 4325 (by unfold MAX_SEEN_HEARTBEATS; omega)⟩
  have hexpected : (roundsEntry 4325).heartbeatsExpected = 4320 := by decide
  have huptime : (roundsEntry 4325).getUptimePercentage = 1001 := by
    rw [ValidatorInfo.getUptimePercentage, hexpected]
    decide
  exact ⟨rfl, signedBeat_verify, htip, afterRounds 4325, hrun, roundsEntry 4325, rfl, rfl, hexpected, huptime⟩

end Trust
end Wattx
