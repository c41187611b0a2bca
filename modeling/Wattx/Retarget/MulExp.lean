import Wattx.FloorSeries
/-!
# Retarget.MulExp — `mul_exp`, `a * exp (p / q)` in 256-bit integers

`mul_exp` (`pow.cpp`) sums the series of `a * exp (p / q)` until a term is zero.  Each term is the last one times
`|p|`, divided by `q`, then by the term's index, in `arith_uint256`, which wraps modulo `2 ^ 256`; for a negative `p`
the odd terms are subtracted.  The counter is a `uint64_t`: on the iteration where it would wrap to zero, the
division by it throws, as a division by `q = 0` does.  `MulExpState.step` is one iteration and `mulExpLoop` the loop,
run for the `2 ^ 64` iterations the counter allows.

An iteration that does not wrap (`MulExpState.Fits`) takes the state after `n` iterations of the exact series,
`mulExpState`, to the one after `n + 1` (`step_mulExpState`).  For a term `a` with `8 * a * (|p| + 1) < 2 ^ 256` and
`|p| ≤ 2 * q`, every iteration the loop reaches fits (`mul_exp_fits`), the terms vanish before the 200th, and
`mul_exp` returns the floored series `mulExpValue` (`mul_exp_eq`).  That value grows with `p` over exponents down to
`-K` with `K ^ 2 ≤ 2 * q` (`mulExpValue_mono`), and is positive for a positive `a` when `K < q` (`mulExpValue_pos`).
-/
namespace Wattx
namespace Retarget

open FloorSeries

/-- The state of `mul_exp`'s loop: the last term `a`, the sum `result`, and the counter `n`. -/
structure MulExpState where
  a : Nat
  result : Nat
  n : Nat
  deriving DecidableEq, Repr

/-- One iteration of `mul_exp`'s loop; `none` where a division by zero throws `uint_error`.  `a * abs_p` multiplies
by the low 32 bits of `abs_p`: the overload `operator*(const base_uint&, uint32_t)` is the one chosen. -/
def MulExpState.step (isNegative : Bool) (abs_p q : Nat) (s : MulExpState) : Option MulExpState :=
  let n := (s.n + 1) % 2 ^ 64
  if q = 0 ∨ n = 0 then none
  else
    let a := s.a * (abs_p % 2 ^ 32) % 2 ^ 256 / q / n
    some ⟨a, if isNegative ∧ n % 2 = 1 then (s.result + 2 ^ 256 - a) % 2 ^ 256 else (s.result + a) % 2 ^ 256, n⟩

/-- The `while (a > 0)` loop, for at most `fuel` iterations: `none` where an iteration throws or the fuel runs out. -/
def mulExpLoop (isNegative : Bool) (abs_p q : Nat) : Nat → MulExpState → Option Nat
  | 0, s => if s.a = 0 then some s.result else none
  | fuel + 1, s =>
    if s.a = 0 then some s.result else (s.step isNegative abs_p q).bind (mulExpLoop isNegative abs_p q fuel)

/-- `mul_exp`: the loop from the term `a`, for the `2 ^ 64` iterations its counter allows.  `p` and `q` are
`int64_t`; `q` is divided by as the `uint64_t` it converts to. -/
def mul_exp (a : Nat) (p q : Int) : Option Nat :=
  mulExpLoop (decide (p < 0)) (p.natAbs % 2 ^ 64) (q % 2 ^ 64).toNat (2 ^ 64) ⟨a, a, 0⟩

/-- The states the loop passes through from `s`: `s`, and on from the next state while the term is positive. -/
inductive MulExpState.Reaches (isNegative : Bool) (abs_p q : Nat) : MulExpState → MulExpState → Prop
  | refl (s : MulExpState) : MulExpState.Reaches isNegative abs_p q s s
  | step {s t u : MulExpState} : 0 < s.a → s.step isNegative abs_p q = some t →
      MulExpState.Reaches isNegative abs_p q t u → MulExpState.Reaches isNegative abs_p q s u

/-- An iteration from `s` computes its product and its new sum without wrapping. -/
def MulExpState.Fits (isNegative : Bool) (abs_p q : Nat) (s : MulExpState) : Prop :=
  s.a * (abs_p % 2 ^ 32) < 2 ^ 256 ∧
    let n := (s.n + 1) % 2 ^ 64
    let a := s.a * (abs_p % 2 ^ 32) / q / n
    if isNegative ∧ n % 2 = 1 then a ≤ s.result else s.result + a < 2 ^ 256

/-- No iteration of `mul_exp a p q` wraps: every state its loop reaches with a positive term fits. -/
def MulExpNoWrap (a : Nat) (p q : Int) : Prop :=
  ∀ t, MulExpState.Reaches (decide (p < 0)) (p.natAbs % 2 ^ 64) (q % 2 ^ 64).toNat ⟨a, a, 0⟩ t → 0 < t.a →
    t.Fits (decide (p < 0)) (p.natAbs % 2 ^ 64) (q % 2 ^ 64).toNat

/-! ### The exact series -/

/-- The loop's sum after `n` iterations, without wrapping: `a + t 1 + ⋯ + t n`, or `a - (t 1 - t 2 + ⋯ ± t n)` for a
negative exponent. -/
def mulExpSum (isNegative : Bool) (a k q n : Nat) : Int :=
  if isNegative then a - altSum (fun i => term a k q (i + 1)) n
  else ((∑ i ∈ Finset.range (n + 1), term a k q i : Nat) : Int)

/-- The loop's state after `n` iterations that did not wrap. -/
def mulExpState (isNegative : Bool) (a k q n : Nat) : MulExpState :=
  ⟨term a k q n, (mulExpSum isNegative a k q n).toNat, n⟩

/-- The floored series of `a * exp (±k / q)`; its terms have vanished by the 200th when `a < 2 ^ 256` and
`k ≤ 2 * q` (`term_two_hundred`). -/
def mulExpValue (isNegative : Bool) (a k q : Nat) : Int := mulExpSum isNegative a k q 200

variable {isNegative : Bool} {a k q n : Nat}

theorem mulExpState_zero : mulExpState isNegative a k q 0 = ⟨a, a, 0⟩ := by
  cases isNegative <;> simp [mulExpState, mulExpSum, altSum]

/-- One more iteration adds the next term, or subtracts it at an odd counter of a negative exponent. -/
theorem mulExpSum_succ (n : Nat) :
    mulExpSum isNegative a k q (n + 1) = mulExpSum isNegative a k q n +
      if isNegative ∧ (n + 1) % 2 = 1 then -(term a k q (n + 1) : Int) else term a k q (n + 1) := by
  cases isNegative with
  | false => simp [mulExpSum, Finset.sum_range_succ _ (n + 1)]
  | true =>
    simp only [mulExpSum, if_true, altSum_succ_right, true_and]
    rcases Nat.even_or_odd n with hn | hn
    · rw [hn.neg_one_pow, if_pos (by have := Nat.even_iff.mp hn; omega)]
      ring
    · rw [hn.neg_one_pow, if_neg (by have := Nat.odd_iff.mp hn; omega)]
      ring

/-- After a zero term the sum no longer changes. -/
theorem mulExpSum_eq_of_le {m : Nat} (h : term a k q n = 0) (hnm : n ≤ m) :
    mulExpSum isNegative a k q m = mulExpSum isNegative a k q n := by
  induction hnm with
  | refl => rfl
  | step hle ih => rw [mulExpSum_succ, ih, term_eq_zero_of_le h (Nat.le_succ_of_le hle)]; simp

theorem lt_of_wide (hwide : 8 * a * (k + 1) < 2 ^ 256) : a < 2 ^ 256 :=
  calc a ≤ 8 * a := Nat.le_mul_of_pos_left a (by norm_num)
    _ ≤ 8 * a * (k + 1) := Nat.le_mul_of_pos_right _ (Nat.succ_pos k)
    _ < 2 ^ 256 := hwide

/-- With `a < 2 ^ 256` and `k ≤ 2 * q` the 200th term is zero. -/
theorem term_two_hundred (hq : 0 < q) (hk : k ≤ 2 * q) (ha : a < 2 ^ 256) : term a k q 200 = 0 :=
  term_eq_zero_of_lt hq hk (lt_of_lt_of_le (Nat.mul_lt_mul_of_pos_right ha (by norm_num)) (by decide +kernel))

/-! ### One iteration -/

/-- An iteration that fits takes the state after `n` iterations to the state after `n + 1`. -/
theorem step_mulExpState (hq : 0 < q) (hk : k < 2 ^ 32) (hn : n + 1 < 2 ^ 64)
    (hsum : 0 ≤ mulExpSum isNegative a k q n ∧ mulExpSum isNegative a k q n < 2 ^ 256)
    (hfits : (mulExpState isNegative a k q n).Fits isNegative k q) :
    (mulExpState isNegative a k q n).step isNegative k q = some (mulExpState isNegative a k q (n + 1)) := by
  obtain ⟨hprod, hnext⟩ := hfits
  simp only [mulExpState, Nat.mod_eq_of_lt hk, Nat.mod_eq_of_lt hn] at hprod hnext
  have hterm : term a k q n * k / q / (n + 1) = term a k q (n + 1) := rfl
  -- the result so far is the exact sum, a natural number below `2 ^ 256`
  have hr : ((mulExpSum isNegative a k q n).toNat : Int) = mulExpSum isNegative a k q n := Int.toNat_of_nonneg hsum.1
  have hr' : (mulExpSum isNegative a k q n).toNat < 2 ^ 256 := by omega
  simp only [MulExpState.step, mulExpState, Nat.mod_eq_of_lt hk, Nat.mod_eq_of_lt hn, Nat.mod_eq_of_lt hprod, hterm]
  rw [if_neg (by omega), Option.some.injEq, MulExpState.mk.injEq, mulExpSum_succ]
  refine ⟨rfl, ?_, rfl⟩
  split_ifs at hnext ⊢
  · -- subtracting a term no larger than the result does not wrap
    omega
  · omega

/-- Where the product fits and the next sum lies in `[0, 2 ^ 256)`, the iteration fits. -/
theorem fits_mulExpState (hk : k < 2 ^ 32) (hn : n + 1 < 2 ^ 64) (hprod : term a k q n * k < 2 ^ 256)
    (hsum : 0 ≤ mulExpSum isNegative a k q n)
    (hnext : 0 ≤ mulExpSum isNegative a k q (n + 1) ∧ mulExpSum isNegative a k q (n + 1) < 2 ^ 256) :
    (mulExpState isNegative a k q n).Fits isNegative k q := by
  have hr : ((mulExpSum isNegative a k q n).toNat : Int) = mulExpSum isNegative a k q n := Int.toNat_of_nonneg hsum
  have hterm : term a k q n * k / q / (n + 1) = term a k q (n + 1) := rfl
  rw [mulExpSum_succ] at hnext
  refine ⟨by simpa only [mulExpState, Nat.mod_eq_of_lt hk] using hprod, ?_⟩
  simp only [mulExpState, Nat.mod_eq_of_lt hk, Nat.mod_eq_of_lt hn, hterm]
  split_ifs at hnext ⊢ <;> omega

/-! ### The whole loop -/

section Bounds

-- The bounds under which no iteration wraps: a positive `q`, `k < 2 ^ 32` with `k ≤ 2 * q` (and
-- `k ≤ q` for a negative exponent), and room for eight times the term times `k + 1`.
variable (hq : 0 < q) (hk : k < 2 ^ 32) (hk2 : k ≤ 2 * q) (hkneg : isNegative → k ≤ q)
  (hwide : 8 * a * (k + 1) < 2 ^ 256)
include hq hk2 hkneg hwide

/-- Every partial sum lies in `[0, 2 ^ 256)`: a positive series stays below `8 * a`, a negative one between
`a - t 1` and `a`. -/
theorem mulExpSum_bounds (n : Nat) : 0 ≤ mulExpSum isNegative a k q n ∧ mulExpSum isNegative a k q n < 2 ^ 256 := by
  rcases Nat.eq_zero_or_pos a with rfl | ha
  · cases isNegative <;> simp [mulExpSum, altSum, term_zero_left]
  cases isNegative with
  | false =>
    have hlt := sum_term_lt hq hk2 ha (n + 1)
    have h8 : 8 * a ≤ 8 * a * (k + 1) := Nat.le_mul_of_pos_right _ (Nat.succ_pos k)
    simp only [mulExpSum, Bool.false_eq_true, if_false]
    constructor <;> omega
  | true =>
    have hanti : Antitone fun i => term a k q (i + 1) := fun i j hij => term_antitone (hkneg rfl) (Nat.succ_le_succ hij)
    obtain ⟨h0, h1⟩ := altSum_mem_Icc hanti n
    simp only [zero_add] at h1
    have h1a : term a k q 1 ≤ a := term_succ_le (hkneg rfl) 0
    have ha' := lt_of_wide hwide
    simp only [mulExpSum, if_true]
    constructor <;> omega

omit hkneg in
/-- Every term times `k` is below `2 ^ 256`. -/
theorem term_mul_lt (n : Nat) : term a k q n * k < 2 ^ 256 := by
  rcases Nat.eq_zero_or_pos a with rfl | ha
  · simp [term_zero_left]
  -- a term is at most the partial sum it ends, which is below `8 * a`
  have hterm : term a k q n < 8 * a :=
    lt_of_le_of_lt (Finset.single_le_sum (fun i _ => Nat.zero_le _) (Finset.self_mem_range_succ n))
      (sum_term_lt hq hk2 ha (n + 1))
  calc term a k q n * k ≤ 8 * a * k := Nat.mul_le_mul_right k hterm.le
    _ < 2 ^ 256 := lt_of_le_of_lt (Nat.mul_le_mul_left _ (Nat.le_succ k)) hwide

include hk

/-- The loop from the state after `n` iterations returns the sum at `N`, once it has the fuel to reach a zero term at
`N`. -/
theorem mulExpLoop_mulExpState {N : Nat} (hN : term a k q N = 0) (hN64 : N < 2 ^ 64) :
    ∀ fuel n, n ≤ N → N - n ≤ fuel →
      mulExpLoop isNegative k q fuel (mulExpState isNegative a k q n) = some (mulExpSum isNegative a k q N).toNat := by
  intro fuel
  induction fuel with
  | zero =>
    intro n hnN hfuel
    have hn : n = N := by omega
    subst hn
    simp [mulExpLoop, mulExpState, hN]
  | succ fuel ih =>
    intro n hnN hfuel
    by_cases hzero : term a k q n = 0
    · simp [mulExpLoop, mulExpState, hzero, mulExpSum_eq_of_le hzero hnN]
    · -- a positive term is before the zero one, and its iteration fits
      have hlt : n < N := lt_of_le_of_ne hnN fun h => hzero (h ▸ hN)
      have hstep := step_mulExpState hq hk (by omega) (mulExpSum_bounds hq hk2 hkneg hwide n)
        (fits_mulExpState hk (by omega) (term_mul_lt hq hk2 hwide n) (mulExpSum_bounds hq hk2 hkneg hwide n).1
          (mulExpSum_bounds hq hk2 hkneg hwide (n + 1)))
      rw [mulExpLoop, if_neg (show (mulExpState isNegative a k q n).a ≠ 0 from hzero), hstep, Option.bind_some]
      exact ih (n + 1) hlt (by omega)

/-- Every state the loop reaches from the state after `n < 200` iterations is the state after some later count. -/
theorem reaches_mulExpState (ha : a < 2 ^ 256) {s t : MulExpState} (hreach : s.Reaches isNegative k q t) :
    ∀ n, s = mulExpState isNegative a k q n → ∃ m, t = mulExpState isNegative a k q m ∧ (0 < t.a → m < 200) := by
  induction hreach with
  | refl s =>
    intro n hs
    refine ⟨n, hs, fun hpos => ?_⟩
    by_contra hge
    have hzero := term_eq_zero_of_le (term_two_hundred hq hk2 ha) (not_lt.mp hge)
    simp [hs, mulExpState, hzero] at hpos
  | step hpos hstep _ ih =>
    intro n hs
    subst hs
    -- the positive term puts `n` before the 200th, where the iteration fits
    have hn : n < 200 := by
      by_contra hge
      have hzero := term_eq_zero_of_le (term_two_hundred hq hk2 ha) (not_lt.mp hge)
      simp [mulExpState, hzero] at hpos
    have hnext := step_mulExpState hq hk (by omega) (mulExpSum_bounds hq hk2 hkneg hwide n)
      (fits_mulExpState hk (by omega) (term_mul_lt hq hk2 hwide n) (mulExpSum_bounds hq hk2 hkneg hwide n).1
        (mulExpSum_bounds hq hk2 hkneg hwide (n + 1)))
    rw [hstep] at hnext
    exact ih (n + 1) (Option.some.inj hnext)

end Bounds

/-- For `|p| < 2 ^ 32` and `q < 2 ^ 64` the conversions `mul_exp` makes change nothing. -/
theorem mul_exp_args {p : Int} {q : Nat} (hp : p.natAbs < 2 ^ 32) (hq64 : q < 2 ^ 64) :
    p.natAbs % 2 ^ 64 = p.natAbs ∧ ((q : Int) % 2 ^ 64).toNat = q :=
  ⟨Nat.mod_eq_of_lt (by omega),
    by rw [Int.emod_eq_of_lt (Int.natCast_nonneg q) (by exact_mod_cast hq64), Int.toNat_natCast]⟩

/-- Within these bounds `mul_exp` ends, with the floored series. -/
theorem mul_exp_eq {p : Int} (hq : 0 < q) (hq64 : q < 2 ^ 64) (hp : p.natAbs < 2 ^ 32) (hp2 : p.natAbs ≤ 2 * q)
    (hneg : p < 0 → p.natAbs ≤ q) (hwide : 8 * a * (p.natAbs + 1) < 2 ^ 256) :
    mul_exp a p q = some (mulExpValue (decide (p < 0)) a p.natAbs q).toNat := by
  have ha : a < 2 ^ 256 := lt_of_wide hwide
  rw [mul_exp, (mul_exp_args hp hq64).1, (mul_exp_args hp hq64).2, ← mulExpState_zero]
  exact mulExpLoop_mulExpState hq hp hp2 (fun h => hneg (of_decide_eq_true h)) hwide
    (term_two_hundred hq hp2 ha) (by norm_num) _ 0 (Nat.zero_le _) (by norm_num)

/-- Within these bounds no iteration `mul_exp` makes wraps. -/
theorem mul_exp_fits {p : Int} (hq : 0 < q) (hq64 : q < 2 ^ 64) (hp : p.natAbs < 2 ^ 32) (hp2 : p.natAbs ≤ 2 * q)
    (hneg : p < 0 → p.natAbs ≤ q) (hwide : 8 * a * (p.natAbs + 1) < 2 ^ 256) : MulExpNoWrap a p q := by
  intro t hreach hpos
  rw [(mul_exp_args hp hq64).1, (mul_exp_args hp hq64).2] at hreach ⊢
  have ha : a < 2 ^ 256 := lt_of_wide hwide
  have hkneg : decide (p < 0) = true → p.natAbs ≤ q := fun h => hneg (of_decide_eq_true h)
  obtain ⟨m, rfl, hm⟩ := reaches_mulExpState hq hp hp2 hkneg hwide ha hreach 0 mulExpState_zero.symm
  have hm200 := hm hpos
  exact fits_mulExpState hp (by omega) (term_mul_lt hq hp2 hwide m) (mulExpSum_bounds hq hp2 hkneg hwide m).1
    (mulExpSum_bounds hq hp2 hkneg hwide (m + 1))

/-! ### The value -/

/-- A positive exponent's series is at least its first term `a`, and grows with the exponent. -/
theorem mulExpValue_false_mono {k k' : Nat} (hk : k ≤ k') : mulExpValue false a k q ≤ mulExpValue false a k' q := by
  simp only [mulExpValue, mulExpSum, Bool.false_eq_true, if_false]
  exact_mod_cast sum_term_mono hk _

theorem le_mulExpValue_false : (a : Int) ≤ mulExpValue false a k q := by
  simp only [mulExpValue, mulExpSum, Bool.false_eq_true, if_false]
  have hfirst : term a k q 0 ≤ ∑ i ∈ Finset.range (200 + 1), term a k q i :=
    Finset.single_le_sum (fun i _ => Nat.zero_le _) (Finset.mem_range.mpr (by norm_num))
  exact_mod_cast hfirst

/-- A negative exponent's series is at most `a`, and falls as `k` grows while `k ^ 2 ≤ 2 * q`. -/
theorem mulExpValue_true_le (hkq : k ≤ q) : mulExpValue true a k q ≤ a := by
  have hanti : Antitone fun i => term a k q (i + 1) := fun i j hij => term_antitone hkq (Nat.succ_le_succ hij)
  have := (altSum_mem_Icc hanti 200).1
  simp only [mulExpValue, mulExpSum, if_true]
  omega

theorem mulExpValue_true_anti (hq : 0 < q) {k k' : Nat} (hk : k ≤ k') (hk' : k' ^ 2 ≤ 2 * q) :
    mulExpValue true a k' q ≤ mulExpValue true a k q := by
  simp only [mulExpValue, mulExpSum, if_true]
  -- one unit of `k` at a time, each step kept by `altSum_term_mono`
  induction hk with
  | refl => exact le_rfl
  | @step j hj ih =>
    have hj2 : (j + 1) ^ 2 ≤ 2 * q := hk'
    have hstep : altSum (fun i => term a j q (i + 1)) 200 ≤ altSum (fun i => term a (j + 1) q (i + 1)) 200 :=
      altSum_term_mono hq hj2 (by norm_num)
    have := ih (le_trans (Nat.pow_le_pow_left (Nat.le_succ j) 2) hk')
    show (a : Int) - altSum (fun i => term a (j + 1) q (i + 1)) 200 ≤ _
    omega

/-- Over exponents from `-K` on, with `K ^ 2 ≤ 2 * q`, the series grows with `p`. -/
theorem mulExpValue_mono (hq : 0 < q) {K : Nat} (hK : K ^ 2 ≤ 2 * q) {p p' : Int} (hp : -(K : Int) ≤ p)
    (hpp' : p ≤ p') : mulExpValue (decide (p < 0)) a p.natAbs q ≤ mulExpValue (decide (p' < 0)) a p'.natAbs q := by
  have hKq : K ≤ q := by nlinarith
  rcases lt_or_ge p 0 with hp0 | hp0
  · rcases lt_or_ge p' 0 with hp'0 | hp'0
    · -- both negative: the smaller magnitude takes less off
      rw [decide_eq_true hp0, decide_eq_true hp'0]
      exact mulExpValue_true_anti hq (by omega) (le_trans (Nat.pow_le_pow_left (by omega) 2) hK)
    · -- a negative exponent keeps the series at most `a`, a non-negative one at least `a`
      rw [decide_eq_true hp0, decide_eq_false (not_lt.mpr hp'0)]
      exact (mulExpValue_true_le (by omega)).trans le_mulExpValue_false
  · rw [decide_eq_false (not_lt.mpr hp0), decide_eq_false (not_lt.mpr (le_trans hp0 hpp'))]
    exact mulExpValue_false_mono (by omega)

/-- For a positive `a` and exponents from `-K` on with `K < q`, the series is positive. -/
theorem mulExpValue_pos (ha : 0 < a) {K : Nat} (hKq : K < q) {p : Int} (hp : -(K : Int) ≤ p) :
    0 < mulExpValue (decide (p < 0)) a p.natAbs q := by
  rcases lt_or_ge p 0 with hp0 | hp0
  · -- `a` less at most the first term, which is below `a`
    rw [decide_eq_true hp0]
    have hk : p.natAbs < q := by omega
    have hanti : Antitone fun i => term a p.natAbs q (i + 1) :=
      fun i j hij => term_antitone hk.le (Nat.succ_le_succ hij)
    have hfirst := (altSum_mem_Icc hanti 200).2
    simp only [zero_add] at hfirst
    have hlt := term_one_lt ha hk
    simp only [mulExpValue, mulExpSum, if_true]
    omega
  · rw [decide_eq_false (not_lt.mpr hp0)]
    exact lt_of_lt_of_le (by exact_mod_cast ha) le_mulExpValue_false

/-- For a non-negative exponent within the bounds, `mul_exp` returns at least `a` and at most `a * exp (p / q)`: the
floored series undershoots the real one. -/
theorem mul_exp_le_exp {p : Int} (hp0 : 0 ≤ p) (hq : 0 < q) (hq64 : q < 2 ^ 64) (hp : p.natAbs < 2 ^ 32)
    (hp2 : p.natAbs ≤ 2 * q) (hwide : 8 * a * (p.natAbs + 1) < 2 ^ 256) :
    ∃ v, mul_exp a p q = some v ∧ a ≤ v ∧ (v : ℝ) ≤ a * Real.exp (p / q) := by
  have hneg : p < 0 → p.natAbs ≤ q := fun h => absurd h (not_lt.mpr hp0)
  have hfirst : (a : Int) ≤ mulExpValue false a p.natAbs q := le_mulExpValue_false
  have hvalue : mulExpValue false a p.natAbs q = ((∑ i ∈ Finset.range (200 + 1), term a p.natAbs q i : Nat) : Int) := by
    simp only [mulExpValue, mulExpSum, Bool.false_eq_true, if_false]
  rw [mul_exp_eq hq hq64 hp hp2 hneg hwide, decide_eq_false (not_lt.mpr hp0)]
  rw [hvalue] at hfirst ⊢
  rw [Int.toNat_natCast]
  refine ⟨_, rfl, by exact_mod_cast hfirst, ?_⟩
  -- the exponent's magnitude is the exponent itself
  have hcast : ((p.natAbs : Nat) : ℝ) = (p : ℝ) := by rw [← Int.cast_natCast, Int.natAbs_of_nonneg hp0]
  rw [← hcast]
  exact sum_term_le_exp hq _

theorem mul_exp_le_exp_on_main :
    ∃ v, mul_exp (2 ^ 200) 38 601 = some v ∧ 2 ^ 200 ≤ v ∧ (v : ℝ) ≤ (2 ^ 200 : Nat) * Real.exp ((38 : Int) / (601 : Nat)) :=
  mul_exp_le_exp (by decide) (by decide) (by decide) (by decide) (by decide) (by decide)

end Retarget
end Wattx
