import Mathlib.Analysis.Complex.ExponentialBounds
/-!
# FloorSeries — `a * exp (k / q)` summed term by term with floored divisions

A loop that sums the series of `a * exp (k / q)` in integers computes each term from the last one: times `k`,
divided by `q`, then divided by the term's index, each division rounding down (`term`).  Flooring only loses, so the
`n`-th term is at most the exact `a * k ^ n / (q ^ n * n !)` (`term_mul_le`): the partial sums stay below
`a * exp (k / q)` (`sum_term_le_exp`), below `8 * a` when `k ≤ 2 * q` (`sum_term_lt`), and the terms reach zero
(`term_eq_zero_of_lt`).  Each term grows with `k` (`term_mono`), so the sums do; for `k ≤ q` the terms do not grow
with their index (`term_antitone`).

The series of `a * exp (-k / q)` is `a` less the alternating sum `t 1 - t 2 + t 3 - ⋯` (`altSum`).  For terms that do
not grow, an alternating sum lies between its first term less the second and its first term (`altSum_mem_Icc`,
`sub_le_altSum`).  With `(k + 1) ^ 2 ≤ 2 * q`, one more unit of `k` adds more to the first term than the second term
can take back, so the alternating sum grows with `k` (`altSum_term_mono`), floors and all.
-/
namespace FloorSeries

open Finset Nat

variable {a k q : ℕ}

/-- The `n`-th term of `a * exp (k / q)`, computed from the one before with floored divisions. -/
def term (a k q : ℕ) : ℕ → ℕ
  | 0 => a
  | n + 1 => term a k q n * k / q / (n + 1)

@[simp] theorem term_zero : term a k q 0 = a := rfl

theorem term_succ (n : ℕ) : term a k q (n + 1) = term a k q n * k / q / (n + 1) := rfl

@[simp] theorem term_zero_left (n : ℕ) : term 0 k q n = 0 := by
  induction n with
  | zero => rfl
  | succ n ih => simp [term_succ, ih]

/-- Flooring only loses: the `n`-th term is at most `a * k ^ n / (q ^ n * n !)`. -/
theorem term_mul_le (n : ℕ) : term a k q n * (q ^ n * n !) ≤ a * k ^ n := by
  induction n with
  | zero => simp
  | succ n ih =>
    -- each floored division, multiplied back, gives at most what it divided
    have hdiv : term a k q (n + 1) * (n + 1) * q ≤ term a k q n * k :=
      calc term a k q (n + 1) * (n + 1) * q ≤ term a k q n * k / q * q :=
            Nat.mul_le_mul_right q (Nat.div_mul_le_self _ _)
        _ ≤ term a k q n * k := Nat.div_mul_le_self _ _
    calc term a k q (n + 1) * (q ^ (n + 1) * (n + 1)!)
        = term a k q (n + 1) * (n + 1) * q * (q ^ n * n !) := by rw [pow_succ, factorial_succ]; ring
      _ ≤ term a k q n * k * (q ^ n * n !) := Nat.mul_le_mul_right _ hdiv
      _ = term a k q n * (q ^ n * n !) * k := by ring
      _ ≤ a * k ^ n * k := Nat.mul_le_mul_right k ih
      _ = a * k ^ (n + 1) := by rw [pow_succ, mul_assoc]

/-- Each term grows with `k`. -/
theorem term_mono {k k' : ℕ} (hk : k ≤ k') (n : ℕ) : term a k q n ≤ term a k' q n := by
  induction n with
  | zero => exact le_rfl
  | succ n ih => exact Nat.div_le_div_right (Nat.div_le_div_right (Nat.mul_le_mul ih hk))

/-- For `k ≤ q` a term is at most the one before. -/
theorem term_succ_le (hk : k ≤ q) (n : ℕ) : term a k q (n + 1) ≤ term a k q n :=
  calc term a k q (n + 1) ≤ term a k q n * k / q := Nat.div_le_self _ _
    _ ≤ term a k q n * q / q := Nat.div_le_div_right (Nat.mul_le_mul_left _ hk)
    _ ≤ term a k q n := Nat.div_le_of_le_mul (le_of_eq (mul_comm _ _))

theorem term_antitone (hk : k ≤ q) : Antitone (term a k q) := antitone_nat_of_succ_le (term_succ_le hk)

/-- For `k < q` the first term is below a positive `a`. -/
theorem term_one_lt (ha : 0 < a) (hk : k < q) : term a k q 1 < a := by
  rw [term_succ, term_zero, Nat.div_one, Nat.div_lt_iff_lt_mul (by omega)]
  exact Nat.mul_lt_mul_of_pos_left hk ha

/-- A zero term stays zero. -/
theorem term_eq_zero_of_le {n m : ℕ} (h : term a k q n = 0) (hnm : n ≤ m) : term a k q m = 0 := by
  induction hnm with
  | refl => exact h
  | step _ ih => simp [term_succ, ih]

/-- With `k ≤ 2 * q`, the `N`-th term is zero as soon as `a * 2 ^ N < N !`. -/
theorem term_eq_zero_of_lt (hq : 0 < q) (hk : k ≤ 2 * q) {N : ℕ} (h : a * 2 ^ N < N !) : term a k q N = 0 := by
  by_contra hne
  have hexact : a * k ^ N ≤ a * 2 ^ N * q ^ N :=
    calc a * k ^ N ≤ a * (2 * q) ^ N := Nat.mul_le_mul_left _ (Nat.pow_le_pow_left hk N)
      _ = a * 2 ^ N * q ^ N := by rw [mul_pow, mul_assoc]
  -- a positive term would make `N ! * q ^ N` at most `a * 2 ^ N * q ^ N`
  have hle : N ! * q ^ N ≤ a * 2 ^ N * q ^ N :=
    calc N ! * q ^ N = 1 * (q ^ N * N !) := by ring
      _ ≤ term a k q N * (q ^ N * N !) := Nat.mul_le_mul_right _ (Nat.pos_of_ne_zero hne)
      _ ≤ a * k ^ N := term_mul_le N
      _ ≤ a * 2 ^ N * q ^ N := hexact
  have := Nat.le_of_mul_le_mul_right hle (pow_pos hq N)
  omega

/-- The partial sums stay below `a * exp (k / q)`. -/
theorem sum_term_le_exp (hq : 0 < q) (N : ℕ) :
    ((∑ i ∈ range N, term a k q i : ℕ) : ℝ) ≤ a * Real.exp (k / q) := by
  have hterm : ∀ i, (term a k q i : ℝ) ≤ a * ((k / q : ℝ) ^ i / i !) := by
    intro i
    have hpos : (0 : ℝ) < q ^ i * i ! := by positivity
    have hexact : (a : ℝ) * ((k / q : ℝ) ^ i / i !) = a * k ^ i / (q ^ i * i !) := by
      rw [div_pow, div_div, mul_div_assoc]
    rw [hexact, le_div_iff₀ hpos]
    exact_mod_cast term_mul_le i
  calc ((∑ i ∈ range N, term a k q i : ℕ) : ℝ) = ∑ i ∈ range N, (term a k q i : ℝ) := by push_cast; rfl
    _ ≤ ∑ i ∈ range N, (a : ℝ) * ((k / q : ℝ) ^ i / i !) := sum_le_sum fun i _ => hterm i
    _ = a * ∑ i ∈ range N, (k / q : ℝ) ^ i / i ! := (mul_sum _ _ _).symm
    _ ≤ a * Real.exp (k / q) :=
      mul_le_mul_of_nonneg_left (Real.sum_le_exp_of_nonneg (by positivity) N) (by positivity)

/-- With `k ≤ 2 * q` the partial sums stay below `8 * a`, since `exp 2 < 8`. -/
theorem sum_term_lt (hq : 0 < q) (hk : k ≤ 2 * q) (ha : 0 < a) (N : ℕ) : ∑ i ∈ range N, term a k q i < 8 * a := by
  have hexp : Real.exp (k / q) < 8 :=
    calc Real.exp (k / q) ≤ Real.exp 2 := by
          rw [Real.exp_le_exp, div_le_iff₀ (by exact_mod_cast hq)]
          exact_mod_cast hk
      _ = Real.exp 1 ^ 2 := by rw [← Real.exp_nat_mul]; norm_num
      _ < 2.7182818286 ^ 2 := by gcongr; exact Real.exp_one_lt_d9
      _ < 8 := by norm_num
  have hsum : ((∑ i ∈ range N, term a k q i : ℕ) : ℝ) < 8 * a :=
    calc ((∑ i ∈ range N, term a k q i : ℕ) : ℝ) ≤ a * Real.exp (k / q) := sum_term_le_exp hq N
      _ < a * 8 := mul_lt_mul_of_pos_left hexp (by exact_mod_cast ha)
      _ = 8 * a := mul_comm _ _
  exact_mod_cast hsum

/-- The partial sums grow with `k`. -/
theorem sum_term_mono {k k' : ℕ} (hk : k ≤ k') (N : ℕ) :
    ∑ i ∈ range N, term a k q i ≤ ∑ i ∈ range N, term a k' q i :=
  sum_le_sum fun i _ => term_mono hk i

/-! ### Alternating sums -/

/-- `g 0 - g 1 + g 2 - ⋯`, over the first `N` terms. -/
def altSum (g : ℕ → ℕ) (N : ℕ) : ℤ := ∑ i ∈ range N, (-1) ^ i * (g i : ℤ)

/-- An alternating sum is its first term less the alternating sum of the rest. -/
theorem altSum_succ (g : ℕ → ℕ) (N : ℕ) : altSum g (N + 1) = g 0 - altSum (fun i => g (i + 1)) N := by
  simp only [altSum, sum_range_succ', pow_succ, pow_zero, one_mul, mul_neg, mul_one, neg_mul, sum_neg_distrib]
  ring

/-- ... and the alternating sum of one more term adds it with its sign. -/
theorem altSum_succ_right (g : ℕ → ℕ) (N : ℕ) : altSum g (N + 1) = altSum g N + (-1) ^ N * g N :=
  sum_range_succ _ _

variable {g : ℕ → ℕ}

/-- For terms that do not grow, every partial alternating sum lies between `0` and the first term. -/
theorem altSum_mem_Icc (hg : Antitone g) (N : ℕ) : 0 ≤ altSum g N ∧ altSum g N ≤ g 0 := by
  induction N generalizing g with
  | zero => simp [altSum]
  | succ N ih =>
    -- the rest is again an alternating sum of terms that do not grow, below its first term `g 1`
    have hrestAnti : Antitone fun i => g (i + 1) := fun i j hij => hg (Nat.succ_le_succ hij)
    obtain ⟨hrest, hrest'⟩ := ih hrestAnti
    have hg10 : g 1 ≤ g 0 := hg (Nat.zero_le 1)
    simp only [zero_add] at hrest'
    rw [altSum_succ]
    constructor <;> omega

/-- ... and above the first term less the second, once it has a term. -/
theorem sub_le_altSum (hg : Antitone g) {N : ℕ} (hN : 0 < N) : (g 0 : ℤ) - g 1 ≤ altSum g N := by
  obtain ⟨N, rfl⟩ := Nat.exists_eq_succ_of_ne_zero hN.ne'
  have hrestAnti : Antitone fun i => g (i + 1) := fun i j hij => hg (Nat.succ_le_succ hij)
  have hrest := (altSum_mem_Icc hrestAnti N).2
  simp only [zero_add] at hrest
  rw [altSum_succ]
  omega

/-- One more unit of `k` adds at least `a / q` to the first term, and the second term is at most `a / q`, while
`(k + 1) ^ 2 ≤ 2 * q`. -/
theorem term_one_add_term_two_le (hq : 0 < q) (hk : (k + 1) ^ 2 ≤ 2 * q) :
    term a k q 1 + term a (k + 1) q 2 ≤ term a (k + 1) q 1 := by
  have h2 : term a (k + 1) q 2 ≤ a / q := by
    rw [Nat.le_div_iff_mul_le hq]
    have hexact : term a (k + 1) q 2 * q * (2 * q) ≤ a * (2 * q) :=
      calc term a (k + 1) q 2 * q * (2 * q) = term a (k + 1) q 2 * (q ^ 2 * 2 !) := by
            rw [factorial_two]; ring
        _ ≤ a * (k + 1) ^ 2 := term_mul_le 2
        _ ≤ a * (2 * q) := Nat.mul_le_mul_left _ hk
    exact Nat.le_of_mul_le_mul_right hexact (by omega)
  have h1 : term a k q 1 + a / q ≤ term a (k + 1) q 1 := by
    simp only [term_succ, term_zero, Nat.div_one, zero_add]
    calc a * k / q + a / q ≤ (a * k + a) / q := Nat.div_add_div_le_add_div
      _ = a * (k + 1) / q := by rw [Nat.mul_add_one]
  omega

/-- The alternating sum of the terms from the first on grows with `k`, while `(k + 1) ^ 2 ≤ 2 * q`. -/
theorem altSum_term_mono (hq : 0 < q) (hk : (k + 1) ^ 2 ≤ 2 * q) {N : ℕ} (hN : 0 < N) :
    altSum (fun i => term a k q (i + 1)) N ≤ altSum (fun i => term a (k + 1) q (i + 1)) N := by
  have hkq : k + 1 ≤ q := by nlinarith
  have hanti : ∀ k', k' ≤ q → Antitone fun i => term a k' q (i + 1) :=
    fun k' hk' i j hij => term_antitone hk' (Nat.succ_le_succ hij)
  have hstep : term a k q 1 + term a (k + 1) q 2 ≤ term a (k + 1) q 1 := term_one_add_term_two_le hq hk
  calc altSum (fun i => term a k q (i + 1)) N ≤ term a k q 1 := (altSum_mem_Icc (hanti k (by omega)) N).2
    _ ≤ (term a (k + 1) q 1 : ℤ) - term a (k + 1) q 2 := by omega
    _ ≤ altSum (fun i => term a (k + 1) q (i + 1)) N := sub_le_altSum (hanti (k + 1) hkq) hN

end FloorSeries
