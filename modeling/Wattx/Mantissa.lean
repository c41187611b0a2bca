import Mathlib.Data.Nat.Find
import Mathlib.Tactic.Ring
/-!
# Mantissa — truncation to a bounded mantissa on a grid of powers

A number format that keeps a mantissa below `m` and an exponent of a base `B` represents `x` by
`x / B ^ e * B ^ e`, with `e` the least exponent such that `x < m * B ^ e` (`Grid.trunc`): the digits below the
mantissa are dropped.  When `B` divides `m`, truncation never exceeds its argument (`trunc_le`), drops less than a
`(m / B)`-th of it (`sub_trunc_mul_le`), keeps positive numbers positive (`trunc_pos`) and is monotone (`trunc_mono`): a number of a larger exponent keeps a mantissa of at
least `m / B`, so its truncation is at least `m * B ^ (e - 1)`, above every number of a smaller exponent.
`trunc_eq_of_bounds` recognises the exponent from the two bounds that make it the least.
-/
namespace Mantissa

/-- Mantissas below `mantissa`, times powers of `base`; the base divides the bound on mantissas. -/
structure Grid where
  base : ℕ
  mantissa : ℕ
  one_lt_base : 1 < base
  mantissa_pos : 0 < mantissa
  base_dvd : base ∣ mantissa

namespace Grid

variable (g : Grid) {x y e : ℕ}

theorem base_pos : 0 < g.base := lt_trans Nat.zero_lt_one g.one_lt_base

theorem exists_lt_mul_pow (x : ℕ) : ∃ e, x < g.mantissa * g.base ^ e :=
  ⟨x, lt_of_lt_of_le (Nat.lt_pow_self g.one_lt_base) (Nat.le_mul_of_pos_left _ g.mantissa_pos)⟩

/-- The exponent of `x`: the least `e` with `x < mantissa * base ^ e`. -/
def exponent (x : ℕ) : ℕ := Nat.find (g.exists_lt_mul_pow x)

/-- `x` with the digits below its mantissa dropped. -/
def trunc (x : ℕ) : ℕ := x / g.base ^ g.exponent x * g.base ^ g.exponent x

theorem lt_mul_pow_exponent (x : ℕ) : x < g.mantissa * g.base ^ g.exponent x := Nat.find_spec (g.exists_lt_mul_pow x)

theorem exponent_le_of_lt (h : x < g.mantissa * g.base ^ e) : g.exponent x ≤ e := Nat.find_min' _ h

theorem mul_pow_le_of_lt_exponent (h : e < g.exponent x) : g.mantissa * g.base ^ e ≤ x :=
  not_lt.mp (Nat.find_min (g.exists_lt_mul_pow x) h)

theorem exponent_mono (hxy : x ≤ y) : g.exponent x ≤ g.exponent y :=
  g.exponent_le_of_lt (lt_of_le_of_lt hxy (g.lt_mul_pow_exponent y))

/-- The exponent is the `e` below which `x` is at least the bound and at which it is below it. -/
theorem exponent_eq_of_bounds (hlt : x < g.mantissa * g.base ^ e) (hge : e = 0 ∨ g.mantissa * g.base ^ (e - 1) ≤ x) :
    g.exponent x = e := by
  refine le_antisymm (g.exponent_le_of_lt hlt) ?_
  rcases hge with rfl | hge
  · exact Nat.zero_le _
  · -- a smaller exponent would also bound `x` from above at `e - 1`
    by_contra hsmall
    have hle : g.mantissa * g.base ^ g.exponent x ≤ g.mantissa * g.base ^ (e - 1) :=
      Nat.mul_le_mul_left _ (Nat.pow_le_pow_right g.base_pos (by omega))
    have := g.lt_mul_pow_exponent x
    omega

theorem trunc_eq_of_bounds (hlt : x < g.mantissa * g.base ^ e) (hge : e = 0 ∨ g.mantissa * g.base ^ (e - 1) ≤ x) :
    g.trunc x = x / g.base ^ e * g.base ^ e := by
  rw [trunc, g.exponent_eq_of_bounds hlt hge]

theorem trunc_le (x : ℕ) : g.trunc x ≤ x := Nat.div_mul_le_self _ _

/-- The bound one exponent down is `mantissa / base` at this exponent. -/
theorem mantissa_mul_pow_pred (he : 0 < e) : g.mantissa * g.base ^ (e - 1) = g.mantissa / g.base * g.base ^ e := by
  obtain ⟨c, hc⟩ := g.base_dvd
  obtain ⟨d, rfl⟩ : ∃ d, e = d + 1 := ⟨_, (Nat.succ_pred_eq_of_pos he).symm⟩
  rw [hc, Nat.mul_div_cancel_left c g.base_pos, Nat.add_sub_cancel, pow_succ]
  ring

/-- A positive exponent leaves a mantissa of at least `mantissa / base`. -/
theorem mul_pow_le_trunc (he : 0 < g.exponent x) : g.mantissa * g.base ^ (g.exponent x - 1) ≤ g.trunc x := by
  have hlow : g.mantissa * g.base ^ (g.exponent x - 1) ≤ x := g.mul_pow_le_of_lt_exponent (by omega)
  -- `mantissa / base` is at most the truncated mantissa
  rw [g.mantissa_mul_pow_pred he] at hlow
  rw [g.mantissa_mul_pow_pred he, trunc]
  exact Nat.mul_le_mul_right _ ((Nat.le_div_iff_mul_le (Nat.pow_pos g.base_pos)).mpr hlow)

/-- Truncation drops less than `base ^ exponent`, which `mantissa / base` times is at most `x`: a relative error
below `base / mantissa`. -/
theorem sub_trunc_mul_le (x : ℕ) : (x - g.trunc x) * (g.mantissa / g.base) ≤ x := by
  rcases Nat.eq_zero_or_pos (g.exponent x) with he | he
  · simp [trunc, he]
  · have hdrop : x - g.trunc x < g.base ^ g.exponent x := by
      rw [trunc, Nat.mul_comm, ← Nat.mod_eq_sub_mul_div]
      exact Nat.mod_lt x (Nat.pow_pos g.base_pos)
    have hlow : g.mantissa / g.base * g.base ^ g.exponent x ≤ x := by
      rw [← g.mantissa_mul_pow_pred he]
      exact g.mul_pow_le_of_lt_exponent (by omega)
    calc (x - g.trunc x) * (g.mantissa / g.base) ≤ g.base ^ g.exponent x * (g.mantissa / g.base) :=
          Nat.mul_le_mul_right _ hdrop.le
      _ = g.mantissa / g.base * g.base ^ g.exponent x := Nat.mul_comm _ _
      _ ≤ x := hlow

theorem trunc_pos (hx : 0 < x) : 0 < g.trunc x := by
  rcases Nat.eq_zero_or_pos (g.exponent x) with he | he
  · simpa [trunc, he] using hx
  · exact lt_of_lt_of_le (Nat.mul_pos g.mantissa_pos (Nat.pow_pos g.base_pos))
      (g.mul_pow_le_trunc he)

theorem trunc_mono (hxy : x ≤ y) : g.trunc x ≤ g.trunc y := by
  rcases (g.exponent_mono hxy).lt_or_eq with hlt | heq
  · -- `x` is below the bound of its exponent, which is at most that of `y` less one
    calc g.trunc x ≤ x := g.trunc_le x
      _ ≤ g.mantissa * g.base ^ g.exponent x := (g.lt_mul_pow_exponent x).le
      _ ≤ g.mantissa * g.base ^ (g.exponent y - 1) :=
        Nat.mul_le_mul_left _ (Nat.pow_le_pow_right g.base_pos (by omega))
      _ ≤ g.trunc y := g.mul_pow_le_trunc (by omega)
  · rw [trunc, trunc, heq]
    exact Nat.mul_le_mul_right _ (Nat.div_le_div_right hxy)

end Grid
end Mantissa
