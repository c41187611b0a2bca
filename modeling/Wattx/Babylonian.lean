import Mathlib.Data.Nat.Sqrt
import Mathlib.Tactic.Linarith
/-!
# Babylonian — Heron's step toward the integer square root

`step y x = ⌊(⌊y / x⌋ + x) / 2⌋` is the floored mean of an estimate `x` and `y / x`.  It never falls below
`⌊√y⌋`, since the inequality of the arithmetic and geometric means survives both floors (`sqrt_le_step`); it falls
strictly while the estimate is above `⌊√y⌋` (`step_lt`); so an estimate at least `⌊√y⌋` that the step does not
lower is `⌊√y⌋` itself (`eq_sqrt_of_le_step`).  Iterating the step while it falls therefore ends at `⌊√y⌋`, after
at most as many rounds as the first estimate is above it.

For the sum `y / x + x` the step takes, `div_add_le` bounds it by `y + 1` for estimates from 2 to `y / 2 + 1`.
-/
namespace Babylonian

/-- One step from the estimate `x` of `⌊√y⌋`. -/
def step (y x : Nat) : Nat := (y / x + x) / 2

variable {y x : Nat}

/-- `(2 s - x) x ≤ s * s`: the mean inequality for `x` and `2 s - x`. -/
theorem two_mul_sub_mul_le (s x : Nat) : (2 * s - x) * x ≤ s * s := by
  rcases Nat.le_total x (2 * s) with h | h
  · obtain ⟨d, hd⟩ : ∃ d, 2 * s = x + d := ⟨2 * s - x, by omega⟩
    rw [hd, Nat.add_sub_cancel_left]
    -- `4 d x ≤ (x + d) ^ 2`, by the square of the difference
    have hsq : 4 * (d * x) ≤ (x + d) * (x + d) := by
      rcases Nat.le_total x d with hxd | hdx
      · obtain ⟨e, rfl⟩ := Nat.exists_eq_add_of_le hxd
        nlinarith [Nat.zero_le (e * e)]
      · obtain ⟨e, rfl⟩ := Nat.exists_eq_add_of_le hdx
        nlinarith [Nat.zero_le (e * e)]
    nlinarith
  · rw [Nat.sub_eq_zero_of_le h, Nat.zero_mul]
    exact Nat.zero_le _

theorem sqrt_le_step (hx : 0 < x) : Nat.sqrt y ≤ step y x := by
  -- `y / x` is at least `2 ⌊√y⌋ - x`
  have hdiv : 2 * Nat.sqrt y - x ≤ y / x :=
    (Nat.le_div_iff_mul_le hx).2 ((two_mul_sub_mul_le _ x).trans (Nat.sqrt_le y))
  unfold step
  omega

theorem step_lt (h : Nat.sqrt y < x) : step y x < x := by
  have hq : y / x < x := Nat.div_lt_of_lt_mul (Nat.sqrt_lt.1 h)
  unfold step
  omega

theorem eq_sqrt_of_le_step (hx : Nat.sqrt y ≤ x) (hstep : x ≤ step y x) : x = Nat.sqrt y :=
  Nat.le_antisymm (Nat.le_of_not_lt fun h => Nat.not_lt_of_le hstep (step_lt h)) hx

theorem div_add_le (hx : 2 ≤ x) (hxy : x ≤ y / 2 + 1) : y / x + x ≤ 2 * (y / 2) + 1 := by
  have hdiv : y / x ≤ y / 2 := Nat.div_le_div_left hx (by decide)
  omega

end Babylonian
