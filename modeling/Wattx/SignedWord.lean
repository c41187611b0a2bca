import Mathlib.Algebra.Group.Int.Defs
import Mathlib.Algebra.Order.Ring.Int
/-!
# SignedWord — the arithmetic of two's complement words

A `w`-bit signed word holds the integers of `[-2 ^ (w - 1), 2 ^ (w - 1))` (`InRange`).  An addition, subtraction or
multiplication on such words computes the exact result and keeps it modulo `2 ^ w`, as the machine does: `wrap w x`,
the balanced remainder `Int.bmod`.  A result in the range is kept as it is (`wrap_of_inRange`); one above it comes
back low, one below it high, and every result is in the range (`inRange_wrap`).
-/
namespace SignedWord

/-- The word of `w` bits an operation leaves when its exact result is `x`. -/
def wrap (w : Nat) (x : Int) : Int := x.bmod (2 ^ w)

/-- `x` is a value of a `w`-bit signed word. -/
def InRange (w : Nat) (x : Int) : Prop := -2 ^ (w - 1) ≤ x ∧ x < 2 ^ (w - 1)

instance (w : Nat) (x : Int) : Decidable (InRange w x) := inferInstanceAs (Decidable (_ ∧ _))

variable {w : Nat} {x : Int}

theorem half_two_pow (hw : 0 < w) : ((2 ^ w : Nat) : Int) / 2 = 2 ^ (w - 1) := by
  obtain ⟨k, rfl⟩ : ∃ k, w = k + 1 := ⟨w - 1, by omega⟩
  rw [Nat.add_sub_cancel, Nat.cast_pow, Nat.cast_ofNat, pow_succ, Int.mul_ediv_cancel _ (by decide)]

theorem half_two_pow_succ (hw : 0 < w) : (((2 ^ w : Nat) : Int) + 1) / 2 = 2 ^ (w - 1) := by
  obtain ⟨k, rfl⟩ : ∃ k, w = k + 1 := ⟨w - 1, by omega⟩
  rw [Nat.add_sub_cancel, Nat.cast_pow, Nat.cast_ofNat, pow_succ]
  omega

/-- **A result in the range is the word.** -/
theorem wrap_of_inRange (hw : 0 < w) (h : InRange w x) : wrap w x = x :=
  Int.bmod_eq_of_le (by rw [half_two_pow hw]; exact h.1) (by rw [half_two_pow_succ hw]; exact h.2)

/-- **Every word is in the range.** -/
theorem inRange_wrap (hw : 0 < w) (x : Int) : InRange w (wrap w x) := by
  have hpos : 0 < 2 ^ w := Nat.two_pow_pos w
  constructor
  · have h := @Int.le_bmod x _ hpos
    rwa [half_two_pow hw] at h
  · have h := @Int.bmod_lt x _ hpos
    rwa [half_two_pow_succ hw] at h

end SignedWord
