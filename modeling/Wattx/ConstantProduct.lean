import Mathlib.Tactic.Ring
import Mathlib.Tactic.Linarith
/-!
# ConstantProduct — the product of a pool's reserves per share, and the operations that keep it from falling

A constant-product pool holds reserves `x` and `y` against `s` shares.  One share is worth `x * y / s ^ 2` in the
pool's own measure; `Grows x y s x' y' s'` says that this does not fall from `(x, y, s)` to `(x', y', s')`,
cross-multiplied so that it stays in `ℕ`.  A trade keeps the shares and must not lower `x * y`
(`Grows.of_product_le`); a mint or a burn must move each reserve at least in proportion to the shares
(`Grows.of_proportional`); and `Grows` composes along a run whose shares stay positive (`Grows.trans`).

The rest are the floor-division facts that put each operation's rounding on the pool's side: a sale of `a` paid
`⌊a f y / (x D + a f)⌋` (a fee keeping `D - f` of every `D`), a purchase of `o` charged `⌊x o D / ((y - o) f)⌋ + 1`,
a mint of at most `⌊a s / x⌋` shares for `a`, and a burn of `l` shares paid `⌊l x / s⌋`.
-/
namespace ConstantProduct

/-- The product of the reserves per share squared does not fall from `(x, y, s)` to `(x', y', s')`. -/
def Grows (x y s x' y' s' : Nat) : Prop := x * y * s' ^ 2 ≤ x' * y' * s ^ 2

variable {x y s x' y' s' : Nat}

theorem Grows.refl (x y s : Nat) : Grows x y s x y s := le_rfl

theorem Grows.trans {x'' y'' s'' : Nat} (h₁ : Grows x y s x' y' s') (h₂ : Grows x' y' s' x'' y'' s'')
    (hs : 0 < s') : Grows x y s x'' y'' s'' := by
  -- scale each step by the share count the other lacks, then cancel `s' ^ 2`
  have h : x * y * s'' ^ 2 * s' ^ 2 ≤ x'' * y'' * s ^ 2 * s' ^ 2 :=
    calc x * y * s'' ^ 2 * s' ^ 2 = x * y * s' ^ 2 * s'' ^ 2 := by ring
      _ ≤ x' * y' * s ^ 2 * s'' ^ 2 := Nat.mul_le_mul_right _ h₁
      _ = x' * y' * s'' ^ 2 * s ^ 2 := by ring
      _ ≤ x'' * y'' * s' ^ 2 * s ^ 2 := Nat.mul_le_mul_right _ h₂
      _ = x'' * y'' * s ^ 2 * s' ^ 2 := by ring
  exact Nat.le_of_mul_le_mul_right h (pow_pos hs 2)

/-- A trade: the shares stay, and the product does not fall. -/
theorem Grows.of_product_le (h : x * y ≤ x' * y') (s : Nat) : Grows x y s x' y' s :=
  Nat.mul_le_mul_right _ h

/-- A mint or a burn: each reserve moves at least in proportion to the shares. -/
theorem Grows.of_proportional (hx : s' * x ≤ x' * s) (hy : s' * y ≤ y' * s) : Grows x y s x' y' s' :=
  calc x * y * s' ^ 2 = (s' * x) * (s' * y) := by ring
    _ ≤ (x' * s) * (y' * s) := Nat.mul_le_mul hx hy
    _ = x' * y' * s ^ 2 := by ring

/-! ## Trades -/

/-- Paying `o` out of `y` for `a` into `x` keeps the product when `o` is at most the exact price. -/
theorem sell_product_le {a o : Nat} (ho : o ≤ y) (h : o * (x + a) ≤ a * y) : x * y ≤ (x + a) * (y - o) := by
  obtain ⟨z, rfl⟩ : ∃ z, y = z + o := ⟨y - o, by omega⟩
  rw [Nat.add_sub_cancel]
  have hxo : x * o ≤ a * z := by nlinarith
  nlinarith

/-- The output of a sale, `⌊a f y / (x D + a f)⌋`, is at most the exact price `a y / (x + a)`. -/
theorem sellOut_mul_le {a f D : Nat} (hf : 0 < f) (hfD : f ≤ D) :
    a * f * y / (x * D + a * f) * (x + a) ≤ a * y := by
  set o := a * f * y / (x * D + a * f)
  have hfloor : o * (x * D + a * f) ≤ a * f * y := Nat.div_mul_le_self _ _
  have hfee : o * (x * f) ≤ o * (x * D) := Nat.mul_le_mul_left o (Nat.mul_le_mul_left x hfD)
  have hscaled : o * (x + a) * f ≤ a * y * f :=
    calc o * (x + a) * f = o * (x * f) + o * a * f := by ring
      _ ≤ o * (x * D) + o * a * f := Nat.add_le_add_right hfee _
      _ = o * (x * D + a * f) := by ring
      _ ≤ a * f * y := hfloor
      _ = a * y * f := by ring
  exact Nat.le_of_mul_le_mul_right hscaled hf

/-- A sale into a pool that holds some `x` pays out less than all of `y`. -/
theorem lt_of_sell {a o : Nat} (hx : 0 < x) (hy : 0 < y) (h : o * (x + a) ≤ a * y) : o < y := by
  by_contra hle
  have : y * (x + a) ≤ a * y := (Nat.mul_le_mul_right _ (Nat.le_of_not_lt hle)).trans h
  nlinarith

/-- Taking `o` out of `y` for `i` into `x` keeps the product when `i` is at least the exact price. -/
theorem buy_product_le {i o : Nat} (ho : o ≤ y) (h : x * o ≤ i * (y - o)) : x * y ≤ (x + i) * (y - o) := by
  obtain ⟨z, rfl⟩ : ∃ z, y = z + o := ⟨y - o, by omega⟩
  rw [Nat.add_sub_cancel] at h ⊢
  nlinarith

/-- The charge for a purchase, `⌊x o D / (z f)⌋ + 1` with `z` the reserve left, is above the exact price `x o / z`. -/
theorem buyIn_mul_gt {o z f D : Nat} (hf : 0 < f) (hfD : f ≤ D) (hz : 0 < z) :
    x * o < (x * o * D / (z * f) + 1) * z := by
  set i := x * o * D / (z * f)
  have hfloor : x * o * D < (i + 1) * (z * f) := by
    have hlt : x * o * D < x * o * D / (z * f) * (z * f) + z * f := Nat.lt_div_mul_add (Nat.mul_pos hz hf)
    rw [Nat.add_mul, Nat.one_mul]
    exact hlt
  have hfee : x * o * f ≤ x * o * D := Nat.mul_le_mul_left _ hfD
  have hscaled : x * o * f < (i + 1) * z * f :=
    calc x * o * f ≤ x * o * D := hfee
      _ < (i + 1) * (z * f) := hfloor
      _ = (i + 1) * z * f := by ring
  exact Nat.lt_of_mul_lt_mul_right hscaled

/-- A sale of `a` pays at least `o` exactly when `a`, net of the fee, covers `o` at the price of the reserve left. -/
theorem le_sellOut_iff {a o f D : Nat} (ho : o ≤ y) (hM : 0 < x * D + a * f) :
    o ≤ a * f * y / (x * D + a * f) ↔ x * o * D ≤ a * ((y - o) * f) := by
  rw [Nat.le_div_iff_mul_le hM]
  obtain ⟨z, rfl⟩ : ∃ z, y = z + o := ⟨y - o, by omega⟩
  have hl : o * (x * D + a * f) = x * o * D + o * a * f := by ring
  have hr : a * f * (z + o) = a * (z * f) + o * a * f := by ring
  rw [hl, hr, Nat.add_sub_cancel]
  exact Nat.add_le_add_iff_right

/-- Selling the charge for a purchase of `o` pays at least `o`. -/
theorem le_sellOut_buyIn {o f D : Nat} (hf : 0 < f) (ho : o < y) :
    o ≤ (x * o * D / ((y - o) * f) + 1) * f * y / (x * D + (x * o * D / ((y - o) * f) + 1) * f) := by
  have hM : 0 < (y - o) * f := Nat.mul_pos (Nat.sub_pos_of_lt ho) hf
  have hfloor : x * o * D < (x * o * D / ((y - o) * f) + 1) * ((y - o) * f) := by
    rw [Nat.add_mul, Nat.one_mul]
    exact Nat.lt_div_mul_add hM
  exact (le_sellOut_iff ho.le (Nat.lt_add_left _ (Nat.mul_pos (Nat.succ_pos _) hf))).2 hfloor.le

/-- Selling less than the floored price `⌊x o D / ((y - o) f)⌋` of a purchase of `o` pays less than `o`. -/
theorem sellOut_lt_of_lt_buyIn {k o f D : Nat} (ho : o ≤ y) (hM : 0 < x * D + k * f)
    (hk : k < x * o * D / ((y - o) * f)) : k * f * y / (x * D + k * f) < o := by
  have hpos : 0 < (y - o) * f := Nat.pos_of_ne_zero (fun h => by rw [h, Nat.div_zero] at hk; omega)
  have hbelow : k * ((y - o) * f) < x * o * D :=
    calc k * ((y - o) * f) < x * o * D / ((y - o) * f) * ((y - o) * f) := Nat.mul_lt_mul_of_pos_right hk hpos
      _ ≤ x * o * D := Nat.div_mul_le_self _ _
  exact Nat.lt_of_not_le fun hle => Nat.not_le_of_lt hbelow ((le_sellOut_iff ho hM).1 hle)

/-! ## Mints and burns -/

/-- Minting `l` shares for `a` is proportional when `l` is at most `a`'s share of the pool. -/
theorem mint_proportional {a l : Nat} (h : l * x ≤ a * s) : (s + l) * x ≤ (x + a) * s :=
  calc (s + l) * x = s * x + l * x := Nat.add_mul _ _ _
    _ ≤ s * x + a * s := Nat.add_le_add_left h _
    _ = (x + a) * s := by ring

/-- A share count at most `⌊a s / x⌋` is at most `a`'s share of the pool. -/
theorem mul_le_of_le_div {a l : Nat} (h : l ≤ a * s / x) : l * x ≤ a * s :=
  (Nat.mul_le_mul_right x h).trans (Nat.div_mul_le_self _ _)

/-- Burning `l` shares for `a` is proportional when `a` is at most their share of `x`. -/
theorem burn_proportional {a l : Nat} (h : a * s ≤ l * x) : (s - l) * x ≤ (x - a) * s := by
  rw [Nat.sub_mul, Nat.sub_mul, Nat.mul_comm x s]
  exact Nat.sub_le_sub_left h _

/-- A burn of fewer than all shares leaves some of a reserve that had some. -/
theorem burnOut_lt {l : Nat} (hl : l < s) (hx : 0 < x) : l * x / s < x :=
  Nat.div_lt_of_lt_mul (Nat.mul_lt_mul_of_pos_right hl hx)

end ConstantProduct
