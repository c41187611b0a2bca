import Mathlib.Data.Nat.Size
import Wattx.Mantissa
/-!
# Retarget.Compact — targets in compact form, `arith_uint256::SetCompact` and `GetCompact`

A block's `nBits` is its target in compact form: a size in bytes in the top byte and a 23-bit mantissa below it, the
bit between them being a sign.  `GetCompact` keeps the three most significant bytes of a value, and one byte fewer
when the top one would set the sign bit; `SetCompact` shifts the mantissa back.  What comes back is the value
truncated to a mantissa below `2 ^ 23` on the grid of powers of 256 (`setCompact_getCompact`), so by the grid's
lemmas it is at most the value, positive for a positive value, and monotone in it.

Shifts are written as multiplications and divisions by powers of two.
-/
namespace Wattx
namespace Retarget

/-- `arith_uint256::bits`: the position of the highest set bit, plus one. -/
def bits (x : Nat) : Nat := x.size

/-- `arith_uint256::SetCompact`, without its sign and overflow flags: the size is the top byte and the mantissa the
low 23 bits; shifting the mantissa up past 256 bits loses those bits. -/
def SetCompact (nCompact : UInt32) : Nat :=
  let nSize := nCompact.toNat / 2 ^ 24
  let nWord := nCompact.toNat % 2 ^ 23
  if nSize ≤ 3 then nWord / 2 ^ (8 * (3 - nSize)) else nWord * 2 ^ (8 * (nSize - 3)) % 2 ^ 256

/-- `arith_uint256::GetCompact` of a non-negative value. -/
def GetCompact (x : Nat) : UInt32 :=
  let nSize := (bits x + 7) / 8
  let nCompact := if nSize ≤ 3 then x * 2 ^ (8 * (3 - nSize)) else x / 2 ^ (8 * (nSize - 3))
  -- the `0x00800000` bit is the sign: a mantissa that would set it moves one byte down
  if nCompact / 2 ^ 23 % 2 = 1 then ((nSize + 1) * 2 ^ 24 + nCompact / 2 ^ 8).toUInt32
  else (nSize * 2 ^ 24 + nCompact).toUInt32

/-- The grid `GetCompact` truncates to: mantissas below `2 ^ 23`, times powers of 256. -/
def compactGrid : Mantissa.Grid := ⟨256, 2 ^ 23, by decide, by decide, ⟨2 ^ 15, by decide⟩⟩

/-- A size and a mantissa packed into a word read back as `SetCompact` shifts them. -/
theorem setCompact_pack {nSize c : Nat} (hc : c < 2 ^ 23) (hs : nSize < 256) :
    SetCompact (nSize * 2 ^ 24 + c).toUInt32 =
      if nSize ≤ 3 then c / 2 ^ (8 * (3 - nSize)) else c * 2 ^ (8 * (nSize - 3)) % 2 ^ 256 := by
  have htoNat : (nSize * 2 ^ 24 + c).toUInt32.toNat = nSize * 2 ^ 24 + c :=
    UInt32.toNat_ofNat_of_lt' (show nSize * 2 ^ 24 + c < 4294967296 by omega)
  have hsize : (nSize * 2 ^ 24 + c) / 2 ^ 24 = nSize := by omega
  have hword : (nSize * 2 ^ 24 + c) % 2 ^ 23 = c := by omega
  simp only [SetCompact, htoNat, hsize, hword]

/-- The size in bytes `s` of a value below `2 ^ 256`: at most 32, the value below `2 ^ (8 * s)`, and, for a positive
size, at least `2 ^ (8 * (s - 1))`. -/
theorem byteSize_bounds {x : Nat} (hx : x < 2 ^ 256) :
    (bits x + 7) / 8 ≤ 32 ∧ x < 2 ^ (8 * ((bits x + 7) / 8)) ∧
      (0 < (bits x + 7) / 8 → 2 ^ (8 * ((bits x + 7) / 8 - 1)) ≤ x) := by
  have hsize : bits x ≤ 256 := Nat.size_le.mpr hx
  refine ⟨by omega, lt_of_lt_of_le (Nat.lt_size_self x) (Nat.pow_le_pow_right (by norm_num) (by unfold bits at *; omega)),
    fun hpos => Nat.lt_size.mp ?_⟩
  unfold bits at *
  omega

/-- The truncation on the compact grid at the exponent `e` its bounds pick, in powers of two. -/
theorem compactGrid_trunc_eq {x : Nat} (e : Nat) (hlt : x < 2 ^ 23 * 2 ^ (8 * e))
    (hge : e = 0 ∨ 2 ^ 23 * 2 ^ (8 * (e - 1)) ≤ x) : compactGrid.trunc x = x / 2 ^ (8 * e) * 2 ^ (8 * e) := by
  have hpow : ∀ n, (256 : Nat) ^ n = 2 ^ (8 * n) := fun n => by rw [pow_mul]; norm_num
  have h := @Mantissa.Grid.trunc_eq_of_bounds compactGrid x e
  simp only [compactGrid, hpow] at h
  exact h hlt hge

/-- A value below `2 ^ 23` is its own mantissa. -/
theorem compactGrid_trunc_of_lt {x : Nat} (hx : x < 2 ^ 23) : compactGrid.trunc x = x := by
  rw [compactGrid_trunc_eq 0 (by simpa using hx) (.inl rfl)]
  simp

theorem two_pow_mul_two_pow {m n p : Nat} (h : m + n = p) : 2 ^ m * 2 ^ n = 2 ^ p := by rw [← pow_add, h]

/-- `SetCompact` gives back the value `GetCompact` was given, truncated to the grid. -/
theorem setCompact_getCompact {x : Nat} (hx : x < 2 ^ 256) : SetCompact (GetCompact x) = compactGrid.trunc x := by
  obtain ⟨hs32, hlt, hge⟩ := byteSize_bounds hx
  simp only [GetCompact]
  generalize (bits x + 7) / 8 = s at hs32 hlt hge ⊢
  by_cases hs3 : s ≤ 3
  · -- a value of at most three bytes is shifted up into the mantissa
    rw [if_pos hs3]
    have hpos : 0 < 2 ^ (8 * (3 - s)) := Nat.two_pow_pos _
    have hc : x * 2 ^ (8 * (3 - s)) < 2 ^ 24 :=
      calc x * 2 ^ (8 * (3 - s)) < 2 ^ (8 * s) * 2 ^ (8 * (3 - s)) := Nat.mul_lt_mul_of_pos_right hlt hpos
        _ = 2 ^ 24 := two_pow_mul_two_pow (by omega)
    have hxc : x ≤ x * 2 ^ (8 * (3 - s)) := Nat.le_mul_of_pos_right x hpos
    have hback : x * 2 ^ (8 * (3 - s)) / 2 ^ (8 * (3 - s)) = x := Nat.mul_div_cancel _ hpos
    generalize hcdef : x * 2 ^ (8 * (3 - s)) = c at hc hxc hback ⊢
    split_ifs with hbit
    · -- the sign bit moves the mantissa down a byte
      rw [setCompact_pack (show c / 2 ^ 8 < 2 ^ 23 by omega) (show s + 1 < 256 by omega)]
      by_cases hs2 : s + 1 ≤ 3
      · -- ... and it still fits in three bytes, where nothing is lost
        have hx16 : x < 2 ^ 16 := lt_of_lt_of_le hlt (Nat.pow_le_pow_right (by omega) (by omega))
        rw [if_pos hs2, Nat.div_div_eq_div_mul,
          two_pow_mul_two_pow (show 8 + 8 * (3 - (s + 1)) = 8 * (3 - s) by omega), hback,
          compactGrid_trunc_of_lt (by omega)]
      · -- ... and a three-byte value loses its lowest byte
        have hs : s = 3 := by omega
        subst hs
        have hcx : c = x := by simpa using hcdef.symm
        subst hcx
        rw [if_neg hs2, Nat.mod_eq_of_lt (lt_of_le_of_lt (Nat.div_mul_le_self c _) hx),
          compactGrid_trunc_eq 1 (by omega) (.inr (by omega))]
    · rw [setCompact_pack (show c < 2 ^ 23 by omega) (show s < 256 by omega), if_pos hs3, hback,
        compactGrid_trunc_of_lt (by omega)]
  · -- a longer value is shifted down to its three top bytes
    rw [if_neg hs3]
    have hpos : 0 < 2 ^ (8 * (s - 3)) := Nat.two_pow_pos _
    have hc : x / 2 ^ (8 * (s - 3)) < 2 ^ 24 := by
      rw [Nat.div_lt_iff_lt_mul hpos, two_pow_mul_two_pow (show 24 + 8 * (s - 3) = 8 * s by omega)]
      exact hlt
    have hshift : x / 2 ^ (8 * (s - 3)) / 2 ^ 8 = x / 2 ^ (8 * (s + 1 - 3)) := by
      rw [Nat.div_div_eq_div_mul, two_pow_mul_two_pow (show 8 * (s - 3) + 8 = 8 * (s + 1 - 3) by omega)]
    have hmod : ∀ e, x / 2 ^ e * 2 ^ e % 2 ^ 256 = x / 2 ^ e * 2 ^ e :=
      fun e => Nat.mod_eq_of_lt (lt_of_le_of_lt (Nat.div_mul_le_self x _) hx)
    have hupper : x / 2 ^ (8 * (s - 3)) < 2 ^ 23 → x < 2 ^ 23 * 2 ^ (8 * (s - 3)) := (Nat.div_lt_iff_lt_mul hpos).mp
    have hlower : 2 ^ 23 ≤ x / 2 ^ (8 * (s - 3)) → 2 ^ 23 * 2 ^ (8 * (s - 3)) ≤ x := (Nat.le_div_iff_mul_le hpos).mp
    generalize hcdef : x / 2 ^ (8 * (s - 3)) = c at hc hshift hupper hlower ⊢
    split_ifs with hbit
    · -- the sign bit takes one more byte off
      have hbelow : x < 2 ^ 23 * 2 ^ (8 * (s + 1 - 3)) :=
        calc x < 2 ^ (8 * s) := hlt
          _ ≤ 2 ^ (23 + 8 * (s + 1 - 3)) := Nat.pow_le_pow_right (by omega) (by omega)
          _ = 2 ^ 23 * 2 ^ (8 * (s + 1 - 3)) := (two_pow_mul_two_pow rfl).symm
      rw [setCompact_pack (show c / 2 ^ 8 < 2 ^ 23 by omega) (show s + 1 < 256 by omega), if_neg (by omega),
        hshift, hmod, compactGrid_trunc_eq (s + 1 - 3) hbelow
          (.inr (by rw [show s + 1 - 3 - 1 = s - 3 by omega]; exact hlower (by omega)))]
    · -- without it the three top bytes are the mantissa, and the value is at least `256 ^ (s - 1)`
      have habove : 2 ^ 23 * 2 ^ (8 * (s - 3 - 1)) ≤ x :=
        calc 2 ^ 23 * 2 ^ (8 * (s - 3 - 1)) ≤ 2 ^ 24 * 2 ^ (8 * (s - 3 - 1)) :=
              Nat.mul_le_mul_right _ (Nat.pow_le_pow_right (by omega) (by omega))
          _ = 2 ^ (8 * (s - 1)) := two_pow_mul_two_pow (by omega)
          _ ≤ x := hge (by omega)
      rw [setCompact_pack (show c < 2 ^ 23 by omega) (show s < 256 by omega), if_neg hs3, ← hcdef, hmod,
        compactGrid_trunc_eq (s - 3) (hupper (by omega)) (.inr habove)]

/-- The round trip through the compact form never raises a value, loses less than a `2 ^ 15`-th of it, keeps it
positive, and keeps the order of values. -/
theorem compact_roundtrip_bounds {x y : Nat} (hxy : x ≤ y) (hy : y < 2 ^ 256) :
    SetCompact (GetCompact x) ≤ x ∧ (x - SetCompact (GetCompact x)) * 2 ^ 15 ≤ x ∧
      (0 < x → 0 < SetCompact (GetCompact x)) ∧ SetCompact (GetCompact x) ≤ SetCompact (GetCompact y) := by
  have hx : x < 2 ^ 256 := lt_of_le_of_lt hxy hy
  have hratio : compactGrid.mantissa / compactGrid.base = 2 ^ 15 := rfl
  rw [setCompact_getCompact hx, setCompact_getCompact hy, ← hratio]
  exact ⟨compactGrid.trunc_le x, compactGrid.sub_trunc_mul_le x, compactGrid.trunc_pos, compactGrid.trunc_mono hxy⟩

theorem compact_roundtrip_bounds_on_limits :
    SetCompact (GetCompact (2 ^ 206 - 1)) ≤ 2 ^ 206 - 1 ∧
      (2 ^ 206 - 1 - SetCompact (GetCompact (2 ^ 206 - 1))) * 2 ^ 15 ≤ 2 ^ 206 - 1 ∧
      (0 < 2 ^ 206 - 1 → 0 < SetCompact (GetCompact (2 ^ 206 - 1))) ∧
      SetCompact (GetCompact (2 ^ 206 - 1)) ≤ SetCompact (GetCompact (2 ^ 228 - 1)) :=
  compact_roundtrip_bounds (by decide) (by decide)

end Retarget
end Wattx
