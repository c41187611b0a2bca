import Wattx.ConstantProduct
import Wattx.Swap
/-!
# Pricing — `WATTxSwap`'s two quotes invert each other up to a unit

For reserves `x` in and `y` out, `getAmountIn(o)` charges `⌊x o D / ((y - o) f)⌋ + 1` for `o` and
`getAmountOut(a)` pays `⌊a f y / (x D + a f)⌋` for `a`, with `D = 10000` and `f = 9970`.  Both rest on one
fact of `ConstantProduct` (`le_sellOut_iff`): a sale of `a` pays at least `o` exactly when `a`, net of the fee,
covers `o` at the price of the reserve left.  So selling what a purchase of `o` costs pays at least `o`, and selling
two units less pays less: the charge is the least input that buys `o`, up to one unit (`getAmountOut_getAmountIn`).
The other way round, buying back what a sale of `a` paid costs at most `a + 1` (`getAmountIn_getAmountOut_le`).

A smaller input never makes `getAmountOut` overflow where a larger one did not (`getAmountOut_ok_of_le`).
-/
namespace Wattx
namespace Swap

open ConstantProduct Checked

theorem getAmountOut_ok_of_le {amountIn amountIn' reserveIn reserveOut amountOut : Nat}
    (h : getAmountOut amountIn reserveIn reserveOut = .ok amountOut) (hpos : 0 < amountIn') (hle : amountIn' ≤ amountIn) :
    getAmountOut amountIn' reserveIn reserveOut =
      .ok (amountIn' * (BPS_DENOMINATOR - FEE_BPS) * reserveOut /
        (reserveIn * BPS_DENOMINATOR + amountIn' * (BPS_DENOMINATOR - FEE_BPS))) := by
  simp only [getAmountOut, bind_ok_iff, require_ok_iff] at h ⊢
  obtain ⟨_, -, _, hres, hq⟩ := h
  have hden : 0 < reserveIn * BPS_DENOMINATOR + amountIn' * (BPS_DENOMINATOR - FEE_BPS) :=
    Nat.lt_add_left _ (Nat.mul_pos hpos (by decide))
  exact ⟨(), hpos, (), hres, Amm.quoteOut_ok_of_le hq hle hden⟩

/-- **Selling what a purchase of `amountOut` costs pays at least `amountOut`, and selling two units less pays
less**, without overflowing where the first sale did not. -/
theorem getAmountOut_getAmountIn {amountOut reserveIn reserveOut amountIn quoted : Nat}
    (hin : getAmountIn amountOut reserveIn reserveOut = .ok amountIn)
    (hout : getAmountOut amountIn reserveIn reserveOut = .ok quoted) :
    amountOut ≤ quoted ∧
      (0 < amountIn - 2 → ∃ quoted', getAmountOut (amountIn - 2) reserveIn reserveOut = .ok quoted' ∧
        quoted' < amountOut) := by
  obtain ⟨-, -, hlt, rfl⟩ := getAmountIn_ok hin
  obtain ⟨-, -, -, rfl⟩ := getAmountOut_ok hout
  refine ⟨le_sellOut_buyIn (by decide) hlt, fun hpos => ⟨_, getAmountOut_ok_of_le hout hpos (Nat.sub_le _ _), ?_⟩⟩
  -- two units below the charge is below the floored price, where a sale falls short
  exact sellOut_lt_of_lt_buyIn hlt.le (Nat.lt_add_left _ (Nat.mul_pos hpos (by decide))) (by omega)

/-- A purchase of 100 out of a pool of 1000 and 1000 costs 112, whose sale pays 100 back. -/
theorem getAmountOut_getAmountIn_on_thousand :
    getAmountIn 100 1000 1000 = .ok 112 ∧ getAmountOut 112 1000 1000 = .ok 100 ∧
      (100 ≤ 100 ∧ (0 < 112 - 2 → ∃ quoted', getAmountOut (112 - 2) 1000 1000 = .ok quoted' ∧ quoted' < 100)) :=
  have hin : getAmountIn 100 1000 1000 = .ok 112 := rfl
  have hout : getAmountOut 112 1000 1000 = .ok 100 := rfl
  ⟨hin, hout, getAmountOut_getAmountIn hin hout⟩

/-- Buying back what a sale of `amountIn` paid costs at most `amountIn + 1`. -/
theorem getAmountIn_getAmountOut_le {amountIn reserveIn reserveOut amountOut amountIn' : Nat}
    (hout : getAmountOut amountIn reserveIn reserveOut = .ok amountOut)
    (hin : getAmountIn amountOut reserveIn reserveOut = .ok amountIn') : amountIn' ≤ amountIn + 1 := by
  obtain ⟨hpos, -, -, rfl⟩ := getAmountOut_ok hout
  obtain ⟨-, -, hlt, rfl⟩ := getAmountIn_ok hin
  have hden : 0 < reserveIn * BPS_DENOMINATOR + amountIn * (BPS_DENOMINATOR - FEE_BPS) :=
    Nat.lt_add_left _ (Nat.mul_pos hpos (by decide))
  -- the sale paid at least what is bought back, so `amountIn` covers it at the price of the reserve left
  have hcover := (le_sellOut_iff hlt.le hden).1 le_rfl
  exact Nat.succ_le_succ (Nat.div_le_of_le_mul (hcover.trans_eq (Nat.mul_comm _ _)))

/-- The bound is reached where the sale divides exactly: selling 1 into a pool of 1 and 19970 pays 9970, whose
purchase costs 2. -/
theorem getAmountIn_getAmountOut_le_exact :
    getAmountOut 1 1 19970 = .ok 9970 ∧ getAmountIn 9970 1 19970 = .ok 2 ∧ 2 ≤ 1 + 1 :=
  have hout : getAmountOut 1 1 19970 = .ok 9970 := rfl
  have hin : getAmountIn 9970 1 19970 = .ok 2 := rfl
  ⟨hout, hin, getAmountIn_getAmountOut_le hout hin⟩

end Swap
end Wattx
