import Wattx.Params
/-!
# Subsidy — `GetBlockSubsidy` (`validation.cpp`)

The reward of the block at `nHeight`: 20,000 coins up to `nLastBigReward`, then `nBaseBlockReward` halved once per
`SubsidyHalvingInterval` of halving weight, and nothing from the seventh halving on.  The halving count is a C++
`int` division, which truncates toward zero (`Int.tdiv`), and `nBaseReward >> halvings` is defined only for a count
in `[0, 64)`: `getBlockSubsidy` is `none` exactly where the C++ shift is undefined.

When the reduce-blocktime fork is at or before the last big reward, `beforeDownscale` is negative and the weight of
the first blocks after the big rewards is negative too.  On the unit-test parameters (fork at 0, big rewards up to
5000, downscale 4, post-fork interval 3000) block 5001 has weight `-15002` and `-15003 / 3000` truncates to `-5`
(`unitTest_halvings`).
-/
namespace Wattx

/-- `x >> n` on an `int64_t`: undefined unless `0 ≤ n < 64`. -/
def shiftRight64 (x n : Int) : Option Int :=
  if 0 ≤ n ∧ n < 64 then some (x >>> n.toNat) else none

namespace Params

/-- `halvings` in `GetBlockSubsidy`. -/
def halvings (p : Params) (nHeight : Int) : Int :=
  (p.subsidyHalvingWeight nHeight - 1).tdiv (p.subsidyHalvingInterval nHeight)

end Params

/-- `GetBlockSubsidy`; `none` where the shift it ends with is undefined. -/
def getBlockSubsidy (p : Params) (nHeight : Int) : Option Int :=
  if nHeight ≤ p.nLastBigReward then some (20000 * COIN)
  else
    let halvings := p.halvings nHeight
    if 7 ≤ halvings then some 0
    else shiftRight64 p.nBaseBlockReward halvings

theorem shiftRight64_eq_none {x n : Int} (h : n < 0) : shiftRight64 x n = none := by
  unfold shiftRight64; rw [if_neg (by omega)]

theorem getBlockSubsidy_eq_none {p : Params} {nHeight : Int} (hb : p.nLastBigReward < nHeight)
    (hneg : p.halvings nHeight < 0) : getBlockSubsidy p nHeight = none := by
  unfold getBlockSubsidy
  rw [if_neg (by omega), if_neg (by omega)]
  exact shiftRight64_eq_none hneg

/-- **At block 5001 of the unit-test parameters the halving count is `-5`**, so `GetBlockSubsidy` shifts by a
negative count. -/
theorem unitTest_halvings :
    Params.unitTest.nLastBigReward < 5001 ∧ Params.unitTest.halvings 5001 = -5 ∧
      getBlockSubsidy Params.unitTest 5001 = none := by
  have hh : Params.unitTest.halvings 5001 = -5 := by decide
  exact ⟨by decide, hh, getBlockSubsidy_eq_none (by decide) (by rw [hh]; decide)⟩

end Wattx
