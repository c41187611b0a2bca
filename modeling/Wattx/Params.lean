import Mathlib.Tactic.Ring
/-!
# Params — the consensus parameters, and the parameter sets the node builds

`Consensus::Params` (`consensus/params.h`) restricted to the fields that the subsidy schedule, the stake maturity and
the trust layer read, with the defaults the header gives, and its height-dependent accessors, which pick a field
before or after the reduce-blocktime fork.  C++ `int` and `int64_t` values are `Int`s.

The parameter sets are the constructors of `kernel/chainparams.cpp`: main, testnet, testnet4, signet, regtest and
the unit-test set derived from regtest.  On the two that mine on demand, `init.cpp` may then apply
`-difficultychangeheight` and `-reduceblocktimeheight` (`Params.updateDifficultyChangeBlockHeight`,
`Params.updateReduceBlocktimeHeight`), each with a height `≥ 0`; `Params.Constructed` is that family.
-/
namespace Wattx

/-- `COIN`: satoshis in one coin. -/
def COIN : Int := 100000000

/-- `MAX_MONEY` (`consensus/amount.h`). -/
def MAX_MONEY : Int := 107822406 * COIN + 25 * (COIN / 100)

structure Params where
  nSubsidyHalvingInterval : Int
  nSubsidyHalvingIntervalV2 : Int
  nReduceBlocktimeHeight : Int
  nLastBigReward : Int
  nBlocktimeDownscaleFactor : Int
  nCoinbaseMaturity : Int
  nRBTCoinbaseMaturity : Int
  nMinValidatorStake : Int := 100000 * 100000000
  nHeartbeatInterval : Int := 600
  nUptimeWindow : Int := 2592000
  nBronzeUptimeThreshold : Int := 950
  nSilverUptimeThreshold : Int := 970
  nGoldUptimeThreshold : Int := 990
  nPlatinumUptimeThreshold : Int := 999
  nBaseBlockReward : Int := 8333333
  deriving DecidableEq, Repr

namespace Params

def subsidyHalvingInterval (p : Params) (height : Int) : Int :=
  if height < p.nReduceBlocktimeHeight then p.nSubsidyHalvingInterval else p.nSubsidyHalvingIntervalV2

def blocktimeDownscaleFactor (p : Params) (height : Int) : Int :=
  if height < p.nReduceBlocktimeHeight then 1 else p.nBlocktimeDownscaleFactor

/-- `SubsidyHalvingWeight`: the height counted in pre-fork blocks since the last big reward.  The blocks between the
last big reward and the fork are counted once more per extra unit of the downscale factor; when the fork is at or
before the last big reward that count, `beforeDownscale`, is negative. -/
def subsidyHalvingWeight (p : Params) (height : Int) : Int :=
  if height ≤ p.nLastBigReward then 0
  else
    let blocktimeDownscaleFactor := p.blocktimeDownscaleFactor height
    let blockCount := height - p.nLastBigReward
    let beforeDownscale :=
      if blocktimeDownscaleFactor = 1 then 0 else p.nReduceBlocktimeHeight - p.nLastBigReward - 1
    blockCount - beforeDownscale + beforeDownscale * blocktimeDownscaleFactor

def coinbaseMaturity (p : Params) (height : Int) : Int :=
  if height < p.nReduceBlocktimeHeight then p.nCoinbaseMaturity else p.nRBTCoinbaseMaturity

/-! ## The parameter sets -/

/-- `CMainParams`. -/
def main : Params where
  nSubsidyHalvingInterval := 126000000
  nSubsidyHalvingIntervalV2 := 126000000
  nReduceBlocktimeHeight := 0
  nLastBigReward := 0
  nBlocktimeDownscaleFactor := 1
  nCoinbaseMaturity := 600
  nRBTCoinbaseMaturity := 600
  nMinValidatorStake := 100000 * COIN

/-- `CTestNetParams`. -/
def testnet : Params where
  nSubsidyHalvingInterval := 985500
  nSubsidyHalvingIntervalV2 := 4 * 985500
  nReduceBlocktimeHeight := 0
  nLastBigReward := 500
  nBlocktimeDownscaleFactor := 4
  nCoinbaseMaturity := 500
  nRBTCoinbaseMaturity := 100
  nMinValidatorStake := 0

/-- `CTestNet4Params`; `SigNetParams` sets the same values of these fields. -/
def testnet4 : Params where
  nSubsidyHalvingInterval := 985500
  nSubsidyHalvingIntervalV2 := 4 * 985500
  nReduceBlocktimeHeight := 0
  nLastBigReward := 5000
  nBlocktimeDownscaleFactor := 4
  nCoinbaseMaturity := 500
  nRBTCoinbaseMaturity := 4 * 500
  nMinValidatorStake := 100000 * COIN

/-- `CRegTestParams`. -/
def regtest : Params where
  nSubsidyHalvingInterval := 985500
  nSubsidyHalvingIntervalV2 := 4 * 985500
  nReduceBlocktimeHeight := 0
  nLastBigReward := 5000
  nBlocktimeDownscaleFactor := 4
  nCoinbaseMaturity := 500
  nRBTCoinbaseMaturity := 4 * 500
  nMinValidatorStake := 100 * COIN

/-- `CUnitTestParams`: regtest with 750-block halvings (`nSubsidyHalvingIntervalV2` is computed from regtest's
downscale factor, already 4 when the constructor runs). -/
def unitTest : Params :=
  { regtest with nSubsidyHalvingInterval := 750, nSubsidyHalvingIntervalV2 := regtest.nBlocktimeDownscaleFactor * 750 }

/-- `CChainParams::UpdateDifficultyChangeBlockHeight`, on the fields modelled here. -/
def updateDifficultyChangeBlockHeight (p : Params) : Params :=
  { p with nSubsidyHalvingInterval := 985500, nSubsidyHalvingIntervalV2 := p.nBlocktimeDownscaleFactor * 985500 }

/-- `CChainParams::UpdateReduceBlocktimeHeight`. -/
def updateReduceBlocktimeHeight (p : Params) (nHeight : Int) : Params :=
  { p with nReduceBlocktimeHeight := nHeight }

/-- A regtest-family set after `init.cpp`'s overrides: each is applied only when given, with a height `≥ 0`. -/
def withOverrides (p : Params) (difficultyChange reduceBlocktime : Option Nat) : Params :=
  let p := match difficultyChange with
    | none => p
    | some _ => p.updateDifficultyChangeBlockHeight
  match reduceBlocktime with
  | none => p
  | some h => p.updateReduceBlocktimeHeight h

/-- The parameter sets the code constructs. -/
inductive Constructed : Params → Prop
  | main : Constructed main
  | testnet : Constructed testnet
  | testnet4 : Constructed testnet4
  | regtest (d r : Option Nat) : Constructed (regtest.withOverrides d r)
  | unitTest (d r : Option Nat) : Constructed (unitTest.withOverrides d r)

end Params
end Wattx
