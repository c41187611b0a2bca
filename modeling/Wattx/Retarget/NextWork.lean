import Wattx.Retarget.Compact
import Wattx.Retarget.MulExp
/-!
# Retarget.NextWork — `CalculateNextWorkRequired` for proof-of-stake blocks

A proof-of-stake block's target is the previous one's (under BIP94, that of the first block of the difficulty
period) moved toward the target spacing: linearly before `QIP9Height`, by `mul_exp` from then on, with the exponent
`2 * (spacing - target) / (mask + 1)` over `(interval + 1) * target / (mask + 1)`.  A value of zero or above
`GetLimit` is replaced by the limit, and the result is packed by `GetCompact`.

Whatever it computes, a target that comes back decodes into `(0, GetLimit]` (`calculateNextWorkRequired_range`).
From `QIP9Height` on, `ExpBounds` on the target spacing, the interval, the mask and the limit is what `mul_exp`
needs to be the exact floored series for every clamped spacing; the target then grows with the spacing
(`expTarget_mono`).  Every parameter set `chainparams.cpp` and the regtest-only overrides of `init.cpp` construct
meets these bounds, except regtest with its limit of `2 ^ 255 - 1` (`expBoundsAt_of_constructed`).

Only the fields of `Consensus::Params` and `CBlockIndex` the proof-of-stake retarget reads are kept.
-/
namespace Wattx
namespace Retarget

/-- The fields of `Consensus::Params` the proof-of-stake retarget reads; the limits are `uint256` values. -/
structure RetargetParams where
  QIP9Height : Int
  nReduceBlocktimeHeight : Int
  posLimit : Nat
  QIP9PosLimit : Nat
  RBTPosLimit : Nat
  enforce_BIP94 : Bool
  fPoSNoRetargeting : Bool
  nPowTargetSpacing : Int
  nRBTPowTargetSpacing : Int
  nPowTargetTimespan : Int
  nPowTargetTimespanV2 : Int
  nRBTPowTargetTimespan : Int
  nStakeTimestampMask : Nat
  nRBTStakeTimestampMask : Nat

namespace RetargetParams

variable (params : RetargetParams) (height : Int)

def TargetSpacing : Int :=
  if height < params.nReduceBlocktimeHeight then params.nPowTargetSpacing else params.nRBTPowTargetSpacing

def TargetTimespan : Int :=
  if height < params.QIP9Height then params.nPowTargetTimespan
  else if height < params.nReduceBlocktimeHeight then params.nPowTargetTimespanV2 else params.nRBTPowTargetTimespan

/-- In `int64_t` division, which truncates. -/
def DifficultyAdjustmentInterval : Int := (params.TargetTimespan height).tdiv (params.TargetSpacing height)

def StakeTimestampMask : Nat :=
  if height < params.nReduceBlocktimeHeight then params.nStakeTimestampMask else params.nRBTStakeTimestampMask

/-- `GetLimit` for proof of stake. -/
def GetLimit : Nat :=
  if height < params.QIP9Height then params.posLimit
  else if height < params.nReduceBlocktimeHeight then params.QIP9PosLimit else params.RBTPosLimit

/-! ### The parameter sets -/

/-- `CMainParams`: one-second blocks from genesis. -/
def main : RetargetParams where
  QIP9Height := 0
  nReduceBlocktimeHeight := 0
  posLimit := 2 ^ 224 - 1
  QIP9PosLimit := 2 ^ 205 - 1
  RBTPosLimit := 2 ^ 228 - 1
  enforce_BIP94 := false
  fPoSNoRetargeting := false
  nPowTargetSpacing := 1
  nRBTPowTargetSpacing := 1
  nPowTargetTimespan := 600
  nPowTargetTimespanV2 := 600
  nRBTPowTargetTimespan := 600
  nStakeTimestampMask := 0
  nRBTStakeTimestampMask := 0

/-- `CTestNetParams`. -/
def testnet : RetargetParams where
  QIP9Height := 0
  nReduceBlocktimeHeight := 0
  posLimit := 2 ^ 240 - 1
  QIP9PosLimit := 2 ^ 205 - 1
  RBTPosLimit := 2 ^ 206 - 1
  enforce_BIP94 := false
  fPoSNoRetargeting := false
  nPowTargetSpacing := 1
  nRBTPowTargetSpacing := 1
  nPowTargetTimespan := 16 * 60
  nPowTargetTimespanV2 := 4000
  nRBTPowTargetTimespan := 1000
  nStakeTimestampMask := 0
  nRBTStakeTimestampMask := 0

/-- `CTestNet4Params`. -/
def testnet4 : RetargetParams where
  QIP9Height := 0
  nReduceBlocktimeHeight := 0
  posLimit := 2 ^ 240 - 1
  QIP9PosLimit := 2 ^ 205 - 1
  RBTPosLimit := 2 ^ 206 - 1
  enforce_BIP94 := true
  fPoSNoRetargeting := false
  nPowTargetSpacing := 2 * 64
  nRBTPowTargetSpacing := 32
  nPowTargetTimespan := 16 * 60
  nPowTargetTimespanV2 := 4000
  nRBTPowTargetTimespan := 1000
  nStakeTimestampMask := 15
  nRBTStakeTimestampMask := 3

/-- `CSigNetParams`: testnet4's retarget without BIP94. -/
def signet : RetargetParams := { testnet4 with enforce_BIP94 := false }

/-- `CRegTestParams`, and `CUnitTestParams`, which changes none of these fields. -/
def regtest (enforce_bip94 : Bool) : RetargetParams where
  QIP9Height := 0
  nReduceBlocktimeHeight := 0
  posLimit := 2 ^ 255 - 1
  QIP9PosLimit := 2 ^ 255 - 1
  RBTPosLimit := 2 ^ 255 - 1
  enforce_BIP94 := enforce_bip94
  fPoSNoRetargeting := true
  nPowTargetSpacing := 2 * 64
  nRBTPowTargetSpacing := 32
  nPowTargetTimespan := 16 * 60
  nPowTargetTimespanV2 := 4000
  nRBTPowTargetTimespan := 1000
  nStakeTimestampMask := 15
  nRBTStakeTimestampMask := 3

def UpdateDifficultyChangeBlockHeight (nHeight : Int) : RetargetParams :=
  { params with posLimit := 2 ^ 224 - 1, QIP9PosLimit := 2 ^ 205 - 1, RBTPosLimit := 2 ^ 206 - 1,
                QIP9Height := nHeight, fPoSNoRetargeting := false }

def UpdateReduceBlocktimeHeight (nHeight : Int) : RetargetParams := { params with nReduceBlocktimeHeight := nHeight }

def UpdatePoSNoRetargeting (fValue : Bool) : RetargetParams := { params with fPoSNoRetargeting := fValue }

/-- The regtest-only overrides of `AppInitParameterInteraction`, in its order: `-difficultychangeheight`,
`-reduceblocktimeheight`, `-posnoretargeting`.  A height is applied only when it is not negative. -/
def withOverrides (difficultyChange reduceBlocktime : Option Nat) (posNoRetargeting : Option Bool) :
    RetargetParams :=
  let p₁ := match difficultyChange with
    | some h => params.UpdateDifficultyChangeBlockHeight h
    | none => params
  let p₂ := match reduceBlocktime with
    | some h => p₁.UpdateReduceBlocktimeHeight h
    | none => p₁
  match posNoRetargeting with
  | some b => p₂.UpdatePoSNoRetargeting b
  | none => p₂

/-- The parameter sets `SelectParams` constructs; the overrides are refused on every network but regtest. -/
inductive Constructed : RetargetParams → Prop
  | main : Constructed main
  | testnet : Constructed testnet
  | testnet4 : Constructed testnet4
  | signet : Constructed signet
  | regtest (enforce_bip94 : Bool) (difficultyChange reduceBlocktime : Option Nat) (posNoRetargeting : Option Bool) :
      Constructed ((regtest enforce_bip94).withOverrides difficultyChange reduceBlocktime posNoRetargeting)

end RetargetParams

/-! ### The retarget -/

/-- The fields of `CBlockIndex` the retarget reads; `ancestorBits` is the compact target of `GetAncestor` at a
height, `none` where there is no such block. -/
structure CBlockIndex where
  nHeight : Int
  nTime : Int
  nBits : UInt32
  ancestorBits : Int → Option UInt32

/-- The spacing the retarget uses: a negative one is reset to the target spacing, a longer one than `factor` target
spacings is cut to that. -/
def clampSpacing (nActualSpacing nTargetSpacing factor : Int) : Int :=
  let s := if nActualSpacing < 0 then nTargetSpacing else nActualSpacing
  if s > nTargetSpacing * factor then nTargetSpacing * factor else s

/-- The linear retarget before `QIP9Height`.  `*=` takes its factor as a `uint32_t` and `/=` its divisor as a
`uint64_t`; a zero divisor throws. -/
def linearRetarget (bnNew : Nat) (nActualSpacing nTargetSpacing nInterval : Int) : Option Nat :=
  let s := clampSpacing nActualSpacing nTargetSpacing 10
  let factor := (((nInterval - 1) * nTargetSpacing + s + s) % 2 ^ 32).toNat
  let divisor := (((nInterval + 1) * nTargetSpacing) % 2 ^ 64).toNat
  if divisor = 0 then none else some (bnNew * factor % 2 ^ 256 / divisor)

/-- `stakeTimestampMask + 1` in `uint32_t`, promoted to `int64_t` by the divisions it takes part in. -/
def stakeDivisor (stakeTimestampMask : Nat) : Int := ((stakeTimestampMask + 1) % 2 ^ 32 : Nat)

/-- The exponent's numerator `p` from `QIP9Height` on. -/
def expNumerator (nActualSpacing nTargetSpacing : Int) (stakeTimestampMask : Nat) : Int :=
  (2 * (clampSpacing nActualSpacing nTargetSpacing 20 - nTargetSpacing)).tdiv (stakeDivisor stakeTimestampMask)

/-- The exponent's denominator `q` from `QIP9Height` on. -/
def expDenominator (nTargetSpacing nInterval : Int) (stakeTimestampMask : Nat) : Int :=
  ((nInterval + 1) * nTargetSpacing).tdiv (stakeDivisor stakeTimestampMask)

/-- A new target of zero, or above the limit, is the limit. -/
def clampTarget (bnTargetLimit bnNew : Nat) : Nat :=
  if bnNew = 0 ∨ bnNew > bnTargetLimit then bnTargetLimit else bnNew

namespace RetargetParams

variable (params : RetargetParams)

/-- The compact target the retarget starts from: the previous block's, or under BIP94 that of the first block of the
difficulty period; `none` where that block does not exist (the source dereferences a null pointer). -/
def startBits (pindexLast : CBlockIndex) : Option UInt32 :=
  if params.enforce_BIP94 then
    pindexLast.ancestorBits
      (pindexLast.nHeight - (params.DifficultyAdjustmentInterval (pindexLast.nHeight + 1) - 1))
  else some pindexLast.nBits

/-- The new target before the clamp: linear before `QIP9Height`, `mul_exp` from then on. -/
def nextTarget (nHeight nActualSpacing : Int) (bnNew : Nat) : Option Nat :=
  let nTargetSpacing := params.TargetSpacing nHeight
  let nInterval := params.DifficultyAdjustmentInterval nHeight
  let stakeTimestampMask := params.StakeTimestampMask nHeight
  if nHeight < params.QIP9Height then linearRetarget bnNew nActualSpacing nTargetSpacing nInterval
  else
    mul_exp bnNew (expNumerator nActualSpacing nTargetSpacing stakeTimestampMask)
      (expDenominator nTargetSpacing nInterval stakeTimestampMask)

end RetargetParams

open RetargetParams

/-- `CalculateNextWorkRequired` for proof of stake; `none` where the source throws or crashes. -/
def CalculateNextWorkRequired (params : RetargetParams) (pindexLast : CBlockIndex) (nFirstBlockTime : Int) :
    Option UInt32 :=
  if params.fPoSNoRetargeting then some pindexLast.nBits
  else
    let nHeight := pindexLast.nHeight + 1
    let bnTargetLimit := params.GetLimit nHeight
    (params.startBits pindexLast).bind fun bits =>
      (params.nextTarget nHeight (pindexLast.nTime - nFirstBlockTime) (SetCompact bits)).map fun bnNew =>
        GetCompact (clampTarget bnTargetLimit bnNew)

variable {params : RetargetParams} {pindexLast : CBlockIndex} {nFirstBlockTime : Int}

theorem calculateNextWorkRequired_eq_some (hon : params.fPoSNoRetargeting = false) {r : UInt32}
    (hr : CalculateNextWorkRequired params pindexLast nFirstBlockTime = some r) :
    ∃ bits bnNew, params.startBits pindexLast = some bits ∧
      params.nextTarget (pindexLast.nHeight + 1) (pindexLast.nTime - nFirstBlockTime) (SetCompact bits) = some bnNew ∧
      r = GetCompact (clampTarget (params.GetLimit (pindexLast.nHeight + 1)) bnNew) := by
  simp only [CalculateNextWorkRequired, hon, Bool.false_eq_true, if_false, Option.bind_eq_some_iff,
    Option.map_eq_some_iff] at hr
  obtain ⟨bits, hbits, bnNew, hnew, rfl⟩ := hr
  exact ⟨bits, bnNew, hbits, hnew, rfl⟩

theorem clampTarget_pos {L : Nat} (hL : 0 < L) (v : Nat) : 0 < clampTarget L v := by
  unfold clampTarget
  split_ifs <;> omega

theorem clampTarget_le (L v : Nat) : clampTarget L v ≤ L := by
  unfold clampTarget
  split_ifs <;> omega

theorem clampTarget_mono {L v w : Nat} (hv : 0 < v) (hvw : v ≤ w) : clampTarget L v ≤ clampTarget L w := by
  unfold clampTarget
  split_ifs <;> omega

theorem setCompact_getCompact_clampTarget {L : Nat} (hL : 0 < L) (hL' : L < 2 ^ 256) (v : Nat) :
    0 < SetCompact (GetCompact (clampTarget L v)) ∧ SetCompact (GetCompact (clampTarget L v)) ≤ L := by
  rw [setCompact_getCompact (lt_of_le_of_lt (clampTarget_le L v) hL')]
  exact ⟨compactGrid.trunc_pos (clampTarget_pos hL v),
    (compactGrid.trunc_le _).trans (clampTarget_le L v)⟩

/-- Whatever the branch computes, a target the retarget returns decodes into `(0, GetLimit]`. -/
theorem calculateNextWorkRequired_range (hon : params.fPoSNoRetargeting = false)
    (hL : 0 < params.GetLimit (pindexLast.nHeight + 1)) (hL' : params.GetLimit (pindexLast.nHeight + 1) < 2 ^ 256)
    {r : UInt32} (hr : CalculateNextWorkRequired params pindexLast nFirstBlockTime = some r) :
    0 < SetCompact r ∧ SetCompact r ≤ params.GetLimit (pindexLast.nHeight + 1) := by
  obtain ⟨bits, bnNew, -, -, rfl⟩ := calculateNextWorkRequired_eq_some hon hr
  exact setCompact_getCompact_clampTarget hL hL' bnNew

theorem calculateNextWorkRequired_range_below_qip9 :
    0 < SetCompact 0x1d00ffff ∧
      SetCompact 0x1d00ffff ≤ ((regtest false).withOverrides (some 10) none none).GetLimit (4 + 1) :=
  calculateNextWorkRequired_range rfl (by decide) (by decide)
    (show CalculateNextWorkRequired ((regtest false).withOverrides (some 10) none none)
      ⟨4, 32, 0x01010000, fun _ => none⟩ 32 = some 0x1d00ffff by decide)

/-! ### From `QIP9Height` on -/

theorem clampSpacing_mem (nActualSpacing : Int) {nTargetSpacing factor : Int} (hT : 0 < nTargetSpacing) (hf : 1 ≤ factor) :
    0 ≤ clampSpacing nActualSpacing nTargetSpacing factor ∧
      clampSpacing nActualSpacing nTargetSpacing factor ≤ nTargetSpacing * factor := by
  have hle : nTargetSpacing ≤ nTargetSpacing * factor := le_mul_of_one_le_right hT.le hf
  simp only [clampSpacing]
  split_ifs <;> omega

theorem clampSpacing_mono (nTargetSpacing factor : Int) {s s' : Int} (hs : 0 ≤ s) (hss' : s ≤ s') :
    clampSpacing s nTargetSpacing factor ≤ clampSpacing s' nTargetSpacing factor := by
  simp only [clampSpacing]
  split_ifs <;> omega

/-- Bounds on a target spacing `T`, an interval `I`, a stake timestamp mask and a limit `L` under which `mul_exp` is
the exact series for every clamped spacing: on the denominator `q`, on the largest numerator `38 * T / M` (at twenty
target spacings) and on the magnitude `2 * T / M` of the smallest (at a zero spacing), `M` being the divisor. -/
structure ExpBounds (T I : Int) (mask L : Nat) : Prop where
  spacing_pos : 0 < T
  divisor_pos : 0 < stakeDivisor mask
  limit_pos : 0 < L
  limit_lt : L < 2 ^ 256
  q_pos : 0 < expDenominator T I mask
  q_lt : expDenominator T I mask < 2 ^ 64
  pmax_le : (38 * T).tdiv (stakeDivisor mask) ≤ 2 * expDenominator T I mask
  pmax_lt : (38 * T).tdiv (stakeDivisor mask) < 2 ^ 32
  pmin_sq_le : (2 * T).tdiv (stakeDivisor mask) * (2 * T).tdiv (stakeDivisor mask) ≤ 2 * expDenominator T I mask
  pmin_lt : (2 * T).tdiv (stakeDivisor mask) < expDenominator T I mask
  wide : 8 * L * (((38 * T).tdiv (stakeDivisor mask)).toNat + 1) < 2 ^ 256

/-- The bounds at a height, on the values the retarget reads there. -/
def RetargetParams.ExpBoundsAt (params : RetargetParams) (nHeight : Int) : Prop :=
  ExpBounds (params.TargetSpacing nHeight) (params.DifficultyAdjustmentInterval nHeight)
    (params.StakeTimestampMask nHeight) (params.GetLimit nHeight)

/-- The target `mul_exp` computes from `QIP9Height` on, where it is the exact floored series. -/
def RetargetParams.expTarget (params : RetargetParams) (nHeight nActualSpacing : Int) (bnNew : Nat) : Nat :=
  let p := expNumerator nActualSpacing (params.TargetSpacing nHeight) (params.StakeTimestampMask nHeight)
  let q := expDenominator (params.TargetSpacing nHeight) (params.DifficultyAdjustmentInterval nHeight)
    (params.StakeTimestampMask nHeight)
  (mulExpValue (decide (p < 0)) bnNew p.natAbs q.toNat).toNat

namespace ExpBounds

variable {T I : Int} {mask L : Nat} (hb : ExpBounds T I mask L)
include hb

theorem pmin_nonneg : 0 ≤ (2 * T).tdiv (stakeDivisor mask) :=
  Int.tdiv_nonneg (by have := hb.spacing_pos; omega) hb.divisor_pos.le

theorem pmin_le_pmax : (2 * T).tdiv (stakeDivisor mask) ≤ (38 * T).tdiv (stakeDivisor mask) :=
  Int.tdiv_le_tdiv hb.divisor_pos (by have := hb.spacing_pos; omega)

theorem pmin_toNat_sq_le :
    ((2 * T).tdiv (stakeDivisor mask)).toNat ^ 2 ≤ 2 * (expDenominator T I mask).toNat := by
  have hcast : ((((2 * T).tdiv (stakeDivisor mask)).toNat ^ 2 : Nat) : Int) ≤
      ((2 * (expDenominator T I mask).toNat : Nat) : Int) := by
    push_cast
    rw [Int.toNat_of_nonneg hb.pmin_nonneg, Int.toNat_of_nonneg hb.q_pos.le, sq]
    exact hb.pmin_sq_le
  exact_mod_cast hcast

theorem expNumerator_mem (s : Int) :
    -(2 * T).tdiv (stakeDivisor mask) ≤ expNumerator s T mask ∧
      expNumerator s T mask ≤ (38 * T).tdiv (stakeDivisor mask) := by
  obtain ⟨hlo, hhi⟩ := clampSpacing_mem s hb.spacing_pos (show (1 : Int) ≤ 20 by norm_num)
  constructor
  · rw [← Int.neg_tdiv]
    exact Int.tdiv_le_tdiv hb.divisor_pos (by omega)
  · exact Int.tdiv_le_tdiv hb.divisor_pos (by omega)

omit hb in
theorem expNumerator_mono (hM : 0 < stakeDivisor mask) {s s' : Int} (hs : 0 ≤ s) (hss' : s ≤ s') :
    expNumerator s T mask ≤ expNumerator s' T mask :=
  Int.tdiv_le_tdiv hM (by have := clampSpacing_mono T 20 hs hss'; omega)

/-- Within the bounds, `mul_exp` of a target at most `L` is the floored series, and none of its iterations wraps. -/
theorem mul_exp_expBounds {a : Nat} (ha : a ≤ L) (s : Int) :
    mul_exp a (expNumerator s T mask) (expDenominator T I mask) =
        some (mulExpValue (decide (expNumerator s T mask < 0)) a (expNumerator s T mask).natAbs
          (expDenominator T I mask).toNat).toNat ∧
      MulExpNoWrap a (expNumerator s T mask) (expDenominator T I mask) := by
  obtain ⟨hlo, hhi⟩ := hb.expNumerator_mem s
  have hK := hb.pmin_le_pmax
  have hKq := hb.pmin_lt
  obtain ⟨q, hq⟩ : ∃ q : Nat, expDenominator T I mask = q := ⟨_, (Int.toNat_of_nonneg hb.q_pos.le).symm⟩
  rw [hq] at hKq
  generalize expNumerator s T mask = p at hlo hhi ⊢
  have hp : p.natAbs ≤ ((38 * T).tdiv (stakeDivisor mask)).toNat := by omega
  have hwide : 8 * a * (p.natAbs + 1) < 2 ^ 256 :=
    lt_of_le_of_lt (Nat.mul_le_mul (Nat.mul_le_mul_left 8 ha) (Nat.succ_le_succ hp)) hb.wide
  have hq0 : 0 < q := by have := hb.q_pos; omega
  have hq64 : q < 2 ^ 64 := by have := hb.q_lt; omega
  have hp32 : p.natAbs < 2 ^ 32 := by have := hb.pmax_lt; omega
  have hp2 : p.natAbs ≤ 2 * q := by have := hb.pmax_le; omega
  have hneg : p < 0 → p.natAbs ≤ q := fun _ => by omega
  rw [hq, Int.toNat_natCast]
  exact ⟨mul_exp_eq hq0 hq64 hp32 hp2 hneg hwide, mul_exp_fits hq0 hq64 hp32 hp2 hneg hwide⟩

end ExpBounds

namespace RetargetParams

variable {params : RetargetParams} {nHeight : Int}

theorem nextTarget_of_le (hh : params.QIP9Height ≤ nHeight) (s : Int) (a : Nat) :
    params.nextTarget nHeight s a =
      mul_exp a (expNumerator s (params.TargetSpacing nHeight) (params.StakeTimestampMask nHeight))
        (expDenominator (params.TargetSpacing nHeight) (params.DifficultyAdjustmentInterval nHeight)
          (params.StakeTimestampMask nHeight)) := by
  simp only [nextTarget, if_neg (not_lt.mpr hh)]

section Exponential

variable (hb : params.ExpBoundsAt nHeight)
include hb

theorem nextTarget_eq_expTarget (hh : params.QIP9Height ≤ nHeight) {a : Nat} (ha : a ≤ params.GetLimit nHeight)
    (s : Int) : params.nextTarget nHeight s a = some (params.expTarget nHeight s a) := by
  rw [nextTarget_of_le hh]
  exact (hb.mul_exp_expBounds ha s).1

theorem expTarget_pos {a : Nat} (ha : 0 < a) (s : Int) : 0 < params.expTarget nHeight s a := by
  have hlo := (hb.expNumerator_mem s).1
  have hK := hb.pmin_nonneg
  have hp : -(((2 * params.TargetSpacing nHeight).tdiv (stakeDivisor (params.StakeTimestampMask nHeight))).toNat : Int) ≤
      expNumerator s (params.TargetSpacing nHeight) (params.StakeTimestampMask nHeight) := by omega
  have hpos := mulExpValue_pos ha ((Int.toNat_lt_toNat hb.q_pos).mpr hb.pmin_lt) hp
  simp only [expTarget]
  omega

theorem expTarget_mono {a : Nat} {s s' : Int} (hs : 0 ≤ s) (hss' : s ≤ s') :
    params.expTarget nHeight s a ≤ params.expTarget nHeight s' a := by
  have hlo := (hb.expNumerator_mem s).1
  have hK := hb.pmin_nonneg
  have hq : 0 < (expDenominator (params.TargetSpacing nHeight) (params.DifficultyAdjustmentInterval nHeight)
      (params.StakeTimestampMask nHeight)).toNat := by have := hb.q_pos; omega
  exact Int.toNat_le_toNat (mulExpValue_mono hq hb.pmin_toNat_sq_le (by omega)
    (ExpBounds.expNumerator_mono hb.divisor_pos hs hss'))

end Exponential

end RetargetParams

/-- From `QIP9Height` on, within the bounds, the retarget of a starting target at most the limit returns the clamped
`expTarget`. -/
theorem calculateNextWorkRequired_eq_expTarget (hon : params.fPoSNoRetargeting = false)
    (hh : params.QIP9Height ≤ pindexLast.nHeight + 1) (hb : params.ExpBoundsAt (pindexLast.nHeight + 1))
    {bits : UInt32} (hbits : params.startBits pindexLast = some bits)
    (ha : SetCompact bits ≤ params.GetLimit (pindexLast.nHeight + 1)) :
    CalculateNextWorkRequired params pindexLast nFirstBlockTime =
      some (GetCompact (clampTarget (params.GetLimit (pindexLast.nHeight + 1))
        (params.expTarget (pindexLast.nHeight + 1) (pindexLast.nTime - nFirstBlockTime) (SetCompact bits)))) := by
  simp only [CalculateNextWorkRequired, hon, Bool.false_eq_true, if_false, hbits, Option.bind_some,
    nextTarget_eq_expTarget hb hh ha, Option.map_some]

/-! ### The networks' bounds -/

theorem expBounds_main : ExpBounds 1 600 0 (2 ^ 228 - 1) := by
  constructor <;> decide

theorem expBounds_testnet : ExpBounds 1 1000 0 (2 ^ 206 - 1) := by
  constructor <;> decide

theorem expBounds_reduced : ExpBounds 32 31 3 (2 ^ 206 - 1) := by
  constructor <;> decide

theorem expBounds_qip9 : ExpBounds 128 31 15 (2 ^ 205 - 1) := by
  constructor <;> decide

namespace RetargetParams

variable {nHeight : Int}

/-- From the reduced block time on, the bounds read the `RBT` fields. -/
theorem expBoundsAt_of_reduced (hq : params.QIP9Height ≤ nHeight) (hr : params.nReduceBlocktimeHeight ≤ nHeight) :
    params.ExpBoundsAt nHeight = ExpBounds params.nRBTPowTargetSpacing
      (params.nRBTPowTargetTimespan.tdiv params.nRBTPowTargetSpacing) params.nRBTStakeTimestampMask
      params.RBTPosLimit := by
  simp only [ExpBoundsAt, TargetSpacing, TargetTimespan, DifficultyAdjustmentInterval, StakeTimestampMask, GetLimit,
    if_neg (not_lt.mpr hq), if_neg (not_lt.mpr hr)]

/-- Between `QIP9Height` and the reduced block time, the bounds read the `QIP9` fields. -/
theorem expBoundsAt_of_qip9 (hq : params.QIP9Height ≤ nHeight) (hr : nHeight < params.nReduceBlocktimeHeight) :
    params.ExpBoundsAt nHeight = ExpBounds params.nPowTargetSpacing
      (params.nPowTargetTimespanV2.tdiv params.nPowTargetSpacing) params.nStakeTimestampMask params.QIP9PosLimit := by
  simp only [ExpBoundsAt, TargetSpacing, TargetTimespan, DifficultyAdjustmentInterval, StakeTimestampMask, GetLimit,
    if_neg (not_lt.mpr hq), if_pos hr]

/-- Every constructed parameter set but regtest without `-difficultychangeheight` meets the bounds from
`QIP9Height` on. -/
theorem expBoundsAt_of_constructed (hcons : params.Constructed) (hlimit : params.RBTPosLimit < 2 ^ 255 - 1)
    (hh : params.QIP9Height ≤ nHeight) : params.ExpBoundsAt nHeight := by
  cases hcons with
  | main =>
    rw [expBoundsAt_of_reduced hh hh]
    exact expBounds_main
  | testnet =>
    rw [expBoundsAt_of_reduced hh hh]
    exact expBounds_testnet
  | testnet4 =>
    rw [expBoundsAt_of_reduced hh hh]
    exact expBounds_reduced
  | signet =>
    rw [expBoundsAt_of_reduced hh hh]
    exact expBounds_reduced
  | regtest b d r n =>
    cases d with
    | none =>
      -- without `-difficultychangeheight` the limit stays regtest's
      cases r <;> cases n <;> exact absurd hlimit (lt_irrefl _)
    | some d =>
      by_cases hr : nHeight < ((regtest b).withOverrides (some d) r n).nReduceBlocktimeHeight
      · rw [expBoundsAt_of_qip9 hh hr]
        cases r <;> cases n <;> exact expBounds_qip9
      · rw [expBoundsAt_of_reduced hh (not_lt.mp hr)]
        cases r <;> cases n <;> exact expBounds_reduced

end RetargetParams

theorem pos_retarget_exact_and_monotone (hcons : params.Constructed) (hon : params.fPoSNoRetargeting = false)
    (hlimit : params.RBTPosLimit < 2 ^ 255 - 1) (hh : params.QIP9Height ≤ pindexLast.nHeight + 1) {bits : UInt32}
    (hbits : params.startBits pindexLast = some bits)
    (htarget : 0 < SetCompact bits ∧ SetCompact bits ≤ params.GetLimit (pindexLast.nHeight + 1)) :
    (∀ nActualSpacing : Int,
      MulExpNoWrap (SetCompact bits)
        (expNumerator nActualSpacing (params.TargetSpacing (pindexLast.nHeight + 1))
          (params.StakeTimestampMask (pindexLast.nHeight + 1)))
        (expDenominator (params.TargetSpacing (pindexLast.nHeight + 1))
          (params.DifficultyAdjustmentInterval (pindexLast.nHeight + 1))
          (params.StakeTimestampMask (pindexLast.nHeight + 1)))) ∧
    (∀ nFirstBlockTime : Int, ∃ r, CalculateNextWorkRequired params pindexLast nFirstBlockTime = some r ∧
      0 < SetCompact r ∧ SetCompact r ≤ params.GetLimit (pindexLast.nHeight + 1)) ∧
    (∀ (t₁ t₂ : Int) (r₁ r₂ : UInt32), 0 ≤ pindexLast.nTime - t₁ → pindexLast.nTime - t₁ ≤ pindexLast.nTime - t₂ →
      CalculateNextWorkRequired params pindexLast t₁ = some r₁ →
      CalculateNextWorkRequired params pindexLast t₂ = some r₂ → SetCompact r₁ ≤ SetCompact r₂) := by
  have hb := expBoundsAt_of_constructed hcons hlimit hh
  have hcalc := fun t => @calculateNextWorkRequired_eq_expTarget params pindexLast t hon hh hb bits hbits htarget.2
  refine ⟨fun s => (hb.mul_exp_expBounds htarget.2 s).2, fun t => ⟨_, hcalc t, ?_⟩, ?_⟩
  · exact setCompact_getCompact_clampTarget hb.limit_pos hb.limit_lt _
  · intro t₁ t₂ r₁ r₂ hs hs' h₁ h₂
    rw [hcalc, Option.some.injEq] at h₁ h₂
    subst h₁ h₂
    rw [setCompact_getCompact (lt_of_le_of_lt (clampTarget_le _ _) hb.limit_lt),
      setCompact_getCompact (lt_of_le_of_lt (clampTarget_le _ _) hb.limit_lt)]
    exact compactGrid.trunc_mono (clampTarget_mono (expTarget_pos hb htarget.1 _) (expTarget_mono hb hs hs'))

/-- A mainnet block with the target `0x1d00ffff`. -/
def mainTip : CBlockIndex := ⟨0, 0, 0x1d00ffff, fun _ => none⟩

theorem pos_retarget_exact_and_monotone_on_main :
    (∀ nActualSpacing : Int,
      MulExpNoWrap (SetCompact 0x1d00ffff)
        (expNumerator nActualSpacing (main.TargetSpacing (mainTip.nHeight + 1))
          (main.StakeTimestampMask (mainTip.nHeight + 1)))
        (expDenominator (main.TargetSpacing (mainTip.nHeight + 1))
          (main.DifficultyAdjustmentInterval (mainTip.nHeight + 1))
          (main.StakeTimestampMask (mainTip.nHeight + 1)))) ∧
    (∀ nFirstBlockTime : Int, ∃ r, CalculateNextWorkRequired main mainTip nFirstBlockTime = some r ∧
      0 < SetCompact r ∧ SetCompact r ≤ main.GetLimit (mainTip.nHeight + 1)) ∧
    (∀ (t₁ t₂ : Int) (r₁ r₂ : UInt32), 0 ≤ mainTip.nTime - t₁ → mainTip.nTime - t₁ ≤ mainTip.nTime - t₂ →
      CalculateNextWorkRequired main mainTip t₁ = some r₁ →
      CalculateNextWorkRequired main mainTip t₂ = some r₂ → SetCompact r₁ ≤ SetCompact r₂) :=
  pos_retarget_exact_and_monotone .main rfl (by decide) (by decide) rfl (by decide)

/-- Regtest with `-posnoretargeting=0`. -/
def regtestRetargeting : RetargetParams := (regtest false).withOverrides none none (some false)

/-- Regtest with `-difficultychangeheight=10`. -/
def regtestDifficultyChange : RetargetParams := (regtest false).withOverrides (some 10) none none

/-- Regtest with `-posnoretargeting=0` keeps its limit of `2 ^ 255 - 1`: from a target of `2 ^ 254`, at twenty target
spacings, `mul_exp`'s first product `2 ^ 254 * 304` wraps.  With `-difficultychangeheight=10`, below that height the
linear retarget takes a target of 1 at a zero spacing to zero, which is reset to the limit, and keeps it at 1 at one
target spacing. -/
theorem pos_retarget_regtest_counterexample :
    (regtestRetargeting.Constructed ∧ regtestRetargeting.fPoSNoRetargeting = false ∧
      regtestRetargeting.startBits ⟨1, 640, 0x20400000, fun _ => none⟩ = some 0x20400000 ∧
      0 < SetCompact 0x20400000 ∧ SetCompact 0x20400000 ≤ regtestRetargeting.GetLimit 2 ∧
      ¬ MulExpNoWrap (SetCompact 0x20400000)
        (expNumerator 640 (regtestRetargeting.TargetSpacing 2) (regtestRetargeting.StakeTimestampMask 2))
        (expDenominator (regtestRetargeting.TargetSpacing 2) (regtestRetargeting.DifficultyAdjustmentInterval 2)
          (regtestRetargeting.StakeTimestampMask 2))) ∧
    (regtestDifficultyChange.Constructed ∧ regtestDifficultyChange.fPoSNoRetargeting = false ∧
      regtestDifficultyChange.startBits ⟨4, 32, 0x01010000, fun _ => none⟩ = some 0x01010000 ∧
      0 < SetCompact 0x01010000 ∧ SetCompact 0x01010000 ≤ regtestDifficultyChange.GetLimit 5 ∧
      CalculateNextWorkRequired regtestDifficultyChange ⟨4, 32, 0x01010000, fun _ => none⟩ 32 = some 0x1d00ffff ∧
      CalculateNextWorkRequired regtestDifficultyChange ⟨4, 32, 0x01010000, fun _ => none⟩ 0 = some (GetCompact 1) ∧
      SetCompact (GetCompact 1) < SetCompact 0x1d00ffff) := by
  refine ⟨⟨.regtest false none none (some false), rfl, rfl, by decide, by decide, ?_⟩,
    ⟨.regtest false (some 10) none none, rfl, rfl, by decide, by decide, by decide, by decide, by decide⟩⟩
  -- the loop's first state already multiplies past `2 ^ 256`
  intro hnowrap
  have hfits := (hnowrap _ (.refl _) (by decide)).1
  exact absurd hfits (by decide)

end Retarget
end Wattx
