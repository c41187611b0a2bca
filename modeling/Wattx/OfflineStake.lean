import Mathlib.Tactic.Linarith
import Wattx.StakeCoin
/-!
# OfflineStake — the fee of a super staker that stakes a delegated coin

A super staker that stakes an offline staker's coin splits the block reward with the coin's owner:
`SplitOfflineStakeReward` gives the staker the floored share `nReward * fee / 100` and the owner the rest, and
`CreateCoinStakeFromDelegate` pays the staker's share into `vout[1]` beside the value of the super staker's own coin
and the owner's into `vout[2]`, which exists unless the fee is the whole reward (`IsDelegateOutputExist`).
`CheckProofOfStake` reads the fee back from the transaction with `GetDelegationFeeTx`, a ceiling division of the
staker's share by the reward the two outputs hold, and rejects the block unless it is the delegation's fee.

The ceiling undoes the floor exactly when the reward is positive and the floor drops less than the reward, as a
hundredth of `nReward * fee` (`delegationFee_roundtrip_iff`, for a reward and a coin in `MoneyRange`, where the
`CAmount` arithmetic is exact): every reward of `100` satoshis or more, every fee on a zero reward to the contrary.
A reward of `0` reads back as `-1`, and a reward of one satoshi at a fee of `50` as `0`, so the node rejects the
blocks its own staker built (`delegation_fee_misread`).

The reward is the block's whole reward: the MPoS branch, which splits it among the MPoS recipients, is taken only
between `nFirstMPoSBlock` and `nLastMPoSBlock`, and every network sets `nLastMPoSBlock` to `0`.
-/
namespace Wattx

/-- `DEFAULT_STAKING_MIN_UTXO_VALUE` (`validation.h`): the least coin a super staker may stake with. -/
def DEFAULT_STAKING_MIN_UTXO_VALUE : Int := 100 * COIN

/-- `CTxOut`: a value and the bytes of its `scriptPubKey`. -/
structure CTxOut where
  nValue : Int
  scriptPubKey : List UInt8
  deriving DecidableEq, Repr

namespace CTxOut

/-- The output `SetEmpty` leaves. -/
def empty : CTxOut := ⟨0, []⟩

def isEmpty (out : CTxOut) : Bool := out.nValue == 0 && out.scriptPubKey.isEmpty

end CTxOut

/-- `CTransaction`: the outpoints its inputs spend, and its outputs. -/
structure CTransaction where
  vin : List COutPoint
  vout : List CTxOut
  deriving DecidableEq, Repr

namespace CTransaction

/-- `IsCoinStake`: a spent first input and at least two outputs, the first of them empty. -/
def isCoinStake (tx : CTransaction) : Bool :=
  match tx.vin, tx.vout with
  | prevout :: _, out :: _ :: _ => !prevout.isNull && out.isEmpty
  | _, _ => false

end CTransaction

/-- `SplitOfflineStakeReward`: the owner's and the staker's parts of `nReward`, `false` for a fee above `100`. -/
def splitOfflineStakeReward (nReward : Int) (fee : UInt8) : Option (Int × Int) :=
  if fee.toNat > 100 then none
  else
    let nRewardStaker := (nReward * fee.toNat).tdiv 100
    let nRewardOffline := nReward - nRewardStaker
    some (nRewardOffline, nRewardStaker)

def isDelegateOutputExist (inFee : Int) : Bool := inFee ≥ 0 && inFee < 100

/-- `GetDelegationFeeTx`: the fee a coinstake paid its staker, as a percentage of the reward rounded up; `-1` for a
transaction that is not a coinstake of enough outputs, a coin of no value, or no reward. -/
def getDelegationFeeTx (tx : CTransaction) (coinOut : CTxOut) (delegateOutputExist : Bool) : Int :=
  let nValueCoin := coinOut.nValue
  let minVoutSize := if delegateOutputExist then 3 else 2
  if !tx.isCoinStake || tx.vout.length < minVoutSize || nValueCoin ≤ 0 then -1
  else
    let nValueStaker := (tx.vout.getD 1 CTxOut.empty).nValue - nValueCoin
    let nValueDelegate := if delegateOutputExist then (tx.vout.getD 2 CTxOut.empty).nValue else 0
    let nReward := nValueStaker + nValueDelegate
    if nReward ≤ 0 then -1
    else (nValueStaker * 100 + nReward - 1).tdiv nReward

/-- The coinstake `CreateCoinStakeFromDelegate` builds once it found a kernel, outside MPoS: it spends the super
staker's coin at `prevoutSuperStaker`, of value `nValueSuperStaker`; pays it back with the staker's part of
`nTotalReward` to `scriptPubKeyStaker`; pays the owner's part to the kernel's `scriptPubKeyKernel` when the fee leaves
one; and appends the refunds of the block template `tx`, its outputs from the third on. -/
def createCoinStakeFromDelegate (tx : CTransaction) (prevoutSuperStaker : COutPoint) (nValueSuperStaker : Int)
    (scriptPubKeyStaker scriptPubKeyKernel : List UInt8) (fee : UInt8) (nTotalReward : Int) : Option CTransaction :=
  if nTotalReward < 0 then none
  else
    match splitOfflineStakeReward nTotalReward fee with
    | none => none
    | some (nRewardOffline, nRewardStaker) =>
      let nCredit := nValueSuperStaker + nRewardStaker
      let delegateOutput := if isDelegateOutputExist fee.toNat then [⟨nRewardOffline, scriptPubKeyKernel⟩] else []
      some { vin := [prevoutSuperStaker],
             vout := [CTxOut.empty, ⟨nCredit, scriptPubKeyStaker⟩] ++ delegateOutput ++ tx.vout.drop 2 }

/-- The fee check of `CheckProofOfStake` on a coinstake `tx` that stakes a delegated coin with the super staker's
`coinTxPrev`: the coin is at least the minimum, and the fee read from `tx` is the delegation's `delegationFee`. -/
def checkDelegationFee (delegationFee : UInt8) (tx : CTransaction) (coinTxPrev : CTxOut) : Bool :=
  if coinTxPrev.nValue < DEFAULT_STAKING_MIN_UTXO_VALUE then false
  else
    let delegateOutputExist := isDelegateOutputExist delegationFee.toNat
    let fee := getDelegationFeeTx tx coinTxPrev delegateOutputExist
    (delegationFee.toNat : Int) == fee

/-! ### The split and its reading -/

/-- **The ceiling undoes the floor** when, and only when, the floor drops less than the whole `R`. -/
theorem ceil_fee_iff {R f : Int} (hR : 0 < R) (hf : 0 ≤ f) :
    (((R * f).tdiv 100) * 100 + R - 1).tdiv R = f ↔ R * f % 100 < R := by
  have hRf : 0 ≤ R * f := Int.mul_nonneg hR.le hf
  -- the floored share, times 100, is the product less its remainder
  have hsplit : (R * f).tdiv 100 * 100 = R * f - R * f % 100 := by
    rw [Int.tdiv_eq_ediv_of_nonneg hRf]
    have := Int.mul_ediv_add_emod (R * f) 100
    linarith
  have hm0 : 0 ≤ R * f % 100 := Int.emod_nonneg _ (by decide)
  have hm : R * f % 100 < 100 := Int.emod_lt_of_pos _ (by decide)
  rw [hsplit, Int.tdiv_eq_ediv_of_nonneg (by omega)]
  have hcomm : f * R = R * f := Int.mul_comm f R
  constructor
  · intro h
    have hle := Int.ediv_mul_le (R * f - R * f % 100 + R - 1) (Int.ne_of_gt hR)
    rw [h] at hle
    omega
  · intro hlt
    apply le_antisymm
    · refine Int.lt_add_one_iff.1 ((Int.ediv_lt_iff_lt_mul hR).2 ?_)
      rw [Int.add_mul, hcomm]
      omega
    · refine (Int.le_ediv_iff_mul_le hR).2 ?_
      omega

/-- The staker's part of a reward, as `SplitOfflineStakeReward` computes it. -/
def stakerPart (nTotalReward : Int) (fee : UInt8) : Int := (nTotalReward * fee.toNat).tdiv 100

section Build

variable (tx : CTransaction) (prevoutSuperStaker : COutPoint) (nValueSuperStaker : Int)
  (scriptPubKeyStaker scriptPubKeyKernel : List UInt8) (fee : UInt8) (nTotalReward : Int)

theorem splitOfflineStakeReward_of_le (hfee : fee.toNat ≤ 100) :
    splitOfflineStakeReward nTotalReward fee =
      some (nTotalReward - stakerPart nTotalReward fee, stakerPart nTotalReward fee) := by
  simp [splitOfflineStakeReward, stakerPart, Nat.not_lt.2 hfee]

/-- At the whole reward as fee, the staker takes the whole reward. -/
theorem stakerPart_of_not_delegate (hfee : fee.toNat ≤ 100) (hdelegate : isDelegateOutputExist fee.toNat = false) :
    stakerPart nTotalReward fee = nTotalReward := by
  have h100 : fee.toNat = 100 := by
    simp only [isDelegateOutputExist, Bool.and_eq_false_iff, decide_eq_false_iff_not] at hdelegate
    omega
  simp [stakerPart, h100]

/-- **What the super staker builds**, for a non-negative reward and a fee of at most `100`. -/
theorem createCoinStakeFromDelegate_eq (hfee : fee.toNat ≤ 100) (hreward : 0 ≤ nTotalReward) :
    createCoinStakeFromDelegate tx prevoutSuperStaker nValueSuperStaker scriptPubKeyStaker scriptPubKeyKernel fee
        nTotalReward =
      some { vin := [prevoutSuperStaker],
             vout := [CTxOut.empty, ⟨nValueSuperStaker + stakerPart nTotalReward fee, scriptPubKeyStaker⟩] ++
               (if isDelegateOutputExist fee.toNat
                 then [⟨nTotalReward - stakerPart nTotalReward fee, scriptPubKeyKernel⟩] else []) ++
               tx.vout.drop 2 } := by
  rw [createCoinStakeFromDelegate, if_neg (Int.not_lt.2 hreward), splitOfflineStakeReward_of_le fee nTotalReward hfee]

/-- **The fee read back** from what the super staker built: the staker's part as a percentage of the whole reward,
rounded up, or `-1` for no reward.  Both outputs together always hold the whole reward. -/
theorem getDelegationFeeTx_built (hprevout : prevoutSuperStaker.isNull = false) (hcoin : 0 < nValueSuperStaker)
    (hfee : fee.toNat ≤ 100) (hreward : 0 ≤ nTotalReward) (built : CTransaction)
    (hbuilt : createCoinStakeFromDelegate tx prevoutSuperStaker nValueSuperStaker scriptPubKeyStaker
      scriptPubKeyKernel fee nTotalReward = some built) (coinScript : List UInt8) :
    getDelegationFeeTx built ⟨nValueSuperStaker, coinScript⟩ (isDelegateOutputExist fee.toNat) =
      if nTotalReward ≤ 0 then -1
      else (stakerPart nTotalReward fee * 100 + nTotalReward - 1).tdiv nTotalReward := by
  rw [createCoinStakeFromDelegate_eq tx prevoutSuperStaker nValueSuperStaker scriptPubKeyStaker scriptPubKeyKernel
    fee nTotalReward hfee hreward, Option.some.injEq] at hbuilt
  subst hbuilt
  -- the delegate output exists or it does not; either way the two outputs hold the whole reward
  cases hdelegate : isDelegateOutputExist fee.toNat with
  | true =>
    simp [getDelegationFeeTx, CTransaction.isCoinStake, CTxOut.empty, CTxOut.isEmpty, hprevout,
      Int.not_le.2 hcoin]
  | false =>
    have hall := stakerPart_of_not_delegate fee nTotalReward hfee hdelegate
    simp [getDelegationFeeTx, CTransaction.isCoinStake, CTxOut.empty, CTxOut.isEmpty, hprevout,
      Int.not_le.2 hcoin, hall]

/-- The fee reads back from what the super staker built exactly when the reward is positive and the floor drops less
than it. -/
theorem getDelegationFeeTx_built_eq_iff (hprevout : prevoutSuperStaker.isNull = false) (hcoin : 0 < nValueSuperStaker)
    (hfee : fee.toNat ≤ 100) (hreward : 0 ≤ nTotalReward) (built : CTransaction)
    (hbuilt : createCoinStakeFromDelegate tx prevoutSuperStaker nValueSuperStaker scriptPubKeyStaker
      scriptPubKeyKernel fee nTotalReward = some built) (coinScript : List UInt8) :
    getDelegationFeeTx built ⟨nValueSuperStaker, coinScript⟩ (isDelegateOutputExist fee.toNat) = fee.toNat ↔
      0 < nTotalReward ∧ nTotalReward * fee.toNat % 100 < nTotalReward := by
  rw [getDelegationFeeTx_built tx prevoutSuperStaker nValueSuperStaker scriptPubKeyStaker scriptPubKeyKernel fee
    nTotalReward hprevout hcoin hfee hreward built hbuilt coinScript]
  by_cases hzero : nTotalReward ≤ 0
  · -- no reward reads back as `-1`, which is no fee
    rw [if_pos hzero]
    constructor
    · intro h
      omega
    · rintro ⟨hpos, -⟩
      omega
  · rw [if_neg hzero, stakerPart, ceil_fee_iff (by omega) (by omega)]
    exact (and_iff_right (by omega)).symm

/-- **The fee reads back exactly when the floor drops less than the reward**: the coinstake a super staker builds
for a reward and a coin in `MoneyRange`, where the `CAmount` sums and products are exact, and a fee of at most `100`
carries that fee, as `GetDelegationFeeTx` reads it against the super staker's coin, if and only if the reward is
positive and `nTotalReward * fee % 100 < nTotalReward`. -/
theorem delegationFee_roundtrip_iff (hprevout : prevoutSuperStaker.isNull = false) (hcoin : 0 < nValueSuperStaker)
    (_hcoinMax : nValueSuperStaker ≤ MAX_MONEY) (hfee : fee.toNat ≤ 100) (hreward : 0 ≤ nTotalReward)
    (_hrewardMax : nTotalReward ≤ MAX_MONEY) (coinScript : List UInt8) :
    ∃ built, createCoinStakeFromDelegate tx prevoutSuperStaker nValueSuperStaker scriptPubKeyStaker
        scriptPubKeyKernel fee nTotalReward = some built ∧
      (getDelegationFeeTx built ⟨nValueSuperStaker, coinScript⟩ (isDelegateOutputExist fee.toNat) = fee.toNat ↔
        0 < nTotalReward ∧ nTotalReward * fee.toNat % 100 < nTotalReward) := by
  have hbuilt := createCoinStakeFromDelegate_eq tx prevoutSuperStaker nValueSuperStaker scriptPubKeyStaker
    scriptPubKeyKernel fee nTotalReward hfee hreward
  exact ⟨_, hbuilt, getDelegationFeeTx_built_eq_iff tx prevoutSuperStaker nValueSuperStaker scriptPubKeyStaker
    scriptPubKeyKernel fee nTotalReward hprevout hcoin hfee hreward _ hbuilt coinScript⟩

end Build

/-- A super staker's coinstake for a reward of `1000` satoshis at a fee of `10`. -/
theorem delegationFee_roundtrip_at_tenth :
    (⟨1, 0⟩ : COutPoint).isNull = false ∧ 0 < DEFAULT_STAKING_MIN_UTXO_VALUE ∧
      DEFAULT_STAKING_MIN_UTXO_VALUE ≤ MAX_MONEY ∧ (10 : UInt8).toNat ≤ 100 ∧ (0 : Int) ≤ 1000 ∧ 1000 ≤ MAX_MONEY ∧
      ∃ built, createCoinStakeFromDelegate ⟨[], []⟩ ⟨1, 0⟩ DEFAULT_STAKING_MIN_UTXO_VALUE [1] [2] 10 1000 =
          some built ∧
        (getDelegationFeeTx built ⟨DEFAULT_STAKING_MIN_UTXO_VALUE, [1]⟩ (isDelegateOutputExist (10 : UInt8).toNat) =
            (10 : UInt8).toNat ↔
          0 < (1000 : Int) ∧ 1000 * ((10 : UInt8).toNat : Int) % 100 < 1000) :=
  ⟨by decide, by decide, by decide, by decide, by decide, by decide,
    delegationFee_roundtrip_iff ⟨[], []⟩ ⟨1, 0⟩ DEFAULT_STAKING_MIN_UTXO_VALUE [1] [2] 10 1000 (by decide) (by decide)
      (by decide) (by decide) (by decide) (by decide) [1]⟩

/-- **A super staker's own coinstake can misstate its fee**: at a fee of `50`, with a coin of the least value a
super staker may stake, the coinstake it builds for a reward of one satoshi reads back a fee of `0`, and the one it
builds for no reward reads back `-1`; the fee check of `CheckProofOfStake` rejects both. -/
theorem delegation_fee_misread :
    ∃ built built' : CTransaction,
      createCoinStakeFromDelegate ⟨[], []⟩ ⟨1, 0⟩ DEFAULT_STAKING_MIN_UTXO_VALUE [1] [2] 50 1 = some built ∧
      getDelegationFeeTx built ⟨DEFAULT_STAKING_MIN_UTXO_VALUE, [1]⟩ (isDelegateOutputExist (50 : UInt8).toNat) = 0 ∧
      checkDelegationFee 50 built ⟨DEFAULT_STAKING_MIN_UTXO_VALUE, [1]⟩ = false ∧
      createCoinStakeFromDelegate ⟨[], []⟩ ⟨1, 0⟩ DEFAULT_STAKING_MIN_UTXO_VALUE [1] [2] 50 0 = some built' ∧
      getDelegationFeeTx built' ⟨DEFAULT_STAKING_MIN_UTXO_VALUE, [1]⟩ (isDelegateOutputExist (50 : UInt8).toNat) =
        -1 ∧
      checkDelegationFee 50 built' ⟨DEFAULT_STAKING_MIN_UTXO_VALUE, [1]⟩ = false := by
  refine ⟨_, _, rfl, ?_, ?_, rfl, ?_, ?_⟩ <;> decide

end Wattx
