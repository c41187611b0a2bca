import Mathlib.Tactic.Linarith
import Wattx.Validators.ValidatorDb
/-!
# RewardSplit — a block reward divided between a validator and its delegators

`CalculateValidatorReward` gives the validator its stake's floored share of the reward and the floored pool fee on
what is left; `CalculateDelegatorsReward` gives the delegators their own floored share less the floored pool fee on
it.  While no `int64_t` operation of the two wraps, which holds when the reward times the total stake and times
10000 stay below `2 ^ 63` (`calculateValidatorReward_exact`, `calculateDelegatorsReward_exact`), the two floored
shares of the stake add up to the reward or to one less, so the two results together pay the reward or one satoshi
less, never more, and neither is negative (`reward_split_within_satoshi`).  The lost satoshi is real: with equal
stakes and a reward of one satoshi, both calls return nothing.  And the bound is not idle: `blockReward * stakeAmount`
at the largest reward overflows for any stake of a few thousand coins.
-/
namespace Wattx
namespace Validators

/-! ### Floored quotients -/

section Floor

variable {n d : Int}

theorem tdiv_mul_le (hn : 0 ≤ n) (hd : 0 < d) : n.tdiv d * d ≤ n := by
  rw [Int.tdiv_eq_ediv_of_nonneg hn]
  exact Int.ediv_mul_le n (Int.ne_of_gt hd)

theorem lt_tdiv_add_one_mul (hn : 0 ≤ n) (hd : 0 < d) : n < (n.tdiv d + 1) * d := by
  rw [Int.tdiv_eq_ediv_of_nonneg hn]
  exact Int.lt_ediv_add_one_mul_self n hd

/-- Raising a floored fee's base by `k` raises the fee by at most `k`, for a rate of at most one. -/
theorem fee_tdiv_add_le {a k f D : Int} (ha : 0 ≤ a) (hk : 0 ≤ k) (hf : 0 ≤ f) (hfD : f ≤ D) (hD : 0 < D) :
    ((a + k) * f).tdiv D ≤ (a * f).tdiv D + k := by
  have hak : 0 ≤ (a + k) * f := Int.mul_nonneg (by omega) hf
  rw [Int.tdiv_eq_ediv_of_nonneg hak, Int.tdiv_eq_ediv_of_nonneg (Int.mul_nonneg ha hf)]
  calc (a + k) * f / D ≤ (a * f + k * D) / D := Int.ediv_le_ediv hD (by nlinarith)
    _ = a * f / D + k := Int.add_mul_ediv_right _ _ (Int.ne_of_gt hD)

/-- A fee of at most the whole is at most its base. -/
theorem fee_tdiv_le {a f D : Int} (ha : 0 ≤ a) (hf : 0 ≤ f) (hfD : f ≤ D) (hD : 0 < D) : (a * f).tdiv D ≤ a := by
  have h := fee_tdiv_add_le (Int.le_refl 0) ha hf hfD hD
  rwa [Int.zero_add, Int.zero_mul, Int.zero_tdiv, Int.zero_add] at h

theorem fee_tdiv_mono {a b f D : Int} (ha : 0 ≤ a) (hab : a ≤ b) (hf : 0 ≤ f) (hD : 0 < D) :
    (a * f).tdiv D ≤ (b * f).tdiv D := by
  rw [Int.tdiv_eq_ediv_of_nonneg (Int.mul_nonneg ha hf), Int.tdiv_eq_ediv_of_nonneg (Int.mul_nonneg (by omega) hf)]
  exact Int.ediv_le_ediv hD (Int.mul_le_mul_of_nonneg_right hab hf)

/-- A floored share of a non-negative amount is at most the amount. -/
theorem share_tdiv_le {R s t : Int} (hR : 0 ≤ R) (hs : 0 ≤ s) (hst : s ≤ t) (ht : 0 < t) : (R * s).tdiv t ≤ R := by
  have hmul := tdiv_mul_le (Int.mul_nonneg hR hs) ht
  exact Int.le_of_mul_le_mul_right (le_trans hmul (Int.mul_le_mul_of_nonneg_left hst hR)) ht

end Floor

/-! ### The split -/

namespace ValidatorEntry

open SignedWord (wrap)

variable {κ π : Type} (entry : ValidatorEntry κ π) (blockReward : Int)

/-! Within bounds on the reward and the stakes, no `int64_t` operation of the split wraps. -/

variable {entry blockReward}

theorem getTotalStake_exact (hstake : 0 ≤ entry.stakeAmount) (hdelegated : 0 ≤ entry.totalDelegated)
    (htotal : entry.stakeAmount + entry.totalDelegated < 2 ^ 63) :
    entry.getTotalStake = entry.stakeAmount + entry.totalDelegated :=
  SignedWord.wrap_of_inRange (by decide) ⟨by omega, htotal⟩

/-- A share's product stays in its word when the reward times the whole does. -/
theorem share_product_exact {s t : Int} (hreward : 0 ≤ blockReward) (hproduct : blockReward * t < 2 ^ 63)
    (hs : 0 ≤ s) (hst : s ≤ t) : wrap 64 (blockReward * s) = blockReward * s := by
  have hle : blockReward * s ≤ blockReward * t := Int.mul_le_mul_of_nonneg_left hst hreward
  have hnonneg := Int.mul_nonneg hreward hs
  exact SignedWord.wrap_of_inRange (by decide) ⟨by omega, by omega⟩

/-- A fee's product on at most the reward stays in its word when the reward times 10000 does. -/
theorem fee_product_exact {a : Int} (hfee : 0 ≤ entry.poolFeeRate) (hfee' : entry.poolFeeRate ≤ 10000)
    (hreward : 0 ≤ blockReward) (hfeeProduct : blockReward * 10000 < 2 ^ 63) (ha : 0 ≤ a) (haR : a ≤ blockReward) :
    wrap 64 (a * entry.poolFeeRate) = a * entry.poolFeeRate := by
  have hle : a * entry.poolFeeRate ≤ blockReward * 10000 := Int.mul_le_mul haR hfee' hfee hreward
  have hnonneg := Int.mul_nonneg ha hfee
  exact SignedWord.wrap_of_inRange (by decide) ⟨by omega, by omega⟩

section Exact

variable (hstake : 0 < entry.stakeAmount) (hdelegated : 0 < entry.totalDelegated) (hfee : 0 ≤ entry.poolFeeRate)
  (hfee' : entry.poolFeeRate ≤ 10000) (hreward : 0 ≤ blockReward)
  (hproduct : blockReward * (entry.stakeAmount + entry.totalDelegated) < 2 ^ 63)
  (hfeeProduct : blockReward * 10000 < 2 ^ 63) (htotal : entry.stakeAmount + entry.totalDelegated < 2 ^ 63)
include hstake hdelegated hfee hfee' hreward hproduct hfeeProduct htotal

/-- **Within the bounds no operation of `CalculateValidatorReward` wraps.** -/
theorem calculateValidatorReward_exact :
    entry.calculateValidatorReward blockReward =
      (blockReward * entry.stakeAmount).tdiv (entry.stakeAmount + entry.totalDelegated) +
        ((blockReward - (blockReward * entry.stakeAmount).tdiv (entry.stakeAmount + entry.totalDelegated)) *
          entry.poolFeeRate).tdiv 10000 := by
  have htotal_pos : 0 < entry.stakeAmount + entry.totalDelegated := by omega
  unfold calculateValidatorReward
  rw [if_neg (Int.ne_of_gt hdelegated), getTotalStake_exact hstake.le hdelegated.le htotal,
    if_neg (Int.ne_of_gt htotal_pos)]
  dsimp only
  rw [share_product_exact hreward hproduct hstake.le (by omega)]
  -- the validator's share is at most the reward, so what is left of it and the fee on that stay in their words
  have hshare0 := Int.tdiv_nonneg (Int.mul_nonneg hreward hstake.le) htotal_pos.le
  have hshare := share_tdiv_le hreward hstake.le (by omega : entry.stakeAmount ≤ _) htotal_pos
  generalize (blockReward * entry.stakeAmount).tdiv (entry.stakeAmount + entry.totalDelegated) = share at *
  have hrest : wrap 64 (blockReward - share) = blockReward - share :=
    SignedWord.wrap_of_inRange (by decide) ⟨by omega, by omega⟩
  rw [hrest, fee_product_exact hfee hfee' hreward hfeeProduct (by omega) (by omega)]
  have hfee0 := Int.tdiv_nonneg (Int.mul_nonneg (by omega : 0 ≤ blockReward - share) hfee)
    (by decide : (0 : Int) ≤ 10000)
  have hfeeLe := fee_tdiv_le (by omega : 0 ≤ blockReward - share) hfee hfee' (by decide)
  exact SignedWord.wrap_of_inRange (by decide) ⟨by omega, by omega⟩

/-- **Within the bounds no operation of `CalculateDelegatorsReward` wraps.** -/
theorem calculateDelegatorsReward_exact :
    entry.calculateDelegatorsReward blockReward =
      (blockReward * entry.totalDelegated).tdiv (entry.stakeAmount + entry.totalDelegated) -
        ((blockReward * entry.totalDelegated).tdiv (entry.stakeAmount + entry.totalDelegated) *
          entry.poolFeeRate).tdiv 10000 := by
  have htotal_pos : 0 < entry.stakeAmount + entry.totalDelegated := by omega
  unfold calculateDelegatorsReward
  rw [if_neg (Int.ne_of_gt hdelegated), getTotalStake_exact hstake.le hdelegated.le htotal,
    if_neg (Int.ne_of_gt htotal_pos)]
  dsimp only
  rw [share_product_exact hreward hproduct hdelegated.le (by omega)]
  -- the delegators' share is at most the reward, so the fee on it stays in its word
  have hshare0 := Int.tdiv_nonneg (Int.mul_nonneg hreward hdelegated.le) htotal_pos.le
  have hshare := share_tdiv_le hreward hdelegated.le (by omega : entry.totalDelegated ≤ _) htotal_pos
  generalize (blockReward * entry.totalDelegated).tdiv (entry.stakeAmount + entry.totalDelegated) = share at *
  rw [fee_product_exact hfee hfee' hreward hfeeProduct hshare0 hshare]
  have hfee0 := Int.tdiv_nonneg (Int.mul_nonneg hshare0 hfee) (by decide : (0 : Int) ≤ 10000)
  have hfeeLe := fee_tdiv_le hshare0 hfee hfee' (by decide)
  exact SignedWord.wrap_of_inRange (by decide) ⟨by omega, by omega⟩

end Exact

variable (entry blockReward)

theorem calculateValidatorReward_undelegated (h : entry.totalDelegated = 0) :
    entry.calculateValidatorReward blockReward = blockReward := by
  simp [calculateValidatorReward, h]

theorem calculateDelegatorsReward_undelegated (h : entry.totalDelegated = 0) :
    entry.calculateDelegatorsReward blockReward = 0 := by
  simp [calculateDelegatorsReward, h]

/-- **The split pays the reward or one satoshi less**, and neither side is negative: for a positive stake,
non-negative delegations, a pool fee of at most 10000 basis points and a non-negative reward, while the total stake,
and the reward times the total stake and times 10000, stay below `2 ^ 63`. -/
theorem reward_split_within_satoshi (hstake : 0 < entry.stakeAmount) (hdelegated : 0 ≤ entry.totalDelegated)
    (hfee : 0 ≤ entry.poolFeeRate) (hfee' : entry.poolFeeRate ≤ 10000) (hreward : 0 ≤ blockReward)
    (htotal : entry.stakeAmount + entry.totalDelegated < 2 ^ 63)
    (hproduct : blockReward * (entry.stakeAmount + entry.totalDelegated) < 2 ^ 63)
    (hfeeProduct : blockReward * 10000 < 2 ^ 63) :
    0 ≤ entry.calculateValidatorReward blockReward ∧ 0 ≤ entry.calculateDelegatorsReward blockReward ∧
      blockReward - 1 ≤ entry.calculateValidatorReward blockReward + entry.calculateDelegatorsReward blockReward ∧
      entry.calculateValidatorReward blockReward + entry.calculateDelegatorsReward blockReward ≤ blockReward := by
  by_cases hzero : entry.totalDelegated = 0
  · rw [calculateValidatorReward_undelegated entry blockReward hzero,
      calculateDelegatorsReward_undelegated entry blockReward hzero]
    omega
  have hpos : 0 < entry.totalDelegated := lt_of_le_of_ne hdelegated (Ne.symm hzero)
  rw [calculateValidatorReward_exact hstake hpos hfee hfee' hreward hproduct hfeeProduct htotal,
    calculateDelegatorsReward_exact hstake hpos hfee hfee' hreward hproduct hfeeProduct htotal]
  have htotal_pos : 0 < entry.stakeAmount + entry.totalDelegated := by omega
  generalize htotal_eq : entry.stakeAmount + entry.totalDelegated = total at htotal_pos ⊢
  -- the two stake shares, each bracketed by its floor
  have hs := tdiv_mul_le (Int.mul_nonneg hreward hstake.le) htotal_pos
  have hs' := lt_tdiv_add_one_mul (Int.mul_nonneg hreward hstake.le) htotal_pos
  have hd := tdiv_mul_le (Int.mul_nonneg hreward hdelegated) htotal_pos
  have hd' := lt_tdiv_add_one_mul (Int.mul_nonneg hreward hdelegated) htotal_pos
  have hvs0 : 0 ≤ (blockReward * entry.stakeAmount).tdiv total :=
    Int.tdiv_nonneg (Int.mul_nonneg hreward hstake.le) htotal_pos.le
  have hds0 : 0 ≤ (blockReward * entry.totalDelegated).tdiv total :=
    Int.tdiv_nonneg (Int.mul_nonneg hreward hdelegated) htotal_pos.le
  generalize (blockReward * entry.stakeAmount).tdiv total = validatorShare at hs hs' hvs0 ⊢
  generalize (blockReward * entry.totalDelegated).tdiv total = delegatorsShare at hd hd' hds0 ⊢
  -- together the floored shares are the reward or one less
  have hsum_le : validatorShare + delegatorsShare ≤ blockReward :=
    Int.le_of_mul_le_mul_right (by rw [← htotal_eq] at hs hd ⊢; nlinarith) htotal_pos
  have hsum_ge : blockReward < validatorShare + delegatorsShare + 2 :=
    Int.lt_of_mul_lt_mul_right (by rw [← htotal_eq] at hs' hd' ⊢; nlinarith) htotal_pos.le
  -- the validator's fee base exceeds the delegators' share by that lost satoshi at most
  have hbase : delegatorsShare ≤ blockReward - validatorShare := by omega
  have hfee_lo := fee_tdiv_mono hds0 hbase hfee (by decide : (0 : Int) < 10000)
  have hfee_hi := fee_tdiv_add_le hds0 (by omega : 0 ≤ blockReward - validatorShare - delegatorsShare) hfee hfee'
    (by decide : (0 : Int) < 10000)
  rw [show delegatorsShare + (blockReward - validatorShare - delegatorsShare) = blockReward - validatorShare by omega]
    at hfee_hi
  have hfee_d := fee_tdiv_le hds0 hfee hfee' (by decide : (0 : Int) < 10000)
  have hfee_d0 := Int.tdiv_nonneg (Int.mul_nonneg hds0 hfee) (by decide : (0 : Int) ≤ 10000)
  omega

/-- Validator `1` with the minimum stake and as much again delegated to it, keeping no pool fee. -/
def evenSplitEntry : ValidatorEntry Nat Nat :=
  { validatorId := 1, validatorPubKey := 1, stakeAmount := Params.main.nMinValidatorStake,
    totalDelegated := Params.main.nMinValidatorStake }

/-- The bounds hold for the even split of the one-satoshi reward. -/
theorem reward_split_within_satoshi_at_one :
    0 < evenSplitEntry.stakeAmount ∧ 0 ≤ evenSplitEntry.totalDelegated ∧ 0 ≤ evenSplitEntry.poolFeeRate ∧
      evenSplitEntry.poolFeeRate ≤ 10000 ∧ (0 : Int) ≤ 1 ∧
      evenSplitEntry.stakeAmount + evenSplitEntry.totalDelegated < 2 ^ 63 ∧
      1 * (evenSplitEntry.stakeAmount + evenSplitEntry.totalDelegated) < 2 ^ 63 ∧ (1 : Int) * 10000 < 2 ^ 63 ∧
      (0 ≤ evenSplitEntry.calculateValidatorReward 1 ∧ 0 ≤ evenSplitEntry.calculateDelegatorsReward 1 ∧
        1 - 1 ≤ evenSplitEntry.calculateValidatorReward 1 + evenSplitEntry.calculateDelegatorsReward 1 ∧
        evenSplitEntry.calculateValidatorReward 1 + evenSplitEntry.calculateDelegatorsReward 1 ≤ 1) :=
  ⟨by decide, by decide, by decide, by decide, by decide, by decide, by decide, by decide,
    reward_split_within_satoshi evenSplitEntry 1 (by decide) (by decide) (by decide) (by decide) (by decide)
      (by decide) (by decide) (by decide)⟩

/-- **The split can lose a satoshi, and its products overflow `int64_t`**: the entry of validator `1`, whose stake
and delegations are both the minimum stake and whose total is far below `MAX_MONEY`, splits the reward of one
satoshi into nothing for either side; and the product `blockReward * stakeAmount` at the reward `MAX_MONEY` is at
least `2^63`. -/
theorem reward_split_loses_satoshi :
    Params.main.nMinValidatorStake ≤ evenSplitEntry.stakeAmount ∧ 0 ≤ evenSplitEntry.totalDelegated ∧
      evenSplitEntry.getTotalStake ≤ MAX_MONEY ∧ 0 ≤ evenSplitEntry.poolFeeRate ∧
      evenSplitEntry.poolFeeRate ≤ 10000 ∧
      evenSplitEntry.calculateValidatorReward 1 = 0 ∧ evenSplitEntry.calculateDelegatorsReward 1 = 0 ∧
      2 ^ 63 ≤ MAX_MONEY * evenSplitEntry.stakeAmount := by
  refine ⟨le_refl _, ?_, ?_, le_refl _, ?_, ?_, ?_, ?_⟩ <;> decide

end ValidatorEntry

end Validators
end Wattx
