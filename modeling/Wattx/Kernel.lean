import Wattx.OfflineStake
import Wattx.Retarget.Compact
/-!
# Kernel — the proof-of-stake kernel check (`pos.cpp`) and the wallet's stake cache

A block stakes the coin at `prevout`: its kernel hash, of the stake modifier of `pindexPrev`, the time of the coin's
block, the outpoint and the block time, must meet the target `nBits` weighted by the coin's value
(`CheckStakeKernelHash`).  Before the reduce-blocktime fork the target is multiplied by the value in 256 bits, which
wraps; from the fork on the hash is divided by the value instead, which throws on a zero value.  Every network sets
the fork at height `0`, so every block after genesis takes the division, and there a coin of value `v` accepts
exactly the hashes below `(target + 1) * v` (`checkStakeKernelHash_of_fork`).

`CheckKernel` finds the coin in the coins view, or else spent on the main chain, checks its maturity and loads its
block before it hashes.  The wallet keeps a stake cache of the time and value `CacheKernel` read for each of its
coins; `CheckKernel` given the cache hashes from it, and re-checks a success without it, since a deep reorg can leave
an entry stale.  A cache that `CacheKernel` filled from the view and chain at hand decides every prevout as the check
without a cache does (`checkKernel_of_agrees`), and a kernel the miner finds through `CheckKernelCache` in such a
cache passes that check (`checkKernelCache_of_agrees`).  So, with or without such a cache, `CheckKernel` accepts a
mature coin of the view exactly for the hashes below the target times its value: the chance to stake is proportional
to the amount staked (`checkKernel_of_fork`).
-/
namespace Wattx
namespace Kernel

/-- `Coin`, as the kernel check reads it: the output and the height of the block that created it. -/
structure Coin where
  out : CTxOut
  nHeight : Int
  deriving DecidableEq, Repr

/-- `Coin::IsSpent`: the output is null, which `CTxOut::IsNull` reads as the value `-1`. -/
def Coin.isSpent (coin : Coin) : Bool := coin.out.nValue == -1

/-- `CStakeCache` (`qtum/posutils.h`): the time of the block that created a coin, and the coin's value. -/
structure CStakeCache where
  blockFromTime : UInt32
  amount : Int
  deriving DecidableEq, Repr

/-- `pindexPrev` as the kernel check reads it: the chain back to genesis, the stake modifier of its tip, and the
`nTime` of the indexes of that chain. -/
structure StakeIndex where
  chain : Chain
  nStakeModifier : Nat
  nTime : BlockIndex → UInt32

/-- `ViewGetCoin`: `CCoinsViewCache::GetCoin` over the cached coins `view`, which hides a spent coin. -/
def viewGetCoin (view : COutPoint → Option Coin) (outpoint : COutPoint) : Option Coin :=
  match view outpoint with
  | some coin => if coin.isSpent then none else some coin
  | none => none

theorem viewGetCoin_unspent {view : COutPoint → Option Coin} {outpoint : COutPoint} {coin : Coin}
    (h : viewGetCoin view outpoint = some coin) : coin.isSpent = false := by
  unfold viewGetCoin at h
  split at h
  · split at h
    · cases h
    · rename_i hspent
      cases h
      simpa using hspent
  · cases h

/-- `arith_uint256(uint64_t)` of the `int64_t` value of a coin: the value modulo `2 ^ 64`. -/
def weightOf (nValueIn : Int) : Nat := (nValueIn % 2 ^ 64).toNat

theorem weightOf_of_moneyRange {nValueIn : Int} (hpos : 0 ≤ nValueIn) (hmoney : nValueIn ≤ MAX_MONEY) :
    weightOf nValueIn = nValueIn.toNat := by
  have hlt : nValueIn < 2 ^ 64 := lt_of_le_of_lt hmoney (by decide)
  rw [weightOf, Int.emod_eq_of_lt hpos hlt]

section Check

variable (p : Params) (stakeHash : Nat → UInt32 → COutPoint → UInt32 → Fin (2 ^ 256))

/-- `CheckStakeKernelHash`: whether the kernel hash `stakeHash` gives meets the weighted target; `none` where
`arith_uint256` throws on the division by a zero weight. -/
def checkStakeKernelHash (pindexPrev : StakeIndex) (nBits blockFromTime : UInt32) (prevoutValue : Int)
    (prevout : COutPoint) (nTimeBlock : UInt32) : Option Bool :=
  if nTimeBlock < blockFromTime then some false
  else
    let nHeight := pindexPrev.chain.tip.nHeight + 1
    let fNoBNOverflow := decide (nHeight ≥ p.nReduceBlocktimeHeight)
    let bnWeight := weightOf prevoutValue
    -- before the fork `bnTarget *= bnWeight` wraps at 256 bits
    let bnTarget := if fNoBNOverflow then Retarget.SetCompact nBits else Retarget.SetCompact nBits * bnWeight % 2 ^ 256
    let hashProofOfStake := (stakeHash pindexPrev.nStakeModifier blockFromTime prevout nTimeBlock).val
    if fNoBNOverflow then
      if bnWeight = 0 then none else some (decide (hashProofOfStake / bnWeight ≤ bnTarget))
    else some (decide (hashProofOfStake ≤ bnTarget))

/-- The entry `CacheKernel` makes of a coin, and the checks `CheckKernel` makes before it hashes: the coin is
`CoinbaseMaturity` blocks old at the new height and its block is an ancestor of `pindexPrev`. -/
def stakeEntry (pindexPrev : StakeIndex) (coinPrev : Coin) : Option CStakeCache :=
  let nHeight := pindexPrev.chain.tip.nHeight + 1
  if nHeight - coinPrev.nHeight < p.coinbaseMaturity nHeight then none
  else
    match pindexPrev.chain.getAncestor coinPrev.nHeight with
    | none => none
    | some blockFrom => some ⟨pindexPrev.nTime blockFrom, coinPrev.out.nValue⟩

/-- `CheckKernel` once it has the coin: mature, its block loaded, not spent, then the kernel hash. -/
def checkCoinKernel (pindexPrev : StakeIndex) (nBits nTimeBlock : UInt32) (prevout : COutPoint) (coinPrev : Coin) :
    Option Bool :=
  match stakeEntry p pindexPrev coinPrev with
  | none => some false
  | some stake =>
    if coinPrev.isSpent then some false
    else checkStakeKernelHash p stakeHash pindexPrev nBits stake.blockFromTime stake.amount prevout nTimeBlock

variable (spentCoin : COutPoint → Option Coin)

/-- `CheckKernel` on a prevout the cache does not hold, so also the overload without a cache: the coin from the view,
or else `GetSpentCoinFromMainChain` (`spentCoin`). -/
def checkKernelUncached (pindexPrev : StakeIndex) (nBits nTimeBlock : UInt32) (prevout : COutPoint)
    (view : COutPoint → Option Coin) : Option Bool :=
  match viewGetCoin view prevout with
  | some coinPrev => checkCoinKernel p stakeHash pindexPrev nBits nTimeBlock prevout coinPrev
  | none =>
    match spentCoin prevout with
    | some coinPrev => checkCoinKernel p stakeHash pindexPrev nBits nTimeBlock prevout coinPrev
    | none => some false

/-- `CheckKernel` with the stake cache `cache`: a cached coin is hashed from its entry, and a success is checked
again without the cache. -/
def checkKernel (pindexPrev : StakeIndex) (nBits nTimeBlock : UInt32) (prevout : COutPoint)
    (view : COutPoint → Option Coin) (cache : COutPoint → Option CStakeCache) : Option Bool :=
  match cache prevout with
  | none => checkKernelUncached p stakeHash spentCoin pindexPrev nBits nTimeBlock prevout view
  | some stake =>
    match checkStakeKernelHash p stakeHash pindexPrev nBits stake.blockFromTime stake.amount prevout nTimeBlock with
    | some true => checkKernelUncached p stakeHash spentCoin pindexPrev nBits nTimeBlock prevout view
    | verdict => verdict

/-- `CheckKernelCache`: the miner's check, from the cache alone. -/
def checkKernelCache (pindexPrev : StakeIndex) (nBits nTimeBlock : UInt32) (prevout : COutPoint)
    (cache : COutPoint → Option CStakeCache) : Option Bool :=
  match cache prevout with
  | some stake => checkStakeKernelHash p stakeHash pindexPrev nBits stake.blockFromTime stake.amount prevout nTimeBlock
  | none => some false

/-- `CacheKernel`: the entry of a coin the cache does not hold yet, when the view has it mature with its block. -/
def cacheKernel (cache : COutPoint → Option CStakeCache) (prevout : COutPoint) (pindexPrev : StakeIndex)
    (view : COutPoint → Option Coin) : COutPoint → Option CStakeCache :=
  if (cache prevout).isSome then cache
  else
    match viewGetCoin view prevout with
    | none => cache
    | some coinPrev =>
      match stakeEntry p pindexPrev coinPrev with
      | none => cache
      | some stake => Function.update cache prevout (some stake)

/-- The wallet's loop over its coins (`UpdateMinerStakeCache`, `CreateCoinStakeFromMine`): `CacheKernel` of each. -/
def cacheKernels (pindexPrev : StakeIndex) (view : COutPoint → Option Coin) :
    (COutPoint → Option CStakeCache) → List COutPoint → COutPoint → Option CStakeCache
  | cache, [] => cache
  | cache, prevout :: prevouts => cacheKernels pindexPrev view (cacheKernel p cache prevout pindexPrev view) prevouts

end Check

/-! ## The kernel from the fork on -/

section Fork

variable {p : Params} {stakeHash : Nat → UInt32 → COutPoint → UInt32 → Fin (2 ^ 256)} {pindexPrev : StakeIndex}

/-- From the fork on the hash is divided by the weight, and a zero weight throws. -/
theorem checkStakeKernelHash_after_fork (hfork : p.nReduceBlocktimeHeight ≤ pindexPrev.chain.tip.nHeight + 1)
    (nBits blockFromTime : UInt32) (prevoutValue : Int) (prevout : COutPoint) (nTimeBlock : UInt32) :
    checkStakeKernelHash p stakeHash pindexPrev nBits blockFromTime prevoutValue prevout nTimeBlock =
      if nTimeBlock < blockFromTime then some false
      else if weightOf prevoutValue = 0 then none
      else some (decide ((stakeHash pindexPrev.nStakeModifier blockFromTime prevout nTimeBlock).val /
        weightOf prevoutValue ≤ Retarget.SetCompact nBits)) := by
  have hge : pindexPrev.chain.tip.nHeight + 1 ≥ p.nReduceBlocktimeHeight := hfork
  simp only [checkStakeKernelHash, hge, decide_true, if_true]

theorem div_le_iff_lt_succ_mul {h w t : Nat} (hw : 0 < w) : h / w ≤ t ↔ h < (t + 1) * w := by
  rw [← Nat.lt_succ_iff, Nat.div_lt_iff_lt_mul hw]

/-- **From the fork on, a coin accepts exactly the hashes below the target times its value**: for a value in
`MoneyRange` other than `0`, the check passes when the block is not older than the coin's block and the kernel hash
is below `(SetCompact nBits + 1) * prevoutValue`, with no 256-bit wrap. -/
theorem checkStakeKernelHash_of_fork (hfork : p.nReduceBlocktimeHeight ≤ pindexPrev.chain.tip.nHeight + 1)
    (nBits blockFromTime : UInt32) {prevoutValue : Int} (hvalue : 0 < prevoutValue) (hmoney : prevoutValue ≤ MAX_MONEY)
    (prevout : COutPoint) (nTimeBlock : UInt32) :
    checkStakeKernelHash p stakeHash pindexPrev nBits blockFromTime prevoutValue prevout nTimeBlock =
      some (decide (blockFromTime ≤ nTimeBlock ∧ (stakeHash pindexPrev.nStakeModifier blockFromTime prevout nTimeBlock).val <
        (Retarget.SetCompact nBits + 1) * prevoutValue.toNat)) := by
  have hweight : weightOf prevoutValue = prevoutValue.toNat := weightOf_of_moneyRange hvalue.le hmoney
  have hpos : 0 < prevoutValue.toNat := by omega
  rw [checkStakeKernelHash_after_fork hfork, hweight, if_neg hpos.ne']
  by_cases ht : nTimeBlock < blockFromTime
  · have hnle : ¬blockFromTime ≤ nTimeBlock := UInt32.not_le.2 ht
    simp only [if_pos ht, hnle, false_and, decide_false]
  · have hle : blockFromTime ≤ nTimeBlock := UInt32.not_lt.1 ht
    simp only [if_neg ht, hle, true_and, div_le_iff_lt_succ_mul hpos]

end Fork

/-- `pindexPrev` at genesis: a chain of the genesis index alone, modifier and times `0`. -/
def genesisIndex : StakeIndex := ⟨⟨[⟨0, ⟨0, 0⟩⟩], List.cons_ne_nil _ _, rfl⟩, 0, fun _ => 0⟩

/-! ## The stake cache -/

section Cache

variable {p : Params} {stakeHash : Nat → UInt32 → COutPoint → UInt32 → Fin (2 ^ 256)}
  {spentCoin : COutPoint → Option Coin} {pindexPrev : StakeIndex} {view : COutPoint → Option Coin}

variable (p pindexPrev view) in
/-- Every entry of the cache is the one `CacheKernel` makes of the view's coin for `pindexPrev`. -/
def CacheAgrees (cache : COutPoint → Option CStakeCache) : Prop :=
  ∀ prevout stake, cache prevout = some stake →
    ∃ coinPrev, viewGetCoin view prevout = some coinPrev ∧ stakeEntry p pindexPrev coinPrev = some stake

theorem cacheAgrees_empty : CacheAgrees p pindexPrev view fun _ => none :=
  fun _ _ h => nomatch h

/-- `CacheKernel` adds only entries it read from the view. -/
theorem cacheKernel_agrees {cache : COutPoint → Option CStakeCache} (h : CacheAgrees p pindexPrev view cache)
    (prevout : COutPoint) : CacheAgrees p pindexPrev view (cacheKernel p cache prevout pindexPrev view) := by
  intro o stake hs
  unfold cacheKernel at hs
  split at hs
  · exact h o stake hs
  · cases hcoin : viewGetCoin view prevout with
    | none =>
      simp only [hcoin] at hs
      exact h o stake hs
    | some coinPrev =>
      cases hentry : stakeEntry p pindexPrev coinPrev with
      | none =>
        simp only [hcoin, hentry] at hs
        exact h o stake hs
      | some entry =>
        simp only [hcoin, hentry] at hs
        by_cases ho : o = prevout
        · subst ho
          rw [Function.update_self, Option.some.injEq] at hs
          exact ⟨coinPrev, hcoin, hs ▸ hentry⟩
        · rw [Function.update_of_ne ho] at hs
          exact h o stake hs

/-- The wallet's loop keeps the cache in agreement, entry by entry. -/
theorem cacheKernels_agrees : ∀ (prevouts : List COutPoint) {cache : COutPoint → Option CStakeCache},
    CacheAgrees p pindexPrev view cache → CacheAgrees p pindexPrev view (cacheKernels p pindexPrev view cache prevouts)
  | [], _, h => h
  | prevout :: prevouts, _, h => cacheKernels_agrees prevouts (cacheKernel_agrees h prevout)

theorem checkKernelUncached_of_entry {cache : COutPoint → Option CStakeCache} (h : CacheAgrees p pindexPrev view cache)
    {prevout : COutPoint} {stake : CStakeCache} (hc : cache prevout = some stake) (nBits nTimeBlock : UInt32) :
    checkKernelUncached p stakeHash spentCoin pindexPrev nBits nTimeBlock prevout view =
      checkStakeKernelHash p stakeHash pindexPrev nBits stake.blockFromTime stake.amount prevout nTimeBlock := by
  obtain ⟨coinPrev, hcoin, hentry⟩ := h prevout stake hc
  simp only [checkKernelUncached, hcoin, checkCoinKernel, hentry, viewGetCoin_unspent hcoin, Bool.false_eq_true,
    if_false]

/-- **An agreeing cache decides as no cache does.** -/
theorem checkKernel_of_agrees {cache : COutPoint → Option CStakeCache} (h : CacheAgrees p pindexPrev view cache)
    (nBits nTimeBlock : UInt32) (prevout : COutPoint) :
    checkKernel p stakeHash spentCoin pindexPrev nBits nTimeBlock prevout view cache =
      checkKernelUncached p stakeHash spentCoin pindexPrev nBits nTimeBlock prevout view := by
  cases hc : cache prevout with
  | none => simp only [checkKernel, hc]
  | some stake =>
    -- the cached hash and the uncached one are the same computation, so both branches give it
    simp only [checkKernel, hc, checkKernelUncached_of_entry h hc]
    split <;> simp_all

/-- **A kernel the miner finds in an agreeing cache passes the check without a cache.** -/
theorem checkKernelCache_of_agrees {cache : COutPoint → Option CStakeCache} (h : CacheAgrees p pindexPrev view cache)
    {nBits nTimeBlock : UInt32} {prevout : COutPoint}
    (hfound : checkKernelCache p stakeHash pindexPrev nBits nTimeBlock prevout cache = some true) :
    checkKernelUncached p stakeHash spentCoin pindexPrev nBits nTimeBlock prevout view = some true := by
  cases hc : cache prevout with
  | none => simp only [checkKernelCache, hc, Option.some.injEq, Bool.false_eq_true] at hfound
  | some stake =>
    rw [checkKernelUncached_of_entry h hc]
    simpa only [checkKernelCache, hc] using hfound

/-- **The wallet's stake cache never changes the kernel check**: after `CacheKernel` of any coins, from a cache that
agrees with the view and chain at hand (the empty one, say), `CheckKernel` with the cache decides every prevout as
the check without a cache does, and a kernel the miner finds through `CheckKernelCache` passes that check. -/
theorem stake_cache_agrees_with_check (prevouts : List COutPoint) {cache : COutPoint → Option CStakeCache}
    (h : CacheAgrees p pindexPrev view cache) (nBits nTimeBlock : UInt32) (prevout : COutPoint) :
    checkKernel p stakeHash spentCoin pindexPrev nBits nTimeBlock prevout view
        (cacheKernels p pindexPrev view cache prevouts) =
      checkKernelUncached p stakeHash spentCoin pindexPrev nBits nTimeBlock prevout view ∧
    (checkKernelCache p stakeHash pindexPrev nBits nTimeBlock prevout (cacheKernels p pindexPrev view cache prevouts) =
        some true → checkKernelUncached p stakeHash spentCoin pindexPrev nBits nTimeBlock prevout view = some true) := by
  have hrun := cacheKernels_agrees prevouts h
  exact ⟨checkKernel_of_agrees hrun nBits nTimeBlock prevout, checkKernelCache_of_agrees hrun⟩

/-- A view holding one coin of `COIN` at `⟨1, 0⟩`, created at genesis. -/
def oneCoinView (o : COutPoint) : Option Coin := if o = ⟨1, 0⟩ then some ⟨⟨COIN, []⟩, 0⟩ else none

theorem stake_cache_agrees_with_check_at_genesis :
    CacheAgrees Params.main genesisIndex oneCoinView (fun _ => none) ∧
      (checkKernel Params.main (fun _ _ _ _ => 5) (fun _ => none) genesisIndex 0x1d00ffff 1 ⟨1, 0⟩ oneCoinView
          (cacheKernels Params.main genesisIndex oneCoinView (fun _ => none) [⟨1, 0⟩, ⟨2, 0⟩]) =
        checkKernelUncached Params.main (fun _ _ _ _ => 5) (fun _ => none) genesisIndex 0x1d00ffff 1 ⟨1, 0⟩ oneCoinView ∧
      (checkKernelCache Params.main (fun _ _ _ _ => 5) genesisIndex 0x1d00ffff 1 ⟨1, 0⟩
          (cacheKernels Params.main genesisIndex oneCoinView (fun _ => none) [⟨1, 0⟩, ⟨2, 0⟩]) = some true →
        checkKernelUncached Params.main (fun _ _ _ _ => 5) (fun _ => none) genesisIndex 0x1d00ffff 1 ⟨1, 0⟩ oneCoinView =
          some true)) :=
  ⟨cacheAgrees_empty, stake_cache_agrees_with_check [⟨1, 0⟩, ⟨2, 0⟩] cacheAgrees_empty 0x1d00ffff 1 ⟨1, 0⟩⟩

/-! ## The check of a mature coin from the fork on -/

/-- The entry of a coin mature at the new height whose block is on the chain: its block's time and its value. -/
theorem stakeEntry_of_mature {coinPrev : Coin}
    (hmature :
      p.coinbaseMaturity (pindexPrev.chain.tip.nHeight + 1) ≤ pindexPrev.chain.tip.nHeight + 1 - coinPrev.nHeight)
    {blockFrom : BlockIndex} (hblock : pindexPrev.chain.getAncestor coinPrev.nHeight = some blockFrom) :
    stakeEntry p pindexPrev coinPrev = some ⟨pindexPrev.nTime blockFrom, coinPrev.out.nValue⟩ := by
  simp only [stakeEntry, if_neg (Int.not_lt.2 hmature), hblock]

/-- **From the fork on, `CheckKernel` accepts a mature coin exactly for the hashes below the target times its
value**: with a stake cache that agrees with the view and chain at hand, for a coin the view holds unspent, mature at
the new height, with its block on the chain and of a value in `MoneyRange` other than `0`, the check decides whether
the block is not older than the coin's block and the kernel hash is below `(SetCompact nBits + 1) * value`, with no
256-bit wrap.  This holds for every kernel hash function, stake modifier, `nBits`, prevout and time. -/
theorem checkKernel_of_fork {cache : COutPoint → Option CStakeCache} (h : CacheAgrees p pindexPrev view cache)
    (hfork : p.nReduceBlocktimeHeight ≤ pindexPrev.chain.tip.nHeight + 1) {prevout : COutPoint} {coinPrev : Coin}
    (hcoin : viewGetCoin view prevout = some coinPrev)
    (hmature :
      p.coinbaseMaturity (pindexPrev.chain.tip.nHeight + 1) ≤ pindexPrev.chain.tip.nHeight + 1 - coinPrev.nHeight)
    {blockFrom : BlockIndex} (hblock : pindexPrev.chain.getAncestor coinPrev.nHeight = some blockFrom)
    (hvalue : 0 < coinPrev.out.nValue) (hmoney : coinPrev.out.nValue ≤ MAX_MONEY) (nBits nTimeBlock : UInt32) :
    checkKernel p stakeHash spentCoin pindexPrev nBits nTimeBlock prevout view cache =
      some (decide (pindexPrev.nTime blockFrom ≤ nTimeBlock ∧
        (stakeHash pindexPrev.nStakeModifier (pindexPrev.nTime blockFrom) prevout nTimeBlock).val <
          (Retarget.SetCompact nBits + 1) * coinPrev.out.nValue.toNat)) := by
  -- the cache decides as the check without it, which finds the coin in the view and hashes its entry
  rw [checkKernel_of_agrees h, checkKernelUncached, hcoin]
  simp only [checkCoinKernel, stakeEntry_of_mature hmature hblock, viewGetCoin_unspent hcoin, Bool.false_eq_true,
    if_false]
  exact checkStakeKernelHash_of_fork hfork nBits _ hvalue hmoney prevout nTimeBlock

/-- Main with a one-block maturity, so that a coin of genesis stakes at height 1. -/
def oneBlockMaturity : Params := { Params.main with nCoinbaseMaturity := 1, nRBTCoinbaseMaturity := 1 }

theorem checkKernel_of_fork_at_genesis :
    CacheAgrees oneBlockMaturity genesisIndex oneCoinView (fun _ => none) ∧
      oneBlockMaturity.nReduceBlocktimeHeight ≤ genesisIndex.chain.tip.nHeight + 1 ∧
      viewGetCoin oneCoinView ⟨1, 0⟩ = some ⟨⟨COIN, []⟩, 0⟩ ∧
      oneBlockMaturity.coinbaseMaturity (genesisIndex.chain.tip.nHeight + 1) ≤
        genesisIndex.chain.tip.nHeight + 1 - 0 ∧
      genesisIndex.chain.getAncestor 0 = some ⟨0, ⟨0, 0⟩⟩ ∧ (0 : Int) < COIN ∧ COIN ≤ MAX_MONEY ∧
      checkKernel oneBlockMaturity (fun _ _ _ _ => 5) (fun _ => none) genesisIndex 0x1d00ffff 1 ⟨1, 0⟩ oneCoinView
          (fun _ => none) =
        some (decide (genesisIndex.nTime ⟨0, ⟨0, 0⟩⟩ ≤ 1 ∧
          (5 : Fin (2 ^ 256)).val < (Retarget.SetCompact 0x1d00ffff + 1) * COIN.toNat)) := by
  have hcoin : viewGetCoin oneCoinView ⟨1, 0⟩ = some ⟨⟨COIN, []⟩, 0⟩ := rfl
  have hblock : genesisIndex.chain.getAncestor (⟨⟨COIN, []⟩, 0⟩ : Coin).nHeight = some ⟨0, ⟨0, 0⟩⟩ :=
    rfl
  exact ⟨cacheAgrees_empty, by decide, hcoin, by decide, hblock, by decide, by decide,
    checkKernel_of_fork cacheAgrees_empty (by decide) hcoin (by decide) hblock (by decide) (by decide) 0x1d00ffff 1⟩

end Cache

end Kernel
end Wattx
