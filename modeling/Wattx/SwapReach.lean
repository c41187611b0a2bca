import Wattx.ShareValue
/-!
# SwapReach — the states `WATTxSwap` reaches: their shape, and reserves that are zero together

`Swap.Reachable self senders` is every state the exchange at `self` reaches from its deployment by transactions whose
senders are in `senders`, the token ledgers starting anywhere.  An invariant of a single pool's pair needs only the
four ways a transaction writes a pool (`PoolStep`); `Reachable.pools` then carries it through every entry point and
every run.  Two invariants hold in all reachable states:

* `WellFormed`: a pool is listed once it is created, a pool never created was never written, and a created pool
  holds its two tokens in address order under the id of that order;
* `Pair.ZeroTogether` for every pool: both reserves are zero exactly when there are no LP units, so the
  first-provision branch of `addLiquidity` and the first-mint branch are taken together.  A partial burn leaves some of
  each reserve because `⌊l r / L⌋ < r` for `l < L`, a sale because its output is below the output reserve.

Every division the code makes is then by a nonzero value except `removeLiquidity`'s by `totalLiquidity`: burning
from a pool with no LP units, which any sender may try with `liquidity = 0`, panics with `0x12`
(`run_division`).
-/
namespace Wattx

open Checked ConstantProduct

namespace Pair

/-- Both reserves are zero exactly when there are no LP units. -/
def ZeroTogether (p : Pair) : Prop :=
  (p.reserve0 = 0 ↔ p.totalLiquidity = 0) ∧ (p.reserve1 = 0 ↔ p.totalLiquidity = 0)

variable {pair pair₁ pair' : Pair} {provider : Address} {liquidity amount0 amount1 : Nat}

theorem mint_deposit_zeroTogether {minimum : Nat} (hz : pair.ZeroTogether)
    (hm : Amm.mint minimum pair amount0 amount1 = .ok (liquidity, pair₁)) (hl : 0 < liquidity)
    (hd : pair₁.deposit provider liquidity amount0 amount1 = .ok pair') : pair'.ZeroTogether := by
  obtain ⟨hL, -, root, hroot, -, rfl, rfl⟩ | ⟨hL, h0, h1, -, -, -, rfl⟩ := Amm.mint_ok hm
  · -- the first deposit: the root is above the lock, so neither amount is zero
    have hprod : amount0 * amount1 ≠ 0 := by
      intro hp
      rw [hp, Amm.sqrt_zero, Except.ok.injEq] at hroot
      omega
    have ha := Nat.mul_ne_zero_iff.1 hprod
    have hr0 := hz.1.2 hL
    have hr1 := hz.2.2 hL
    obtain ⟨rfl, -⟩ := deposit_ok hd
    dsimp only [ZeroTogether]
    omega
  · obtain ⟨rfl, -⟩ := deposit_ok hd
    dsimp only [ZeroTogether]
    omega

theorem burn_withdraw_zeroTogether (hz : pair.ZeroTogether)
    (hb : Amm.burnAmounts pair liquidity = .ok (amount0, amount1))
    (hw : pair.withdraw provider liquidity amount0 amount1 = .ok pair') : pair'.ZeroTogether := by
  obtain ⟨hL, -, -, rfl, rfl⟩ := Amm.burnAmounts_ok hb
  obtain ⟨rfl, -, hl, -, -⟩ := withdraw_ok hw
  have hr0 : 0 < pair.reserve0 := Nat.pos_of_ne_zero fun h => by have := hz.1.1 h; omega
  have hr1 : 0 < pair.reserve1 := Nat.pos_of_ne_zero fun h => by have := hz.2.1 h; omega
  dsimp only [ZeroTogether]
  rcases Nat.lt_or_eq_of_le hl with hlt | heq
  · -- a partial burn leaves some of each reserve
    have h0 := burnOut_lt hlt hr0
    have h1 := burnOut_lt hlt hr1
    omega
  · -- burning every unit pays both reserves out whole
    rw [heq, Nat.mul_div_cancel_left _ hL, Nat.mul_div_cancel_left _ hL]
    omega

theorem swapReserves_zeroTogether {isToken0In : Bool} {amountIn amountOut : Nat} (hz : pair.ZeroTogether)
    (h : pair.swapReserves isToken0In amountIn amountOut = .ok pair')
    (hout : amountOut < if isToken0In then pair.reserve1 else pair.reserve0) : pair'.ZeroTogether := by
  -- the output reserve held more than the output, so the pool had units and the input reserve held something
  obtain ⟨rfl, -, -, rfl⟩ | ⟨rfl, -, -, rfl⟩ := swapReserves_ok h
  · rw [if_pos rfl] at hout
    have hL : pair.totalLiquidity ≠ 0 := fun hL => by have := hz.2.2 hL; omega
    have hr0 : pair.reserve0 ≠ 0 := fun h0 => hL (hz.1.1 h0)
    dsimp only [ZeroTogether]
    omega
  · rw [if_neg Bool.false_ne_true] at hout
    have hL : pair.totalLiquidity ≠ 0 := fun hL => by have := hz.1.2 hL; omega
    have hr1 : pair.reserve1 ≠ 0 := fun h1 => hL (hz.2.1 h1)
    dsimp only [ZeroTogether]
    omega

end Pair

theorem SwapStorage.forall_setPool {P : Pool → Prop} {st : SwapStorage} {poolId : PoolId} {pool : Pool}
    (h : ∀ pid, P (st.pools pid)) (hp : P pool) (pid : PoolId) : P ((st.setPool poolId pool).pools pid) := by
  rw [SwapStorage.setPool_pools]
  split
  · exact hp
  · exact h pid

namespace Swap

/-- The states the exchange at `self` reaches from its deployment by transactions from `senders`. -/
def Reachable (self : Address) (senders : Set Address) : World SwapStorage → Prop :=
  Txn.Reachable (fun w => ∃ owner, w.storage = deploy owner)
    (fun w (c : senders × SwapCall) => SwapCall.run self w (c.1.1, c.2))

/-! ## The shape of the storage -/

/-- The shape of every reachable storage. -/
structure WellFormed (st : SwapStorage) : Prop where
  empty : ∀ pid, (st.pools pid).exists = false → st.pools pid = Pool.empty
  listed : ∀ pid, (st.pools pid).exists = true ↔ pid ∈ st.poolIds
  tokens : ∀ pid, (st.pools pid).exists = true →
    (st.pools pid).token0 = pid.1 ∧ (st.pools pid).token1 = pid.2 ∧ pid.1 < pid.2

theorem deploy_wellFormed (owner : Address) : WellFormed (deploy owner) where
  empty _ _ := rfl
  listed _ := by simp [deploy, Pool.empty]
  tokens _ h := by simp [deploy, Pool.empty] at h

variable {self msgSender : Address} {w w' : World SwapStorage}

theorem WellFormed.setPool {st : SwapStorage} {poolId : PoolId} {pair : Pair} (hw : WellFormed st)
    (hex : (st.pools poolId).exists = true) (ht : pair.token0 = (st.pools poolId).token0 ∧
      pair.token1 = (st.pools poolId).token1) :
    WellFormed (st.setPool poolId { st.pools poolId with toPair := pair }) where
  empty pid h := by
    rw [SwapStorage.setPool_pools] at h ⊢
    split
    · rename_i hp
      subst hp
      rw [if_pos rfl, hex] at h
      cases h
    · rw [if_neg ‹_›] at h
      exact hw.empty pid h
  listed pid := by
    rw [SwapStorage.setPool_pools, SwapStorage.setPool_poolIds]
    split
    · rename_i hp
      subst hp
      exact hw.listed pid
    · exact hw.listed pid
  tokens pid h := by
    rw [SwapStorage.setPool_pools] at h ⊢
    split
    · rename_i hp
      subst hp
      rw [ht.1, ht.2]
      exact hw.tokens pid hex
    · rw [if_neg ‹_›] at h
      exact hw.tokens pid h

theorem createPool_wellFormed {tokenA tokenB : Address} {poolId : PoolId}
    (h : createPool tokenA tokenB w = .ok (w', poolId)) (hw : WellFormed w.storage) : WellFormed w'.storage := by
  obtain ⟨hne, -, -, rfl, hex, -, hst⟩ := createPool_ok h
  have hempty := hw.empty _ hex
  have hnot : sortTokens tokenA tokenB ∉ w.storage.poolIds := fun hm => by
    rw [← hw.listed] at hm
    rw [hm] at hex
    cases hex
  rw [hst]
  refine ⟨fun pid hp => ?_, fun pid => ?_, fun pid hp => ?_⟩
  · simp only [SwapStorage.setPool_pools] at hp ⊢
    split at hp
    · cases hp
    · rw [if_neg ‹_›]
      exact hw.empty pid hp
  · simp only [SwapStorage.setPool_pools, List.mem_append, List.mem_singleton]
    split
    · rename_i hp
      simp [hp]
    · rename_i hp
      simp only [hp, or_false]
      exact hw.listed pid
  · simp only [SwapStorage.setPool_pools] at hp ⊢
    by_cases hp' : pid = sortTokens tokenA tokenB
    · subst hp'
      rw [if_pos rfl]
      refine ⟨rfl, rfl, ?_⟩
      rw [sortTokens_eq]
      dsimp only
      exact min_lt_max.2 hne
    · rw [if_neg hp'] at hp ⊢
      exact hw.tokens pid hp

theorem addLiquidity_wellFormed {tokenA tokenB : Address} {dA dB mA mB amountA amountB liquidity : Nat}
    (h : addLiquidity self msgSender tokenA tokenB dA dB mA mB w = .ok (w', amountA, amountB, liquidity))
    (hw : WellFormed w.storage) : WellFormed w'.storage := by
  obtain ⟨hex, -, _, _, _, _, _, _, -, -, -, hm, hd, -, hst⟩ := addLiquidity_ok h
  rw [hst]
  obtain ⟨h0, h1⟩ := Amm.mint_tokens hm
  obtain ⟨h0', h1'⟩ := Pair.deposit_tokens hd
  exact hw.setPool hex ⟨h0'.trans h0, h1'.trans h1⟩

theorem removeLiquidity_wellFormed {tokenA tokenB : Address} {liquidity mA mB amountA amountB : Nat}
    (h : removeLiquidity self msgSender tokenA tokenB liquidity mA mB w = .ok (w', amountA, amountB))
    (hw : WellFormed w.storage) : WellFormed w'.storage := by
  obtain ⟨hex, -, _, _, _, _, -, -, -, -, -, hwd, -, -, hst⟩ := removeLiquidity_ok h
  rw [hst]
  exact hw.setPool hex (Pair.withdraw_tokens hwd)

theorem swapExactTokensForTokens_wellFormed {tokenIn tokenOut : Address} {amountIn amountOutMin amountOut : Nat}
    (h : swapExactTokensForTokens self msgSender amountIn amountOutMin tokenIn tokenOut w = .ok (w', amountOut))
    (hw : WellFormed w.storage) : WellFormed w'.storage := by
  obtain ⟨hex, -, -, _, _, _, -, -, hsw, -, hst⟩ := swapExactTokensForTokens_ok h
  rw [hst]
  exact hw.setPool hex (Pair.swapReserves_tokens hsw)

theorem swapTokensForExactTokens_wellFormed {tokenIn tokenOut : Address} {amountOut amountInMax amountIn : Nat}
    (h : swapTokensForExactTokens self msgSender amountOut amountInMax tokenIn tokenOut w = .ok (w', amountIn))
    (hw : WellFormed w.storage) : WellFormed w'.storage := by
  obtain ⟨hex, -, -, _, _, _, -, -, hsw, -, hst⟩ := swapTokensForExactTokens_ok h
  rw [hst]
  exact hw.setPool hex (Pair.swapReserves_tokens hsw)

theorem run_wellFormed {c : SwapCall} (h : SwapCall.run self w (msgSender, c) = .ok w')
    (hw : WellFormed w.storage) : WellFormed w'.storage := by
  cases c with
  | createPool a b =>
    obtain ⟨⟨_, _⟩, hc, rfl⟩ := map_ok_iff.1 h
    exact createPool_wellFormed hc hw
  | addLiquidity a b da db ma mb =>
    obtain ⟨⟨_, _⟩, hc, rfl⟩ := map_ok_iff.1 h
    exact addLiquidity_wellFormed hc hw
  | removeLiquidity a b l ma mb =>
    obtain ⟨⟨_, _⟩, hc, rfl⟩ := map_ok_iff.1 h
    exact removeLiquidity_wellFormed hc hw
  | swapExactTokensForTokens i o a b =>
    obtain ⟨⟨_, _⟩, hc, rfl⟩ := map_ok_iff.1 h
    exact swapExactTokensForTokens_wellFormed hc hw
  | swapTokensForExactTokens o i a b =>
    obtain ⟨⟨_, _⟩, hc, rfl⟩ := map_ok_iff.1 h
    exact swapTokensForExactTokens_wellFormed hc hw

theorem Reachable.init {senders : Set Address} (owner : Address) (tokens : Address → Erc20) :
    Reachable self senders ⟨deploy owner, tokens⟩ :=
  Txn.Reachable.of_init ⟨owner, rfl⟩

theorem Reachable.step {senders : Set Address} {c : SwapCall} (h : Reachable self senders w)
    (hs : msgSender ∈ senders) (hc : SwapCall.run self w (msgSender, c) = .ok w') : Reachable self senders w' :=
  let ⟨w₀, h₀, hr⟩ := h
  ⟨w₀, h₀, hr.tail ⟨(⟨msgSender, hs⟩, c), hc⟩⟩

theorem Reachable.wellFormed {senders : Set Address} (h : Reachable self senders w) : WellFormed w.storage :=
  Txn.Reachable.inv (fun w => WellFormed w.storage)
    (fun _ ⟨owner, hw⟩ => hw ▸ deploy_wellFormed owner) (fun _ _ _ hw hc => run_wellFormed hc hw) h

/-! ## Invariants of every pool -/

/-- A property of a pool's pair that every write a transaction of `msgSender` makes to a pool keeps: creating the
pool writes its tokens, `addLiquidity` mints and deposits, `removeLiquidity` burns and withdraws, and a swap pays out
less than the output reserve. -/
structure PoolStep (msgSender : Address) (P : Pair → Prop) : Prop where
  create : ∀ {pair : Pair} (token0 token1 : Address), P pair → P { pair with token0, token1 }
  mintDeposit : ∀ {pair pair₁ pair' : Pair} {amount0 amount1 liquidity : Nat}, P pair →
    Amm.mint MINIMUM_LIQUIDITY pair amount0 amount1 = .ok (liquidity, pair₁) → 0 < liquidity →
    pair₁.deposit msgSender liquidity amount0 amount1 = .ok pair' → P pair'
  burnWithdraw : ∀ {pair pair' : Pair} {liquidity amount0 amount1 : Nat}, P pair →
    Amm.burnAmounts pair liquidity = .ok (amount0, amount1) →
    pair.withdraw msgSender liquidity amount0 amount1 = .ok pair' → P pair'
  swap : ∀ {pair pair' : Pair} {isToken0In : Bool} {amountIn amountOut : Nat}, P pair →
    amountOut < (if isToken0In then pair.reserve1 else pair.reserve0) →
    pair.swapReserves isToken0In amountIn amountOut = .ok pair' → P pair'

theorem getAmountOut_lt {amountIn reserveIn reserveOut amountOut : Nat}
    (h : getAmountOut amountIn reserveIn reserveOut = .ok amountOut) : amountOut < reserveOut := by
  obtain ⟨-, hx, hy, rfl⟩ := getAmountOut_ok h
  exact lt_of_sell hx hy (sellOut_mul_le (by decide) (Nat.sub_le _ _))

section
variable {P : Pair → Prop} (hP : PoolStep msgSender P)
include hP

theorem createPool_pools {tokenA tokenB : Address} {poolId : PoolId}
    (h : createPool tokenA tokenB w = .ok (w', poolId)) (hall : ∀ pid, P (w.storage.pools pid).toPair) :
    ∀ pid, P (w'.storage.pools pid).toPair := by
  obtain ⟨-, -, -, -, -, -, hst⟩ := createPool_ok h
  rw [hst]
  -- creating a pool writes its tokens and `exists`, nothing of its pair else
  exact @SwapStorage.forall_setPool (fun p => P p.toPair) _ _ _ hall (hP.create poolId.1 poolId.2 (hall poolId))

theorem addLiquidity_pools {tokenA tokenB : Address} {dA dB mA mB amountA amountB liquidity : Nat}
    (h : addLiquidity self msgSender tokenA tokenB dA dB mA mB w = .ok (w', amountA, amountB, liquidity))
    (hall : ∀ pid, P (w.storage.pools pid).toPair) : ∀ pid, P (w'.storage.pools pid).toPair := by
  obtain ⟨-, hl, _, _, _, _, _, _, -, -, -, hm, hd, -, hst⟩ := addLiquidity_ok h
  rw [hst]
  exact @SwapStorage.forall_setPool (fun p => P p.toPair) _ _ _ hall (hP.mintDeposit (hall _) hm hl hd)

theorem removeLiquidity_pools {tokenA tokenB : Address} {liquidity mA mB amountA amountB : Nat}
    (h : removeLiquidity self msgSender tokenA tokenB liquidity mA mB w = .ok (w', amountA, amountB))
    (hall : ∀ pid, P (w.storage.pools pid).toPair) : ∀ pid, P (w'.storage.pools pid).toPair := by
  obtain ⟨-, -, _, _, _, _, hb, -, -, -, -, hwd, -, -, hst⟩ := removeLiquidity_ok h
  rw [hst]
  exact @SwapStorage.forall_setPool (fun p => P p.toPair) _ _ _ hall (hP.burnWithdraw (hall _) hb hwd)

theorem swapExactTokensForTokens_pools {tokenIn tokenOut : Address} {amountIn amountOutMin amountOut : Nat}
    (h : swapExactTokensForTokens self msgSender amountIn amountOutMin tokenIn tokenOut w = .ok (w', amountOut))
    (hall : ∀ pid, P (w.storage.pools pid).toPair) : ∀ pid, P (w'.storage.pools pid).toPair := by
  obtain ⟨-, hout, -, _, _, _, -, -, hsw, -, hst⟩ := swapExactTokensForTokens_ok h
  -- the sale pays out less than the output reserve
  have hlt := getAmountOut_lt hout
  rw [hst]
  refine @SwapStorage.forall_setPool (fun p => P p.toPair) _ _ _ hall (hP.swap (hall _) ?_ hsw)
  simpa only [decide_eq_true_eq] using hlt

theorem swapTokensForExactTokens_pools {tokenIn tokenOut : Address} {amountOut amountInMax amountIn : Nat}
    (h : swapTokensForExactTokens self msgSender amountOut amountInMax tokenIn tokenOut w = .ok (w', amountIn))
    (hall : ∀ pid, P (w.storage.pools pid).toPair) : ∀ pid, P (w'.storage.pools pid).toPair := by
  obtain ⟨-, hin, -, _, _, _, -, -, hsw, -, hst⟩ := swapTokensForExactTokens_ok h
  -- a purchase is priced only for less than the output reserve
  obtain ⟨-, -, hlt, -⟩ := getAmountIn_ok hin
  rw [hst]
  refine @SwapStorage.forall_setPool (fun p => P p.toPair) _ _ _ hall (hP.swap (hall _) ?_ hsw)
  simpa only [decide_eq_true_eq] using hlt

theorem run_pools {c : SwapCall} (h : SwapCall.run self w (msgSender, c) = .ok w')
    (hall : ∀ pid, P (w.storage.pools pid).toPair) : ∀ pid, P (w'.storage.pools pid).toPair := by
  cases c with
  | createPool a b =>
    obtain ⟨⟨_, _⟩, hc, rfl⟩ := map_ok_iff.1 h
    exact createPool_pools hP hc hall
  | addLiquidity a b da db ma mb =>
    obtain ⟨⟨_, _⟩, hc, rfl⟩ := map_ok_iff.1 h
    exact addLiquidity_pools hP hc hall
  | removeLiquidity a b l ma mb =>
    obtain ⟨⟨_, _⟩, hc, rfl⟩ := map_ok_iff.1 h
    exact removeLiquidity_pools hP hc hall
  | swapExactTokensForTokens i o a b =>
    obtain ⟨⟨_, _⟩, hc, rfl⟩ := map_ok_iff.1 h
    exact swapExactTokensForTokens_pools hP hc hall
  | swapTokensForExactTokens o i a b =>
    obtain ⟨⟨_, _⟩, hc, rfl⟩ := map_ok_iff.1 h
    exact swapTokensForExactTokens_pools hP hc hall

end

/-- **A property of pairs that the empty pool has and every sender's writes keep holds of every pool of every
reachable state.** -/
theorem Reachable.pools {senders : Set Address} {P : Pair → Prop} (hP : ∀ s ∈ senders, PoolStep s P)
    (h₀ : P Pool.empty.toPair) (h : Reachable self senders w) : ∀ pid, P (w.storage.pools pid).toPair :=
  Txn.Reachable.inv (fun w => ∀ pid, P (w.storage.pools pid).toPair)
    (fun w ⟨owner, hw⟩ _ => by rw [hw]; exact h₀)
    (fun _ c _ hall hc => run_pools (hP c.1.1 c.1.2) hc hall) h

/-! ## Reserves and units zero together -/

/-- Every pool's reserves and LP units are zero together. -/
def AllZeroTogether (st : SwapStorage) : Prop := ∀ pid, (st.pools pid).ZeroTogether

theorem zeroTogether_poolStep (msgSender : Address) : PoolStep msgSender Pair.ZeroTogether where
  create _ _ hz := hz
  mintDeposit hz hm hl hd := Pair.mint_deposit_zeroTogether hz hm hl hd
  burnWithdraw hz hb hw := Pair.burn_withdraw_zeroTogether hz hb hw
  swap hz hout hsw := Pair.swapReserves_zeroTogether hz hsw hout

theorem Reachable.zeroTogether {senders : Set Address} (h : Reachable self senders w) : AllZeroTogether w.storage :=
  h.pools (fun s _ => zeroTogether_poolStep s) ⟨Iff.rfl, Iff.rfl⟩

/-! ## Divisions -/

theorem getAmountOut_ne_division {amountIn reserveIn reserveOut : Nat} :
    getAmountOut amountIn reserveIn reserveOut ≠ .error (.panic divisionPanic) := by
  intro h
  simp only [getAmountOut, bind_error_iff, require_ne_panic, require_ok_iff, false_or] at h
  obtain ⟨_, hin, _, -, hq⟩ := h
  exact Amm.quoteOut_ne_division hin (by decide) hq

theorem getAmountIn_ne_division {amountOut reserveIn reserveOut : Nat} :
    getAmountIn amountOut reserveIn reserveOut ≠ .error (.panic divisionPanic) := by
  intro h
  simp only [getAmountIn, bind_error_iff, require_ne_panic, require_ok_iff, mul_ne_division, sub_ne_division,
    add_ne_division, mul_ok_iff, sub_ok_iff, and_false, exists_false, or_false, false_or] at h
  obtain ⟨_, -, _, -, _, hlt, _, ⟨-, rfl⟩, _, ⟨-, rfl⟩, _, ⟨-, rfl⟩, _, ⟨-, rfl⟩, hd⟩ := h
  -- the divisor is what is left of the output reserve, scaled by the fee, and the output is below the reserve
  have hpos : 0 < (reserveOut - amountOut) * (BPS_DENOMINATOR - FEE_BPS) :=
    Nat.mul_pos (Nat.sub_pos_of_lt hlt) (by decide)
  have := ((div_error_iff _ _ _).1 hd).1
  omega

theorem addLiquidityAmounts_ne_division {pool : Pool} {amount0Desired amount1Desired amount0Min amount1Min : Nat}
    (hz : pool.reserve0 = 0 ↔ pool.reserve1 = 0) :
    addLiquidityAmounts pool amount0Desired amount1Desired amount0Min amount1Min ≠ .error (.panic divisionPanic) := by
  unfold addLiquidityAmounts
  split
  · simp
  · rename_i hboth
    -- the pool is not empty, so neither reserve is zero
    have hr0 : pool.reserve0 ≠ 0 := fun h0 => hboth ⟨h0, hz.1 h0⟩
    have hr1 : pool.reserve1 ≠ 0 := fun h1 => hboth ⟨hz.2 h1, h1⟩
    intro h
    simp only [bind_error_iff, mul_ne_division, mul_ok_iff, false_or] at h
    obtain ⟨_, -, hd | ⟨_, -, h⟩⟩ := h
    · exact hr0 ((div_error_iff _ _ _).1 hd).1
    · split at h
      · simp only [bind_error_iff, require_ne_panic, pure, Except.pure, reduceCtorEq, and_false, exists_false,
          or_false] at h
      · simp only [bind_error_iff, mul_ne_division, mul_ok_iff, div_error_iff, hr1, false_and, require_ne_panic,
          pure, Except.pure, reduceCtorEq, and_false, exists_false, or_false] at h

theorem createPool_ne_division {tokenA tokenB : Address} :
    createPool tokenA tokenB w ≠ .error (.panic divisionPanic) := by
  simp only [createPool, ne_eq, bind_error_iff, require_ne_panic, pure, Except.pure, reduceCtorEq, and_false,
    exists_false, or_false, not_false_eq_true]

/-- `addLiquidity` divides only by reserves and units that the pool's zero-together shape keeps nonzero. -/
theorem addLiquidity_ne_division {tokenA tokenB : Address} {dA dB mA mB : Nat}
    (hz : (w.storage.pools (getPoolId tokenA tokenB)).ZeroTogether) :
    addLiquidity self msgSender tokenA tokenB dA dB mA mB w ≠ .error (.panic divisionPanic) := by
  have hamt := @addLiquidityAmounts_ne_division (w.storage.pools (getPoolId tokenA tokenB))
  have hmint := @Amm.mint_ne_division MINIMUM_LIQUIDITY (w.storage.pools (getPoolId tokenA tokenB)).toPair
  simp only [ne_eq, addLiquidity, bind_error_iff, require_ne_panic, World.callTransferFrom_ne_panic,
    Pair.deposit_ne_division, hamt (hz.1.trans hz.2.symm), hmint (fun hL => ⟨mt hz.1.1 hL, mt hz.2.1 hL⟩), pure,
    Except.pure, reduceCtorEq, and_false, exists_false, or_false, not_false_eq_true]

/-- `removeLiquidity` panics on a division only for a pool with no LP units. -/
theorem removeLiquidity_division {tokenA tokenB : Address} {liquidity mA mB : Nat}
    (h : removeLiquidity self msgSender tokenA tokenB liquidity mA mB w = .error (.panic divisionPanic)) :
    (w.storage.pools (getPoolId tokenA tokenB)).totalLiquidity = 0 := by
  simp only [removeLiquidity, bind_error_iff, require_ne_panic, World.callTransfer_ne_panic,
    Pair.withdraw_ne_division, pure, Except.pure, reduceCtorEq, and_false, exists_false, or_false, false_or] at h
  obtain ⟨_, -, _, -, hb⟩ := h
  exact Amm.burnAmounts_division hb

theorem swapExactTokensForTokens_ne_division {tokenIn tokenOut : Address} {amountIn amountOutMin : Nat} :
    swapExactTokensForTokens self msgSender amountIn amountOutMin tokenIn tokenOut w ≠
      .error (.panic divisionPanic) := by
  simp only [swapExactTokensForTokens, ne_eq, bind_error_iff, require_ne_panic, getAmountOut_ne_division,
    World.callTransferFrom_ne_panic, World.callTransfer_ne_panic, Pair.swapReserves_ne_division, pure, Except.pure,
    reduceCtorEq, and_false, exists_false, or_false, not_false_eq_true]

theorem swapTokensForExactTokens_ne_division {tokenIn tokenOut : Address} {amountOut amountInMax : Nat} :
    swapTokensForExactTokens self msgSender amountOut amountInMax tokenIn tokenOut w ≠
      .error (.panic divisionPanic) := by
  simp only [swapTokensForExactTokens, ne_eq, bind_error_iff, require_ne_panic, getAmountIn_ne_division,
    World.callTransferFrom_ne_panic, World.callTransfer_ne_panic, Pair.swapReserves_ne_division, pure, Except.pure,
    reduceCtorEq, and_false, exists_false, or_false, not_false_eq_true]

/-- **Only a burn from a pool with no LP units divides by zero**: from a state whose pools are zero together, a call
that panics with `0x12` is a `removeLiquidity` on a pool whose `totalLiquidity` is zero. -/
theorem run_division {c : SwapCall} (hz : AllZeroTogether w.storage)
    (h : SwapCall.run self w (msgSender, c) = .error (.panic divisionPanic)) :
    ∃ tokenA tokenB liquidity amountAMin amountBMin,
      c = .removeLiquidity tokenA tokenB liquidity amountAMin amountBMin ∧
        (w.storage.pools (getPoolId tokenA tokenB)).totalLiquidity = 0 := by
  cases c with
  | createPool a b => exact absurd (map_error_iff.1 h) createPool_ne_division
  | addLiquidity a b da db ma mb => exact absurd (map_error_iff.1 h) (addLiquidity_ne_division (hz _))
  | removeLiquidity a b l ma mb => exact ⟨a, b, l, ma, mb, rfl, removeLiquidity_division (map_error_iff.1 h)⟩
  | swapExactTokensForTokens i o a b => exact absurd (map_error_iff.1 h) swapExactTokensForTokens_ne_division
  | swapTokensForExactTokens o i a b => exact absurd (map_error_iff.1 h) swapTokensForExactTokens_ne_division

/-- **In every reachable state each pool's reserves and LP units are zero together, and a division by zero is only
ever a burn from a pool with no LP units**, whoever sends the transactions. -/
theorem reserves_zero_together {self : Address} {senders : Set Address} {w : World SwapStorage}
    (hw : Reachable self senders w) :
    (∀ pid, ((w.storage.pools pid).reserve0 = 0 ↔ (w.storage.pools pid).reserve1 = 0) ∧
      ((w.storage.pools pid).reserve1 = 0 ↔ (w.storage.pools pid).totalLiquidity = 0)) ∧
    ∀ msgSender c, SwapCall.run self w (msgSender, c) = .error (.panic divisionPanic) →
      ∃ tokenA tokenB liquidity amountAMin amountBMin,
        c = .removeLiquidity tokenA tokenB liquidity amountAMin amountBMin ∧
          (w.storage.pools (getPoolId tokenA tokenB)).totalLiquidity = 0 := by
  have hz := hw.zeroTogether
  refine ⟨fun pid => ⟨(hz pid).1.trans (hz pid).2.symm, (hz pid).2⟩, fun msgSender c h => ?_⟩
  exact run_division hz h

/-- A state reached by creating the pool of tokens `1` and `2` and funding it with 2000 of each. -/
theorem reserves_zero_together_after_funding :
    ∃ w, Reachable 9 Set.univ w ∧ (w.storage.pools (1, 2)).totalLiquidity = 1000 ∧
      ((∀ pid, ((w.storage.pools pid).reserve0 = 0 ↔ (w.storage.pools pid).reserve1 = 0) ∧
        ((w.storage.pools pid).reserve1 = 0 ↔ (w.storage.pools pid).totalLiquidity = 0)) ∧
      ∀ msgSender c, SwapCall.run 9 w (msgSender, c) = .error (.panic divisionPanic) →
        ∃ tokenA tokenB liquidity amountAMin amountBMin,
          c = .removeLiquidity tokenA tokenB liquidity amountAMin amountBMin ∧
            (w.storage.pools (getPoolId tokenA tokenB)).totalLiquidity = 0) := by
  have hw := ((Reachable.init 5 demoTokens).step (Set.mem_univ 5)
    (show SwapCall.run 9 _ (5, .createPool 1 2) = _ from rfl)).step (Set.mem_univ 5)
    (show SwapCall.run 9 _ (5, .addLiquidity 1 2 2000 2000 0 0) = _ from rfl)
  exact ⟨_, hw, by decide, reserves_zero_together hw⟩

/-- **A burn of nothing from a pool that was created but never funded divides by zero.** -/
theorem removeLiquidity_unfunded_divides_by_zero :
    ∃ w, Reachable 9 Set.univ w ∧ (w.storage.pools (1, 2)).exists = true ∧
      (w.storage.pools (1, 2)).totalLiquidity = 0 ∧
      SwapCall.run 9 w (5, .removeLiquidity 1 2 0 0 0) = .error (.panic divisionPanic) :=
  ⟨_, (Reachable.init 5 demoTokens).step (Set.mem_univ 5) (show SwapCall.run 9 _ (5, .createPool 1 2) = _ from rfl),
    by decide, by decide, rfl⟩

end Swap
end Wattx
