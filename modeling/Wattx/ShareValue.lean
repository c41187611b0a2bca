import Wattx.ConstantProduct
import Wattx.Swap
import Wattx.SimpleDex
/-!
# ShareValue — an LP unit never loses value, in either exchange

A pair's reserves per LP unit are worth `reserve0 * reserve1 / totalLiquidity ^ 2` in the pool's own measure, and no
successful call of `WATTxSwap` or `SimpleDEX` lowers that while the pair has LP units before and after
(`Pair.ShareValueGrows`).  A swap keeps the units and does not lower the product, because the price is floored
against the trader: a sale is paid at most `a y / (x + a)` and a purchase charged more than `x o / (y - o)`.  A
deposit mints at most the smaller proportional share and a burn pays at most the proportional amounts, so each reserve
moves at least in proportion to the units.  Each fact is `ConstantProduct`'s, read off the `_ok` lemmas of the
operation; the exchanges then only say which pair an entry point wrote.
-/
namespace Wattx

open ConstantProduct Checked

namespace Pair

/-- The product of the reserves per LP unit squared does not fall from `p` to `p'` while both have LP units. -/
def ShareValueGrows (p p' : Pair) : Prop :=
  0 < p.totalLiquidity → 0 < p'.totalLiquidity →
    Grows p.reserve0 p.reserve1 p.totalLiquidity p'.reserve0 p'.reserve1 p'.totalLiquidity

theorem ShareValueGrows.of_eq {p p' : Pair} (h0 : p'.reserve0 = p.reserve0) (h1 : p'.reserve1 = p.reserve1)
    (hL : p'.totalLiquidity = p.totalLiquidity) : ShareValueGrows p p' := by
  intro _ _
  rw [h0, h1, hL]
  exact Grows.refl _ _ _

variable {pair pair₁ pair' : Pair} {provider : Address} {liquidity amount0 amount1 : Nat}

/-- A deposit into a pair that has LP units mints at most each side's proportional share. -/
theorem mint_deposit_grows {minimum : Nat} (hm : Amm.mint minimum pair amount0 amount1 = .ok (liquidity, pair₁))
    (hd : pair₁.deposit provider liquidity amount0 amount1 = .ok pair') : ShareValueGrows pair pair' := by
  intro hL _
  obtain ⟨hL0, -⟩ | ⟨-, -, -, -, -, rfl, hp⟩ := Amm.mint_ok hm
  · omega
  rw [hp] at hd
  obtain ⟨rfl, -⟩ := Pair.deposit_ok hd
  -- the minted units are at most each side's share, so each reserve grows at least in proportion
  have h0 := mul_le_of_le_div (min_le_left (amount0 * pair.totalLiquidity / pair.reserve0)
    (amount1 * pair.totalLiquidity / pair.reserve1))
  have h1 := mul_le_of_le_div (min_le_right (amount0 * pair.totalLiquidity / pair.reserve0)
    (amount1 * pair.totalLiquidity / pair.reserve1))
  exact Grows.of_proportional (mint_proportional h0) (mint_proportional h1)

theorem burn_withdraw_grows (hb : Amm.burnAmounts pair liquidity = .ok (amount0, amount1))
    (hw : pair.withdraw provider liquidity amount0 amount1 = .ok pair') : ShareValueGrows pair pair' := by
  intro _ _
  obtain ⟨-, -, -, rfl, rfl⟩ := Amm.burnAmounts_ok hb
  obtain ⟨rfl, -⟩ := Pair.withdraw_ok hw
  exact Grows.of_proportional (burn_proportional (Nat.div_mul_le_self _ _))
    (burn_proportional (Nat.div_mul_le_self _ _))

/-- A swap keeps the LP units; it keeps the product when its price is at least the exact one on the side that comes
in. -/
theorem swapReserves_grows {isToken0In : Bool} {amountIn amountOut : Nat}
    (h : pair.swapReserves isToken0In amountIn amountOut = .ok pair')
    (hprice : ∀ x y, x = (if isToken0In then pair.reserve0 else pair.reserve1) →
      y = (if isToken0In then pair.reserve1 else pair.reserve0) → x * y ≤ (x + amountIn) * (y - amountOut)) :
    ShareValueGrows pair pair' := by
  intro _ _
  obtain ⟨rfl, -, -, rfl⟩ | ⟨rfl, -, -, rfl⟩ := Pair.swapReserves_ok h
  · exact Grows.of_product_le (hprice _ _ rfl rfl) _
  · have := hprice _ _ rfl rfl
    simp only [Bool.false_eq_true, if_false] at this
    exact Grows.of_product_le (by rw [Nat.mul_comm pair.reserve0, Nat.mul_comm (pair.reserve0 - amountOut)]; exact this) _

end Pair

namespace Amm

/-- A sale at the quoted output keeps the product, whatever the fee. -/
theorem quoteOut_price {bps feeBps amountIn reserveIn reserveOut amountOut : Nat} (hfee : feeBps < bps)
    (h : quoteOut bps feeBps amountIn reserveIn reserveOut = .ok amountOut) (hle : amountOut ≤ reserveOut) :
    reserveIn * reserveOut ≤ (reserveIn + amountIn) * (reserveOut - amountOut) := by
  obtain ⟨-, rfl⟩ := quoteOut_ok h
  exact sell_product_le hle (sellOut_mul_le (Nat.sub_pos_of_lt hfee) (Nat.sub_le _ _))

end Amm

/-! ## WATTxSwap -/

namespace Swap

variable {self msgSender : Address} {w w' : World SwapStorage}

theorem setPool_grows {poolId : PoolId} {pair : Pair}
    (hst : w'.storage = w.storage.setPool poolId { w.storage.pools poolId with toPair := pair })
    (hg : Pair.ShareValueGrows (w.storage.pools poolId).toPair pair) (pid : PoolId) :
    Pair.ShareValueGrows (w.storage.pools pid).toPair (w'.storage.pools pid).toPair := by
  rw [hst, SwapStorage.setPool_pools]
  split
  · subst pid
    exact hg
  · exact Pair.ShareValueGrows.of_eq rfl rfl rfl

theorem getAmountOut_price {amountIn reserveIn reserveOut amountOut : Nat}
    (h : getAmountOut amountIn reserveIn reserveOut = .ok amountOut) (hle : amountOut ≤ reserveOut) :
    reserveIn * reserveOut ≤ (reserveIn + amountIn) * (reserveOut - amountOut) := by
  simp only [getAmountOut, bind_ok_iff, require_ok_iff] at h
  obtain ⟨_, -, _, -, hq⟩ := h
  exact Amm.quoteOut_price (by decide) hq hle

theorem getAmountIn_price {amountOut reserveIn reserveOut amountIn : Nat}
    (h : getAmountIn amountOut reserveIn reserveOut = .ok amountIn) :
    reserveIn * reserveOut ≤ (reserveIn + amountIn) * (reserveOut - amountOut) := by
  obtain ⟨-, -, hlt, rfl⟩ := getAmountIn_ok h
  -- the charge is above the exact price `reserveIn * amountOut / (reserveOut - amountOut)`
  have hgt : reserveIn * amountOut < (reserveIn * amountOut * BPS_DENOMINATOR /
      ((reserveOut - amountOut) * (BPS_DENOMINATOR - FEE_BPS)) + 1) * (reserveOut - amountOut) :=
    buyIn_mul_gt (by decide) (Nat.sub_le _ _) (Nat.sub_pos_of_lt hlt)
  exact buy_product_le hlt.le hgt.le

theorem createPool_grows {tokenA tokenB : Address} {poolId : PoolId} (h : createPool tokenA tokenB w = .ok (w', poolId))
    (pid : PoolId) : Pair.ShareValueGrows (w.storage.pools pid).toPair (w'.storage.pools pid).toPair := by
  obtain ⟨-, -, -, -, -, -, hst⟩ := createPool_ok h
  rw [hst]
  simp only [SwapStorage.setPool_pools]
  split
  · subst pid
    exact Pair.ShareValueGrows.of_eq rfl rfl rfl
  · exact Pair.ShareValueGrows.of_eq rfl rfl rfl

theorem addLiquidity_grows {tokenA tokenB : Address} {dA dB mA mB amountA amountB liquidity : Nat}
    (h : addLiquidity self msgSender tokenA tokenB dA dB mA mB w = .ok (w', amountA, amountB, liquidity))
    (pid : PoolId) : Pair.ShareValueGrows (w.storage.pools pid).toPair (w'.storage.pools pid).toPair := by
  obtain ⟨-, -, _, _, _, _, _, _, -, -, -, hm, hd, -, hst⟩ := addLiquidity_ok h
  exact setPool_grows hst (Pair.mint_deposit_grows hm hd) pid

theorem removeLiquidity_grows {tokenA tokenB : Address} {liquidity mA mB amountA amountB : Nat}
    (h : removeLiquidity self msgSender tokenA tokenB liquidity mA mB w = .ok (w', amountA, amountB))
    (pid : PoolId) : Pair.ShareValueGrows (w.storage.pools pid).toPair (w'.storage.pools pid).toPair := by
  obtain ⟨-, -, _, _, _, _, hb, -, -, -, -, hw, -, -, hst⟩ := removeLiquidity_ok h
  exact setPool_grows hst (Pair.burn_withdraw_grows hb hw) pid

/-- Both swaps, given the price the entry point computed keeps the product on the side that comes in. -/
theorem swap_grows {tokenIn tokenOut : Address} {amountIn amountOut : Nat} {pair : Pair}
    (hsw : (w.storage.pools (getPoolId tokenIn tokenOut)).swapReserves (decide (tokenIn < tokenOut)) amountIn amountOut =
      .ok pair)
    (hprice : amountOut ≤ (if tokenIn < tokenOut then (w.storage.pools (getPoolId tokenIn tokenOut)).reserve1
        else (w.storage.pools (getPoolId tokenIn tokenOut)).reserve0) →
      (if tokenIn < tokenOut then (w.storage.pools (getPoolId tokenIn tokenOut)).reserve0
        else (w.storage.pools (getPoolId tokenIn tokenOut)).reserve1) *
      (if tokenIn < tokenOut then (w.storage.pools (getPoolId tokenIn tokenOut)).reserve1
        else (w.storage.pools (getPoolId tokenIn tokenOut)).reserve0) ≤
      ((if tokenIn < tokenOut then (w.storage.pools (getPoolId tokenIn tokenOut)).reserve0
        else (w.storage.pools (getPoolId tokenIn tokenOut)).reserve1) + amountIn) *
      ((if tokenIn < tokenOut then (w.storage.pools (getPoolId tokenIn tokenOut)).reserve1
        else (w.storage.pools (getPoolId tokenIn tokenOut)).reserve0) - amountOut))
    (hst : w'.storage = w.storage.setPool (getPoolId tokenIn tokenOut)
      { w.storage.pools (getPoolId tokenIn tokenOut) with toPair := pair }) (pid : PoolId) :
    Pair.ShareValueGrows (w.storage.pools pid).toPair (w'.storage.pools pid).toPair := by
  refine setPool_grows hst (Pair.swapReserves_grows hsw fun x y hx hy => ?_) pid
  -- the output the swap paid is at most the output reserve, which the reserve update checked
  have hle : amountOut ≤ (if tokenIn < tokenOut then (w.storage.pools (getPoolId tokenIn tokenOut)).reserve1
      else (w.storage.pools (getPoolId tokenIn tokenOut)).reserve0) := by
    obtain ⟨hd, -, hle, -⟩ | ⟨hd, -, hle, -⟩ := Pair.swapReserves_ok hsw
    · rw [if_pos (of_decide_eq_true hd)]
      exact hle
    · rw [if_neg (of_decide_eq_false hd)]
      exact hle
  subst hx hy
  simpa only [decide_eq_true_eq] using hprice hle

theorem swapExactTokensForTokens_grows {tokenIn tokenOut : Address} {amountIn amountOutMin amountOut : Nat}
    (h : swapExactTokensForTokens self msgSender amountIn amountOutMin tokenIn tokenOut w = .ok (w', amountOut))
    (pid : PoolId) : Pair.ShareValueGrows (w.storage.pools pid).toPair (w'.storage.pools pid).toPair := by
  obtain ⟨-, hout, -, _, _, _, -, -, hsw, -, hst⟩ := swapExactTokensForTokens_ok h
  exact swap_grows hsw (getAmountOut_price hout) hst pid

theorem swapTokensForExactTokens_grows {tokenIn tokenOut : Address} {amountOut amountInMax amountIn : Nat}
    (h : swapTokensForExactTokens self msgSender amountOut amountInMax tokenIn tokenOut w = .ok (w', amountIn))
    (pid : PoolId) : Pair.ShareValueGrows (w.storage.pools pid).toPair (w'.storage.pools pid).toPair := by
  obtain ⟨-, hin, -, _, _, _, -, -, hsw, -, hst⟩ := swapTokensForExactTokens_ok h
  exact swap_grows hsw (fun _ => getAmountIn_price hin) hst pid

/-- Every transaction to `WATTxSwap` keeps every pool's value per LP unit from falling. -/
theorem run_grows {msgSender : Address} {c : SwapCall} (h : SwapCall.run self w (msgSender, c) = .ok w')
    (pid : PoolId) : Pair.ShareValueGrows (w.storage.pools pid).toPair (w'.storage.pools pid).toPair := by
  cases c with
  | createPool a b =>
    obtain ⟨⟨_, _⟩, hc, rfl⟩ := map_ok_iff.1 h
    exact createPool_grows hc pid
  | addLiquidity a b da db ma mb =>
    obtain ⟨⟨_, _⟩, hc, rfl⟩ := map_ok_iff.1 h
    exact addLiquidity_grows hc pid
  | removeLiquidity a b l ma mb =>
    obtain ⟨⟨_, _⟩, hc, rfl⟩ := map_ok_iff.1 h
    exact removeLiquidity_grows hc pid
  | swapExactTokensForTokens i o a b =>
    obtain ⟨⟨_, _⟩, hc, rfl⟩ := map_ok_iff.1 h
    exact swapExactTokensForTokens_grows hc pid
  | swapTokensForExactTokens o i a b =>
    obtain ⟨⟨_, _⟩, hc, rfl⟩ := map_ok_iff.1 h
    exact swapTokensForExactTokens_grows hc pid

end Swap

/-! ## SimpleDEX -/

namespace SimpleDex

variable {self msgSender : Address} {w w' : World SimpleDexStorage}

/-- Every transaction to `SimpleDEX` keeps the pair's value per LP unit from falling. -/
theorem run_grows {msgSender : Address} {c : DexCall} (h : DexCall.run self w (msgSender, c) = .ok w') :
    Pair.ShareValueGrows w.storage.toPair w'.storage.toPair := by
  cases c with
  | addLiquidity a0 a1 =>
    obtain ⟨⟨_, _⟩, hc, rfl⟩ := map_ok_iff.1 h
    obtain ⟨-, -, -, _, _, _, _, -, -, hm, hd, -, hst⟩ := addLiquidity_ok hc
    rw [hst]
    exact Pair.mint_deposit_grows hm hd
  | removeLiquidity l =>
    obtain ⟨⟨_, _⟩, hc, rfl⟩ := map_ok_iff.1 h
    obtain ⟨-, -, hb, _, _, hw, -, -, hst⟩ := removeLiquidity_ok hc
    rw [hst]
    exact Pair.burn_withdraw_grows hb hw
  | swap t a m =>
    obtain ⟨⟨_, out⟩, hc, rfl⟩ := map_ok_iff.1 h
    obtain ⟨-, -, hq, -, _, _, _, -, -, hsw, -, hst⟩ := swap_ok hc
    rw [hst]
    refine Pair.swapReserves_grows hsw fun x y hx hy => ?_
    subst hx hy
    simp only [decide_eq_true_eq] at hsw ⊢
    -- the reserve update checked the output against the output reserve
    have hle : out ≤ if t = w.storage.token0 then w.storage.reserve1 else w.storage.reserve0 := by
      obtain ⟨hd, -, hle, -⟩ | ⟨hd, -, hle, -⟩ := Pair.swapReserves_ok hsw
      · rw [if_pos (of_decide_eq_true hd)]
        exact hle
      · rw [if_neg (of_decide_eq_false hd)]
        exact hle
    exact Amm.quoteOut_price (by decide) hq hle

end SimpleDex

/-- **No successful transaction lowers what an LP unit holds of the constant product**, in any pool of `WATTxSwap`
and in `SimpleDEX`: from reserves `(r0, r1)` against `L > 0` units to `(r0', r1')` against `L' > 0`,
`r0 * r1 * L' ^ 2 ≤ r0' * r1' * L ^ 2`, from every state, reachable or not. -/
theorem lp_share_value_monotone :
    (∀ (self msgSender : Address) (c : Swap.SwapCall) (w w' : World SwapStorage) (pid : PoolId),
      Swap.SwapCall.run self w (msgSender, c) = .ok w' →
      0 < (w.storage.pools pid).totalLiquidity → 0 < (w'.storage.pools pid).totalLiquidity →
      (w.storage.pools pid).reserve0 * (w.storage.pools pid).reserve1 * (w'.storage.pools pid).totalLiquidity ^ 2 ≤
        (w'.storage.pools pid).reserve0 * (w'.storage.pools pid).reserve1 *
          (w.storage.pools pid).totalLiquidity ^ 2) ∧
    (∀ (self msgSender : Address) (c : SimpleDex.DexCall) (w w' : World SimpleDexStorage),
      SimpleDex.DexCall.run self w (msgSender, c) = .ok w' →
      0 < w.storage.totalLiquidity → 0 < w'.storage.totalLiquidity →
      w.storage.reserve0 * w.storage.reserve1 * w'.storage.totalLiquidity ^ 2 ≤
        w'.storage.reserve0 * w'.storage.reserve1 * w.storage.totalLiquidity ^ 2) :=
  ⟨fun _ _ _ _ _ pid h => Swap.run_grows h pid, fun _ _ _ _ _ h => SimpleDex.run_grows h⟩

/-- A token ledger in which the trader `5` and the exchange `9` hold a million units of every token, and `5` lets
`9` spend all of its own. -/
def demoTokens : Address → Erc20 := fun _ =>
  ⟨2 * 10 ^ 6, fun a => if a = 5 ∨ a = 9 then 10 ^ 6 else 0, fun o s => if o = 5 ∧ s = 9 then 10 ^ 6 else 0⟩

/-- A funded pair of tokens `1` and `2`: a million of each against the units of provider `5` and the lock. -/
def demoPair : Pair :=
  { token0 := 1, token1 := 2, reserve0 := 10 ^ 6, reserve1 := 10 ^ 6, totalLiquidity := 10 ^ 6 - 1000,
    liquidity := fun a => if a = 0 then 1000 else if a = 5 then 10 ^ 6 - 1000 else 0 }

/-- `WATTxSwap` at `9` with the one pool `demoPair`. -/
def demoSwap : World SwapStorage :=
  ⟨⟨fun pid => if pid = (1, 2) then { demoPair with «exists» := true } else Pool.empty, [(1, 2)], 5⟩, demoTokens⟩

/-- `SimpleDEX` at `9` over `demoPair`. -/
def demoDex : World SimpleDexStorage := ⟨{ demoPair with owner := 5 }, demoTokens⟩

/-- A sale of 1000 units of token `1` into each funded exchange succeeds, with LP units before and after. -/
theorem lp_share_value_monotone_at_sales :
    (∃ w', Swap.SwapCall.run 9 demoSwap (5, .swapExactTokensForTokens 1000 0 1 2) = .ok w' ∧
      (demoSwap.storage.pools (1, 2)).reserve0 * (demoSwap.storage.pools (1, 2)).reserve1 *
          (w'.storage.pools (1, 2)).totalLiquidity ^ 2 ≤
        (w'.storage.pools (1, 2)).reserve0 * (w'.storage.pools (1, 2)).reserve1 *
          (demoSwap.storage.pools (1, 2)).totalLiquidity ^ 2) ∧
    (∃ w', SimpleDex.DexCall.run 9 demoDex (5, .swap 1 1000 0) = .ok w' ∧
      demoDex.storage.reserve0 * demoDex.storage.reserve1 * w'.storage.totalLiquidity ^ 2 ≤
        w'.storage.reserve0 * w'.storage.reserve1 * demoDex.storage.totalLiquidity ^ 2) := by
  refine ⟨⟨_, rfl, ?_⟩, ⟨_, rfl, ?_⟩⟩
  · exact lp_share_value_monotone.1 9 5 (.swapExactTokensForTokens 1000 0 1 2) demoSwap _ (1, 2) rfl
      (by decide) (by decide)
  · exact lp_share_value_monotone.2 9 5 (.swap 1 1000 0) demoDex _ rfl (by decide) (by decide)

end Wattx
