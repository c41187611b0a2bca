import Wattx.Amm
import Wattx.Txn
/-!
# Swap — the `WATTxSwap` exchange (`contracts/dex/WATTxSwap.sol`)

Many constant-product pools in one contract, one per unordered token pair.  A pool is a `Pair` (two reserves, a total
of LP units and an LP balance per provider) and whether it was created; `createPool` opens it, `addLiquidity` and
`removeLiquidity` mint and burn LP units against the reserves, and the two swaps trade one token for the other at the
constant-product price less a 0.3% fee.  Every entry point is a function into `Except Revert`: Solidity 0.8's checked
arithmetic and every `require` (with its message) are there, in the order the source runs them, and a token call is
a `TestToken` call that must return `true`.  The statements the contract shares with `SimpleDEX` are `Amm`'s.  Events
are not modelled.

The pool id is `keccak256` of the ordered pair; the hash is taken to be injective on those 40-byte inputs, so
`getPoolId` returns the ordered pair itself.  `SwapCall` lists the five entry points and `SwapCall.run` dispatches a
call by a sender.
-/
namespace Wattx

/-- `Pool` of `WATTxSwap.sol`: a pair and whether `createPool` opened it. -/
structure Pool extends Pair where
  «exists» : Bool

/-- A pool that was never written: Solidity's zero value. -/
def Pool.empty : Pool :=
  { token0 := 0, token1 := 0, reserve0 := 0, reserve1 := 0, totalLiquidity := 0, liquidity := fun _ => 0,
    «exists» := false }

/-- `bytes32 poolId`, as the ordered token pair it hashes. -/
abbrev PoolId := Address × Address

/-- The storage of `WATTxSwap`. -/
structure SwapStorage where
  pools : PoolId → Pool
  poolIds : List PoolId
  owner : Address

open Checked

def SwapStorage.setPool (st : SwapStorage) (poolId : PoolId) (pool : Pool) : SwapStorage :=
  { st with pools := Function.update st.pools poolId pool }

@[simp] theorem SwapStorage.setPool_pools (st : SwapStorage) (poolId : PoolId) (pool : Pool) (pid : PoolId) :
    (st.setPool poolId pool).pools pid = if pid = poolId then pool else st.pools pid := by
  simp only [setPool, Function.update_apply]

@[simp] theorem SwapStorage.setPool_poolIds (st : SwapStorage) (poolId : PoolId) (pool : Pool) :
    (st.setPool poolId pool).poolIds = st.poolIds := rfl

namespace Swap

def FEE_BPS : Nat := 30
def BPS_DENOMINATOR : Nat := 10000
def MINIMUM_LIQUIDITY : Nat := 1000

/-- The constructor: no pool, the deployer as owner. -/
def deploy (msgSender : Address) : SwapStorage := ⟨fun _ => Pool.empty, [], msgSender⟩

/-- `(tokenA, tokenB)` in address order. -/
def sortTokens (tokenA tokenB : Address) : Address × Address :=
  if tokenA < tokenB then (tokenA, tokenB) else (tokenB, tokenA)

/-- `getPoolId`. -/
def getPoolId (tokenA tokenB : Address) : PoolId := sortTokens tokenA tokenB

/-- `getAmountOut`. -/
def getAmountOut (amountIn reserveIn reserveOut : Nat) : Except Revert Nat := do
  require (amountIn > 0) "WATTxSwap: insufficient input"
  require (reserveIn > 0 ∧ reserveOut > 0) "WATTxSwap: insufficient liquidity"
  Amm.quoteOut BPS_DENOMINATOR FEE_BPS amountIn reserveIn reserveOut

/-- `getAmountIn`. -/
def getAmountIn (amountOut reserveIn reserveOut : Nat) : Except Revert Nat := do
  require (amountOut > 0) "WATTxSwap: insufficient output"
  require (reserveIn > 0 ∧ reserveOut > 0) "WATTxSwap: insufficient liquidity"
  require (amountOut < reserveOut) "WATTxSwap: insufficient liquidity"
  let product ← mul 256 reserveIn amountOut
  let numerator ← mul 256 product BPS_DENOMINATOR
  let remaining ← sub reserveOut amountOut
  let denominator ← mul 256 remaining (BPS_DENOMINATOR - FEE_BPS)
  let quotient ← div numerator denominator
  add 256 quotient 1

/-! ## Liquidity -/

/-- The amounts `addLiquidity` takes, in pool order: the desired ones into a pool with no reserves, else the optimal
pair at the pool's ratio. -/
def addLiquidityAmounts (pool : Pool) (amount0Desired amount1Desired amount0Min amount1Min : Nat) :
    Except Revert (Nat × Nat) :=
  if pool.reserve0 = 0 ∧ pool.reserve1 = 0 then .ok (amount0Desired, amount1Desired)
  else do
    let p1 ← mul 256 amount0Desired pool.reserve1
    let amount1Optimal ← div p1 pool.reserve0
    if amount1Optimal ≤ amount1Desired then do
      require (amount1Optimal ≥ amount1Min) "WATTxSwap: insufficient B amount"
      pure (amount0Desired, amount1Optimal)
    else do
      let p0 ← mul 256 amount1Desired pool.reserve0
      let amount0Optimal ← div p0 pool.reserve1
      require (amount0Optimal ≤ amount0Desired) "WATTxSwap: excessive A amount"
      require (amount0Optimal ≥ amount0Min) "WATTxSwap: insufficient A amount"
      pure (amount0Optimal, amount1Desired)

/-! ## Entry points -/

/-- `createPool`. -/
def createPool (tokenA tokenB : Address) (w : World SwapStorage) : Except Revert (World SwapStorage × PoolId) := do
  require (tokenA ≠ tokenB) "WATTxSwap: identical addresses"
  require (tokenA ≠ 0 ∧ tokenB ≠ 0) "WATTxSwap: zero address"
  let (token0, token1) := sortTokens tokenA tokenB
  let poolId := getPoolId token0 token1
  require (¬ (w.storage.pools poolId).exists = true) "WATTxSwap: pool exists"
  let pool := { w.storage.pools poolId with token0, token1, «exists» := true }
  let storage := w.storage.setPool poolId pool
  pure ({ w with storage := { storage with poolIds := storage.poolIds ++ [poolId] } }, poolId)

/-- `addLiquidity`, called by `msgSender` on the contract at `self`. -/
def addLiquidity (self msgSender tokenA tokenB : Address) (amountADesired amountBDesired amountAMin amountBMin : Nat)
    (w : World SwapStorage) : Except Revert (World SwapStorage × Nat × Nat × Nat) := do
  let poolId := getPoolId tokenA tokenB
  let pool := w.storage.pools poolId
  require (pool.exists = true) "WATTxSwap: pool not found"
  let (token0, token1) := sortTokens tokenA tokenB
  let (amount0Desired, amount1Desired) :=
    if tokenA < tokenB then (amountADesired, amountBDesired) else (amountBDesired, amountADesired)
  let (amount0Min, amount1Min) := if tokenA < tokenB then (amountAMin, amountBMin) else (amountBMin, amountAMin)
  let (amount0, amount1) ← addLiquidityAmounts pool amount0Desired amount1Desired amount0Min amount1Min
  let w ← w.callTransferFrom self token0 msgSender amount0 "WATTxSwap: transfer0 failed"
  let w ← w.callTransferFrom self token1 msgSender amount1 "WATTxSwap: transfer1 failed"
  let (liquidity, pair) ← Amm.mint MINIMUM_LIQUIDITY pool.toPair amount0 amount1
  require (liquidity > 0) "WATTxSwap: insufficient liquidity minted"
  let pair ← pair.deposit msgSender liquidity amount0 amount1
  let (amountA, amountB) := if tokenA < tokenB then (amount0, amount1) else (amount1, amount0)
  pure ({ w with storage := w.storage.setPool poolId { pool with toPair := pair } }, amountA, amountB, liquidity)

/-- `removeLiquidity`, called by `msgSender` on the contract at `self`. -/
def removeLiquidity (self msgSender tokenA tokenB : Address) (liquidity amountAMin amountBMin : Nat)
    (w : World SwapStorage) : Except Revert (World SwapStorage × Nat × Nat) := do
  let poolId := getPoolId tokenA tokenB
  let pool := w.storage.pools poolId
  require (pool.exists = true) "WATTxSwap: pool not found"
  require (pool.liquidity msgSender ≥ liquidity) "WATTxSwap: insufficient liquidity"
  let (token0, token1) := sortTokens tokenA tokenB
  let (amount0, amount1) ← Amm.burnAmounts pool.toPair liquidity
  let (amountAOut, amountBOut) := if tokenA < tokenB then (amount0, amount1) else (amount1, amount0)
  require (amountAOut ≥ amountAMin) "WATTxSwap: insufficient A amount"
  require (amountBOut ≥ amountBMin) "WATTxSwap: insufficient B amount"
  let pair ← pool.withdraw msgSender liquidity amount0 amount1
  let w := { w with storage := w.storage.setPool poolId { pool with toPair := pair } }
  let w ← w.callTransfer self token0 msgSender amount0 "WATTxSwap: transfer0 failed"
  let w ← w.callTransfer self token1 msgSender amount1 "WATTxSwap: transfer1 failed"
  pure (w, amountAOut, amountBOut)

/-- `swapExactTokensForTokens`, called by `msgSender` on the contract at `self`. -/
def swapExactTokensForTokens (self msgSender : Address) (amountIn amountOutMin : Nat) (tokenIn tokenOut : Address)
    (w : World SwapStorage) : Except Revert (World SwapStorage × Nat) := do
  let poolId := getPoolId tokenIn tokenOut
  let pool := w.storage.pools poolId
  require (pool.exists = true) "WATTxSwap: pool not found"
  let isToken0In := decide (tokenIn < tokenOut)
  let (reserveIn, reserveOut) := if isToken0In then (pool.reserve0, pool.reserve1) else (pool.reserve1, pool.reserve0)
  let amountOut ← getAmountOut amountIn reserveIn reserveOut
  require (amountOut ≥ amountOutMin) "WATTxSwap: insufficient output amount"
  let w ← w.callTransferFrom self tokenIn msgSender amountIn "WATTxSwap: transferIn failed"
  let w ← w.callTransfer self tokenOut msgSender amountOut "WATTxSwap: transferOut failed"
  let pair ← pool.swapReserves isToken0In amountIn amountOut
  pure ({ w with storage := w.storage.setPool poolId { pool with toPair := pair } }, amountOut)

/-- `swapTokensForExactTokens`, called by `msgSender` on the contract at `self`. -/
def swapTokensForExactTokens (self msgSender : Address) (amountOut amountInMax : Nat) (tokenIn tokenOut : Address)
    (w : World SwapStorage) : Except Revert (World SwapStorage × Nat) := do
  let poolId := getPoolId tokenIn tokenOut
  let pool := w.storage.pools poolId
  require (pool.exists = true) "WATTxSwap: pool not found"
  let isToken0In := decide (tokenIn < tokenOut)
  let (reserveIn, reserveOut) := if isToken0In then (pool.reserve0, pool.reserve1) else (pool.reserve1, pool.reserve0)
  let amountIn ← getAmountIn amountOut reserveIn reserveOut
  require (amountIn ≤ amountInMax) "WATTxSwap: excessive input amount"
  let w ← w.callTransferFrom self tokenIn msgSender amountIn "WATTxSwap: transferIn failed"
  let w ← w.callTransfer self tokenOut msgSender amountOut "WATTxSwap: transferOut failed"
  let pair ← pool.swapReserves isToken0In amountIn amountOut
  pure ({ w with storage := w.storage.setPool poolId { pool with toPair := pair } }, amountIn)

/-! ## What a successful call did -/

section
variable {self msgSender tokenA tokenB : Address} {w w' : World SwapStorage}

theorem sortTokens_eq (tokenA tokenB : Address) :
    sortTokens tokenA tokenB = (Min.min tokenA tokenB, Max.max tokenA tokenB) := by
  unfold sortTokens
  split
  · rename_i hab
    rw [min_eq_left hab.le, max_eq_right hab.le]
  · rename_i hab
    rw [min_eq_right (Nat.le_of_not_lt hab), max_eq_left (Nat.le_of_not_lt hab)]

theorem getAmountOut_ok {amountIn reserveIn reserveOut amountOut : Nat}
    (h : getAmountOut amountIn reserveIn reserveOut = .ok amountOut) :
    0 < amountIn ∧ 0 < reserveIn ∧ 0 < reserveOut ∧
      amountOut = amountIn * (BPS_DENOMINATOR - FEE_BPS) * reserveOut /
        (reserveIn * BPS_DENOMINATOR + amountIn * (BPS_DENOMINATOR - FEE_BPS)) := by
  simp only [getAmountOut, bind_ok_iff, require_ok_iff] at h
  obtain ⟨_, hin, _, ⟨hr0, hr1⟩, hq⟩ := h
  exact ⟨hin, hr0, hr1, (Amm.quoteOut_ok hq).2⟩

theorem getAmountIn_ok {amountOut reserveIn reserveOut amountIn : Nat}
    (h : getAmountIn amountOut reserveIn reserveOut = .ok amountIn) :
    0 < amountOut ∧ 0 < reserveIn ∧ amountOut < reserveOut ∧
      amountIn = reserveIn * amountOut * BPS_DENOMINATOR / ((reserveOut - amountOut) * (BPS_DENOMINATOR - FEE_BPS)) + 1 := by
  simp only [getAmountIn, bind_ok_iff, require_ok_iff, mul_ok_iff, sub_ok_iff, div_ok_iff, add_ok_iff] at h
  obtain ⟨_, hout, _, ⟨hr0, -⟩, _, hlt, _, ⟨-, rfl⟩, _, ⟨-, rfl⟩, _, ⟨-, rfl⟩, _, ⟨-, rfl⟩, _, ⟨-, rfl⟩, -, rfl⟩ := h
  exact ⟨hout, hr0, hlt, rfl⟩

theorem createPool_ok {poolId : PoolId} (h : createPool tokenA tokenB w = .ok (w', poolId)) :
    tokenA ≠ tokenB ∧ tokenA ≠ 0 ∧ tokenB ≠ 0 ∧ poolId = sortTokens tokenA tokenB ∧
      (w.storage.pools poolId).exists = false ∧ w'.tokens = w.tokens ∧
      w'.storage =
        { w.storage.setPool poolId
            { w.storage.pools poolId with token0 := poolId.1, token1 := poolId.2, «exists» := true } with
          poolIds := w.storage.poolIds ++ [poolId] } := by
  simp only [createPool, bind_ok_iff, require_ok_iff, pure, Except.pure, Except.ok.injEq, Prod.mk.injEq] at h
  obtain ⟨_, hne, _, ⟨ha, hb⟩, _, hex, rfl, rfl⟩ := h
  have hid : getPoolId (sortTokens tokenA tokenB).1 (sortTokens tokenA tokenB).2 = sortTokens tokenA tokenB := by
    simp only [getPoolId, sortTokens_eq]
    rw [min_eq_left (min_le_max), max_eq_right (min_le_max)]
  rw [hid] at hex ⊢
  exact ⟨hne, ha, hb, rfl, by simpa using hex, rfl, rfl⟩

/-- What a successful `addLiquidity` did: it took the amounts from the caller in pool order, minted `liquidity > 0`
units, and deposited both into the pool. -/
theorem addLiquidity_ok {amountADesired amountBDesired amountAMin amountBMin amountA amountB liquidity : Nat}
    (h : addLiquidity self msgSender tokenA tokenB amountADesired amountBDesired amountAMin amountBMin w =
      .ok (w', amountA, amountB, liquidity)) :
    (w.storage.pools (getPoolId tokenA tokenB)).exists = true ∧ 0 < liquidity ∧
    ∃ amount0 amount1 pair₁ pair₂ w₁ w₂,
      addLiquidityAmounts (w.storage.pools (getPoolId tokenA tokenB))
        (if tokenA < tokenB then amountADesired else amountBDesired)
        (if tokenA < tokenB then amountBDesired else amountADesired)
        (if tokenA < tokenB then amountAMin else amountBMin)
        (if tokenA < tokenB then amountBMin else amountAMin) = .ok (amount0, amount1) ∧
      w.callTransferFrom self (sortTokens tokenA tokenB).1 msgSender amount0 "WATTxSwap: transfer0 failed" = .ok w₁ ∧
      w₁.callTransferFrom self (sortTokens tokenA tokenB).2 msgSender amount1 "WATTxSwap: transfer1 failed" = .ok w₂ ∧
      Amm.mint MINIMUM_LIQUIDITY (w.storage.pools (getPoolId tokenA tokenB)).toPair amount0 amount1 =
        .ok (liquidity, pair₁) ∧
      pair₁.deposit msgSender liquidity amount0 amount1 = .ok pair₂ ∧ w'.tokens = w₂.tokens ∧
      w'.storage = w.storage.setPool (getPoolId tokenA tokenB)
        { w.storage.pools (getPoolId tokenA tokenB) with toPair := pair₂ } := by
  simp only [addLiquidity, bind_ok_iff, require_ok_iff, pure, Except.pure, Except.ok.injEq, Prod.mk.injEq] at h
  obtain ⟨_, hex, ⟨amount0, amount1⟩, hamt, w₁, h₁, w₂, h₂, ⟨l, pair₁⟩, hmint, _, hl, pair₂, hdep, rfl, -, -, rfl⟩ := h
  have hs₁ := (World.callTransferFrom_ok h₁).1
  have hs₂ := (World.callTransferFrom_ok h₂).1
  refine ⟨hex, hl, amount0, amount1, pair₁, pair₂, w₁, w₂, ?_, h₁, h₂, hmint, hdep, rfl, ?_⟩
  · by_cases hab : tokenA < tokenB <;> simpa [hab] using hamt
  · simp only [hs₂, hs₁]

/-- What a successful `removeLiquidity` did: it burned `liquidity` of the caller's units, took the amounts out of the
pool, and then paid them to the caller in pool order. -/
theorem removeLiquidity_ok {liquidity amountAMin amountBMin amountA amountB : Nat}
    (h : removeLiquidity self msgSender tokenA tokenB liquidity amountAMin amountBMin w = .ok (w', amountA, amountB)) :
    (w.storage.pools (getPoolId tokenA tokenB)).exists = true ∧
    liquidity ≤ (w.storage.pools (getPoolId tokenA tokenB)).liquidity msgSender ∧
    ∃ amount0 amount1 pair w₁,
      Amm.burnAmounts (w.storage.pools (getPoolId tokenA tokenB)).toPair liquidity = .ok (amount0, amount1) ∧
      amountA = (if tokenA < tokenB then amount0 else amount1) ∧ amountAMin ≤ amountA ∧
      amountB = (if tokenA < tokenB then amount1 else amount0) ∧ amountBMin ≤ amountB ∧
      (w.storage.pools (getPoolId tokenA tokenB)).withdraw msgSender liquidity amount0 amount1 = .ok pair ∧
      World.callTransfer
          { w with
            storage := (w.storage.setPool (getPoolId tokenA tokenB)
              { w.storage.pools (getPoolId tokenA tokenB) with toPair := pair }) }
        self (sortTokens tokenA tokenB).1 msgSender amount0 "WATTxSwap: transfer0 failed" = .ok w₁ ∧
      w₁.callTransfer self (sortTokens tokenA tokenB).2 msgSender amount1 "WATTxSwap: transfer1 failed" = .ok w' ∧
      w'.storage = w.storage.setPool (getPoolId tokenA tokenB)
        { w.storage.pools (getPoolId tokenA tokenB) with toPair := pair } := by
  simp only [removeLiquidity, bind_ok_iff, require_ok_iff, pure, Except.pure, Except.ok.injEq, Prod.mk.injEq] at h
  obtain ⟨_, hex, _, hliq, ⟨amount0, amount1⟩, hburn, _, hA, _, hB, pair, hw, w₁, h₁, w₂, h₂, rfl, rfl, rfl⟩ := h
  have hs₁ := (World.callTransfer_ok h₁).1
  have hs₂ := (World.callTransfer_ok h₂).1
  refine ⟨hex, hliq, amount0, amount1, pair, w₁, hburn, by split <;> rfl, hA, by split <;> rfl, hB, hw, h₁, h₂, ?_⟩
  rw [hs₂, hs₁]

/-- What a successful `swapExactTokensForTokens` did: it priced `amountIn` by `getAmountOut`, took `amountIn` from the
caller, paid the output, and moved both reserves. -/
theorem swapExactTokensForTokens_ok {amountIn amountOutMin amountOut : Nat} {tokenIn tokenOut : Address}
    (h : swapExactTokensForTokens self msgSender amountIn amountOutMin tokenIn tokenOut w = .ok (w', amountOut)) :
    (w.storage.pools (getPoolId tokenIn tokenOut)).exists = true ∧
    getAmountOut amountIn
      (if tokenIn < tokenOut then (w.storage.pools (getPoolId tokenIn tokenOut)).reserve0
        else (w.storage.pools (getPoolId tokenIn tokenOut)).reserve1)
      (if tokenIn < tokenOut then (w.storage.pools (getPoolId tokenIn tokenOut)).reserve1
        else (w.storage.pools (getPoolId tokenIn tokenOut)).reserve0) = .ok amountOut ∧
    amountOutMin ≤ amountOut ∧
    ∃ pair w₁ w₂,
      w.callTransferFrom self tokenIn msgSender amountIn "WATTxSwap: transferIn failed" = .ok w₁ ∧
      w₁.callTransfer self tokenOut msgSender amountOut "WATTxSwap: transferOut failed" = .ok w₂ ∧
      (w.storage.pools (getPoolId tokenIn tokenOut)).swapReserves (decide (tokenIn < tokenOut)) amountIn amountOut =
        .ok pair ∧ w'.tokens = w₂.tokens ∧
      w'.storage = w.storage.setPool (getPoolId tokenIn tokenOut)
        { w.storage.pools (getPoolId tokenIn tokenOut) with toPair := pair } := by
  simp only [swapExactTokensForTokens, bind_ok_iff, require_ok_iff, pure, Except.pure, Except.ok.injEq,
    Prod.mk.injEq] at h
  obtain ⟨_, hex, out, hout, _, hmin, w₁, h₁, w₂, h₂, pair, hsw, rfl, rfl⟩ := h
  have hs₁ := (World.callTransferFrom_ok h₁).1
  have hs₂ := (World.callTransfer_ok h₂).1
  refine ⟨hex, ?_, hmin, pair, w₁, w₂, h₁, h₂, hsw, rfl, by simp only [hs₂, hs₁]⟩
  by_cases hio : tokenIn < tokenOut <;> simpa [hio] using hout

/-- What a successful `swapTokensForExactTokens` did: it priced `amountOut` by `getAmountIn`, took that from the
caller, paid `amountOut`, and moved both reserves. -/
theorem swapTokensForExactTokens_ok {amountOut amountInMax amountIn : Nat} {tokenIn tokenOut : Address}
    (h : swapTokensForExactTokens self msgSender amountOut amountInMax tokenIn tokenOut w = .ok (w', amountIn)) :
    (w.storage.pools (getPoolId tokenIn tokenOut)).exists = true ∧
    getAmountIn amountOut
      (if tokenIn < tokenOut then (w.storage.pools (getPoolId tokenIn tokenOut)).reserve0
        else (w.storage.pools (getPoolId tokenIn tokenOut)).reserve1)
      (if tokenIn < tokenOut then (w.storage.pools (getPoolId tokenIn tokenOut)).reserve1
        else (w.storage.pools (getPoolId tokenIn tokenOut)).reserve0) = .ok amountIn ∧
    amountIn ≤ amountInMax ∧
    ∃ pair w₁ w₂,
      w.callTransferFrom self tokenIn msgSender amountIn "WATTxSwap: transferIn failed" = .ok w₁ ∧
      w₁.callTransfer self tokenOut msgSender amountOut "WATTxSwap: transferOut failed" = .ok w₂ ∧
      (w.storage.pools (getPoolId tokenIn tokenOut)).swapReserves (decide (tokenIn < tokenOut)) amountIn amountOut =
        .ok pair ∧ w'.tokens = w₂.tokens ∧
      w'.storage = w.storage.setPool (getPoolId tokenIn tokenOut)
        { w.storage.pools (getPoolId tokenIn tokenOut) with toPair := pair } := by
  simp only [swapTokensForExactTokens, bind_ok_iff, require_ok_iff, pure, Except.pure, Except.ok.injEq,
    Prod.mk.injEq] at h
  obtain ⟨_, hex, inp, hin, _, hmax, w₁, h₁, w₂, h₂, pair, hsw, rfl, rfl⟩ := h
  have hs₁ := (World.callTransferFrom_ok h₁).1
  have hs₂ := (World.callTransfer_ok h₂).1
  refine ⟨hex, ?_, hmax, pair, w₁, w₂, h₁, h₂, hsw, rfl, by simp only [hs₂, hs₁]⟩
  by_cases hio : tokenIn < tokenOut <;> simpa [hio] using hin

end

/-- The entry points that change state. -/
inductive SwapCall where
  | createPool (tokenA tokenB : Address)
  | addLiquidity (tokenA tokenB : Address) (amountADesired amountBDesired amountAMin amountBMin : Nat)
  | removeLiquidity (tokenA tokenB : Address) (liquidity amountAMin amountBMin : Nat)
  | swapExactTokensForTokens (amountIn amountOutMin : Nat) (tokenIn tokenOut : Address)
  | swapTokensForExactTokens (amountOut amountInMax : Nat) (tokenIn tokenOut : Address)

/-- One transaction to the contract at `self` by `msgSender`, its return values dropped. -/
def SwapCall.run (self : Address) (w : World SwapStorage) : Address × SwapCall → Except Revert (World SwapStorage)
  | (_, .createPool a b) => Prod.fst <$> Swap.createPool a b w
  | (s, .addLiquidity a b da db ma mb) => Prod.fst <$> Swap.addLiquidity self s a b da db ma mb w
  | (s, .removeLiquidity a b l ma mb) => Prod.fst <$> Swap.removeLiquidity self s a b l ma mb w
  | (s, .swapExactTokensForTokens i o a b) => Prod.fst <$> Swap.swapExactTokensForTokens self s i o a b w
  | (s, .swapTokensForExactTokens o i a b) => Prod.fst <$> Swap.swapTokensForExactTokens self s o i a b w

end Swap
end Wattx
