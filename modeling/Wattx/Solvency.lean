import Mathlib.Algebra.BigOperators.Group.Finset.Basic
import Wattx.SwapReach
/-!
# Solvency — `WATTxSwap` holds what its pools record

Each transaction moves the exchange's balance of a token by exactly what it moves the token's recorded reserves:
`addLiquidity` pulls both amounts and adds them to the pool, `removeLiquidity` takes them off the pool and pays them
out, and a swap pulls the input into the reserve it adds to and pays the output from the reserve it takes from
(`run_conserves`).  The pool's tokens are the ordered pair its id names (`WellFormed`), so the token a call moves is the
side of the pool it writes, and a sender is never the exchange itself, so no transfer is from the exchange to itself.
From deployment, where no pool records anything, the exchange's balance of every token is then its balance at
deployment plus what all the pools record of it (`Reachable.balance_eq`), and so at least that.
-/
namespace Wattx

/-- What `pool` records of token `t`. -/
def Pool.reserveOf (pool : Pool) (t : Address) : Nat :=
  (if t = pool.token0 then pool.reserve0 else 0) + (if t = pool.token1 then pool.reserve1 else 0)

/-- What all the listed pools record of token `t`. -/
def SwapStorage.reservesOf (st : SwapStorage) (t : Address) : Nat :=
  ∑ pid ∈ st.poolIds.toFinset, (st.pools pid).reserveOf t

namespace Swap

open Checked

variable {self msgSender : Address} {w w' : World SwapStorage}

theorem reservesOf_deploy (owner t : Address) : (deploy owner).reservesOf t = 0 := rfl

/-- Writing a listed pool changes the total by what the pool's record changes. -/
theorem reservesOf_setPool {st : SwapStorage} {poolId : PoolId} (hmem : poolId ∈ st.poolIds) (pool : Pool)
    (t : Address) :
    (st.setPool poolId pool).reservesOf t + (st.pools poolId).reserveOf t = st.reservesOf t + pool.reserveOf t := by
  unfold SwapStorage.reservesOf
  have hm : poolId ∈ st.poolIds.toFinset := List.mem_toFinset.2 hmem
  rw [SwapStorage.setPool_poolIds, ← Finset.add_sum_erase _ _ hm, ← Finset.add_sum_erase _ _ hm,
    SwapStorage.setPool_pools, if_pos rfl]
  -- off the written pool nothing changed
  have hrest : ∑ pid ∈ st.poolIds.toFinset.erase poolId, ((st.setPool poolId pool).pools pid).reserveOf t =
      ∑ pid ∈ st.poolIds.toFinset.erase poolId, (st.pools pid).reserveOf t := by
    refine Finset.sum_congr rfl fun pid hpid => ?_
    rw [SwapStorage.setPool_pools, if_neg (Finset.ne_of_mem_erase hpid)]
  rw [hrest]
  omega

/-- A transaction whose pool and whose transfers move every token by the same amounts keeps the exchange's balance
minus its recorded reserves. -/
theorem conserves_of_flow {poolId : PoolId} {pool' : Pool} (hmem : poolId ∈ w.storage.poolIds)
    (hst : w'.storage = w.storage.setPool poolId pool') (flowIn flowOut : Address → Nat)
    (hpool : ∀ t, pool'.reserveOf t + flowOut t = (w.storage.pools poolId).reserveOf t + flowIn t)
    (hbal : ∀ t, w'.balanceOf self t + flowOut t = w.balanceOf self t + flowIn t) (t : Address) :
    w'.balanceOf self t + w.storage.reservesOf t = w.balanceOf self t + w'.storage.reservesOf t := by
  have hR := reservesOf_setPool hmem pool' t
  rw [← hst] at hR
  have hp := hpool t
  have hb := hbal t
  omega

/-- The written pool's record of each token, when both reserves move with the pool's tokens kept. -/
theorem reserveOf_move {pool pool' : Pool} (h0 : pool'.token0 = pool.token0) (h1 : pool'.token1 = pool.token1)
    {in0 out0 in1 out1 : Nat} (hr0 : pool'.reserve0 + out0 = pool.reserve0 + in0)
    (hr1 : pool'.reserve1 + out1 = pool.reserve1 + in1) (t : Address) :
    pool'.reserveOf t + ((if t = pool.token0 then out0 else 0) + (if t = pool.token1 then out1 else 0)) =
      pool.reserveOf t + ((if t = pool.token0 then in0 else 0) + (if t = pool.token1 then in1 else 0)) := by
  unfold Pool.reserveOf
  rw [h0, h1]
  split_ifs <;> omega

theorem balanceOf_of_tokens {σ : Type} {v v' : World σ} (h : v'.tokens = v.tokens) (t : Address) :
    v'.balanceOf self t = v.balanceOf self t := by
  simp only [World.balanceOf, h]

theorem addLiquidity_conserves {tokenA tokenB : Address} {dA dB mA mB amountA amountB liquidity : Nat}
    (hw : WellFormed w.storage) (hs : msgSender ≠ self)
    (h : addLiquidity self msgSender tokenA tokenB dA dB mA mB w = .ok (w', amountA, amountB, liquidity))
    (t : Address) : w'.balanceOf self t + w.storage.reservesOf t = w.balanceOf self t + w'.storage.reservesOf t := by
  obtain ⟨hex, -, a0, a1, pair₁, pair₂, w₁, w₂, -, h₁, h₂, hm, hd, htok, hst⟩ := addLiquidity_ok h
  obtain ⟨ht0, ht1, -⟩ := hw.tokens _ hex
  set pool := w.storage.pools (getPoolId tokenA tokenB)
  refine conserves_of_flow ((hw.listed _).1 hex) hst
    (fun t => (if t = pool.token0 then a0 else 0) + (if t = pool.token1 then a1 else 0)) (fun _ => 0) ?_ ?_ t
  · -- the pool gains both amounts on its own sides
    intro t
    obtain ⟨hd0, hd1⟩ := Pair.deposit_tokens hd
    obtain ⟨hm0, hm1⟩ := Amm.mint_tokens hm
    obtain ⟨hr0, hr1⟩ := Amm.mint_reserves hm
    obtain ⟨hdep, -⟩ := Pair.deposit_ok hd
    have hr0' : ({ pool with toPair := pair₂ } : Pool).reserve0 + 0 = pool.reserve0 + a0 := by
      rw [hdep]
      dsimp only
      omega
    have hr1' : ({ pool with toPair := pair₂ } : Pool).reserve1 + 0 = pool.reserve1 + a1 := by
      rw [hdep]
      dsimp only
      omega
    have := reserveOf_move (hd0.trans hm0) (hd1.trans hm1) hr0' hr1' t
    simpa only [ite_self, Nat.add_zero] using this
  · -- the exchange receives both amounts, each in the token of its side
    intro t
    -- the pool's id is the ordered pair the transfers name
    have hs0 : pool.token0 = (sortTokens tokenA tokenB).1 := ht0
    have hs1 : pool.token1 = (sortTokens tokenA tokenB).2 := ht1
    rw [balanceOf_of_tokens htok, World.balanceOf_callTransferFrom h₂ hs, World.balanceOf_callTransferFrom h₁ hs, hs0,
      hs1]
    omega

theorem removeLiquidity_conserves {tokenA tokenB : Address} {liquidity mA mB amountA amountB : Nat}
    (hw : WellFormed w.storage) (hs : msgSender ≠ self)
    (h : removeLiquidity self msgSender tokenA tokenB liquidity mA mB w = .ok (w', amountA, amountB))
    (t : Address) : w'.balanceOf self t + w.storage.reservesOf t = w.balanceOf self t + w'.storage.reservesOf t := by
  obtain ⟨hex, -, a0, a1, pair, w₁, -, -, -, -, -, hwd, h₁, h₂, hst⟩ := removeLiquidity_ok h
  obtain ⟨ht0, ht1, -⟩ := hw.tokens _ hex
  set pool := w.storage.pools (getPoolId tokenA tokenB)
  refine conserves_of_flow ((hw.listed _).1 hex) hst (fun _ => 0)
    (fun t => (if t = pool.token0 then a0 else 0) + (if t = pool.token1 then a1 else 0)) ?_ ?_ t
  · -- the pool gives up both amounts from its own sides
    intro t
    obtain ⟨hpair, -, -, h0, h1⟩ := Pair.withdraw_ok hwd
    have hr0' : ({ pool with toPair := pair } : Pool).reserve0 + a0 = pool.reserve0 + 0 := by
      rw [hpair]
      dsimp only
      omega
    have hr1' : ({ pool with toPair := pair } : Pool).reserve1 + a1 = pool.reserve1 + 0 := by
      rw [hpair]
      dsimp only
      omega
    obtain ⟨hw0, hw1⟩ := Pair.withdraw_tokens hwd
    have := reserveOf_move hw0 hw1 hr0' hr1' t
    simpa only [ite_self, Nat.add_zero] using this
  · -- the exchange pays both amounts, each in the token of its side
    intro t
    have hs0 : pool.token0 = (sortTokens tokenA tokenB).1 := ht0
    have hs1 : pool.token1 = (sortTokens tokenA tokenB).2 := ht1
    have hb₂ := World.balanceOf_callTransfer h₂ hs t
    have hb₁ := World.balanceOf_callTransfer h₁ hs t
    rw [hs0, hs1]
    -- the first transfer starts from the state the pool was written to, with the same tokens
    change _ = (w.tokens t).balances self + 0
    change _ = (w.tokens t).balances self at hb₁
    omega

/-- Both swaps: the input comes into the reserve of its token and the output leaves the other. -/
theorem swap_conserves {tokenIn tokenOut : Address} {amountIn amountOut : Nat} {pair : Pair} {m₁ m₂ : String}
    {w₁ w₂ : World SwapStorage} (hw : WellFormed w.storage) (hs : msgSender ≠ self)
    (hex : (w.storage.pools (getPoolId tokenIn tokenOut)).exists = true)
    (h₁ : w.callTransferFrom self tokenIn msgSender amountIn m₁ = .ok w₁)
    (h₂ : w₁.callTransfer self tokenOut msgSender amountOut m₂ = .ok w₂)
    (hsw : (w.storage.pools (getPoolId tokenIn tokenOut)).swapReserves (decide (tokenIn < tokenOut)) amountIn amountOut =
      .ok pair) (htok : w'.tokens = w₂.tokens)
    (hst : w'.storage = w.storage.setPool (getPoolId tokenIn tokenOut)
      { w.storage.pools (getPoolId tokenIn tokenOut) with toPair := pair }) (t : Address) :
    w'.balanceOf self t + w.storage.reservesOf t = w.balanceOf self t + w'.storage.reservesOf t := by
  obtain ⟨ht0, ht1, hlt⟩ := hw.tokens _ hex
  set pool := w.storage.pools (getPoolId tokenIn tokenOut)
  have hs0 : pool.token0 = Min.min tokenIn tokenOut := by rw [ht0]; simp only [getPoolId, sortTokens_eq]
  have hs1 : pool.token1 = Max.max tokenIn tokenOut := by rw [ht1]; simp only [getPoolId, sortTokens_eq]
  refine conserves_of_flow ((hw.listed _).1 hex) hst (fun t => if t = tokenIn then amountIn else 0)
    (fun t => if t = tokenOut then amountOut else 0) ?_ ?_ t
  · intro t
    obtain ⟨hw0, hw1⟩ := Pair.swapReserves_tokens hsw
    obtain ⟨hd, -, hle, hpair⟩ | ⟨hd, -, hle, hpair⟩ := Pair.swapReserves_ok hsw
    · -- `tokenIn` is the pool's `token0`: the input comes into `reserve0`
      have hio : tokenIn < tokenOut := of_decide_eq_true hd
      have hr0' : ({ pool with toPair := pair } : Pool).reserve0 + 0 = pool.reserve0 + amountIn := by
        rw [hpair]
        rfl
      have hr1' : ({ pool with toPair := pair } : Pool).reserve1 + amountOut = pool.reserve1 + 0 := by
        rw [hpair]
        dsimp only
        omega
      have := reserveOf_move hw0 hw1 hr0' hr1' t
      rw [hs0, hs1, min_eq_left hio.le, max_eq_right hio.le] at this
      simpa only [ite_self, Nat.zero_add, Nat.add_zero] using this
    · -- `tokenIn` is the pool's `token1`: the input comes into `reserve1`
      have hio : tokenOut < tokenIn := by
        have hnlt := of_decide_eq_false hd
        -- the pool's tokens differ, so neither precedes the other only when they are equal
        have hne : tokenIn ≠ tokenOut := by
          simp only [getPoolId, sortTokens_eq] at hlt
          exact min_lt_max.1 hlt
        exact lt_of_le_of_ne (not_lt.1 hnlt) hne.symm
      have hr0' : ({ pool with toPair := pair } : Pool).reserve0 + amountOut = pool.reserve0 + 0 := by
        rw [hpair]
        dsimp only
        omega
      have hr1' : ({ pool with toPair := pair } : Pool).reserve1 + 0 = pool.reserve1 + amountIn := by
        rw [hpair]
        rfl
      have := reserveOf_move hw0 hw1 hr0' hr1' t
      rw [hs0, hs1, min_eq_right hio.le, max_eq_left hio.le] at this
      simpa only [ite_self, Nat.zero_add, Nat.add_zero] using this
  · intro t
    have hb₂ := World.balanceOf_callTransfer h₂ hs t
    rw [balanceOf_of_tokens htok, ← World.balanceOf_callTransferFrom h₁ hs t]
    exact hb₂

theorem swapExactTokensForTokens_conserves {tokenIn tokenOut : Address} {amountIn amountOutMin amountOut : Nat}
    (hw : WellFormed w.storage) (hs : msgSender ≠ self)
    (h : swapExactTokensForTokens self msgSender amountIn amountOutMin tokenIn tokenOut w = .ok (w', amountOut))
    (t : Address) : w'.balanceOf self t + w.storage.reservesOf t = w.balanceOf self t + w'.storage.reservesOf t := by
  obtain ⟨hex, -, -, _, _, _, h₁, h₂, hsw, htok, hst⟩ := swapExactTokensForTokens_ok h
  exact swap_conserves hw hs hex h₁ h₂ hsw htok hst t

theorem swapTokensForExactTokens_conserves {tokenIn tokenOut : Address} {amountOut amountInMax amountIn : Nat}
    (hw : WellFormed w.storage) (hs : msgSender ≠ self)
    (h : swapTokensForExactTokens self msgSender amountOut amountInMax tokenIn tokenOut w = .ok (w', amountIn))
    (t : Address) : w'.balanceOf self t + w.storage.reservesOf t = w.balanceOf self t + w'.storage.reservesOf t := by
  obtain ⟨hex, -, -, _, _, _, h₁, h₂, hsw, htok, hst⟩ := swapTokensForExactTokens_ok h
  exact swap_conserves hw hs hex h₁ h₂ hsw htok hst t

theorem createPool_conserves {tokenA tokenB : Address} {poolId : PoolId} (hw : WellFormed w.storage)
    (h : createPool tokenA tokenB w = .ok (w', poolId)) (t : Address) :
    w'.balanceOf self t + w.storage.reservesOf t = w.balanceOf self t + w'.storage.reservesOf t := by
  obtain ⟨-, -, -, rfl, hex, htok, hst⟩ := createPool_ok h
  have hempty := hw.empty _ hex
  have hnot : sortTokens tokenA tokenB ∉ w.storage.poolIds.toFinset := fun hm => by
    rw [List.mem_toFinset, ← hw.listed, hex] at hm
    cases hm
  -- the new pool is listed with nothing recorded, and no listed pool is written
  have hR : w'.storage.reservesOf t = w.storage.reservesOf t := by
    unfold SwapStorage.reservesOf
    rw [hst]
    dsimp only
    rw [List.toFinset_append, List.toFinset_cons, List.toFinset_nil, insert_empty_eq, Finset.union_comm,
      ← Finset.insert_eq, Finset.sum_insert hnot, SwapStorage.setPool_pools, if_pos rfl]
    have hnew :
        ({ w.storage.pools (sortTokens tokenA tokenB) with
            token0 := (sortTokens tokenA tokenB).1
            token1 := (sortTokens tokenA tokenB).2
            «exists» := true } : Pool).reserveOf t = 0 := by
      simp only [Pool.reserveOf, hempty, Pool.empty, ite_self, Nat.add_zero]
    rw [hnew, Nat.zero_add]
    refine Finset.sum_congr rfl fun pid hpid => ?_
    have hne : pid ≠ sortTokens tokenA tokenB := fun he => hnot (he ▸ hpid)
    rw [SwapStorage.setPool_pools, if_neg hne]
  rw [hR, balanceOf_of_tokens htok]

theorem run_conserves {c : SwapCall} (hw : WellFormed w.storage) (hs : msgSender ≠ self)
    (h : SwapCall.run self w (msgSender, c) = .ok w') (t : Address) :
    w'.balanceOf self t + w.storage.reservesOf t = w.balanceOf self t + w'.storage.reservesOf t := by
  cases c with
  | createPool a b =>
    obtain ⟨⟨_, _⟩, hc, rfl⟩ := map_ok_iff.1 h
    exact createPool_conserves hw hc t
  | addLiquidity a b da db ma mb =>
    obtain ⟨⟨_, _⟩, hc, rfl⟩ := map_ok_iff.1 h
    exact addLiquidity_conserves hw hs hc t
  | removeLiquidity a b l ma mb =>
    obtain ⟨⟨_, _⟩, hc, rfl⟩ := map_ok_iff.1 h
    exact removeLiquidity_conserves hw hs hc t
  | swapExactTokensForTokens i o a b =>
    obtain ⟨⟨_, _⟩, hc, rfl⟩ := map_ok_iff.1 h
    exact swapExactTokensForTokens_conserves hw hs hc t
  | swapTokensForExactTokens o i a b =>
    obtain ⟨⟨_, _⟩, hc, rfl⟩ := map_ok_iff.1 h
    exact swapTokensForExactTokens_conserves hw hs hc t

/-- **From deployment, the exchange's balance of every token is its balance at deployment plus what its pools
record**, when no transaction is sent by the exchange itself. -/
theorem Reachable.balance_eq (h : Reachable self {a | a ≠ self} w) :
    ∃ w₀ : World SwapStorage, (∃ owner, w₀.storage = deploy owner) ∧
      ∀ t, w.balanceOf self t = w₀.balanceOf self t + w.storage.reservesOf t := by
  -- the shape of the storage is carried along, since each step's bookkeeping reads it
  have := Txn.Reachable.inv (fun w => WellFormed w.storage ∧ ∃ w₀ : World SwapStorage,
      (∃ owner, w₀.storage = deploy owner) ∧ ∀ t, w.balanceOf self t = w₀.balanceOf self t + w.storage.reservesOf t)
    (fun w₀ ⟨owner, h₀⟩ => ⟨h₀ ▸ deploy_wellFormed owner, w₀, ⟨owner, h₀⟩, fun t => by
      rw [h₀, reservesOf_deploy, Nat.add_zero]⟩)
    (fun w c w' ⟨hw, w₀, h₀, hb⟩ hc => ⟨run_wellFormed hc hw, w₀, h₀, fun t => by
      have := run_conserves hw c.1.2 hc t
      have := hb t
      omega⟩) h
  exact this.2

theorem removeLiquidity_paid_le {tokenA tokenB : Address} {liquidity amountAMin amountBMin amountA amountB : Nat}
    (h : removeLiquidity self msgSender tokenA tokenB liquidity amountAMin amountBMin w = .ok (w', amountA, amountB)) :
    amountA ≤ (if tokenA < tokenB then (w.storage.pools (getPoolId tokenA tokenB)).reserve0
      else (w.storage.pools (getPoolId tokenA tokenB)).reserve1) ∧
    amountB ≤ (if tokenA < tokenB then (w.storage.pools (getPoolId tokenA tokenB)).reserve1
      else (w.storage.pools (getPoolId tokenA tokenB)).reserve0) := by
  obtain ⟨-, -, a0, a1, _, _, -, rfl, -, rfl, -, hwd, -⟩ := removeLiquidity_ok h
  obtain ⟨-, -, -, h0, h1⟩ := Pair.withdraw_ok hwd
  by_cases hab : tokenA < tokenB
  · simp only [if_pos hab]
    exact ⟨h0, h1⟩
  · simp only [if_neg hab]
    exact ⟨h1, h0⟩

/-- **`WATTxSwap` is solvent**: in every state reached by transactions from senders other than the exchange, the
pools together record at most the exchange's balance of each token, and a burn pays at most what its pool recorded. -/
theorem swap_solvent {self : Address} {w : World SwapStorage} (hw : Reachable self {a | a ≠ self} w) :
    (∀ t, w.storage.reservesOf t ≤ w.balanceOf self t) ∧
    ∀ msgSender tokenA tokenB liquidity amountAMin amountBMin w' amountA amountB,
      removeLiquidity self msgSender tokenA tokenB liquidity amountAMin amountBMin w = .ok (w', amountA, amountB) →
        amountA ≤ (if tokenA < tokenB then (w.storage.pools (getPoolId tokenA tokenB)).reserve0
          else (w.storage.pools (getPoolId tokenA tokenB)).reserve1) ∧
        amountB ≤ (if tokenA < tokenB then (w.storage.pools (getPoolId tokenA tokenB)).reserve1
          else (w.storage.pools (getPoolId tokenA tokenB)).reserve0) := by
  obtain ⟨w₀, -, hb⟩ := hw.balance_eq
  refine ⟨fun t => ?_, fun _ _ _ _ _ _ _ _ _ h => removeLiquidity_paid_le h⟩
  rw [hb t]
  exact Nat.le_add_left _ _

/-- The exchange at `9` after the pool of tokens `1` and `2` was created and funded with 2000 of each by `5`. -/
theorem swap_solvent_after_funding :
    ∃ w, Reachable 9 {a | a ≠ 9} w ∧ w.storage.reservesOf 1 = 2000 ∧
      ((∀ t, w.storage.reservesOf t ≤ w.balanceOf 9 t) ∧
      ∀ msgSender tokenA tokenB liquidity amountAMin amountBMin w' amountA amountB,
        removeLiquidity 9 msgSender tokenA tokenB liquidity amountAMin amountBMin w = .ok (w', amountA, amountB) →
          amountA ≤ (if tokenA < tokenB then (w.storage.pools (getPoolId tokenA tokenB)).reserve0
            else (w.storage.pools (getPoolId tokenA tokenB)).reserve1) ∧
          amountB ≤ (if tokenA < tokenB then (w.storage.pools (getPoolId tokenA tokenB)).reserve1
            else (w.storage.pools (getPoolId tokenA tokenB)).reserve0)) := by
  have h5 : (5 : Address) ∈ {a : Address | a ≠ 9} := by decide
  have hw := ((Reachable.init 5 demoTokens).step h5
    (show SwapCall.run 9 _ (5, .createPool 1 2) = _ from rfl)).step h5
    (show SwapCall.run 9 _ (5, .addLiquidity 1 2 2000 2000 0 0) = _ from rfl)
  exact ⟨_, hw, by decide, swap_solvent hw⟩

end Swap
end Wattx
