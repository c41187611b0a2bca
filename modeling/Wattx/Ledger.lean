import Wattx.Tally
import Wattx.SwapReach
/-!
# Ledger — the LP units of both exchanges, and the lock at `address(0)`

Both exchanges keep a pair's LP units twice: per holder in `liquidity` and as a running `totalLiquidity`.  The first
mint writes `liquidity[address(0)] = minimum` but adds only what it mints to the caller to `totalLiquidity`, so the
ledger the code keeps (`Pair.Ledger`) is

  sum of `liquidity` over all holders = `totalLiquidity + liquidity[address(0)]`,

with the lock either unset or `minimum`, and set whenever the pair holds units.  No sender can be `address(0)`, so
nothing moves the lock once written; nothing removes it either when every unit has been burned, and a pair whose
providers burn everything returns to no units and no reserves with the lock still in place.
-/
namespace Wattx

open Checked

namespace Pair

/-- The LP ledger as both exchanges keep it. -/
structure Ledger (minimum : Nat) (pair : Pair) : Prop where
  sums : Tally.SumsTo pair.liquidity (pair.totalLiquidity + pair.liquidity 0)
  locked : pair.liquidity 0 = 0 ∨ pair.liquidity 0 = minimum
  funded : 0 < pair.totalLiquidity → pair.liquidity 0 = minimum

variable {minimum : Nat} {pair pair₁ pair' : Pair} {provider : Address} {liquidity amount0 amount1 : Nat}

theorem ledger_of_empty (hL : pair.totalLiquidity = 0) (hl : ∀ a, pair.liquidity a = 0) : pair.Ledger minimum where
  sums := by
    rw [hL, hl 0, show pair.liquidity = fun _ => 0 from funext hl]
    exact Tally.sumsTo_zero
  locked := .inl (hl 0)
  funded h := by omega

/-- The lock the first mint writes, on a pair with no units. -/
theorem Ledger.lock (hl : pair.Ledger minimum) (hL : pair.totalLiquidity = 0) :
    { pair with liquidity := Function.update pair.liquidity 0 minimum }.Ledger minimum where
  sums := by
    have h := hl.sums.update 0 minimum
    have hv : pair.totalLiquidity + pair.liquidity 0 - pair.liquidity 0 + minimum =
        pair.totalLiquidity + Function.update pair.liquidity 0 minimum 0 := by
      rw [Function.update_self, hL]
      omega
    dsimp only
    rwa [hv] at h
  locked := .inr (Function.update_self 0 minimum pair.liquidity)
  funded _ := Function.update_self 0 minimum pair.liquidity

theorem Ledger.deposit (hl : pair.Ledger minimum) (h0 : pair.liquidity 0 = minimum)
    (hd : pair.deposit provider liquidity amount0 amount1 = .ok pair') (hp : provider ≠ 0) : pair'.Ledger minimum := by
  obtain ⟨rfl, -⟩ := deposit_ok hd
  -- the deposit credits `provider`, so the lock reads as before
  have hp0 : Function.update pair.liquidity provider (pair.liquidity provider + liquidity) 0 = pair.liquidity 0 :=
    Function.update_of_ne (Ne.symm hp) _ _
  refine ⟨?_, ?_, ?_⟩ <;> dsimp only <;> rw [hp0]
  · rw [Nat.add_right_comm]
    exact hl.sums.credit provider liquidity
  · exact hl.locked
  · exact fun _ => h0

/-- A mint and its deposit by a holder other than `address(0)`: the first one writes the lock, a later one finds it
written. -/
theorem Ledger.mint_deposit (hl : pair.Ledger minimum)
    (hm : Amm.mint minimum pair amount0 amount1 = .ok (liquidity, pair₁))
    (hd : pair₁.deposit provider liquidity amount0 amount1 = .ok pair') (hp : provider ≠ 0) : pair'.Ledger minimum := by
  obtain ⟨hL, -, _, -, -, -, rfl⟩ | ⟨hL, -, -, -, -, -, rfl⟩ := Amm.mint_ok hm
  · exact (hl.lock hL).deposit (Function.update_self 0 minimum pair.liquidity) hd hp
  · exact hl.deposit (hl.funded hL) hd hp

theorem Ledger.withdraw (hl : pair.Ledger minimum) (hw : pair.withdraw provider liquidity amount0 amount1 = .ok pair')
    (hp : provider ≠ 0) : pair'.Ledger minimum := by
  obtain ⟨rfl, hlp, hlL, -, -⟩ := withdraw_ok hw
  have hp0 : Function.update pair.liquidity provider (pair.liquidity provider - liquidity) 0 = pair.liquidity 0 :=
    Function.update_of_ne (Ne.symm hp) _ _
  refine ⟨?_, ?_, ?_⟩ <;> dsimp only <;> rw [hp0]
  · have h := hl.sums.debit hlp
    rwa [show pair.totalLiquidity + pair.liquidity 0 - liquidity = pair.totalLiquidity - liquidity + pair.liquidity 0
      by omega] at h
  · exact hl.locked
  · -- units left after the burn were there before it
    exact fun hpos => hl.funded (by omega)

theorem Ledger.swapReserves {isToken0In : Bool} {amountIn amountOut : Nat} (hl : pair.Ledger minimum)
    (h : pair.swapReserves isToken0In amountIn amountOut = .ok pair') : pair'.Ledger minimum := by
  obtain ⟨-, -, -, rfl⟩ | ⟨-, -, -, rfl⟩ := swapReserves_ok h <;> exact ⟨hl.sums, hl.locked, hl.funded⟩

end Pair

namespace Swap

theorem ledger_poolStep {msgSender : Address} (hs : msgSender ≠ 0) :
    PoolStep msgSender (Pair.Ledger MINIMUM_LIQUIDITY) where
  create _ _ hl := ⟨hl.sums, hl.locked, hl.funded⟩
  mintDeposit hl hm _ hd := hl.mint_deposit hm hd hs
  burnWithdraw hl _ hw := hl.withdraw hw hs
  swap hl _ hsw := hl.swapReserves hsw

theorem Reachable.ledger {self : Address} {senders : Set Address} {w : World SwapStorage}
    (hs : ∀ s ∈ senders, s ≠ 0) (h : Reachable self senders w) :
    ∀ pid, (w.storage.pools pid).Ledger MINIMUM_LIQUIDITY :=
  h.pools (fun s hm => ledger_poolStep (hs s hm)) (Pair.ledger_of_empty rfl fun _ => rfl)

end Swap

namespace SimpleDex

variable {self msgSender : Address} {w w' : World SimpleDexStorage}

theorem run_ledger {c : DexCall} (hs : msgSender ≠ 0) (h : DexCall.run self w (msgSender, c) = .ok w')
    (hl : w.storage.Ledger MIN_LIQUIDITY) : w'.storage.Ledger MIN_LIQUIDITY := by
  cases c with
  | addLiquidity a0 a1 =>
    obtain ⟨⟨_, _⟩, hc, rfl⟩ := map_ok_iff.1 h
    obtain ⟨-, -, -, _, _, _, _, -, -, hm, hd, -, hst⟩ := addLiquidity_ok hc
    rw [hst]
    exact hl.mint_deposit hm hd hs
  | removeLiquidity l =>
    obtain ⟨⟨_, _⟩, hc, rfl⟩ := map_ok_iff.1 h
    obtain ⟨-, -, -, _, _, hw, -, -, hst⟩ := removeLiquidity_ok hc
    rw [hst]
    exact hl.withdraw hw hs
  | swap t a m =>
    obtain ⟨⟨_, _⟩, hc, rfl⟩ := map_ok_iff.1 h
    obtain ⟨-, -, -, -, _, _, _, -, -, hsw, -, hst⟩ := swap_ok hc
    rw [hst]
    exact hl.swapReserves hsw

theorem Reachable.ledger {senders : Set Address} (hs : ∀ s ∈ senders, s ≠ 0) (h : Reachable self senders w) :
    w.storage.Ledger MIN_LIQUIDITY :=
  Txn.Reachable.inv (fun w => w.storage.Ledger MIN_LIQUIDITY)
    (fun _ ⟨_, _, _, hd⟩ => by
      obtain ⟨hL, hl, -, -⟩ := deploy_ok hd
      exact Pair.ledger_of_empty hL hl)
    (fun _ c _ hl hc => run_ledger (hs c.1.1 c.1.2) hc hl) h

end SimpleDex

/-- **In both exchanges the LP units of all holders add up to `totalLiquidity` plus the lock at `address(0)`**: in
every state reached by senders other than `address(0)`, each pair has finitely many holders, their units sum to
`totalLiquidity + liquidity[0]`, and the lock is unset or the minimum, and set whenever the pair holds units. -/
theorem lp_ledger_with_lock :
    (∀ {self : Address} {w : World SwapStorage}, Swap.Reachable self {a | a ≠ 0} w → ∀ pid,
      (Function.support (w.storage.pools pid).liquidity).Finite ∧
      ∑ᶠ p, (w.storage.pools pid).liquidity p =
        (w.storage.pools pid).totalLiquidity + (w.storage.pools pid).liquidity 0 ∧
      ((w.storage.pools pid).liquidity 0 = 0 ∨ (w.storage.pools pid).liquidity 0 = Swap.MINIMUM_LIQUIDITY) ∧
      (0 < (w.storage.pools pid).totalLiquidity → (w.storage.pools pid).liquidity 0 = Swap.MINIMUM_LIQUIDITY)) ∧
    (∀ {self : Address} {w : World SimpleDexStorage}, SimpleDex.Reachable self {a | a ≠ 0} w →
      (Function.support w.storage.liquidity).Finite ∧
      ∑ᶠ p, w.storage.liquidity p = w.storage.totalLiquidity + w.storage.liquidity 0 ∧
      (w.storage.liquidity 0 = 0 ∨ w.storage.liquidity 0 = SimpleDex.MIN_LIQUIDITY) ∧
      (0 < w.storage.totalLiquidity → w.storage.liquidity 0 = SimpleDex.MIN_LIQUIDITY)) := by
  refine ⟨fun hw pid => ?_, fun hw => ?_⟩
  · have hl := hw.ledger (fun _ h => h) pid
    exact ⟨hl.sums.support_finite, hl.sums.finsum_eq, hl.locked, hl.funded⟩
  · have hl := hw.ledger fun _ h => h
    exact ⟨hl.sums.support_finite, hl.sums.finsum_eq, hl.locked, hl.funded⟩

/-- Each exchange funded by `5` with 2000 of tokens `1` and `2`: 1000 units minted and 1000 locked. -/
theorem lp_ledger_with_lock_after_funding :
    ∃ w₁ w₂, Swap.Reachable 9 {a | a ≠ 0} w₁ ∧ SimpleDex.Reachable 9 {a | a ≠ 0} w₂ ∧
      ∑ᶠ p, (w₁.storage.pools (1, 2)).liquidity p = 2000 ∧ ∑ᶠ p, w₂.storage.liquidity p = 2000 := by
  have h5 : (5 : Address) ∈ {a : Address | a ≠ 0} := by decide
  have hw₁ := ((Swap.Reachable.init 5 demoTokens).step h5
    (show Swap.SwapCall.run 9 _ (5, .createPool 1 2) = _ from rfl)).step h5
    (show Swap.SwapCall.run 9 _ (5, .addLiquidity 1 2 2000 2000 0 0) = _ from rfl)
  have hw₂ := (SimpleDex.Reachable.init (show SimpleDex.deploy 5 1 2 = .ok _ from rfl) demoTokens).step h5
    (show SimpleDex.DexCall.run 9 _ (5, .addLiquidity 2000 2000) = _ from rfl)
  refine ⟨_, _, hw₁, hw₂, ?_, ?_⟩
  · rw [(lp_ledger_with_lock.1 hw₁ (1, 2)).2.1]
    decide
  · rw [(lp_ledger_with_lock.2 hw₂).2.1]
    decide

/-- **The lock is not counted in `totalLiquidity`, and a funded pair can be drained**: after `5` funds either
exchange with 2000 of tokens `1` and `2`, its holders hold twice the `totalLiquidity` of 1000; when `5` then burns
its 1000 units, the pair is back to no units and no reserves, below the minimum, with the lock still recorded. -/
theorem lp_lock_uncounted_then_drained :
    (∃ w₁ w₂, Swap.Reachable 9 {a | a ≠ 0} w₁ ∧
      Swap.SwapCall.run 9 w₁ (5, .removeLiquidity 1 2 1000 0 0) = .ok w₂ ∧
      (w₁.storage.pools (1, 2)).totalLiquidity = Swap.MINIMUM_LIQUIDITY ∧
      ∑ᶠ p, (w₁.storage.pools (1, 2)).liquidity p = 2 * Swap.MINIMUM_LIQUIDITY ∧
      (w₂.storage.pools (1, 2)).totalLiquidity = 0 ∧ (w₂.storage.pools (1, 2)).reserve0 = 0 ∧
      (w₂.storage.pools (1, 2)).reserve1 = 0 ∧ (w₂.storage.pools (1, 2)).liquidity 0 = Swap.MINIMUM_LIQUIDITY) ∧
    (∃ w₁ w₂, SimpleDex.Reachable 9 {a | a ≠ 0} w₁ ∧
      SimpleDex.DexCall.run 9 w₁ (5, .removeLiquidity 1000) = .ok w₂ ∧
      w₁.storage.totalLiquidity = SimpleDex.MIN_LIQUIDITY ∧
      ∑ᶠ p, w₁.storage.liquidity p = 2 * SimpleDex.MIN_LIQUIDITY ∧
      w₂.storage.totalLiquidity = 0 ∧ w₂.storage.reserve0 = 0 ∧ w₂.storage.reserve1 = 0 ∧
      w₂.storage.liquidity 0 = SimpleDex.MIN_LIQUIDITY) := by
  have h5 : (5 : Address) ∈ {a : Address | a ≠ 0} := by decide
  have hw₁ := ((Swap.Reachable.init 5 demoTokens).step h5
    (show Swap.SwapCall.run 9 _ (5, .createPool 1 2) = _ from rfl)).step h5
    (show Swap.SwapCall.run 9 _ (5, .addLiquidity 1 2 2000 2000 0 0) = _ from rfl)
  have hw₂ := (SimpleDex.Reachable.init (show SimpleDex.deploy 5 1 2 = .ok _ from rfl) demoTokens).step h5
    (show SimpleDex.DexCall.run 9 _ (5, .addLiquidity 2000 2000) = _ from rfl)
  -- the sum over all holders is the ledger's `totalLiquidity + liquidity[0]`
  have hs₁ := (hw₁.ledger (fun _ h => h) (1, 2)).sums.finsum_eq
  have hs₂ := (hw₂.ledger fun _ h => h).sums.finsum_eq
  refine ⟨⟨_, _, hw₁, rfl, by decide, ?_, by decide, by decide, by decide, by decide⟩,
    ⟨_, _, hw₂, rfl, by decide, ?_, by decide, by decide, by decide, by decide⟩⟩
  · rw [hs₁]
    decide
  · rw [hs₂]
    decide

end Wattx
