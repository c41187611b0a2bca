import Wattx.Amm
import Wattx.Txn
/-!
# SimpleDex — the single-pair exchange `SimpleDEX` (`contracts/dex/SimpleDEX.sol`)

One constant-product pair, fixed at construction: the state variables are a `Pair` and the owner.  `addLiquidity`
takes both amounts as given (nonzero) and mints against them, `removeLiquidity` burns a positive number of LP units,
and `swap` sells either token for the other less the 0.3% fee.  The constructor orders the two token addresses and
refuses equal or zero ones.  The view functions (`getReserves`, `getAmountOut`) change nothing and are not modelled;
neither are the events.

Unlike `WATTxSwap`, `addLiquidity` pulls the tokens before it mints, `removeLiquidity` writes the pair before it
pays, and `swap` has no `require` on the reserves: a sale into an empty input reserve is priced at all of the output
reserve.
-/
namespace Wattx

/-- The state variables of `SimpleDEX`. -/
structure SimpleDexStorage extends Pair where
  owner : Address

open Checked

namespace SimpleDex

def FEE_BPS : Nat := 30
def BPS : Nat := 10000
def MIN_LIQUIDITY : Nat := 1000

/-- The constructor, run by `msgSender`. -/
def deploy (msgSender _token0 _token1 : Address) : Except Revert SimpleDexStorage := do
  require (_token0 ≠ _token1) "IDENTICAL"
  require (_token0 ≠ 0 ∧ _token1 ≠ 0) "ZERO"
  let (token0, token1) := if _token0 < _token1 then (_token0, _token1) else (_token1, _token0)
  pure { token0, token1, reserve0 := 0, reserve1 := 0, totalLiquidity := 0, liquidity := fun _ => 0,
         owner := msgSender }

/-- `addLiquidity(amount0, amount1)`, called by `msgSender` on the contract at `self`. -/
def addLiquidity (self msgSender : Address) (amount0 amount1 : Nat) (w : World SimpleDexStorage) :
    Except Revert (World SimpleDexStorage × Nat) := do
  require (amount0 > 0 ∧ amount1 > 0) "ZERO_AMOUNT"
  let w ← w.callTransferFrom self w.storage.token0 msgSender amount0 "TF0"
  let w ← w.callTransferFrom self w.storage.token1 msgSender amount1 "TF1"
  let (lp, pair) ← Amm.mint MIN_LIQUIDITY w.storage.toPair amount0 amount1
  require (lp > 0) "LP_ZERO"
  let pair ← pair.deposit msgSender lp amount0 amount1
  pure ({ w with storage := { w.storage with toPair := pair } }, lp)

/-- `removeLiquidity(lpAmount)`, called by `msgSender` on the contract at `self`. -/
def removeLiquidity (self msgSender : Address) (lpAmount : Nat) (w : World SimpleDexStorage) :
    Except Revert (World SimpleDexStorage × Nat × Nat) := do
  require (lpAmount > 0 ∧ w.storage.liquidity msgSender ≥ lpAmount) "INSUFF_LP"
  let (amount0, amount1) ← Amm.burnAmounts w.storage.toPair lpAmount
  let pair ← w.storage.withdraw msgSender lpAmount amount0 amount1
  let w := { w with storage := { w.storage with toPair := pair } }
  let w ← w.callTransfer self w.storage.token0 msgSender amount0 "T0"
  let w ← w.callTransfer self w.storage.token1 msgSender amount1 "T1"
  pure (w, amount0, amount1)

/-- `swap(tokenIn, amountIn, minOut)`, called by `msgSender` on the contract at `self`. -/
def swap (self msgSender tokenIn : Address) (amountIn minOut : Nat) (w : World SimpleDexStorage) :
    Except Revert (World SimpleDexStorage × Nat) := do
  let st := w.storage
  require (tokenIn = st.token0 ∨ tokenIn = st.token1) "INVALID_TOKEN"
  require (amountIn > 0) "ZERO_IN"
  let isToken0 := decide (tokenIn = st.token0)
  let (resIn, resOut) := if isToken0 then (st.reserve0, st.reserve1) else (st.reserve1, st.reserve0)
  let tokenOut := if isToken0 then st.token1 else st.token0
  let amountOut ← Amm.quoteOut BPS FEE_BPS amountIn resIn resOut
  require (amountOut ≥ minOut) "SLIPPAGE"
  let w ← w.callTransferFrom self tokenIn msgSender amountIn "TIN"
  let w ← w.callTransfer self tokenOut msgSender amountOut "TOUT"
  let pair ← st.swapReserves isToken0 amountIn amountOut
  pure ({ w with storage := { st with toPair := pair } }, amountOut)

/-! ## What a successful call did -/

section
variable {self msgSender : Address} {w w' : World SimpleDexStorage}

/-- What a successful `addLiquidity` did: it took both amounts from the caller, minted `lp > 0` units and deposited
them with the amounts. -/
theorem addLiquidity_ok {amount0 amount1 lp : Nat} (h : addLiquidity self msgSender amount0 amount1 w = .ok (w', lp)) :
    0 < amount0 ∧ 0 < amount1 ∧ 0 < lp ∧
    ∃ pair₁ pair₂ w₁ w₂,
      w.callTransferFrom self w.storage.token0 msgSender amount0 "TF0" = .ok w₁ ∧
      w₁.callTransferFrom self w.storage.token1 msgSender amount1 "TF1" = .ok w₂ ∧
      Amm.mint MIN_LIQUIDITY w.storage.toPair amount0 amount1 = .ok (lp, pair₁) ∧
      pair₁.deposit msgSender lp amount0 amount1 = .ok pair₂ ∧ w'.tokens = w₂.tokens ∧
      w'.storage = { w.storage with toPair := pair₂ } := by
  simp only [addLiquidity, bind_ok_iff, require_ok_iff, pure, Except.pure, Except.ok.injEq, Prod.mk.injEq] at h
  obtain ⟨_, ⟨h0, h1⟩, w₁, hw₁, w₂, hw₂, ⟨l, pair₁⟩, hmint, _, hl, pair₂, hdep, rfl, rfl⟩ := h
  have hs₁ := (World.callTransferFrom_ok hw₁).1
  have hs₂ := (World.callTransferFrom_ok hw₂).1
  rw [hs₁] at hw₂
  rw [hs₂, hs₁] at hmint ⊢
  exact ⟨h0, h1, hl, pair₁, pair₂, w₁, w₂, hw₁, hw₂, hmint, hdep, rfl, rfl⟩

/-- What a successful `removeLiquidity` did: it burned `lpAmount > 0` of the caller's units, took the amounts out of
the pair, and then paid them to the caller. -/
theorem removeLiquidity_ok {lpAmount amount0 amount1 : Nat}
    (h : removeLiquidity self msgSender lpAmount w = .ok (w', amount0, amount1)) :
    0 < lpAmount ∧ lpAmount ≤ w.storage.liquidity msgSender ∧
    Amm.burnAmounts w.storage.toPair lpAmount = .ok (amount0, amount1) ∧
    ∃ pair w₁,
      w.storage.withdraw msgSender lpAmount amount0 amount1 = .ok pair ∧
      World.callTransfer { w with storage := { w.storage with toPair := pair } }
        self w.storage.token0 msgSender amount0 "T0" = .ok w₁ ∧
      w₁.callTransfer self w.storage.token1 msgSender amount1 "T1" = .ok w' ∧
      w'.storage = { w.storage with toPair := pair } := by
  simp only [removeLiquidity, bind_ok_iff, require_ok_iff, pure, Except.pure, Except.ok.injEq, Prod.mk.injEq] at h
  obtain ⟨_, ⟨hpos, hliq⟩, ⟨a0, a1⟩, hburn, pair, hw, w₁, h₁, w₂, h₂, rfl, rfl, rfl⟩ := h
  -- the transfers read the tokens back from the pair just written, which `withdraw` leaves as they were
  obtain ⟨hpair, -⟩ := Pair.withdraw_ok hw
  have hs₁ := (World.callTransfer_ok h₁).1
  have hs₂ := (World.callTransfer_ok h₂).1
  rw [hs₁] at h₂
  subst hpair
  refine ⟨hpos, hliq, hburn, _, w₁, hw, h₁, h₂, ?_⟩
  rw [hs₂, hs₁]

/-- What a successful `swap` did: `tokenIn` is one of the pair's, the output was quoted for `amountIn`, the two
transfers ran, and both reserves moved. -/
theorem swap_ok {tokenIn : Address} {amountIn minOut amountOut : Nat}
    (h : swap self msgSender tokenIn amountIn minOut w = .ok (w', amountOut)) :
    (tokenIn = w.storage.token0 ∨ tokenIn = w.storage.token1) ∧ 0 < amountIn ∧
    Amm.quoteOut BPS FEE_BPS amountIn
      (if tokenIn = w.storage.token0 then w.storage.reserve0 else w.storage.reserve1)
      (if tokenIn = w.storage.token0 then w.storage.reserve1 else w.storage.reserve0) = .ok amountOut ∧
    minOut ≤ amountOut ∧
    ∃ pair w₁ w₂,
      w.callTransferFrom self tokenIn msgSender amountIn "TIN" = .ok w₁ ∧
      w₁.callTransfer self (if tokenIn = w.storage.token0 then w.storage.token1 else w.storage.token0) msgSender
        amountOut "TOUT" = .ok w₂ ∧
      w.storage.swapReserves (decide (tokenIn = w.storage.token0)) amountIn amountOut = .ok pair ∧
      w'.tokens = w₂.tokens ∧ w'.storage = { w.storage with toPair := pair } := by
  simp only [swap, bind_ok_iff, require_ok_iff, pure, Except.pure, Except.ok.injEq, Prod.mk.injEq] at h
  obtain ⟨_, htok, _, hin, out, hq, _, hmin, w₁, h₁, w₂, h₂, pair, hsw, rfl, rfl⟩ := h
  refine ⟨htok, hin, ?_, hmin, pair, w₁, w₂, h₁, ?_, hsw, rfl, rfl⟩
  · by_cases ht : tokenIn = w.storage.token0 <;> simpa [ht] using hq
  · by_cases ht : tokenIn = w.storage.token0 <;> simpa [ht] using h₂

end

/-- The entry points that change state. -/
inductive DexCall where
  | addLiquidity (amount0 amount1 : Nat)
  | removeLiquidity (lpAmount : Nat)
  | swap (tokenIn : Address) (amountIn minOut : Nat)

/-- One transaction to the contract at `self` by `msgSender`, its return values dropped. -/
def DexCall.run (self : Address) (w : World SimpleDexStorage) : Address × DexCall → Except Revert (World SimpleDexStorage)
  | (s, .addLiquidity a0 a1) => Prod.fst <$> SimpleDex.addLiquidity self s a0 a1 w
  | (s, .removeLiquidity l) => Prod.fst <$> SimpleDex.removeLiquidity self s l w
  | (s, .swap t a m) => Prod.fst <$> SimpleDex.swap self s t a m w

/-- The states the contract at `self` reaches from its construction by transactions from `senders`. -/
def Reachable (self : Address) (senders : Set Address) : World SimpleDexStorage → Prop :=
  Txn.Reachable (fun w => ∃ msgSender _token0 _token1, deploy msgSender _token0 _token1 = .ok w.storage)
    (fun w (c : senders × DexCall) => DexCall.run self w (c.1.1, c.2))

theorem Reachable.init {self msgSender _token0 _token1 : Address} {senders : Set Address} {st : SimpleDexStorage}
    (h : deploy msgSender _token0 _token1 = .ok st) (tokens : Address → Erc20) : Reachable self senders ⟨st, tokens⟩ :=
  Txn.Reachable.of_init ⟨msgSender, _token0, _token1, h⟩

theorem Reachable.step {self msgSender : Address} {senders : Set Address} {c : DexCall}
    {w w' : World SimpleDexStorage} (h : Reachable self senders w) (hs : msgSender ∈ senders)
    (hc : DexCall.run self w (msgSender, c) = .ok w') : Reachable self senders w' :=
  let ⟨w₀, h₀, hr⟩ := h
  ⟨w₀, h₀, hr.tail ⟨(⟨msgSender, hs⟩, c), hc⟩⟩

theorem deploy_ok {msgSender _token0 _token1 : Address} {st : SimpleDexStorage}
    (h : deploy msgSender _token0 _token1 = .ok st) :
    st.totalLiquidity = 0 ∧ (∀ a, st.liquidity a = 0) ∧ st.reserve0 = 0 ∧ st.reserve1 = 0 := by
  simp only [deploy, bind_ok_iff, require_ok_iff, pure, Except.pure, Except.ok.injEq] at h
  obtain ⟨_, -, _, -, rfl⟩ := h
  exact ⟨rfl, fun _ => rfl, rfl, rfl⟩

end SimpleDex
end Wattx
