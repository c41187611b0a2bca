import Wattx.Babylonian
import Wattx.Erc20
/-!
# Amm — the storage and the code both exchanges share

`WATTxSwap` keeps a `Pool` per token pair and `SimpleDEX` keeps one pair in its state variables, with the same six
fields (`Pair`), and both update them with the same statements: the four `+=` that end an `addLiquidity`
(`Pair.deposit`), the four `-=` of a `removeLiquidity` (`Pair.withdraw`), the reserve update of a swap
(`Pair.swapReserves`), the LP units a deposit mints (`Amm.mint`: the square root of the product less a locked
minimum on the first one, the smaller proportional share after), the amounts a burn pays (`Amm.burnAmounts`) and the
output of a sale less the 0.3% fee (`Amm.quoteOut`).  Each is written once here and called by the two contracts with
their own constants; `sqrt` and `min` are the same code in both.

Every operation is checked arithmetic in `Except Revert`, and each has the one `_ok` lemma its callers read.
`sqrt` returns `⌊√y⌋` for every `uint256` and never reverts (`sqrt_eq_floor`): its loop is `Babylonian.step` from
`y / 2 + 1` while the step falls.
-/
namespace Wattx

/-- The storage of one constant-product pair: `WATTxSwap`'s `Pool` less `exists`, and `SimpleDEX`'s state. -/
structure Pair where
  token0 : Address
  token1 : Address
  reserve0 : Nat
  reserve1 : Nat
  totalLiquidity : Nat
  liquidity : Address → Nat

open Checked

namespace Pair

/-- The four `+=` that end `addLiquidity`. -/
def deposit (pair : Pair) (provider : Address) (liquidity amount0 amount1 : Nat) : Except Revert Pair := do
  let balance ← add 256 (pair.liquidity provider) liquidity
  let totalLiquidity ← add 256 pair.totalLiquidity liquidity
  let reserve0 ← add 256 pair.reserve0 amount0
  let reserve1 ← add 256 pair.reserve1 amount1
  pure { pair with liquidity := Function.update pair.liquidity provider balance, totalLiquidity, reserve0, reserve1 }

/-- The four `-=` of `removeLiquidity`. -/
def withdraw (pair : Pair) (provider : Address) (liquidity amount0 amount1 : Nat) : Except Revert Pair := do
  let balance ← sub (pair.liquidity provider) liquidity
  let totalLiquidity ← sub pair.totalLiquidity liquidity
  let reserve0 ← sub pair.reserve0 amount0
  let reserve1 ← sub pair.reserve1 amount1
  pure { pair with liquidity := Function.update pair.liquidity provider balance, totalLiquidity, reserve0, reserve1 }

/-- The reserve update that ends a swap. -/
def swapReserves (pair : Pair) (isToken0In : Bool) (amountIn amountOut : Nat) : Except Revert Pair :=
  if isToken0In then do
    let reserve0 ← add 256 pair.reserve0 amountIn
    let reserve1 ← sub pair.reserve1 amountOut
    pure { pair with reserve0, reserve1 }
  else do
    let reserve1 ← add 256 pair.reserve1 amountIn
    let reserve0 ← sub pair.reserve0 amountOut
    pure { pair with reserve0, reserve1 }

variable {pair pair' : Pair} {provider : Address} {liquidity amount0 amount1 : Nat}

theorem deposit_ok (h : pair.deposit provider liquidity amount0 amount1 = .ok pair') :
    pair' =
      { pair with
        liquidity := Function.update pair.liquidity provider (pair.liquidity provider + liquidity)
        totalLiquidity := pair.totalLiquidity + liquidity
        reserve0 := pair.reserve0 + amount0
        reserve1 := pair.reserve1 + amount1 } ∧
    pair.liquidity provider + liquidity < 2 ^ 256 ∧ pair.totalLiquidity + liquidity < 2 ^ 256 ∧
    pair.reserve0 + amount0 < 2 ^ 256 ∧ pair.reserve1 + amount1 < 2 ^ 256 := by
  simp only [deposit, bind_ok_iff, add_ok_iff, pure, Except.pure, Except.ok.injEq] at h
  obtain ⟨_, ⟨hb, rfl⟩, _, ⟨ht, rfl⟩, _, ⟨h0, rfl⟩, _, ⟨h1, rfl⟩, rfl⟩ := h
  exact ⟨rfl, hb, ht, h0, h1⟩

theorem withdraw_ok (h : pair.withdraw provider liquidity amount0 amount1 = .ok pair') :
    pair' =
      { pair with
        liquidity := Function.update pair.liquidity provider (pair.liquidity provider - liquidity)
        totalLiquidity := pair.totalLiquidity - liquidity
        reserve0 := pair.reserve0 - amount0
        reserve1 := pair.reserve1 - amount1 } ∧
    liquidity ≤ pair.liquidity provider ∧ liquidity ≤ pair.totalLiquidity ∧
    amount0 ≤ pair.reserve0 ∧ amount1 ≤ pair.reserve1 := by
  simp only [withdraw, bind_ok_iff, sub_ok_iff, pure, Except.pure, Except.ok.injEq] at h
  obtain ⟨_, ⟨hb, rfl⟩, _, ⟨ht, rfl⟩, _, ⟨h0, rfl⟩, _, ⟨h1, rfl⟩, rfl⟩ := h
  exact ⟨rfl, hb, ht, h0, h1⟩

theorem swapReserves_ok {isToken0In : Bool} {amountIn amountOut : Nat}
    (h : pair.swapReserves isToken0In amountIn amountOut = .ok pair') :
    (isToken0In = true ∧ pair.reserve0 + amountIn < 2 ^ 256 ∧ amountOut ≤ pair.reserve1 ∧
      pair' = { pair with reserve0 := pair.reserve0 + amountIn, reserve1 := pair.reserve1 - amountOut }) ∨
    (isToken0In = false ∧ pair.reserve1 + amountIn < 2 ^ 256 ∧ amountOut ≤ pair.reserve0 ∧
      pair' = { pair with reserve0 := pair.reserve0 - amountOut, reserve1 := pair.reserve1 + amountIn }) := by
  cases isToken0In with
  | true =>
    simp only [swapReserves, if_true, bind_ok_iff, add_ok_iff, sub_ok_iff, pure, Except.pure,
      Except.ok.injEq] at h
    obtain ⟨_, ⟨h0, rfl⟩, _, ⟨h1, rfl⟩, rfl⟩ := h
    exact .inl ⟨rfl, h0, h1, rfl⟩
  | false =>
    simp only [swapReserves, Bool.false_eq_true, if_false, bind_ok_iff, add_ok_iff, sub_ok_iff, pure,
      Except.pure, Except.ok.injEq] at h
    obtain ⟨_, ⟨h1, rfl⟩, _, ⟨h0, rfl⟩, rfl⟩ := h
    exact .inr ⟨rfl, h1, h0, rfl⟩

theorem deposit_tokens (h : pair.deposit provider liquidity amount0 amount1 = .ok pair') :
    pair'.token0 = pair.token0 ∧ pair'.token1 = pair.token1 := by
  obtain ⟨rfl, -⟩ := deposit_ok h
  exact ⟨rfl, rfl⟩

theorem withdraw_tokens (h : pair.withdraw provider liquidity amount0 amount1 = .ok pair') :
    pair'.token0 = pair.token0 ∧ pair'.token1 = pair.token1 := by
  obtain ⟨rfl, -⟩ := withdraw_ok h
  exact ⟨rfl, rfl⟩

theorem swapReserves_tokens {isToken0In : Bool} {amountIn amountOut : Nat}
    (h : pair.swapReserves isToken0In amountIn amountOut = .ok pair') :
    pair'.token0 = pair.token0 ∧ pair'.token1 = pair.token1 := by
  obtain ⟨-, -, -, rfl⟩ | ⟨-, -, -, rfl⟩ := swapReserves_ok h <;> exact ⟨rfl, rfl⟩

/-! The pair updates only add and subtract: they never divide. -/

theorem deposit_ne_division : pair.deposit provider liquidity amount0 amount1 ≠ .error (.panic divisionPanic) := by
  simp only [deposit, ne_eq, bind_error_iff, add_ne_division, pure, Except.pure, reduceCtorEq, and_false,
    exists_false, or_false, not_false_eq_true]

theorem withdraw_ne_division : pair.withdraw provider liquidity amount0 amount1 ≠ .error (.panic divisionPanic) := by
  simp only [withdraw, ne_eq, bind_error_iff, sub_ne_division, pure, Except.pure, reduceCtorEq, and_false,
    exists_false, or_false, not_false_eq_true]

theorem swapReserves_ne_division {isToken0In : Bool} {amountIn amountOut : Nat} :
    pair.swapReserves isToken0In amountIn amountOut ≠ .error (.panic divisionPanic) := by
  cases isToken0In <;>
    simp only [swapReserves, Bool.false_eq_true, if_false, if_true, ne_eq, bind_error_iff, add_ne_division,
      sub_ne_division, pure, Except.pure, reduceCtorEq, and_false, exists_false, or_false,
      not_false_eq_true]

end Pair

namespace Amm

/-- The `while (x < z)` loop of `sqrt`, on at most `fuel` rounds. -/
def sqrtLoop (y : Nat) : Nat → Nat → Nat → Except Revert Nat
  | 0, z, _ => .ok z
  | fuel + 1, z, x =>
    if x < z then do
      let q ← div y x
      let s ← add 256 q x
      sqrtLoop y fuel x (s / 2)
    else .ok z

/-- `sqrt` of both contracts: the Babylonian integer square root.  Its `z` starts at `y` and falls at every round,
so `y` rounds are always enough. -/
def sqrt (y : Nat) : Except Revert Nat :=
  if y > 3 then do
    let x ← add 256 (y / 2) 1
    sqrtLoop y y y x
  else if y ≠ 0 then .ok 1
  else .ok 0

/-- `min` of `WATTxSwap`; `SimpleDEX` writes the same `lp0 < lp1 ? lp0 : lp1` inline. -/
def min (a b : Nat) : Nat := if a < b then a else b

/-- The LP units a deposit of `amount0` and `amount1` mints, and the pair after the first deposit's lock of
`minimum` units at `address(0)`: `sqrt(amount0 * amount1) - minimum` on the first deposit, the smaller of the two
proportional shares after. -/
def mint (minimum : Nat) (pair : Pair) (amount0 amount1 : Nat) : Except Revert (Nat × Pair) :=
  if pair.totalLiquidity = 0 then do
    let product ← mul 256 amount0 amount1
    let root ← sqrt product
    let liquidity ← sub root minimum
    pure (liquidity, { pair with liquidity := Function.update pair.liquidity 0 minimum })
  else do
    let p0 ← mul 256 amount0 pair.totalLiquidity
    let l0 ← div p0 pair.reserve0
    let p1 ← mul 256 amount1 pair.totalLiquidity
    let l1 ← div p1 pair.reserve1
    pure (min l0 l1, pair)

/-- The amounts a burn of `liquidity` units pays, `liquidity * reserve / totalLiquidity` of each side. -/
def burnAmounts (pair : Pair) (liquidity : Nat) : Except Revert (Nat × Nat) := do
  let p0 ← mul 256 liquidity pair.reserve0
  let amount0 ← div p0 pair.totalLiquidity
  let p1 ← mul 256 liquidity pair.reserve1
  let amount1 ← div p1 pair.totalLiquidity
  pure (amount0, amount1)

/-- The output of a sale of `amountIn`, less a fee of `feeBps` in `bps`. -/
def quoteOut (bps feeBps amountIn reserveIn reserveOut : Nat) : Except Revert Nat := do
  let amountInWithFee ← mul 256 amountIn (bps - feeBps)
  let numerator ← mul 256 amountInWithFee reserveOut
  let scaled ← mul 256 reserveIn bps
  let denominator ← add 256 scaled amountInWithFee
  div numerator denominator

theorem min_eq (a b : Nat) : min a b = Min.min a b := by
  unfold min
  split <;> omega

theorem sqrt_zero : sqrt 0 = .ok 0 := rfl

/-- The loop divides by its `x`, which never reaches zero: `(y / x + x) / 2` is at least one for `y > 3`. -/
theorem sqrtLoop_ne_division {y : Nat} (hy : 3 < y) :
    ∀ fuel z x, 0 < x → sqrtLoop y fuel z x ≠ .error (.panic divisionPanic)
  | 0, z, x, _ => by simp [sqrtLoop]
  | fuel + 1, z, x, hx => by
    unfold sqrtLoop
    split
    · intro h
      rw [bind_error_iff] at h
      obtain h | ⟨q, hq, h⟩ := h
      · rw [div_error_iff] at h
        omega
      rw [bind_error_iff] at h
      obtain h | ⟨s, hs, h⟩ := h
      · exact add_ne_division _ _ _ h
      -- the next `x` is `(y / x + x) / 2`, at least one
      have hq' : q = y / x := ((div_ok_iff _ _ _).1 hq).2
      have hs' : s = q + x := ((add_ok_iff _ _ _ _).1 hs).2
      have hpos : 0 < s / 2 := by
        rcases Nat.lt_or_ge x 2 with hx2 | hx2
        · have : x = 1 := by omega
          subst this
          rw [Nat.div_one] at hq'
          omega
        · omega
      exact sqrtLoop_ne_division hy fuel x (s / 2) hpos h
    · simp

theorem sqrt_ne_division (y : Nat) : sqrt y ≠ .error (.panic divisionPanic) := by
  unfold sqrt
  split
  · rename_i hy
    intro h
    rw [bind_error_iff] at h
    obtain h | ⟨x, hx, h⟩ := h
    · exact add_ne_division _ _ _ h
    have hx' : x = y / 2 + 1 := ((add_ok_iff _ _ _ _).1 hx).2
    exact sqrtLoop_ne_division hy y y x (by omega) h
  · split <;> simp

section SquareRoot

open Babylonian

variable {y : Nat}

/-- The loop from a state whose two estimates are at least `⌊√y⌋` returns `⌊√y⌋` once its fuel covers how far `z`
is above it.  While `x < z` the round divides by `x ≥ 2` and adds `y / x + x ≤ y + 1` without overflow, and moves
to `x` and `step y x`; once `z ≤ x`, `x` is the step from `z`, which did not fall, so `z` is `⌊√y⌋`. -/
theorem sqrtLoop_eq_sqrt (hy : 3 < y) (hy256 : y < 2 ^ 256) :
    ∀ fuel z x, Nat.sqrt y ≤ z → Nat.sqrt y ≤ x → (x < z → x ≤ y / 2 + 1) → (z ≤ x → x = step y z) →
      z - Nat.sqrt y ≤ fuel → sqrtLoop y fuel z x = .ok (Nat.sqrt y)
  | 0, z, x, hz, _, _, _, hfuel => by
    rw [show z = Nat.sqrt y by omega]
    rfl
  | fuel + 1, z, x, hz, hx, hbound, hstep, hfuel => by
    unfold sqrtLoop
    by_cases hxz : x < z
    · rw [if_pos hxz]
      have hx2 : 2 ≤ x := (Nat.le_sqrt.2 (by omega : 2 * 2 ≤ y)).trans hx
      have hsum : y / x + x < 2 ^ 256 := Nat.lt_of_le_of_lt (div_add_le hx2 (hbound hxz)) (by omega)
      have hdiv : div y x = .ok (y / x) := (div_ok_iff _ _ _).2 ⟨by omega, rfl⟩
      have hadd : add 256 (y / x) x = .ok (y / x + x) := (add_ok_iff _ _ _ _).2 ⟨hsum, rfl⟩
      -- the next round starts from `x`, with the step from `x` as its estimate
      have hnext := sqrtLoop_eq_sqrt hy hy256 fuel x (step y x) hx (sqrt_le_step (by omega))
        (fun hlt => by have := hbound hxz; omega) (fun _ => rfl) (by omega)
      exact bind_ok_iff.2 ⟨_, hdiv, bind_ok_iff.2 ⟨_, hadd, hnext⟩⟩
    · rw [if_neg hxz]
      have hle : z ≤ x := Nat.le_of_not_lt hxz
      rw [eq_sqrt_of_le_step hz (hstep hle ▸ hle)]

/-- **`sqrt` returns `⌊√y⌋` for every `uint256`**, its checked arithmetic never reverting, and its loop stops by
its own test: given any fuel of at least `y` rounds it returns the same. -/
theorem sqrt_eq_floor {y : Nat} (hy : y < 2 ^ 256) :
    ∃ z, sqrt y = .ok z ∧ z * z ≤ y ∧ y < (z + 1) * (z + 1) ∧
      (3 < y → ∀ fuel, y ≤ fuel → sqrtLoop y fuel y (y / 2 + 1) = .ok z) := by
  -- from `y` and `y / 2 + 1`, both at least `⌊√y⌋`, the loop has the fuel it needs
  have hloop : 3 < y → ∀ fuel, y ≤ fuel → sqrtLoop y fuel y (y / 2 + 1) = .ok (Nat.sqrt y) := by
    intro hy3 fuel hfuel
    have hsq : y < (y / 2 + 2) * (y / 2 + 2) :=
      calc y < 4 * (y / 2) + 4 := by omega
        _ ≤ (y / 2 + 2) * (y / 2 + 2) := by nlinarith [Nat.zero_le (y / 2 * (y / 2))]
    have hstart : Nat.sqrt y ≤ y / 2 + 1 := Nat.le_of_lt_succ (Nat.sqrt_lt.2 hsq)
    exact sqrtLoop_eq_sqrt hy3 hy fuel y (y / 2 + 1) (Nat.sqrt_le_self y) hstart (fun _ => le_rfl)
      (fun hle => by omega) (by omega)
  refine ⟨Nat.sqrt y, ?_, Nat.sqrt_le y, Nat.lt_succ_sqrt y, hloop⟩
  unfold sqrt
  by_cases hy3 : y > 3
  · rw [if_pos hy3]
    have hadd : add 256 (y / 2) 1 = .ok (y / 2 + 1) := (add_ok_iff _ _ _ _).2 ⟨by omega, rfl⟩
    exact bind_ok_iff.2 ⟨_, hadd, hloop hy3 y le_rfl⟩
  · -- below four the source answers without the loop: `1`, or `0` for zero
    rw [if_neg hy3]
    by_cases hy0 : y = 0
    · subst hy0
      rfl
    · have hone : 1 = Nat.sqrt y := Nat.eq_sqrt.2 ⟨by omega, by omega⟩
      rw [if_pos hy0, ← hone]

/-- The largest `uint256`, one below the square of `2 ^ 128`. -/
theorem sqrt_eq_floor_at_max :
    2 ^ 256 - 1 < 2 ^ 256 ∧ ∃ z, sqrt (2 ^ 256 - 1) = .ok z ∧ z * z ≤ 2 ^ 256 - 1 ∧ 2 ^ 256 - 1 < (z + 1) * (z + 1) ∧
      (3 < 2 ^ 256 - 1 → ∀ fuel, 2 ^ 256 - 1 ≤ fuel →
        sqrtLoop (2 ^ 256 - 1) fuel (2 ^ 256 - 1) ((2 ^ 256 - 1) / 2 + 1) = .ok z) :=
  ⟨by decide, sqrt_eq_floor (by decide)⟩

end SquareRoot

variable {minimum : Nat} {pair pair' : Pair} {amount0 amount1 liquidity : Nat}

/-- What a successful mint computed: on the first deposit the root of the product less the locked minimum, with the
lock written; after it the smaller proportional share, the pair untouched and both reserves nonzero. -/
theorem mint_ok (h : mint minimum pair amount0 amount1 = .ok (liquidity, pair')) :
    (pair.totalLiquidity = 0 ∧ amount0 * amount1 < 2 ^ 256 ∧ ∃ root, sqrt (amount0 * amount1) = .ok root ∧
      minimum ≤ root ∧ liquidity = root - minimum ∧
      pair' = { pair with liquidity := Function.update pair.liquidity 0 minimum }) ∨
    (0 < pair.totalLiquidity ∧ 0 < pair.reserve0 ∧ 0 < pair.reserve1 ∧
      amount0 * pair.totalLiquidity < 2 ^ 256 ∧ amount1 * pair.totalLiquidity < 2 ^ 256 ∧
      liquidity = Min.min (amount0 * pair.totalLiquidity / pair.reserve0)
        (amount1 * pair.totalLiquidity / pair.reserve1) ∧ pair' = pair) := by
  unfold mint at h
  split at h
  · rename_i hL
    simp only [bind_ok_iff, mul_ok_iff, sub_ok_iff, pure, Except.pure, Except.ok.injEq, Prod.mk.injEq] at h
    obtain ⟨_, ⟨hp, rfl⟩, root, hroot, _, ⟨hmin, rfl⟩, rfl, rfl⟩ := h
    exact .inl ⟨hL, hp, root, hroot, hmin, rfl, rfl⟩
  · rename_i hL
    simp only [bind_ok_iff, mul_ok_iff, div_ok_iff, pure, Except.pure, Except.ok.injEq, Prod.mk.injEq] at h
    obtain ⟨_, ⟨hp0, rfl⟩, _, ⟨h0, rfl⟩, _, ⟨hp1, rfl⟩, _, ⟨h1, rfl⟩, rfl, rfl⟩ := h
    exact .inr ⟨Nat.pos_of_ne_zero hL, h0, h1, hp0, hp1, min_eq _ _, rfl⟩

theorem mint_tokens (h : mint minimum pair amount0 amount1 = .ok (liquidity, pair')) :
    pair'.token0 = pair.token0 ∧ pair'.token1 = pair.token1 := by
  obtain ⟨-, -, _, -, -, -, rfl⟩ | ⟨-, -, -, -, -, -, rfl⟩ := mint_ok h <;> exact ⟨rfl, rfl⟩

theorem mint_ne_division (hz : pair.totalLiquidity ≠ 0 → pair.reserve0 ≠ 0 ∧ pair.reserve1 ≠ 0) :
    mint minimum pair amount0 amount1 ≠ .error (.panic divisionPanic) := by
  unfold mint
  split
  · simp only [ne_eq, bind_error_iff, mul_ne_division, sqrt_ne_division, sub_ne_division, pure, Except.pure,
      reduceCtorEq, and_false, exists_false, or_false, not_false_eq_true]
  · rename_i hL
    obtain ⟨h0, h1⟩ := hz hL
    simp only [ne_eq, bind_error_iff, mul_ne_division, div_error_iff, h0, h1, false_and, pure, Except.pure,
      reduceCtorEq, and_false, exists_false, or_false, not_false_eq_true]

/-- A burn divides by the LP units, and panics exactly when there are none. -/
theorem burnAmounts_division (h : burnAmounts pair liquidity = .error (.panic divisionPanic)) :
    pair.totalLiquidity = 0 := by
  simp only [burnAmounts, bind_error_iff, mul_ne_division, div_error_iff, pure, Except.pure, reduceCtorEq,
    false_or, and_false, exists_false, or_false, and_true] at h
  obtain ⟨_, -, hL | ⟨_, -, _, -, hL⟩⟩ := h <;> exact hL

theorem quoteOut_ne_division {bps feeBps amountIn reserveIn reserveOut : Nat} (hin : 0 < amountIn)
    (hfee : feeBps < bps) : quoteOut bps feeBps amountIn reserveIn reserveOut ≠ .error (.panic divisionPanic) := by
  have hden : reserveIn * bps + amountIn * (bps - feeBps) ≠ 0 :=
    Nat.ne_of_gt (Nat.add_pos_right _ (Nat.mul_pos hin (Nat.sub_pos_of_lt hfee)))
  intro h
  simp only [quoteOut, bind_error_iff, mul_ne_division, add_ne_division, mul_ok_iff, add_ok_iff, false_or] at h
  obtain ⟨_, ⟨-, rfl⟩, _, ⟨-, rfl⟩, _, ⟨-, rfl⟩, _, ⟨-, rfl⟩, hd⟩ := h
  exact hden ((div_error_iff _ _ _).1 hd).1

theorem mint_reserves (h : mint minimum pair amount0 amount1 = .ok (liquidity, pair')) :
    pair'.reserve0 = pair.reserve0 ∧ pair'.reserve1 = pair.reserve1 := by
  obtain ⟨-, -, _, -, -, -, rfl⟩ | ⟨-, -, -, -, -, -, rfl⟩ := mint_ok h <;> exact ⟨rfl, rfl⟩

theorem burnAmounts_ok (h : burnAmounts pair liquidity = .ok (amount0, amount1)) :
    0 < pair.totalLiquidity ∧ liquidity * pair.reserve0 < 2 ^ 256 ∧ liquidity * pair.reserve1 < 2 ^ 256 ∧
      amount0 = liquidity * pair.reserve0 / pair.totalLiquidity ∧
      amount1 = liquidity * pair.reserve1 / pair.totalLiquidity := by
  simp only [burnAmounts, bind_ok_iff, mul_ok_iff, div_ok_iff, pure, Except.pure, Except.ok.injEq,
    Prod.mk.injEq] at h
  obtain ⟨_, ⟨hp0, rfl⟩, _, ⟨hL, rfl⟩, _, ⟨hp1, rfl⟩, _, ⟨-, rfl⟩, rfl, rfl⟩ := h
  exact ⟨hL, hp0, hp1, rfl, rfl⟩

theorem quoteOut_ok {bps feeBps amountIn reserveIn reserveOut amountOut : Nat}
    (h : quoteOut bps feeBps amountIn reserveIn reserveOut = .ok amountOut) :
    0 < reserveIn * bps + amountIn * (bps - feeBps) ∧
      amountOut = amountIn * (bps - feeBps) * reserveOut / (reserveIn * bps + amountIn * (bps - feeBps)) := by
  simp only [quoteOut, bind_ok_iff, mul_ok_iff, add_ok_iff, div_ok_iff] at h
  obtain ⟨_, ⟨-, rfl⟩, _, ⟨-, rfl⟩, _, ⟨-, rfl⟩, _, ⟨-, rfl⟩, hd, rfl⟩ := h
  exact ⟨hd, rfl⟩

/-- A quote that fits in 256 bits fits for every smaller input whose denominator is positive. -/
theorem quoteOut_ok_of_le {bps feeBps amountIn amountIn' reserveIn reserveOut amountOut : Nat}
    (h : quoteOut bps feeBps amountIn reserveIn reserveOut = .ok amountOut) (hle : amountIn' ≤ amountIn)
    (hpos : 0 < reserveIn * bps + amountIn' * (bps - feeBps)) :
    quoteOut bps feeBps amountIn' reserveIn reserveOut =
      .ok (amountIn' * (bps - feeBps) * reserveOut / (reserveIn * bps + amountIn' * (bps - feeBps))) := by
  simp only [quoteOut, bind_ok_iff, mul_ok_iff, add_ok_iff, div_ok_iff] at h ⊢
  obtain ⟨_, ⟨hfee, rfl⟩, _, ⟨hnum, rfl⟩, _, ⟨hscaled, rfl⟩, _, ⟨hden, rfl⟩, -, rfl⟩ := h
  -- every product and sum of the smaller input is at most the one that fitted
  have hfee' : amountIn' * (bps - feeBps) ≤ amountIn * (bps - feeBps) := Nat.mul_le_mul_right _ hle
  have hnum' : amountIn' * (bps - feeBps) * reserveOut ≤ amountIn * (bps - feeBps) * reserveOut :=
    Nat.mul_le_mul_right _ hfee'
  exact ⟨_, ⟨by omega, rfl⟩, _, ⟨by omega, rfl⟩, _, ⟨hscaled, rfl⟩, _, ⟨by omega, rfl⟩, hpos, rfl⟩

end Amm
end Wattx
