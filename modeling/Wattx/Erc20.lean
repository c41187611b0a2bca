import Wattx.Checked
/-!
# Erc20 — the standard token the exchanges trade (`contracts/dex/TestToken.sol`)

The exchanges call `transferFrom` and `transfer` on arbitrary token addresses and require `true`.  Their claims
assume standard tokens, "moving exactly the given amount or reverting"; the repository's own standard token is
`TestToken`, and this module is its storage and its entry points: `_transfer` refuses the zero address on either side
and an amount above the sender's balance, `transferFrom` spends the caller's allowance first, `faucet` mints to the
caller.  `TestToken` updates balances `unchecked`; the balances sum to `_totalSupply`, which is checked, so no
balance wraps, and balances are moved exactly here.

`transfer_balances` is the one fact the exchanges' proofs read: a successful transfer takes `amount` from `from_`
and gives it to `to_`, and leaves every other balance.
-/
namespace Wattx

/-- An address (`uint160`), compared as a number, as Solidity compares addresses. -/
abbrev Address := Nat

/-- The storage of a `TestToken`. -/
structure Erc20 where
  totalSupply : Nat
  balances : Address → Nat
  allowances : Address → Address → Nat

namespace Erc20

open Checked

/-- `_transfer(from, to, amount)`. -/
def transfer_ (t : Erc20) (from_ to_ : Address) (amount : Nat) : Except Revert Erc20 := do
  require (from_ ≠ 0) "ERC20: transfer from zero address"
  require (to_ ≠ 0) "ERC20: transfer to zero address"
  let fromBalance := t.balances from_
  require (fromBalance ≥ amount) "ERC20: transfer amount exceeds balance"
  let balances := Function.update t.balances from_ (fromBalance - amount)
  pure { t with balances := Function.update balances to_ (balances to_ + amount) }

/-- `_approve(owner, spender, amount)`. -/
def approve_ (t : Erc20) (owner spender : Address) (amount : Nat) : Except Revert Erc20 := do
  require (owner ≠ 0) "ERC20: approve from zero address"
  require (spender ≠ 0) "ERC20: approve to zero address"
  pure { t with allowances := Function.update t.allowances owner (Function.update (t.allowances owner) spender amount) }

/-- `transfer(to, amount)`, called by `msgSender`. -/
def transfer (t : Erc20) (msgSender to_ : Address) (amount : Nat) : Except Revert (Erc20 × Bool) := do
  let t ← t.transfer_ msgSender to_ amount
  pure (t, true)

/-- `approve(spender, amount)`, called by `msgSender`. -/
def approve (t : Erc20) (msgSender spender : Address) (amount : Nat) : Except Revert (Erc20 × Bool) := do
  let t ← t.approve_ msgSender spender amount
  pure (t, true)

/-- `transferFrom(from, to, amount)`, called by `msgSender`. -/
def transferFrom (t : Erc20) (msgSender from_ to_ : Address) (amount : Nat) : Except Revert (Erc20 × Bool) := do
  let currentAllowance := t.allowances from_ msgSender
  require (currentAllowance ≥ amount) "ERC20: insufficient allowance"
  let t ← t.approve_ from_ msgSender (currentAllowance - amount)
  let t ← t.transfer_ from_ to_ amount
  pure (t, true)

/-- `faucet(amount)`, called by `msgSender`: `_mint(msg.sender, amount * 10**decimals)`. -/
def faucet (t : Erc20) (msgSender : Address) (amount : Nat) : Except Revert Erc20 := do
  let minted ← mul 256 amount (10 ^ 18)
  require (msgSender ≠ 0) "ERC20: mint to zero address"
  let totalSupply ← add 256 t.totalSupply minted
  pure { t with totalSupply := totalSupply, balances := Function.update t.balances msgSender (t.balances msgSender + minted) }

/-! ## What a successful call moves -/

theorem internal_transfer_ok {t t' : Erc20} {from_ to_ : Address} {amount : Nat} (h : t.transfer_ from_ to_ amount = .ok t') :
    from_ ≠ 0 ∧ to_ ≠ 0 ∧ amount ≤ t.balances from_ ∧ t'.allowances = t.allowances ∧
      ∀ x, t'.balances x + (if x = from_ then amount else 0) = t.balances x + (if x = to_ then amount else 0) := by
  simp only [transfer_, bind_ok_iff, require_ok_iff, pure, Except.pure, Except.ok.injEq] at h
  obtain ⟨_, hf, _, hto, _, hb, rfl⟩ := h
  refine ⟨hf, hto, hb, rfl, fun x => ?_⟩
  by_cases hxt : x = to_ <;> by_cases hxf : x = from_ <;> simp_all [Function.update_apply]

/-- **A successful transfer moves exactly `amount` from `from_` to `to_`.** -/
theorem transfer_balances {t t' : Erc20} {from_ to_ : Address} {amount : Nat}
    (h : t.transfer_ from_ to_ amount = .ok t') (x : Address) :
    t'.balances x + (if x = from_ then amount else 0) = t.balances x + (if x = to_ then amount else 0) :=
  (internal_transfer_ok h).2.2.2.2 x

theorem internal_approve_ok {t t' : Erc20} {owner spender : Address} {amount : Nat}
    (h : t.approve_ owner spender amount = .ok t') :
    t'.balances = t.balances ∧
      t'.allowances = Function.update t.allowances owner (Function.update (t.allowances owner) spender amount) := by
  simp only [approve_, bind_ok_iff, require_ok_iff, pure, Except.pure, Except.ok.injEq] at h
  obtain ⟨_, -, _, -, rfl⟩ := h
  exact ⟨rfl, rfl⟩

theorem transferFrom_ok {t t' : Erc20} {msgSender from_ to_ : Address} {amount : Nat} {r : Bool}
    (h : t.transferFrom msgSender from_ to_ amount = .ok (t', r)) :
    amount ≤ t.allowances from_ msgSender ∧ r = true ∧
      ∃ t₁, t.approve_ from_ msgSender (t.allowances from_ msgSender - amount) = .ok t₁ ∧
        t₁.transfer_ from_ to_ amount = .ok t' := by
  simp only [transferFrom, bind_ok_iff, require_ok_iff, pure, Except.pure, Except.ok.injEq, Prod.mk.injEq] at h
  obtain ⟨_, hal, t₁, h₁, t₂, h₂, rfl, rfl⟩ := h
  exact ⟨hal, rfl, t₁, h₁, h₂⟩

theorem transfer_ok {t t' : Erc20} {msgSender to_ : Address} {amount : Nat} {r : Bool}
    (h : t.transfer msgSender to_ amount = .ok (t', r)) : r = true ∧ t.transfer_ msgSender to_ amount = .ok t' := by
  simp only [transfer, bind_ok_iff, pure, Except.pure, Except.ok.injEq, Prod.mk.injEq] at h
  obtain ⟨t₁, h₁, rfl, rfl⟩ := h
  exact ⟨rfl, h₁⟩

/-- What a successful `transferFrom` moves: `amount` from `from_` to `to_`, spending the caller's allowance. -/
theorem transferFrom_moves {t t' : Erc20} {msgSender from_ to_ : Address} {amount : Nat} {r : Bool}
    (h : t.transferFrom msgSender from_ to_ amount = .ok (t', r)) :
    r = true ∧ (∀ x, t'.balances x + (if x = from_ then amount else 0) = t.balances x + (if x = to_ then amount else 0)) ∧
      ∀ o, o ≠ from_ → t'.allowances o = t.allowances o := by
  obtain ⟨-, hr, t₁, h₁, h₂⟩ := transferFrom_ok h
  obtain ⟨hb₁, ha₁⟩ := internal_approve_ok h₁
  obtain ⟨-, -, -, ha₂, -⟩ := internal_transfer_ok h₂
  refine ⟨hr, fun x => by rw [transfer_balances h₂ x, hb₁], fun o ho => ?_⟩
  rw [ha₂, ha₁, Function.update_of_ne ho]

/-- What a successful `transfer` moves: `amount` from the caller to `to_`, allowances untouched. -/
theorem transfer_moves {t t' : Erc20} {msgSender to_ : Address} {amount : Nat} {r : Bool}
    (h : t.transfer msgSender to_ amount = .ok (t', r)) :
    r = true ∧
      (∀ x, t'.balances x + (if x = msgSender then amount else 0) = t.balances x + (if x = to_ then amount else 0)) ∧
      t'.allowances = t.allowances := by
  obtain ⟨hr, h₁⟩ := transfer_ok h
  exact ⟨hr, transfer_balances h₁, (internal_transfer_ok h₁).2.2.2.1⟩

/-! ## What a failed call reverts with -/

/-- `TestToken` has no checked arithmetic on these paths: a failed transfer or approval reverts with a message. -/
theorem internal_transfer_error {t : Erc20} {from_ to_ : Address} {amount : Nat} {e : Revert}
    (h : t.transfer_ from_ to_ amount = .error e) : ∃ msg, e = .require msg := by
  simp only [transfer_, bind_error_iff, require_ok_iff, pure, Except.pure, reduceCtorEq, and_false, exists_false,
    or_false] at h
  obtain h | ⟨_, -, h | ⟨_, -, h⟩⟩ := h <;> exact ⟨_, (require_error h).2⟩

theorem internal_approve_error {t : Erc20} {owner spender : Address} {amount : Nat} {e : Revert}
    (h : t.approve_ owner spender amount = .error e) : ∃ msg, e = .require msg := by
  simp only [approve_, bind_error_iff, require_ok_iff, pure, Except.pure, reduceCtorEq, and_false, exists_false,
    or_false] at h
  obtain h | ⟨_, -, h⟩ := h <;> exact ⟨_, (require_error h).2⟩

theorem transferFrom_error {t : Erc20} {msgSender from_ to_ : Address} {amount : Nat} {e : Revert}
    (h : t.transferFrom msgSender from_ to_ amount = .error e) : ∃ msg, e = .require msg := by
  simp only [transferFrom, bind_error_iff, require_ok_iff, pure, Except.pure, reduceCtorEq, and_false,
    exists_false, or_false] at h
  obtain h | ⟨_, -, h | ⟨_, -, h⟩⟩ := h
  · exact ⟨_, (require_error h).2⟩
  · exact internal_approve_error h
  · exact internal_transfer_error h

theorem transfer_error {t : Erc20} {msgSender to_ : Address} {amount : Nat} {e : Revert}
    (h : t.transfer msgSender to_ amount = .error e) : ∃ msg, e = .require msg := by
  simp only [transfer, bind_error_iff, pure, Except.pure, reduceCtorEq, and_false, exists_false, or_false] at h
  exact internal_transfer_error h

end Erc20

/-- A contract's storage `σ` and the tokens it calls: what one of the exchanges' transactions reads and writes. -/
structure World (σ : Type) where
  storage : σ
  tokens : Address → Erc20

namespace World

variable {σ : Type}

/-- `require(IERC20(token).transferFrom(from, address(this), amount), msg)`, run by the contract at `self`. -/
def callTransferFrom (w : World σ) (self token from_ : Address) (amount : Nat) (msg : String) :
    Except Revert (World σ) := do
  let (t, ok) ← (w.tokens token).transferFrom self from_ self amount
  Checked.require (ok = true) msg
  pure { w with tokens := Function.update w.tokens token t }

/-- `require(IERC20(token).transfer(to, amount), msg)`, run by the contract at `self`. -/
def callTransfer (w : World σ) (self token to_ : Address) (amount : Nat) (msg : String) : Except Revert (World σ) := do
  let (t, ok) ← (w.tokens token).transfer self to_ amount
  Checked.require (ok = true) msg
  pure { w with tokens := Function.update w.tokens token t }

/-- The contract's balance of `token`. -/
def balanceOf (w : World σ) (self token : Address) : Nat := (w.tokens token).balances self

/-- A contract's `transferFrom` call leaves its storage and every other token, and moves `amount` of `token` from
`from_` to the contract. -/
theorem callTransferFrom_ok {w w' : World σ} {self token from_ : Address} {amount : Nat} {msg : String}
    (h : w.callTransferFrom self token from_ amount msg = .ok w') :
    w'.storage = w.storage ∧ (∀ tok, tok ≠ token → w'.tokens tok = w.tokens tok) ∧
      (∀ x, (w'.tokens token).balances x + (if x = from_ then amount else 0) =
        (w.tokens token).balances x + (if x = self then amount else 0)) ∧
      ∀ o, o ≠ from_ → (w'.tokens token).allowances o = (w.tokens token).allowances o := by
  simp only [callTransferFrom, Checked.bind_ok_iff, pure, Except.pure, Except.ok.injEq] at h
  obtain ⟨⟨t, ok⟩, ht, _, -, rfl⟩ := h
  obtain ⟨-, hb, ha⟩ := Erc20.transferFrom_moves ht
  refine ⟨rfl, fun tok htok => Function.update_of_ne htok _ _, fun x => ?_, fun o ho => ?_⟩
  · simpa using hb x
  · simpa using ha o ho

/-- A contract's `transfer` call leaves its storage and every other token, and moves `amount` of `token` from the
contract to `to_`. -/
theorem callTransfer_ok {w w' : World σ} {self token to_ : Address} {amount : Nat} {msg : String}
    (h : w.callTransfer self token to_ amount msg = .ok w') :
    w'.storage = w.storage ∧ (∀ tok, tok ≠ token → w'.tokens tok = w.tokens tok) ∧
      (∀ x, (w'.tokens token).balances x + (if x = self then amount else 0) =
        (w.tokens token).balances x + (if x = to_ then amount else 0)) ∧
      (w'.tokens token).allowances = (w.tokens token).allowances := by
  simp only [callTransfer, Checked.bind_ok_iff, pure, Except.pure, Except.ok.injEq] at h
  obtain ⟨⟨t, ok⟩, ht, _, -, rfl⟩ := h
  obtain ⟨-, hb, ha⟩ := Erc20.transfer_moves ht
  refine ⟨rfl, fun tok htok => Function.update_of_ne htok _ _, fun x => ?_, ?_⟩
  · simpa using hb x
  · simpa using ha

theorem balanceOf_callTransferFrom {w w' : World σ} {self token from_ : Address} {amount : Nat} {msg : String}
    (h : w.callTransferFrom self token from_ amount msg = .ok w') (hne : from_ ≠ self) (t : Address) :
    w'.balanceOf self t = w.balanceOf self t + if t = token then amount else 0 := by
  obtain ⟨-, hother, hmove, -⟩ := callTransferFrom_ok h
  unfold balanceOf
  by_cases ht : t = token
  · subst ht
    have := hmove self
    rw [if_neg hne.symm, if_pos rfl, Nat.add_zero] at this
    rw [if_pos rfl, this]
  · rw [hother t ht, if_neg ht, Nat.add_zero]

theorem balanceOf_callTransfer {w w' : World σ} {self token to_ : Address} {amount : Nat} {msg : String}
    (h : w.callTransfer self token to_ amount msg = .ok w') (hne : to_ ≠ self) (t : Address) :
    w'.balanceOf self t + (if t = token then amount else 0) = w.balanceOf self t := by
  obtain ⟨-, hother, hmove, -⟩ := callTransfer_ok h
  unfold balanceOf
  by_cases ht : t = token
  · subst ht
    have := hmove self
    rw [if_pos rfl, if_neg hne.symm, Nat.add_zero] at this
    rw [if_pos rfl, this]
  · rw [hother t ht, if_neg ht, Nat.add_zero]

theorem callTransferFrom_error {w : World σ} {self token from_ : Address} {amount : Nat} {msg : String} {e : Revert}
    (h : w.callTransferFrom self token from_ amount msg = .error e) : ∃ m, e = .require m := by
  simp only [callTransferFrom, Checked.bind_error_iff, pure, Except.pure, reduceCtorEq, and_false, exists_false,
    or_false] at h
  obtain h | ⟨⟨_, _⟩, -, h⟩ := h
  · exact Erc20.transferFrom_error h
  · exact ⟨_, (Checked.require_error h).2⟩

theorem callTransfer_error {w : World σ} {self token to_ : Address} {amount : Nat} {msg : String} {e : Revert}
    (h : w.callTransfer self token to_ amount msg = .error e) : ∃ m, e = .require m := by
  simp only [callTransfer, Checked.bind_error_iff, pure, Except.pure, reduceCtorEq, and_false, exists_false,
    or_false] at h
  obtain h | ⟨⟨_, _⟩, -, h⟩ := h
  · exact Erc20.transfer_error h
  · exact ⟨_, (Checked.require_error h).2⟩

theorem callTransferFrom_ne_panic {w : World σ} {self token from_ : Address} {amount : Nat} {msg : String}
    (k : Nat) : w.callTransferFrom self token from_ amount msg ≠ .error (.panic k) := fun h => by
  obtain ⟨m, hm⟩ := callTransferFrom_error h
  cases hm

theorem callTransfer_ne_panic {w : World σ} {self token to_ : Address} {amount : Nat} {msg : String}
    (k : Nat) : w.callTransfer self token to_ amount msg ≠ .error (.panic k) := fun h => by
  obtain ⟨m, hm⟩ := callTransfer_error h
  cases hm

end World
end Wattx
