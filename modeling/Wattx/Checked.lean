import Mathlib.Tactic.Ring
/-!
# Checked — machine words whose arithmetic reverts instead of wrapping

Solidity from 0.8 on checks every `+`, `-`, `*` on an unsigned word and every `/`: an overflow or an underflow
panics with code `0x11`, a zero divisor with `0x12`, and a failed `require` reverts with its message.  A call that
reverts leaves no trace, so a contract's entry point is a function into `Except Revert`, and a transaction applies
its result only when it is `.ok`.

Words are `Nat`s: every value a checked operation returns is below `2 ^ w`, and nothing here needs the inputs to
be.  The lemmas say, for each operation, exactly when it succeeds and with what (`add_ok_iff`, …), and how a
`do` block comes apart (`bind_ok_iff`), so that a contract's proofs never unfold an operation.
-/
namespace Wattx

/-- Why a call stopped: a `require` with its message, or a panic with its code. -/
inductive Revert where
  | require (msg : String)
  | panic (code : Nat)
  deriving DecidableEq, Repr

namespace Checked

/-- The panic code of an arithmetic overflow or underflow. -/
def overflowPanic : Nat := 0x11

/-- The panic code of a division by zero. -/
def divisionPanic : Nat := 0x12

/-- `require(c, msg)`. -/
def require (c : Prop) [Decidable c] (msg : String) : Except Revert Unit :=
  if c then .ok () else .error (.require msg)

/-- `a + b` on `w`-bit words. -/
def add (w a b : Nat) : Except Revert Nat :=
  if a + b < 2 ^ w then .ok (a + b) else .error (.panic overflowPanic)

/-- `a - b` on words. -/
def sub (a b : Nat) : Except Revert Nat :=
  if b ≤ a then .ok (a - b) else .error (.panic overflowPanic)

/-- `a * b` on `w`-bit words. -/
def mul (w a b : Nat) : Except Revert Nat :=
  if a * b < 2 ^ w then .ok (a * b) else .error (.panic overflowPanic)

/-- `a / b` on words. -/
def div (a b : Nat) : Except Revert Nat :=
  if b = 0 then .error (.panic divisionPanic) else .ok (a / b)

theorem bind_ok_iff {ε α β : Type} {x : Except ε α} {f : α → Except ε β} {b : β} :
    (x >>= f) = .ok b ↔ ∃ a, x = .ok a ∧ f a = .ok b := by
  cases x with
  | error e => simp [bind, Except.bind]
  | ok a => simp [bind, Except.bind]

theorem map_ok_iff {ε α β : Type} {f : α → β} {x : Except ε α} {b : β} :
    f <$> x = .ok b ↔ ∃ a, x = .ok a ∧ f a = b := by
  cases x with
  | error e => simp [Functor.map, Except.map]
  | ok a => simp [Functor.map, Except.map]

theorem map_error_iff {ε α β : Type} {f : α → β} {x : Except ε α} {e : ε} :
    f <$> x = .error e ↔ x = .error e := by
  cases x with
  | error e' => simp [Functor.map, Except.map]
  | ok a => simp [Functor.map, Except.map]

theorem bind_error_iff {ε α β : Type} {x : Except ε α} {f : α → Except ε β} {e : ε} :
    (x >>= f) = .error e ↔ x = .error e ∨ ∃ a, x = .ok a ∧ f a = .error e := by
  cases x with
  | error e' => simp [bind, Except.bind]
  | ok a => simp [bind, Except.bind]

@[simp] theorem require_ok_iff (c : Prop) [Decidable c] (msg : String) (u : Unit) :
    require c msg = .ok u ↔ c := by
  unfold require; split <;> simp_all

theorem require_error {c : Prop} [Decidable c] {msg : String} {e : Revert} (h : require c msg = .error e) :
    ¬ c ∧ e = .require msg := by
  unfold require at h
  split at h
  · cases h
  · rename_i hc
    cases h
    exact ⟨hc, rfl⟩

@[simp] theorem add_ok_iff (w a b r : Nat) : add w a b = .ok r ↔ a + b < 2 ^ w ∧ r = a + b := by
  unfold add; split <;> simp_all [eq_comm]

@[simp] theorem sub_ok_iff (a b r : Nat) : sub a b = .ok r ↔ b ≤ a ∧ r = a - b := by
  unfold sub; split <;> simp_all [eq_comm]

@[simp] theorem mul_ok_iff (w a b r : Nat) : mul w a b = .ok r ↔ a * b < 2 ^ w ∧ r = a * b := by
  unfold mul; split <;> simp_all [eq_comm]

@[simp] theorem div_ok_iff (a b r : Nat) : div a b = .ok r ↔ 0 < b ∧ r = a / b := by
  unfold div; split <;> simp_all [eq_comm, Nat.pos_iff_ne_zero]

@[simp] theorem div_zero_eq (a : Nat) : div a 0 = .error (.panic divisionPanic) := rfl

theorem div_error_iff (a b : Nat) (e : Revert) : div a b = .error e ↔ b = 0 ∧ e = .panic divisionPanic := by
  unfold div; split <;> simp_all [eq_comm]

/-- Only a zero divisor makes a division panic with `0x12`; an operation that succeeds never does. -/
theorem add_ne_division (w a b : Nat) : add w a b ≠ .error (.panic divisionPanic) := by
  unfold add divisionPanic overflowPanic; split <;> simp

theorem sub_ne_division (a b : Nat) : sub a b ≠ .error (.panic divisionPanic) := by
  unfold sub divisionPanic overflowPanic; split <;> simp

theorem mul_ne_division (w a b : Nat) : mul w a b ≠ .error (.panic divisionPanic) := by
  unfold mul divisionPanic overflowPanic; split <;> simp

theorem require_ne_panic (c : Prop) [Decidable c] (msg : String) (k : Nat) : require c msg ≠ .error (.panic k) := by
  unfold require; split <;> simp

end Checked
end Wattx
