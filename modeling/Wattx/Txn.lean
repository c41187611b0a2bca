import Mathlib.Logic.Relation
/-!
# Txn — calls that commit or revert, and the states they reach

A machine whose calls either return a new state or fail, a failed call leaving the state as it was: a contract whose
entry points revert, or a database whose updates are refused.  `Reachable init step` is the set of states some
sequence of committed calls leads to from a state satisfying `init`; `Reachable.inv` is the invariant rule every
safety proof of such a machine goes through, and `reachable_foldl` says that running any list of calls, failures
included, stays reachable.
-/
namespace Wattx
namespace Txn

variable {σ α ε : Type}

/-- `s'` is what some call commits from `s`. -/
def Commits (step : σ → α → Except ε σ) (s s' : σ) : Prop := ∃ a, step s a = .ok s'

/-- The states reached from an initial one by committed calls. -/
def Reachable (init : σ → Prop) (step : σ → α → Except ε σ) (s : σ) : Prop :=
  ∃ s₀, init s₀ ∧ Relation.ReflTransGen (Commits step) s₀ s

/-- One call, the state left as it was when the call fails. -/
def apply (step : σ → α → Except ε σ) (s : σ) (a : α) : σ :=
  match step s a with
  | .ok s' => s'
  | .error _ => s

variable {init : σ → Prop} {step : σ → α → Except ε σ}

theorem Reachable.of_init {s : σ} (h : init s) : Reachable init step s := ⟨s, h, .refl⟩

theorem Reachable.tail {s s' : σ} {a : α} (h : Reachable init step s) (hs : step s a = .ok s') :
    Reachable init step s' :=
  let ⟨s₀, h₀, hr⟩ := h
  ⟨s₀, h₀, hr.tail ⟨a, hs⟩⟩

/-- **The invariant rule**: what holds initially and survives every committed call holds in every reachable state. -/
theorem Reachable.inv (P : σ → Prop) (h₀ : ∀ s, init s → P s) (hstep : ∀ s a s', P s → step s a = .ok s' → P s')
    {s : σ} (h : Reachable init step s) : P s := by
  obtain ⟨s₀, hinit, hr⟩ := h
  induction hr with
  | refl => exact h₀ s₀ hinit
  | tail _ hc ih =>
    obtain ⟨a, ha⟩ := hc
    exact hstep _ a _ ih ha

theorem Reachable.apply {s : σ} (h : Reachable init step s) (a : α) : Reachable init step (Txn.apply step s a) := by
  unfold Txn.apply
  split
  · rename_i s' hs
    exact h.tail hs
  · exact h

/-- Running a list of calls from a reachable state, failed calls included, stays reachable. -/
theorem Reachable.foldl {s : σ} (h : Reachable init step s) : ∀ as : List α,
    Reachable init step (as.foldl (Txn.apply step) s)
  | [] => h
  | a :: as => (h.apply a).foldl as

end Txn
end Wattx
