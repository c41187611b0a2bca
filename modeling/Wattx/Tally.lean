import Mathlib.Algebra.BigOperators.Finprod
import Mathlib.Algebra.Order.BigOperators.Group.Finset
/-!
# Tally — balances that add up to a total

A ledger keeps a balance per holder and a running total.  `SumsTo bal total` says that the balances are zero outside
some finite set and add up to `total` over it, so that `total` is their sum over every holder (`SumsTo.finsum_eq`).
Setting one balance moves the total by the difference (`SumsTo.update_of_add_eq`, and `SumsTo.update` on `ℕ`);
crediting and debiting one holder are its two uses.  Balances live in any commutative monoid: units of a token are
`ℕ`, signed amounts `ℤ`.
-/
namespace Tally

open Finset

variable {α M : Type}

section Monoid

variable [AddCommMonoid M] {bal : α → M} {total : M}

/-- The balances `bal` add up to `total`: zero outside a finite set, and summing to `total` over it. -/
def SumsTo (bal : α → M) (total : M) : Prop := ∃ S : Finset α, (∀ a ∉ S, bal a = 0) ∧ ∑ a ∈ S, bal a = total

theorem sumsTo_zero : SumsTo (fun _ : α => (0 : M)) 0 := ⟨∅, fun _ _ => rfl, rfl⟩

theorem SumsTo.support_finite (h : SumsTo bal total) : (Function.support bal).Finite := by
  obtain ⟨S, hS, -⟩ := h
  refine S.finite_toSet.subset fun a ha => ?_
  by_contra hn
  exact ha (hS a hn)

/-- The total is the sum of the balances over every holder. -/
theorem SumsTo.finsum_eq (h : SumsTo bal total) : ∑ᶠ a, bal a = total := by
  obtain ⟨S, hS, hsum⟩ := h
  have hsub : Function.support bal ⊆ ↑S := fun a ha => by
    by_contra hn
    exact ha (hS a hn)
  rw [finsum_eq_sum_of_support_subset bal hsub, hsum]

/-- Balances that agree with tallied ones tally to the same total. -/
theorem SumsTo.congr (h : SumsTo bal total) {bal' : α → M} (hb : ∀ a, bal' a = bal a) : SumsTo bal' total := by
  obtain ⟨S, hS, hsum⟩ := h
  refine ⟨S, fun a ha => (hb a).trans (hS a ha), ?_⟩
  rw [← hsum]
  exact sum_congr rfl fun a _ => hb a

variable [DecidableEq α]

/-- The total is the sum over any finite set outside which the balances are zero. -/
theorem SumsTo.sum_eq (h : SumsTo bal total) {T : Finset α} (hT : ∀ a ∉ T, bal a = 0) :
    ∑ a ∈ T, bal a = total := by
  obtain ⟨S, hS, rfl⟩ := h
  calc ∑ a ∈ T, bal a = ∑ a ∈ S ∪ T, bal a := sum_subset subset_union_right fun a _ ha => hT a ha
    _ = ∑ a ∈ S, bal a := (sum_subset subset_union_left fun a _ ha => hS a ha).symm

end Monoid

section Cancel

variable [AddCancelCommMonoid M] [DecidableEq α] {bal : α → M} {total : M}

/-- Setting one balance to `v` gives the total `t'` that `v` adds to the total as `bal a` adds to `t'`. -/
theorem SumsTo.update_of_add_eq (h : SumsTo bal total) (a : α) (v : M) {t' : M} (ht : t' + bal a = total + v) :
    SumsTo (Function.update bal a v) t' := by
  obtain ⟨S, hS, hsum⟩ := h
  -- sum over `S` with `a` added, split at `a`: the rest of the sum is the same before and after
  have hT : ∀ b ∉ insert a S, bal b = 0 := fun b hb => hS b fun h => hb (mem_insert_of_mem h)
  have htotal : ∑ b ∈ insert a S, bal b = total := SumsTo.sum_eq ⟨S, hS, hsum⟩ hT
  have hrest : ∑ b ∈ (insert a S).erase a, Function.update bal a v b = ∑ b ∈ (insert a S).erase a, bal b :=
    sum_congr rfl fun b hb => Function.update_of_ne (ne_of_mem_erase hb) _ _
  have hold := add_sum_erase (insert a S) bal (mem_insert_self a S)
  have hnew := add_sum_erase (insert a S) (Function.update bal a v) (mem_insert_self a S)
  rw [Function.update_self, hrest] at hnew
  refine ⟨insert a S, fun b hb => ?_, ?_⟩
  · have hba : b ≠ a := fun h => hb (h ▸ mem_insert_self a S)
    rw [Function.update_of_ne hba]
    exact hT b hb
  · have hsum' : ∑ b ∈ insert a S, Function.update bal a v b + bal a = t' + bal a := by
      rw [← hnew, ht, ← htotal, ← hold]
      ac_rfl
    exact add_right_cancel hsum'

end Cancel

section Ordered

variable [AddCommMonoid M] [PartialOrder M] [IsOrderedAddMonoid M] {bal : α → M} {total : M}

/-- With no balance negative, neither is the total. -/
theorem SumsTo.nonneg (h : SumsTo bal total) (hbal : ∀ a, 0 ≤ bal a) : 0 ≤ total := by
  obtain ⟨S, -, rfl⟩ := h
  exact sum_nonneg fun b _ => hbal b

/-- With no balance negative, each one is at most the total. -/
theorem SumsTo.le_of_nonneg (h : SumsTo bal total) (hbal : ∀ a, 0 ≤ bal a) (a : α) : bal a ≤ total := by
  obtain ⟨S, hS, rfl⟩ := h
  by_cases ha : a ∈ S
  · exact single_le_sum (fun b _ => hbal b) ha
  · rw [hS a ha]
    exact sum_nonneg fun b _ => hbal b

end Ordered

section Nat

variable {bal : α → ℕ} {total : ℕ}

theorem SumsTo.le (h : SumsTo bal total) (a : α) : bal a ≤ total :=
  h.le_of_nonneg (fun _ => Nat.zero_le _) a

variable [DecidableEq α]

/-- Setting one balance to `v` moves the total by the difference. -/
theorem SumsTo.update (h : SumsTo bal total) (a : α) (v : ℕ) :
    SumsTo (Function.update bal a v) (total - bal a + v) := by
  have hle := h.le a
  exact h.update_of_add_eq a v (by omega)

theorem SumsTo.credit (h : SumsTo bal total) (a : α) (k : ℕ) :
    SumsTo (Function.update bal a (bal a + k)) (total + k) :=
  h.update_of_add_eq a (bal a + k) (by omega)

theorem SumsTo.debit (h : SumsTo bal total) {a : α} {k : ℕ} (hk : k ≤ bal a) :
    SumsTo (Function.update bal a (bal a - k)) (total - k) := by
  have hle := h.le a
  exact h.update_of_add_eq a (bal a - k) (by omega)

end Nat

end Tally
