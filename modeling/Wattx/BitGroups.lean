import Mathlib.Algebra.Group.Nat.Defs
import Mathlib.Data.List.Basic
/-!
# BitGroups — a bit string cut into groups of any width

`bitsOf k v` is the low `k` bits of `v`, the highest first: the string a `k`-bit group stands for.  A list of
`t`-bit groups stands for the concatenation of theirs, so a converter from `f`-bit to `t`-bit groups is correct
when its output stands for the string its input does.  This is the arithmetic of that reading: `bitsOf` reads only
the low `k` bits (`bitsOf_mod`) and determines them (`mod_eq_of_bitsOf_eq`), so groups that stand for the same
string are the same groups (`eq_of_flatMap_bitsOf_eq`); a string splits anywhere (`bitsOf_add`); appending `k` bits
`v` to `a` is `a * 2 ^ k + v` (`bitsOf_mul_add`); and the top `q` groups of `t` bits of a `t * q + r`-bit string
are its quotients by `2 ^ (t * q + r - t * (j + 1))` (`bitsOf_regroup`).
-/
namespace BitGroups

/-- The low `k` bits of `v`, the highest first. -/
def bitsOf : Nat → Nat → List Bool
  | 0, _ => []
  | k + 1, v => decide (v / 2 ^ k % 2 = 1) :: bitsOf k v

@[simp] theorem length_bitsOf : ∀ k v, (bitsOf k v).length = k
  | 0, _ => rfl
  | k + 1, v => by simp [bitsOf, length_bitsOf k v]

@[simp] theorem bitsOf_zero_left (v : Nat) : bitsOf 0 v = [] := rfl

theorem bitsOf_mod : ∀ k v, bitsOf k (v % 2 ^ k) = bitsOf k v
  | 0, _ => rfl
  | k + 1, v => by
    -- the top bit of `v % 2 ^ (k + 1)` is bit `k` of `v`, and below it stands `v % 2 ^ k`
    have htop : v % 2 ^ (k + 1) / 2 ^ k % 2 = v / 2 ^ k % 2 := by
      rw [Nat.pow_succ, Nat.mod_mul_right_div_self, Nat.mod_mod]
    have hrest : v % 2 ^ (k + 1) % 2 ^ k = v % 2 ^ k :=
      Nat.mod_mod_of_dvd _ (Nat.pow_dvd_pow 2 (Nat.le_succ k))
    rw [bitsOf, bitsOf, htop, ← bitsOf_mod k (v % 2 ^ (k + 1)), hrest, bitsOf_mod k v]

theorem bitsOf_mod_of_le {k K : Nat} (h : k ≤ K) (v : Nat) : bitsOf k (v % 2 ^ K) = bitsOf k v := by
  rw [← bitsOf_mod k (v % 2 ^ K), Nat.mod_mod_of_dvd _ (Nat.pow_dvd_pow 2 h), bitsOf_mod]

theorem bitsOf_add : ∀ m k v, bitsOf (m + k) v = bitsOf m (v / 2 ^ k) ++ bitsOf k v
  | 0, k, v => by simp
  | m + 1, k, v => by
    rw [Nat.add_right_comm, bitsOf, bitsOf, bitsOf_add m k v, Nat.div_div_eq_div_mul, ← Nat.pow_add,
      Nat.add_comm k m, List.cons_append]

theorem bitsOf_zero : ∀ k, bitsOf k 0 = List.replicate k false
  | 0 => rfl
  | k + 1 => by simp [bitsOf, bitsOf_zero k, List.replicate_succ]

theorem bitsOf_mul_add {k a v : Nat} (hv : v < 2 ^ k) (m : Nat) :
    bitsOf (m + k) (a * 2 ^ k + v) = bitsOf m a ++ bitsOf k v := by
  have hpos : 0 < 2 ^ k := Nat.two_pow_pos k
  have hdiv : (a * 2 ^ k + v) / 2 ^ k = a := by
    rw [Nat.add_comm, Nat.add_mul_div_right _ _ hpos, Nat.div_eq_of_lt hv, Nat.zero_add]
  have hmod : (a * 2 ^ k + v) % 2 ^ k = v := by
    rw [Nat.add_comm, Nat.add_mul_mod_self_right, Nat.mod_eq_of_lt hv]
  rw [bitsOf_add, hdiv, ← bitsOf_mod k, hmod]

theorem bitsOf_mul_pow (k a m : Nat) : bitsOf (m + k) (a * 2 ^ k) = bitsOf m a ++ List.replicate k false := by
  rw [← Nat.add_zero (a * 2 ^ k), bitsOf_mul_add (Nat.two_pow_pos k), bitsOf_zero]

theorem mod_eq_of_bitsOf_eq : ∀ {k a b : Nat}, bitsOf k a = bitsOf k b → a % 2 ^ k = b % 2 ^ k
  | 0, a, b, _ => by simp [Nat.mod_one]
  | k + 1, a, b, h => by
    simp only [bitsOf, List.cons.injEq, decide_eq_decide] at h
    obtain ⟨htop, hrest⟩ := h
    have hbit : a / 2 ^ k % 2 = b / 2 ^ k % 2 := by omega
    rw [Nat.mod_pow_succ, Nat.mod_pow_succ, mod_eq_of_bitsOf_eq hrest, hbit]

/-- Groups below `2 ^ t` that stand for the same string are the same groups. -/
theorem eq_of_flatMap_bitsOf_eq {t : Nat} (ht : 0 < t) : ∀ {xs ys : List Nat}, (∀ x ∈ xs, x < 2 ^ t) →
    (∀ y ∈ ys, y < 2 ^ t) → xs.flatMap (bitsOf t) = ys.flatMap (bitsOf t) → xs = ys
  | [], [], _, _, _ => rfl
  | [], _ :: _, _, _, h | _ :: _, [], _, _, h => by
    have hlen := congrArg List.length h
    simp only [List.flatMap_nil, List.flatMap_cons, List.length_nil, List.length_append, length_bitsOf] at hlen
    omega
  | x :: xs, y :: ys, hx, hy, h => by
    simp only [List.flatMap_cons] at h
    obtain ⟨hhead, htail⟩ := List.append_inj h (by simp)
    have hxy : x = y := by
      have hmod := mod_eq_of_bitsOf_eq hhead
      rwa [Nat.mod_eq_of_lt (hx x List.mem_cons_self), Nat.mod_eq_of_lt (hy y List.mem_cons_self)] at hmod
    rw [hxy, eq_of_flatMap_bitsOf_eq ht (fun x hm => hx x (List.mem_cons_of_mem _ hm))
      (fun y hm => hy y (List.mem_cons_of_mem _ hm)) htail]

@[simp] theorem length_flatMap_bitsOf (t : Nat) : ∀ xs : List Nat, (xs.flatMap (bitsOf t)).length = t * xs.length
  | [] => rfl
  | x :: xs => by
    rw [List.flatMap_cons, List.length_append, length_bitsOf, length_flatMap_bitsOf t xs, List.length_cons,
      Nat.mul_succ, Nat.add_comm]

/-- Whole `t`-bit groups, then fewer than `t` bits, split one way only. -/
theorem flatMap_bitsOf_append_inj {t : Nat} {xs ys : List Nat} {u w : List Bool} (hu : u.length < t)
    (hw : w.length < t) (h : xs.flatMap (bitsOf t) ++ u = ys.flatMap (bitsOf t) ++ w) :
    xs.flatMap (bitsOf t) = ys.flatMap (bitsOf t) ∧ u = w := by
  have hlen := congrArg List.length h
  simp only [List.length_append, length_flatMap_bitsOf] at hlen
  -- the number of whole groups is the quotient by `t` of either length
  have hgroups : xs.length = ys.length := by
    have hdiv : (t * xs.length + u.length) / t = (t * ys.length + w.length) / t := by rw [hlen]
    rwa [Nat.mul_add_div (by omega), Nat.mul_add_div (by omega), Nat.div_eq_of_lt hu, Nat.div_eq_of_lt hw,
      Nat.add_zero, Nat.add_zero] at hdiv
  exact List.append_inj h (by simp only [length_flatMap_bitsOf, hgroups])

/-- The top `q` groups of `t` bits of a `t * q + r`-bit string, then its low `r` bits, are the string. -/
theorem bitsOf_regroup (t r a : Nat) : ∀ q,
    ((List.range q).map fun j => a / 2 ^ (t * q + r - t * (j + 1)) % 2 ^ t).flatMap (bitsOf t) ++ bitsOf r a =
      bitsOf (t * q + r) a
  | 0 => by simp
  | q + 1 => by
    -- the groups after the top one are those of the low `t * q + r` bits
    have hrest : ((List.range q).map fun j => a / 2 ^ (t * (q + 1) + r - t * (j + 1 + 1)) % 2 ^ t) =
        (List.range q).map fun j => a / 2 ^ (t * q + r - t * (j + 1)) % 2 ^ t := by
      refine List.map_congr_left fun j _ => ?_
      rw [Nat.mul_succ t q, Nat.mul_succ t (j + 1)]
      congr 3
      omega
    have htop : t * (q + 1) + r - t * (0 + 1) = t * q + r := by
      rw [Nat.mul_succ]
      omega
    have hlen : t * (q + 1) + r = t + (t * q + r) := by
      rw [Nat.mul_succ]
      omega
    rw [List.range_succ_eq_map, List.map_cons, List.map_map, List.flatMap_cons, htop, bitsOf_mod]
    simp only [Function.comp_def, Nat.succ_eq_add_one]
    rw [hrest, List.append_assoc, bitsOf_regroup t r a q, hlen, bitsOf_add t (t * q + r) a]

end BitGroups
