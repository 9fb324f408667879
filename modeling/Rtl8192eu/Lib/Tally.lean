import Mathlib.Algebra.BigOperators.Group.Finset.Piecewise
import Mathlib.Tactic.Abel

/-!
# A total beside a family of counters

A program that keeps a counter for each index, and beside them their total, changes both by hand.

* `Total q n`      `n` is the sum of the counters `q`, of which finitely many are not zero;
* `Total.update`   one counter changes, and the total by the same amount;
* `Total.eq_sum`   the sum over any finite set that holds all counters in use.
-/

namespace Tally

variable {ι M : Type*} [DecidableEq ι] [AddCommGroup M]

def Total (q : ι → M) (n : M) : Prop :=
  ∃ T : Finset ι, (∀ x, x ∉ T → q x = 0) ∧ ∑ x ∈ T, q x = n

theorem total_zero {ι M : Type*} [AddCommGroup M] : Total (fun _ : ι => (0 : M)) 0 :=
  ⟨∅, fun _ _ => rfl, Finset.sum_empty⟩

variable {q : ι → M} {n : M}

theorem Total.eq_sum (h : Total q n) {T : Finset ι} (hT : ∀ x, x ∉ T → q x = 0) :
    n = ∑ x ∈ T, q x := by
  obtain ⟨S, hS, hn⟩ := h
  calc n = ∑ x ∈ S, q x := hn.symm
    _ = ∑ x ∈ S ∪ T, q x := Finset.sum_subset Finset.subset_union_left fun x _ hx => hS x hx
    _ = ∑ x ∈ T, q x :=
      (Finset.sum_subset Finset.subset_union_right fun x _ hx => hT x hx).symm

theorem Total.update (h : Total q n) (k : ι) (v : M) :
    Total (Function.update q k v) (n + (v - q k)) := by
  obtain ⟨S, hS, -⟩ := id h
  have hk : k ∈ insert k S := Finset.mem_insert_self k S
  refine ⟨insert k S, ?_, ?_⟩
  · intro x hx
    rw [Finset.mem_insert, not_or] at hx
    rw [Function.update_of_ne hx.1]
    exact hS x hx.2
  · have hn : n = ∑ x ∈ insert k S, q x := h.eq_sum fun x hx => hS x fun hxS =>
      hx (Finset.mem_insert_of_mem hxS)
    rw [Finset.sum_update_of_mem hk, hn, ← Finset.add_sum_erase _ q hk, Finset.sdiff_singleton_eq_erase]
    abel

end Tally
