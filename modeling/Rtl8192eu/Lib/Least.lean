import Mathlib.Order.Bounds.Basic
import Mathlib.Data.Set.Lattice

/-!
# The least of what a loop has seen

A loop that keeps the smallest value so far.  A member of the list may bring several values, or none.

* `isLeast_union_of_min`   one member;
* `isLeast_foldl`   the loop.
-/

namespace Least

variable {α β : Type*} [LinearOrder β]

theorem isLeast_insert_min {T : Set β} {m v : β} (h : IsLeast T m) : IsLeast (insert v T) (min v m) := by
  have hs : IsLeast {v} v := isLeast_singleton
  rw [Set.insert_eq]
  exact hs.union h

/-- a member that brings nothing -/
theorem isLeast_union_empty {T : Set β} {m : β} (h : IsLeast T m) {S : Set β} (hS : ∀ v, v ∉ S) :
    IsLeast (T ∪ S) m := by
  have hempty : S = ∅ := Set.eq_empty_of_forall_notMem hS
  rwa [hempty, Set.union_empty]

/-- **The loop keeps the least of all.** -/
theorem isLeast_foldl {g : β → α → β} {S : α → Set β} {l : List α}
    (hg : ∀ a ∈ l, ∀ (T : Set β) m, IsLeast T m → IsLeast (T ∪ S a) (g m a)) {T : Set β} {m : β}
    (hT : IsLeast T m) : IsLeast (T ∪ {v | ∃ a ∈ l, v ∈ S a}) (l.foldl g m) := by
  induction l generalizing T m with
  | nil =>
    refine isLeast_union_empty hT fun v hv => ?_
    obtain ⟨a, ha, -⟩ := hv
    exact absurd ha List.not_mem_nil
  | cons a l ih =>
    have hstep := hg a List.mem_cons_self T m hT
    have hrest := ih (fun b hb => hg b (List.mem_cons_of_mem _ hb)) hstep
    have hset : T ∪ {v | ∃ b ∈ a :: l, v ∈ S b} = T ∪ S a ∪ {v | ∃ b ∈ l, v ∈ S b} := by
      ext v
      simp only [Set.mem_union, Set.mem_ofPred_eq, List.mem_cons, exists_eq_or_imp, or_assoc]
    rw [hset]
    exact hrest

end Least
