import Mathlib.Data.Finset.Card
import Mathlib.Data.Finset.Insert

/-!
# Counting a mark over a changing set

A program that keeps a mark on each member of a set, and beside it the number of marked members.

* `Marks.count`   the number;
* `count_set`     the mark of one member changes;
* `count_move_le`   members come in unmarked, and leave;
* `count_move_eq`   the number is kept, if only unmarked members leave.
-/

namespace Marks

variable {ι : Type*}

def count (T : Finset ι) (f : ι → Bool) : Nat := (T.filter fun p => f p = true).card

variable {T T' : Finset ι} {f f' g : ι → Bool}

theorem count_congr (h : ∀ p ∈ T, f p = g p) : count T f = count T g := by
  unfold count
  rw [Finset.filter_congr fun p hp => by rw [h p hp]]

theorem count_mono (h : ∀ p ∈ T, f p = true → g p = true) : count T f ≤ count T g := by
  refine Finset.card_le_card fun p hp => ?_
  obtain ⟨hT, hf⟩ := Finset.mem_filter.mp hp
  exact Finset.mem_filter.mpr ⟨hT, h p hT hf⟩

/-- two marks with one number, one below the other, agree -/
theorem eq_of_count_le (h : ∀ p ∈ T, f p = true → g p = true) (hle : count T g ≤ count T f) :
    ∀ p ∈ T, g p = true → f p = true := by
  have hsub : T.filter (fun p => f p = true) ⊆ T.filter fun p => g p = true := by
    intro p hp
    obtain ⟨hT, hf⟩ := Finset.mem_filter.mp hp
    exact Finset.mem_filter.mpr ⟨hT, h p hT hf⟩
  have heq := Finset.eq_of_subset_of_card_le hsub hle
  intro p hp hg
  have hmem : p ∈ T.filter fun p => f p = true := heq ▸ Finset.mem_filter.mpr ⟨hp, hg⟩
  exact (Finset.mem_filter.mp hmem).2

/-- **One mark changes.** -/
theorem count_set [DecidableEq ι] {p : ι} (hp : p ∈ T) (h : ∀ q, q ≠ p → g q = f q) :
    (count T g : Int) = count T f + ((g p).toNat - (f p).toNat : Int) := by
  have hrest : (T.erase p).filter (fun q => g q = true) = (T.erase p).filter fun q => f q = true :=
    Finset.filter_congr fun q hq => by rw [h q (Finset.ne_of_mem_erase hq)]
  have hcount : ∀ k : ι → Bool, count T k = ((T.erase p).filter fun q => k q = true).card + (k p).toNat := by
    intro k
    unfold count
    rw [← Finset.insert_erase hp, Finset.filter_insert, Finset.erase_insert (Finset.notMem_erase p T)]
    cases hk : k p with
    | false => rw [if_neg Bool.false_ne_true]; rfl
    | true =>
      rw [if_pos rfl, Finset.card_insert_of_notMem fun hm => Finset.notMem_erase p T (Finset.mem_of_mem_filter p hm)]
      rfl
  rw [hcount g, hcount f, hrest]
  omega

/-- members come in unmarked -/
structure Moved (T T' : Finset ι) (f f' : ι → Bool) : Prop where
  kept : ∀ p ∈ T, p ∈ T' → f' p = f p
  fresh : ∀ p ∈ T', p ∉ T → f' p = false

theorem Moved.subset (h : Moved T T' f f') :
    T'.filter (fun p => f' p = true) ⊆ T.filter fun p => f p = true := by
  intro p hp
  obtain ⟨hT', hf⟩ := Finset.mem_filter.mp hp
  by_cases hT : p ∈ T
  · exact Finset.mem_filter.mpr ⟨hT, (h.kept p hT hT').symm.trans hf⟩
  · exact absurd ((h.fresh p hT' hT).symm.trans hf) Bool.false_ne_true

theorem count_move_le (h : Moved T T' f f') : count T' f' ≤ count T f := Finset.card_le_card h.subset

/-- **The number is kept exactly if no marked member leaves.** -/
theorem count_move_eq (h : Moved T T' f f') : count T' f' = count T f ↔ ∀ p ∈ T, p ∉ T' → f p = false := by
  constructor
  · intro heq p hp hp'
    have hsame := Finset.eq_of_subset_of_card_le h.subset heq.ge
    rw [← Bool.not_eq_true]
    intro hf
    have hmem : p ∈ T'.filter fun p => f' p = true := hsame ▸ Finset.mem_filter.mpr ⟨hp, hf⟩
    exact hp' (Finset.mem_of_mem_filter p hmem)
  · intro hleave
    refine Nat.le_antisymm (count_move_le h) (Finset.card_le_card fun p hp => ?_)
    obtain ⟨hT, hf⟩ := Finset.mem_filter.mp hp
    by_cases hT' : p ∈ T'
    · exact Finset.mem_filter.mpr ⟨hT', (h.kept p hT hT').trans hf⟩
    · exact absurd ((hleave p hT hT').symm.trans hf) Bool.false_ne_true

end Marks
