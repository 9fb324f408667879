import Mathlib.Data.List.Pairwise
import Mathlib.Data.List.Nodup
import Mathlib.Logic.Function.Basic

/-!
# Cells that hold things no two of which are alike

`l` lists the cells in use, `f` is what they hold, and `R` says when two things are alike.  `R` is symmetric,
and need not be transitive: what is alike to one thing that is held may be alike to others.

* `Apart R f l`   no two cells of `l` hold things that are alike;
* `apart_update_iff`   one cell is written over;
* `apart_concat_iff`   a cell comes into use;
* `Apart.sublist`   cells go out of use;
* `Apart.congr`   what is alike stays alike.
-/

namespace Cells

variable {ι α : Type*} {R : α → α → Prop} {f g : ι → α} {l l' : List ι} {p : ι} {x : α}

def Apart (R : α → α → Prop) (f : ι → α) (l : List ι) : Prop := l.Pairwise fun p q => ¬ R (f p) (f q)

theorem apart_nil : Apart R f [] := List.Pairwise.nil

theorem Apart.sublist (h : Apart R f l) (hs : l'.Sublist l) : Apart R f l' := List.Pairwise.sublist hs h

/-- two cells, in any order -/
theorem Apart.ne (hR : ∀ a b, R a b → R b a) (h : Apart R f l) {q : ι} (hp : p ∈ l) (hq : q ∈ l) (hne : p ≠ q) :
    ¬ R (f p) (f q) := by
  have : Std.Symm fun p q => ¬ R (f p) (f q) := ⟨fun _ _ hpq hqp => hpq (hR _ _ hqp)⟩
  exact List.Pairwise.forall h hp hq hne

theorem apart_of_ne (hn : l.Nodup) (h : ∀ p ∈ l, ∀ q ∈ l, p ≠ q → ¬ R (f p) (f q)) : Apart R f l :=
  List.Nodup.pairwise_of_forall_ne hn h

theorem apart_concat_iff : Apart R f (l ++ [p]) ↔ Apart R f l ∧ ∀ q ∈ l, ¬ R (f q) (f p) := by
  unfold Apart
  rw [List.pairwise_append]
  simp

/-- alike things are put in the place of one another -/
theorem Apart.congr (hfg : ∀ p ∈ l, ∀ q ∈ l, R (g p) (g q) → R (f p) (f q)) (h : Apart R f l) : Apart R g l :=
  List.Pairwise.imp_of_mem (fun hp hq hne hr => hne (hfg _ hp _ hq hr)) h

/-- **One cell is written over**: what it holds now must not be alike to what the others hold. -/
theorem apart_update_iff [DecidableEq ι] (hR : ∀ a b, R a b → R b a) (hn : l.Nodup) (h : Apart R f l)
    (hp : p ∈ l) : Apart R (Function.update f p x) l ↔ ∀ q ∈ l, q ≠ p → ¬ R x (f q) := by
  constructor
  · intro hu q hq hne hr
    have hpq := hu.ne hR hp hq hne.symm
    rw [Function.update_self, Function.update_of_ne hne] at hpq
    exact hpq hr
  · intro hx
    refine apart_of_ne hn fun a ha b hb hab => ?_
    by_cases hap : a = p
    · subst hap
      rw [Function.update_self, Function.update_of_ne hab.symm]
      exact hx b hb hab.symm
    · rw [Function.update_of_ne hap]
      by_cases hbp : b = p
      · subst hbp
        rw [Function.update_self]
        exact fun hr => hx a ha hab (hR _ _ hr)
      · rw [Function.update_of_ne hbp]
        exact h.ne hR ha hb hab

end Cells
