import Mathlib.Data.List.Perm.Basic
import Mathlib.Logic.Function.Basic

/-!
# Items in places

Items of a type `ι` lie in lists, one for each place of a type `π`, and some are in hand: the
code that moves them has taken them from one place and not yet put them into another.

* `OwnedBy pl hand x o`   `x` occurs once, in the place `o` or in hand (`none`);
* `Accounted U pl hand`   every item of `U` occurs once, and no other item occurs;
* `Accounted.exchange`   items move between the hand and one place;
* `Accounted.take`, `put`   the same, in one direction;
* `Accounted.fresh`   an item that was not there before comes to hand;
* `Accounted.remove`   an item is taken out of the place it is in;
* `Accounted.one_place`   an item of a place is there once, and nowhere else.
-/

namespace Ledger

variable {ι π : Type*} [DecidableEq ι] [DecidableEq π]

def OwnedBy (pl : π → List ι) (hand : List ι) (x : ι) (o : Option π) : Prop :=
  hand.count x = (if o = none then 1 else 0) ∧ ∀ p, (pl p).count x = if o = some p then 1 else 0

structure Accounted (U : ι → Prop) (pl : π → List ι) (hand : List ι) : Prop where
  once : ∀ x, U x → ∃ o, OwnedBy pl hand x o
  no_other : ∀ x, ¬ U x → x ∉ hand ∧ ∀ p, x ∉ pl p

variable {U : ι → Prop} {pl pl' : π → List ι} {hand hand' : List ι} {x : ι}

theorem Accounted.mem (h : Accounted U pl hand) (hx : x ∈ hand) : U x := by
  by_contra hU
  exact (h.no_other x hU).1 hx

theorem Accounted.not_mem_place (h : Accounted U pl hand) (hx : x ∈ hand) (p : π) : x ∉ pl p := by
  obtain ⟨o, hhand, hpl⟩ := h.once x (h.mem hx)
  have hpos : 0 < hand.count x := List.count_pos_iff.mpr hx
  have ho : o = none := by
    by_contra ho
    rw [if_neg ho] at hhand
    omega
  subst ho
  exact List.count_eq_zero.mp ((hpl p).trans (if_neg (Option.some_ne_none p).symm))

theorem Accounted.not_mem_tail (h : Accounted U pl (x :: hand)) : x ∉ hand := by
  obtain ⟨o, hhand, -⟩ := h.once x (h.mem List.mem_cons_self)
  rw [List.count_cons_self] at hhand
  apply List.count_eq_zero.mp
  split at hhand <;> omega

theorem Accounted.one_place {p : π} (h : Accounted U pl hand) (hx : x ∈ pl p) :
    (pl p).count x = 1 ∧ ∀ q, x ∈ pl q → q = p := by
  have hU : U x := by
    by_contra hU
    exact (h.no_other x hU).2 p hx
  obtain ⟨o, -, hpl⟩ := h.once x hU
  have hown : ∀ q, x ∈ pl q → o = some q := by
    intro q hq
    have hpos := List.count_pos_iff.mpr hq
    rw [hpl q] at hpos
    by_contra hne
    rw [if_neg hne] at hpos
    exact absurd hpos (Nat.lt_irrefl 0)
  have hp := hown p hx
  refine ⟨by rw [hpl p, if_pos hp], ?_⟩
  intro q hq
  rw [hown q hq] at hp
  exact Option.some.inj hp

/-- **Items move between the hand and the place `p`.** -/
theorem Accounted.exchange (h : Accounted U pl hand) (p : π)
    (hp : (hand' ++ pl' p).Perm (hand ++ pl p)) (hne : ∀ q, q ≠ p → pl' q = pl q) :
    Accounted U pl' hand' where
  once x hU := by
    obtain ⟨o, hhand, hpl⟩ := h.once x hU
    have hsum := hp.count_eq x
    rw [List.count_append, List.count_append, hhand, hpl p] at hsum
    by_cases ho : o = none ∨ o = some p
    · -- the item is in hand or in `p`, before and after
      have hone : (if o = none then 1 else 0) + (if o = some p then 1 else 0) = 1 := by
        obtain rfl | rfl := ho
        · rw [if_pos rfl, if_neg (Option.some_ne_none p).symm]
        · rw [if_neg (Option.some_ne_none p), if_pos rfl]
      have hrest : ∀ q, q ≠ p → (pl' q).count x = 0 := by
        intro q hq
        rw [hne q hq, hpl q, if_neg]
        rintro rfl
        exact ho.elim (Option.some_ne_none q) fun e => hq (Option.some.inj e)
      by_cases hc : hand'.count x = 1
      · refine ⟨none, hc, ?_⟩
        intro q
        rw [if_neg (Option.some_ne_none q).symm]
        by_cases hq : q = p
        · subst hq
          omega
        · exact hrest q hq
      · refine ⟨some p, ?_, ?_⟩
        · rw [if_neg (Option.some_ne_none p)]
          omega
        · intro q
          by_cases hq : q = p
          · subst hq
            rw [if_pos rfl]
            omega
          · rw [if_neg fun e => hq (Option.some.inj e).symm]
            exact hrest q hq
    · -- it is elsewhere
      obtain ⟨hnone, hsome⟩ := not_or.mp ho
      rw [if_neg hnone, if_neg hsome] at hsum
      refine ⟨o, ?_, ?_⟩
      · rw [if_neg hnone]
        omega
      · intro q
        by_cases hq : q = p
        · subst hq
          rw [if_neg hsome]
          omega
        · rw [hne q hq, hpl q]
  no_other x hU := by
    obtain ⟨hhand, hpl⟩ := h.no_other x hU
    have hmem : x ∉ hand' ++ pl' p := by
      rw [hp.mem_iff, List.mem_append]
      exact fun hx => hx.elim hhand (hpl p)
    rw [List.mem_append, not_or] at hmem
    refine ⟨hmem.1, ?_⟩
    intro q
    by_cases hq : q = p
    · subst hq
      exact hmem.2
    · rw [hne q hq]
      exact hpl q

theorem Accounted.congr (h : Accounted U pl hand) (hpl : ∀ p, pl' p = pl p) :
    Accounted U pl' hand := by
  rwa [show pl' = pl from funext hpl]

theorem Accounted.perm (h : Accounted U pl hand) (hp : hand'.Perm hand) : Accounted U pl hand' where
  once x hU := by
    obtain ⟨o, hhand, hpl⟩ := h.once x hU
    exact ⟨o, (hp.count_eq x).trans hhand, hpl⟩
  no_other x hU := by
    obtain ⟨hhand, hpl⟩ := h.no_other x hU
    exact ⟨fun hx => hhand (hp.mem_iff.mp hx), hpl⟩

theorem Accounted.remove (h : Accounted U pl hand) (hU : U x) (hx : x ∉ hand) :
    Accounted U (fun p => (pl p).filter (· ≠ x)) (x :: hand) where
  once y hy := by
    by_cases e : y = x
    · subst e
      refine ⟨none, ?_, ?_⟩
      · rw [List.count_cons_self, List.count_eq_zero.mpr hx, if_pos rfl]
      · intro p
        rw [if_neg (Option.some_ne_none p).symm, List.count_eq_zero]
        simp
    · obtain ⟨o, hhand, hpl⟩ := h.once y hy
      refine ⟨o, ?_, ?_⟩
      · rwa [List.count_cons_of_ne (Ne.symm e)]
      · intro p
        rw [List.count_filter (by simpa using e)]
        exact hpl p
  no_other y hy := by
    obtain ⟨hhand, hpl⟩ := h.no_other y hy
    refine ⟨?_, fun p hp => hpl p (List.mem_of_mem_filter hp)⟩
    rw [List.mem_cons, not_or]
    exact ⟨fun e => hy (e ▸ hU), hhand⟩

theorem Accounted.take (xs ys : List ι) (h : Accounted U pl hand) (p : π)
    (hp : (pl p).Perm (xs ++ ys)) : Accounted U (Function.update pl p ys) (xs ++ hand) := by
  refine h.exchange p ?_ fun q hq => Function.update_of_ne hq _ _
  rw [Function.update_self]
  calc (xs ++ hand ++ ys).Perm (hand ++ xs ++ ys) := List.perm_append_comm.append_right ys
    _ = hand ++ (xs ++ ys) := List.append_assoc ..
    List.Perm _ (hand ++ pl p) := hp.symm.append_left hand

theorem Accounted.put (xs : List ι) (h : Accounted U pl (xs ++ hand)) (p : π) :
    Accounted U (Function.update pl p (pl p ++ xs)) hand := by
  refine h.exchange p ?_ fun q hq => Function.update_of_ne hq _ _
  rw [Function.update_self]
  calc (hand ++ (pl p ++ xs)).Perm (pl p ++ xs ++ hand) := List.perm_append_comm
    _ = pl p ++ (xs ++ hand) := List.append_assoc ..
    List.Perm _ (xs ++ hand ++ pl p) := List.perm_append_comm

theorem Accounted.fresh (h : Accounted U pl hand) (hx : ¬ U x) :
    Accounted (fun y => U y ∨ y = x) pl (x :: hand) where
  once y hy := by
    by_cases e : y = x
    · subst e
      obtain ⟨hhand, hpl⟩ := h.no_other y hx
      refine ⟨none, ?_, ?_⟩
      · rw [List.count_cons_self, List.count_eq_zero.mpr hhand, if_pos rfl]
      · intro p
        rw [if_neg (Option.some_ne_none p).symm, List.count_eq_zero]
        exact hpl p
    · obtain ⟨o, hhand, hpl⟩ := h.once y (hy.resolve_right e)
      refine ⟨o, ?_, hpl⟩
      rwa [List.count_cons_of_ne (Ne.symm e)]
  no_other y hy := by
    rw [not_or] at hy
    obtain ⟨hhand, hpl⟩ := h.no_other y hy.1
    refine ⟨?_, hpl⟩
    rw [List.mem_cons, not_or]
    exact ⟨hy.2, hhand⟩

end Ledger
