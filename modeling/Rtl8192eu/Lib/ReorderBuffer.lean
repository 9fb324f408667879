import Mathlib.Data.List.Chain
import Mathlib.Data.List.Perm.Basic
import Mathlib.Tactic.Linarith

/-!
# A reorder buffer over unbounded positions

Items arrive with a position and are handed up in increasing order of position.  The window
starts at `start`, the next position expected, and has room for `W` positions; an item past its
end moves the window, a timeout opens the first gap.  Positions are natural numbers that never
wrap, so every comparison is the order of `Nat`; a receiver with wrapping sequence numbers
refines this one as long as the positions it compares are less than half a circle apart.

* `drain w l`     hand up from the head of `l` while its position is not after `w`;
* `place x l`     insertion by position, `none` for a duplicate;
* `slide W w p`   the window start after an arrival at `p`;
* `Rcv.arrive`, `Rcv.timeout`   the two events;
* `Inv H W`       the invariant: what was handed up followed by what is pending is a chain
                    of steps of length `1 .. H`, and what is pending lies inside the window;
* `Held H W`      what is left of the window when others move its start as well: what is
                    pending spans less than a window and is less than `H` behind the start.
-/

namespace ReorderBuffer

variable {α : Type*}

/-! ## the operations -/

/-- the window start after an item at `p` was handed up -/
def bump (w p : Nat) : Nat := if w = p then w + 1 else w

/-- the new window start, the items handed up and the items left -/
def drain : Nat → List (Nat × α) → Nat × List (Nat × α) × List (Nat × α)
  | w, [] => (w, [], [])
  | w, x :: l =>
    if w < x.1 then (w, [], x :: l)
    else
      let r := drain (bump w x.1) l
      (r.1, x :: r.2.1, r.2.2)

def place (x : Nat × α) : List (Nat × α) → Option (List (Nat × α))
  | [] => some [x]
  | y :: l =>
    if y.1 < x.1 then (place x l).map (y :: ·)
    else if y.1 = x.1 then none
    else some (x :: y :: l)

def slide (W w p : Nat) : Nat :=
  if p = w then w + 1 else if w + W ≤ p then p + 1 - W else w

structure Rcv (α : Type*) where
  start : Option Nat
  pend : List (Nat × α)
  up : List (Nat × α)

def Rcv.empty : Rcv α := ⟨none, [], []⟩

/-- an item at position `p`, not before the window; `none`: it is a duplicate -/
def Rcv.arrive (W : Nat) (s : Rcv α) (p : Nat) (a : α) : Option (Rcv α) :=
  (place (p, a) s.pend).map fun l =>
    let r := drain (slide W (s.start.getD p) p) l
    ⟨some r.1, r.2.2, s.up ++ r.2.1⟩

/-- open the first gap -/
def Rcv.timeout (s : Rcv α) : Rcv α :=
  match s.pend with
  | [] => s
  | x :: l =>
    let r := drain x.1 (x :: l)
    ⟨some r.1, r.2.2, s.up ++ r.2.1⟩

/-! ## draining -/

theorem le_bump (w p : Nat) : w ≤ bump w p := by
  unfold bump; split <;> omega

theorem bump_eq_or (w p : Nat) : bump w p = w ∨ w = p ∧ bump w p = w + 1 := by
  unfold bump; split <;> simp_all

theorem lt_bump {w p : Nat} (h : ¬ w < p) : p < bump w p := by
  unfold bump; split <;> omega

theorem bump_eq {w p : Nat} (h : ¬ w < p) (hw : w ≤ p + 1) : bump w p = p + 1 := by
  unfold bump; split <;> omega

theorem bump_le_of_lt {w p z : Nat} (hw : w ≤ z + 1) (h : p < z) : bump w p ≤ z + 1 := by
  unfold bump; split <;> omega

theorem drain_nil (w : Nat) : drain w ([] : List (Nat × α)) = (w, [], []) := rfl

theorem drain_stop {w : Nat} {x : Nat × α} (h : w < x.1) (l : List (Nat × α)) :
    drain w (x :: l) = (w, [], x :: l) := by
  simp [drain, h]

theorem drain_go {w : Nat} {x : Nat × α} (h : ¬ w < x.1) (l : List (Nat × α)) :
    drain w (x :: l) = ((drain (bump w x.1) l).1, x :: (drain (bump w x.1) l).2.1,
      (drain (bump w x.1) l).2.2) := by
  simp [drain, h]

theorem drain_append (w : Nat) (l : List (Nat × α)) : (drain w l).2.1 ++ (drain w l).2.2 = l := by
  induction l generalizing w with
  | nil => rfl
  | cons x l ih =>
    by_cases h : w < x.1
    · rw [drain_stop h]; rfl
    · rw [drain_go h]
      simp only [List.cons_append, ih]

theorem le_drain (w : Nat) (l : List (Nat × α)) : w ≤ (drain w l).1 := by
  induction l generalizing w with
  | nil => exact le_rfl
  | cons x l ih =>
    by_cases h : w < x.1
    · rw [drain_stop h]
    · rw [drain_go h]
      exact le_trans (le_bump w x.1) (ih _)

theorem lt_drain (w : Nat) (l : List (Nat × α)) : ∀ x ∈ (drain w l).2.1, x.1 < (drain w l).1 := by
  induction l generalizing w with
  | nil => simp [drain_nil]
  | cons y l ih =>
    by_cases h : w < y.1
    · rw [drain_stop h]; simp
    · rw [drain_go h]
      intro x hx
      rcases List.mem_cons.mp hx with rfl | hx
      · exact lt_of_lt_of_le (lt_bump h) (le_drain _ l)
      · exact ih _ x hx

theorem drain_lt (w : Nat) (l : List (Nat × α)) (hl : l.Pairwise (fun x y => x.1 < y.1)) :
    ∀ x ∈ (drain w l).2.2, (drain w l).1 < x.1 := by
  induction l generalizing w with
  | nil => simp [drain_nil]
  | cons y l ih =>
    by_cases h : w < y.1
    · rw [drain_stop h]
      intro x hx
      rcases List.mem_cons.mp hx with rfl | hx
      · exact h
      · exact lt_trans h (List.rel_of_pairwise_cons hl hx)
    · rw [drain_go h]
      exact ih _ hl.of_cons

theorem drain_all {w : Nat} {l : List (Nat × α)} {z : Nat × α} (hl : l.Pairwise (fun x y => x.1 < y.1))
    (hz : z ∈ l.getLast?) (hw : w ≤ z.1 + 1) (hr : (drain w l).2.2 = []) :
    (drain w l).1 = z.1 + 1 := by
  induction l generalizing w with
  | nil => simp at hz
  | cons y l ih =>
    by_cases h : w < y.1
    · rw [drain_stop h] at hr; simp at hr
    · rw [drain_go h] at hr ⊢
      cases l with
      | nil =>
        have e : y = z := by simpa using hz
        subst e
        rw [drain_nil]
        exact bump_eq h hw
      | cons x l =>
        have hz' : z ∈ (x :: l).getLast? := by simpa using hz
        have hyz : y.1 < z.1 := List.rel_of_pairwise_cons hl (List.mem_of_mem_getLast? hz')
        exact ih hl.of_cons hz' (bump_le_of_lt hw hyz) hr

/-! ## insertion -/

theorem place_perm {x : Nat × α} {l l' : List (Nat × α)} (h : place x l = some l') :
    l'.Perm (x :: l) := by
  induction l generalizing l' with
  | nil =>
    obtain rfl : [x] = l' := by simpa [place] using h
    exact List.Perm.refl _
  | cons y l ih =>
    simp only [place] at h
    split at h
    · obtain ⟨m, hm, rfl⟩ := Option.map_eq_some_iff.mp h
      exact ((ih hm).cons y).trans (List.Perm.swap x y l)
    · split at h
      · cases h
      · obtain rfl : x :: y :: l = l' := by simpa using h
        exact List.Perm.refl _

theorem place_none {x : Nat × α} {l : List (Nat × α)} (h : place x l = none) :
    ∃ y ∈ l, y.1 = x.1 := by
  induction l with
  | nil => simp [place] at h
  | cons y l ih =>
    simp only [place] at h
    split at h
    · obtain ⟨z, hz, e⟩ := ih (Option.map_eq_none_iff.mp h)
      exact ⟨z, List.mem_cons_of_mem _ hz, e⟩
    · split at h
      · rename_i e
        exact ⟨y, List.mem_cons_self, e⟩
      · cases h

/-- consecutive items are between `1` and `H` positions apart -/
def Near (H : Nat) (x y : Nat × α) : Prop := x.1 < y.1 ∧ y.1 ≤ x.1 + H

theorem Near.pairwise {H : Nat} {l : List (Nat × α)} (h : l.IsChain (Near H)) :
    l.Pairwise (fun x y => x.1 < y.1) := by
  have : Trans (fun x y : Nat × α => x.1 < y.1) (fun x y : Nat × α => x.1 < y.1)
      (fun x y : Nat × α => x.1 < y.1) := ⟨lt_trans⟩
  exact List.isChain_iff_pairwise.mp (h.imp fun _ _ => And.left)

/-- insertion keeps the chain: the left neighbour of the new item is at most `H` behind it -/
theorem place_chain {H : Nat} {a x : Nat × α} {l l' : List (Nat × α)}
    (hc : (a :: l).IsChain (Near H)) (hi : place x l = some l') (hax : a.1 < x.1)
    (hnil : l = [] → x.1 ≤ a.1 + H) (hup : ∀ y ∈ l, x.1 ≤ y.1 + H) (hdn : ∀ y ∈ l, y.1 ≤ x.1 + H) :
    (a :: l').IsChain (Near H) := by
  induction l generalizing a l' with
  | nil =>
    obtain rfl : [x] = l' := by simpa [place] using hi
    simpa [Near] using And.intro hax (hnil rfl)
  | cons y l ih =>
    obtain ⟨hay, hc'⟩ := List.isChain_cons_cons.mp hc
    simp only [place] at hi
    split at hi
    · rename_i hyx
      obtain ⟨m, hm, rfl⟩ := Option.map_eq_some_iff.mp hi
      have ih' := ih hc' hm hyx (fun _ => hup y List.mem_cons_self)
        (fun z hz => hup z (List.mem_cons_of_mem _ hz)) (fun z hz => hdn z (List.mem_cons_of_mem _ hz))
      exact List.isChain_cons_cons.mpr ⟨hay, ih'⟩
    · rename_i hyx
      split at hi
      · cases hi
      · rename_i hne
        obtain rfl : x :: y :: l = l' := by simpa using hi
        have hxy : x.1 < y.1 := by omega
        have := hdn y List.mem_cons_self
        exact List.isChain_cons_cons.mpr ⟨⟨hax, le_trans hxy.le hay.2⟩,
          List.isChain_cons_cons.mpr ⟨⟨hxy, this⟩, hc'⟩⟩

/-! ## the invariant -/

/-- **The invariant of a receiver that has handed up an item**, for reach `H` and window `W`. -/
structure Inv (H W : Nat) (s : Rcv α) (w : Nat) (z : Nat × α) : Prop where
  start : s.start = some w
  last : z ∈ s.up.getLast?
  chain : (s.up ++ s.pend).IsChain (Near H)
  above : ∀ x ∈ s.pend, w < x.1
  below : ∀ x ∈ s.pend, x.1 < w + W
  done : z.1 < w
  gap : s.pend = [] → w = z.1 + 1

theorem getLast?_append_of_nil {z : α} {l m : List α} (h : z ∈ l.getLast?) (hm : m = []) :
    z ∈ (l ++ m).getLast? := by
  rw [hm, List.append_nil]; exact h

/-- **Draining restores the invariant.**  `l` is what is pending after an arrival or at a
timeout, `w'` the start the window was moved to. -/
theorem drain_inv {H W w' : Nat} {up l : List (Nat × α)} {z t : Nat × α}
    (hz : z ∈ up.getLast?) (ht : t ∈ l.getLast?) (hc : (up ++ l).IsChain (Near H))
    (hb : ∀ x ∈ l, x.1 < w' + W) (hzw : z.1 < w') (htw : w' ≤ t.1 + 1) :
    ∃ z', Inv H W ⟨some (drain w' l).1, (drain w' l).2.2, up ++ (drain w' l).2.1⟩ (drain w' l).1 z' := by
  have hsort : l.Pairwise (fun x y => x.1 < y.1) := Near.pairwise hc.right_of_append
  have happ := drain_append w' l
  have hchain : (up ++ (drain w' l).2.1 ++ (drain w' l).2.2).IsChain (Near H) := by
    rw [List.append_assoc, happ]; exact hc
  have habove := drain_lt w' l hsort
  have hbelow : ∀ x ∈ (drain w' l).2.2, x.1 < (drain w' l).1 + W := by
    intro x hx
    have hxl : x ∈ l := by rw [← happ]; exact List.mem_append_right _ hx
    have h1 := hb x hxl
    have h2 := le_drain w' l
    omega
  cases hup : (drain w' l).2.1.getLast? with
  | none =>
    -- nothing was handed up: something is left, so there is no gap to close
    have hnil : (drain w' l).2.1 = [] := List.getLast?_eq_none_iff.mp hup
    refine ⟨z, rfl, getLast?_append_of_nil hz hnil, hchain, habove, hbelow,
      lt_of_lt_of_le hzw (le_drain w' l), fun hr => ?_⟩
    rw [hnil] at happ
    change (drain w' l).2.2 = [] at hr
    rw [hr] at happ
    rw [← happ] at ht
    simp at ht
  | some z' =>
    have hmem : z' ∈ (drain w' l).2.1 := List.mem_of_getLast? hup
    refine ⟨z', rfl, ?_, hchain, habove, hbelow, lt_drain w' l z' hmem, ?_⟩
    · show (up ++ (drain w' l).2.1).getLast? = some z'
      rw [List.getLast?_append, hup]; rfl
    · intro hr
      change (drain w' l).2.2 = [] at hr
      rw [hr, List.append_nil] at happ
      rw [happ] at hup
      obtain rfl : t = z' := by rw [Option.mem_def] at ht; rw [ht] at hup; exact Option.some.inj hup
      exact drain_all hsort ht htw hr

theorem le_slide (W w p : Nat) : w ≤ slide W w p := by
  unfold slide; split_ifs <;> omega

theorem slide_le {W w p : Nat} (h : w ≤ p) : slide W w p ≤ p + 1 := by
  unfold slide; split_ifs <;> omega

theorem lt_slide {W w p : Nat} (hW : 0 < W) : p < slide W w p + W := by
  unfold slide; split_ifs <;> omega

theorem slide_inside {W w p : Nat} (h : w < p) (hp : p < w + W) : slide W w p = w := by
  unfold slide; split_ifs <;> omega

theorem le_getLast {l : List (Nat × α)} {x t : Nat × α} (hl : l.Pairwise (fun x y => x.1 < y.1))
    (hx : x ∈ l) (ht : t ∈ l.getLast?) : x.1 ≤ t.1 := by
  obtain ⟨m, rfl⟩ := List.getLast?_eq_some_iff.mp ht
  rcases List.mem_append.mp hx with h | h
  · exact ((List.pairwise_append.mp hl).2.2 x h t (List.mem_singleton.mpr rfl)).le
  · rw [List.mem_singleton.mp h]

theorem Rcv.arrive_inv {H W w p : Nat} {a : α} {s s' : Rcv α} {z : Nat × α} (hW : 0 < W)
    (hWH : W ≤ H) (hI : Inv H W s w z) (hwp : w ≤ p) (hpH : p < w + H)
    (h : s.arrive W p a = some s') : ∃ w' z', Inv H W s' w' z' := by
  unfold Rcv.arrive at h
  rw [hI.start, Option.getD_some] at h
  obtain ⟨l, hl, rfl⟩ := Option.map_eq_some_iff.mp h
  have hperm := place_perm hl
  -- the chain with the new item in it
  obtain ⟨init, hinit⟩ := List.getLast?_eq_some_iff.mp hI.last
  have hsplit := hI.chain
  rw [hinit, List.append_assoc, List.singleton_append, List.isChain_split] at hsplit
  have hzl : (z :: l).IsChain (Near H) := by
    refine place_chain hsplit.2 hl (lt_of_lt_of_le hI.done hwp) ?_ ?_ ?_
    · intro e
      have := hI.gap e
      show p ≤ z.1 + H
      omega
    · intro y hy
      have := hI.above y hy
      show p ≤ y.1 + H
      omega
    · intro y hy
      have := hI.below y hy
      show y.1 ≤ p + H
      omega
  have hchain : (s.up ++ l).IsChain (Near H) := by
    rw [hinit, List.append_assoc, List.singleton_append, List.isChain_split]
    exact ⟨hsplit.1, hzl⟩
  have hsort := Near.pairwise hzl.tail
  have hpl : (p, a) ∈ l := hperm.mem_iff.mpr List.mem_cons_self
  obtain ⟨t, ht⟩ : ∃ t, t ∈ l.getLast? :=
    ⟨l.getLast (List.ne_nil_of_mem hpl), List.getLast?_eq_some_getLast _⟩
  have hb : ∀ x ∈ l, x.1 < slide W w p + W := by
    intro x hx
    rcases List.mem_cons.mp (hperm.mem_iff.mp hx) with rfl | hx
    · exact lt_slide hW
    · have := hI.below x hx
      have := le_slide W w p
      omega
  have htw : slide W w p ≤ t.1 + 1 :=
    le_trans (slide_le hwp) (Nat.succ_le_succ (le_getLast hsort hpl ht))
  obtain ⟨z', h'⟩ := drain_inv hI.last ht hchain hb (lt_of_lt_of_le hI.done (le_slide W w p)) htw
  exact ⟨_, z', h'⟩

theorem Rcv.timeout_inv {H W w : Nat} {s : Rcv α} {z : Nat × α} (hI : Inv H W s w z) :
    ∃ w' z', Inv H W s.timeout w' z' := by
  unfold Rcv.timeout
  cases hp : s.pend with
  | nil => exact ⟨w, z, hI⟩
  | cons x l =>
    have hchain := hI.chain
    rw [hp] at hchain
    have hsort := Near.pairwise hchain.right_of_append
    have hmem : ∀ y ∈ x :: l, y ∈ s.pend := fun y hy => hp ▸ hy
    have hx := hI.above x (hmem x List.mem_cons_self)
    obtain ⟨t, ht⟩ : ∃ t, t ∈ (x :: l).getLast? :=
      ⟨(x :: l).getLast (List.cons_ne_nil x l), List.getLast?_eq_some_getLast _⟩
    have hb : ∀ y ∈ x :: l, y.1 < x.1 + W := by
      intro y hy
      have := hI.below y (hmem y hy)
      omega
    obtain ⟨z', h'⟩ := drain_inv hI.last ht hchain hb (lt_trans hI.done hx)
      (Nat.le_succ_of_le (le_getLast hsort List.mem_cons_self ht))
    exact ⟨_, z', h'⟩

theorem Rcv.arrive_first {H W p : Nat} (a : α) :
    ∃ s', (Rcv.empty : Rcv α).arrive W p a = some s' ∧ Inv H W s' (p + 1) (p, a) := by
  refine ⟨⟨some (p + 1), [], [(p, a)]⟩, ?_, ?_⟩
  · simp [Rcv.arrive, Rcv.empty, place, slide, drain, bump]
  · constructor <;> simp

/-! ## conservation -/

theorem Rcv.arrive_perm {W p : Nat} {a : α} {s s' : Rcv α} (h : s.arrive W p a = some s') :
    (s'.up ++ s'.pend).Perm ((p, a) :: (s.up ++ s.pend)) := by
  obtain ⟨l, hl, rfl⟩ := Option.map_eq_some_iff.mp h
  show (s.up ++ (drain _ l).2.1 ++ (drain _ l).2.2).Perm _
  rw [List.append_assoc, drain_append]
  exact ((place_perm hl).append_left s.up).trans List.perm_middle

theorem Rcv.timeout_append (s : Rcv α) : s.timeout.up ++ s.timeout.pend = s.up ++ s.pend := by
  unfold Rcv.timeout
  cases hp : s.pend with
  | nil => simp only [hp]
  | cons x l =>
    show s.up ++ (drain _ _).2.1 ++ (drain _ _).2.2 = _
    rw [List.append_assoc, drain_append]

/-! ## a window start that others move -/

/-- **The pending items, relative to a window start `w`**: none is past the window end, and those
before the start are less than `H` before it. -/
structure Held (H W : Nat) (l : List (Nat × α)) (w : Nat) : Prop where
  sorted : l.Pairwise (fun x y => x.1 < y.1)
  span : ∀ x ∈ l, ∀ y ∈ l, y.1 + 1 < x.1 + W
  below : ∀ x ∈ l, x.1 < w + W
  behind : ∀ x ∈ l, w < x.1 + H

theorem Held.nil (H W w : Nat) : Held H W ([] : List (Nat × α)) w where
  sorted := List.Pairwise.nil
  span := List.forall_mem_nil _
  below := List.forall_mem_nil _
  behind := List.forall_mem_nil _

/-- what is left after draining is after the start and before the window end -/
theorem drain_held {H W w : Nat} {l : List (Nat × α)} (hl : l.Pairwise (fun x y => x.1 < y.1))
    (hb : ∀ x ∈ l, x.1 < w + W) : Held H W (drain w l).2.2 (drain w l).1 := by
  have happ := drain_append w l
  have hsort : (drain w l).2.2.Pairwise (fun x y => x.1 < y.1) := by
    rw [← happ] at hl
    exact (List.pairwise_append.mp hl).2.1
  have habove := drain_lt w l hl
  have hbelow : ∀ x ∈ (drain w l).2.2, x.1 < (drain w l).1 + W := by
    intro x hx
    have hxl : x ∈ l := by rw [← happ]; exact List.mem_append_right _ hx
    have h1 := hb x hxl
    have h2 := le_drain w l
    omega
  refine ⟨hsort, ?_, hbelow, ?_⟩
  · intro x hx y hy
    have h1 := habove x hx
    have h2 := hbelow y hy
    omega
  · intro x hx
    have h1 := habove x hx
    omega

/-- no item of `l` that the start has passed is too far before an arrival at `p` -/
def Reach (H w p : Nat) (l : List (Nat × α)) : Prop := ∀ x ∈ l, x.1 < w → p + 1 < x.1 + H

theorem place_sorted {x : Nat × α} {l l' : List (Nat × α)}
    (hl : l.Pairwise (fun x y => x.1 < y.1)) (h : place x l = some l') :
    l'.Pairwise (fun x y => x.1 < y.1) := by
  induction l generalizing l' with
  | nil =>
    obtain rfl : [x] = l' := by simpa [place] using h
    exact List.pairwise_singleton _ _
  | cons y l ih =>
    simp only [place] at h
    split at h
    · rename_i hyx
      obtain ⟨m, hm, rfl⟩ := Option.map_eq_some_iff.mp h
      refine List.pairwise_cons.mpr ⟨?_, ih hl.of_cons hm⟩
      intro z hz
      rcases List.mem_cons.mp ((place_perm hm).mem_iff.mp hz) with rfl | hz
      · exact hyx
      · exact List.rel_of_pairwise_cons hl hz
    · split at h
      · cases h
      · rename_i hyx hne
        obtain rfl : x :: y :: l = l' := by simpa using h
        have hxy : x.1 < y.1 := by omega
        refine List.pairwise_cons.mpr ⟨?_, hl⟩
        intro z hz
        rcases List.mem_cons.mp hz with rfl | hz
        · exact hxy
        · exact lt_trans hxy (List.rel_of_pairwise_cons hl hz)

/-- insertion keeps the chain; an item that goes to the front is near what was handed up last -/
theorem place_chain_append {H : Nat} {x : Nat × α} {u l l' : List (Nat × α)}
    (hc : (u ++ l).IsChain (Near H)) (hi : place x l = some l') (hup : ∀ y ∈ l, x.1 ≤ y.1 + H)
    (hdn : ∀ y ∈ l, y.1 ≤ x.1 + H)
    (hfront : (∀ y ∈ l.head?, x.1 < y.1) → ∀ z ∈ u.getLast?, Near H z x) :
    (u ++ l').IsChain (Near H) := by
  obtain ⟨hu, hl, hul⟩ := List.isChain_append.mp hc
  cases l with
  | nil =>
    obtain rfl : [x] = l' := by simpa [place] using hi
    refine List.isChain_append.mpr ⟨hu, List.isChain_singleton x, ?_⟩
    intro z hz y hy
    obtain rfl : x = y := by simpa using hy
    exact hfront (fun _ h => by simp at h) z hz
  | cons y l =>
    simp only [place] at hi
    split at hi
    · rename_i hyx
      obtain ⟨m, hm, rfl⟩ := Option.map_eq_some_iff.mp hi
      refine List.isChain_append.mpr ⟨hu, ?_, hul⟩
      apply place_chain hl hm hyx
      · intro _
        exact hup y List.mem_cons_self
      · exact fun z hz => hup z (List.mem_cons_of_mem _ hz)
      · exact fun z hz => hdn z (List.mem_cons_of_mem _ hz)
    · split at hi
      · cases hi
      · rename_i hyx hne
        obtain rfl : x :: y :: l = l' := by simpa using hi
        have hxy : x.1 < y.1 := by omega
        refine List.isChain_append.mpr
          ⟨hu, List.isChain_cons_cons.mpr ⟨⟨hxy, hdn y List.mem_cons_self⟩, hl⟩, ?_⟩
        intro z hz x' hx'
        obtain rfl : x = x' := by simpa using hx'
        refine hfront ?_ z hz
        intro y' hy'
        obtain rfl : y = y' := by simpa using hy'
        exact hxy

section

variable {H W w p : Nat} {l : List (Nat × α)}

/-- the start after an arrival stays within reach of what is pending -/
theorem Held.slide_lt (hW : 0 < W) (hWH : W < H) (h : Held H W l w) (hwp : w ≤ p) (hp : p < w + H)
    (hr : Reach H w p l) : ∀ x ∈ l, slide W w p < x.1 + H ∧ x.1 < slide W w p + W := by
  intro x hx
  have h1 := h.behind x hx
  have h2 := h.below x hx
  have h3 := hr x hx
  unfold slide
  split_ifs <;> omega

theorem Held.reach_le (hWH : W < H) (h : Held H W l w) (hwp : w ≤ p) (hp : p < w + H)
    (hr : Reach H w p l) : ∀ x ∈ l, p ≤ x.1 + H ∧ x.1 < p + H := by
  intro x hx
  have h1 := h.below x hx
  have h2 := hr x hx
  omega

theorem Held.arrive {a : α} {l' : List (Nat × α)} (hW : 0 < W) (hWH : W < H) (h : Held H W l w)
    (hwp : w ≤ p) (hp : p < w + H) (hr : Reach H w p l) (hl : place (p, a) l = some l') :
    Held H W (drain (slide W w p) l').2.2 (drain (slide W w p) l').1 := by
  apply drain_held (place_sorted h.sorted hl)
  intro x hx
  rcases List.mem_cons.mp ((place_perm hl).mem_iff.mp hx) with rfl | hx
  · exact lt_slide hW
  · exact (h.slide_lt hW hWH hwp hp hr x hx).2

/-- a duplicate may move the start, by one at most -/
theorem Held.duplicate (hW : 0 < W) (hWH : W < H) (h : Held H W l w) (hwp : w ≤ p) (hp : p < w + H)
    (hr : Reach H w p l) : Held H W l (slide W w p) where
  sorted := h.sorted
  span := h.span
  below := fun x hx => (h.slide_lt hW hWH hwp hp hr x hx).2
  behind := fun x hx => (h.slide_lt hW hWH hwp hp hr x hx).1

theorem Held.timeout {x : Nat × α} (h : Held H W (x :: l) w) :
    Held H W (drain x.1 (x :: l)).2.2 (drain x.1 (x :: l)).1 := by
  apply drain_held h.sorted
  intro y hy
  have := h.span x List.mem_cons_self y hy
  omega

theorem length_le_of_sorted {a b : Nat} (hl : l.Pairwise (fun x y => x.1 < y.1))
    (ha : ∀ x ∈ l, a ≤ x.1) (hb : ∀ x ∈ l, x.1 < b) : l.length ≤ b - a := by
  induction l generalizing a with
  | nil => exact Nat.zero_le _
  | cons x l ih =>
    have h1 := ha x List.mem_cons_self
    have h2 := hb x List.mem_cons_self
    have h3 := ih (a := x.1 + 1) hl.of_cons (fun y hy => List.rel_of_pairwise_cons hl hy)
      (fun y hy => hb y (List.mem_cons_of_mem _ hy))
    rw [List.length_cons]
    omega

/-- **Fewer items than a window are pending.** -/
theorem Held.length_lt (hW : 0 < W) (h : Held H W l w) : l.length < W := by
  cases l with
  | nil => exact hW
  | cons x l =>
    have h1 := length_le_of_sorted (a := x.1) (b := x.1 + (W - 1)) h.sorted ?_ ?_
    · omega
    · intro y hy
      rcases List.mem_cons.mp hy with rfl | hy
      · exact le_rfl
      · exact (List.rel_of_pairwise_cons h.sorted hy).le
    · intro y hy
      have := h.span x List.mem_cons_self y hy
      omega

end

/-! ## shifting all positions -/

def shift (n : Nat) (l : List (Nat × α)) : List (Nat × α) := l.map fun x => (x.1 + n, x.2)

theorem shift_append (n : Nat) (l m : List (Nat × α)) : shift n (l ++ m) = shift n l ++ shift n m :=
  List.map_append

theorem shift_snd (n : Nat) (l : List (Nat × α)) : (shift n l).map Prod.snd = l.map Prod.snd := by
  unfold shift
  rw [List.map_map]
  rfl

theorem mem_shift {n : Nat} {l : List (Nat × α)} {x : Nat × α} (hx : x ∈ shift n l) :
    ∃ y ∈ l, x = (y.1 + n, y.2) := by
  obtain ⟨y, hy, rfl⟩ := List.mem_map.mp hx
  exact ⟨y, hy, rfl⟩

theorem shift_chain {H : Nat} (n : Nat) {l : List (Nat × α)} (h : l.IsChain (Near H)) :
    (shift n l).IsChain (Near H) := by
  unfold shift
  rw [List.isChain_map]
  apply h.imp
  intro x y hxy
  exact ⟨Nat.add_lt_add_right hxy.1 n, by have := hxy.2; show y.1 + n ≤ x.1 + n + H; omega⟩

theorem shift_sorted (n : Nat) {l : List (Nat × α)} (h : l.Pairwise (fun x y => x.1 < y.1)) :
    (shift n l).Pairwise (fun x y => x.1 < y.1) := by
  unfold shift
  rw [List.pairwise_map]
  exact h.imp fun hxy => Nat.add_lt_add_right hxy n

end ReorderBuffer
