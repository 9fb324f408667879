import Mathlib.Data.List.Nodup
import Mathlib.Logic.Function.Basic
import Rtl8192eu.Lib.Run

/-!
# Boxes that a sender fills in turn

The sender has `n` boxes and puts its messages into them one after the other, each only into an empty box. The
receiver empties a box whenever it wants to.

* `Mailboxes`, `step`   boxes, and what was sent and taken;
* `Delivered`   the order in which the messages were taken; `run_delivered`;
* `run_fifo`    a receiver that goes round takes them in the order they were sent.
-/

namespace Mailbox

variable {M : Type*}

structure Mailboxes (M : Type*) where
  sent : List M := []
  box : Nat → Option M := fun _ => none
  taken : List M := []

inductive Event (M : Type*) where
  | put (m : M)
  | take (k : Nat)

def put (n : Nat) (s : Mailboxes M) (m : M) : Mailboxes M :=
  if s.box (s.sent.length % n) = none then
    { s with sent := s.sent ++ [m], box := Function.update s.box (s.sent.length % n) (some m) }
  else s

def take (s : Mailboxes M) (k : Nat) : Mailboxes M :=
  match s.box k with
  | none => s
  | some m => { s with box := Function.update s.box k none, taken := s.taken ++ [m] }

def step (n : Nat) (s : Mailboxes M) : Event M → Mailboxes M
  | .put m => put n s m
  | .take k => take s k

/-- the messages were taken in the order `idx`: none twice, none after one that was sent `n` or more messages later,
and each that was not taken is in its box -/
structure Delivered (n : Nat) (s : Mailboxes M) (idx : List Nat) : Prop where
  taken : s.taken.map some = idx.map (s.sent[·]?)
  nodup : idx.Nodup
  window : idx.Pairwise fun i j => i < j + n
  bound : ∀ i ∈ idx, i < s.sent.length
  held : ∀ k m, s.box k = some m →
    ∃ i, i % n = k ∧ i < s.sent.length ∧ i ∉ idx ∧ s.sent[i]? = some m
  kept : ∀ i < s.sent.length, i ∉ idx → s.sent.length ≤ i + n ∧ s.box (i % n) = s.sent[i]?

variable {n : Nat} {s : Mailboxes M} {idx : List Nat}

theorem delivered_init : Delivered n ({} : Mailboxes M) [] where
  taken := rfl
  nodup := List.nodup_nil
  window := List.Pairwise.nil
  bound _ h := absurd h List.not_mem_nil
  held _ m h := absurd h (Option.some_ne_none m).symm
  kept i h := absurd h (Nat.not_lt_zero i)

theorem Delivered.put (hn : 0 < n) (h : Delivered n s idx) (m : M) : Delivered n (put n s m) idx := by
  unfold Mailbox.put
  split
  swap
  · exact h
  rename_i hfree
  have hold : ∀ i < s.sent.length, (s.sent ++ [m])[i]? = s.sent[i]? :=
    fun i hi => List.getElem?_append_left hi
  have hlast : (s.sent ++ [m])[s.sent.length]? = some m := by simp
  have hlen : (s.sent ++ [m]).length = s.sent.length + 1 := by simp
  refine
    { taken := ?_, nodup := h.nodup, window := h.window, bound := ?_, held := ?_, kept := ?_ }
  · rw [h.taken]
    exact List.map_congr_left fun i hi => (hold i (h.bound i hi)).symm
  · intro i hi
    have hb := h.bound i hi
    show i < (s.sent ++ [m]).length
    omega
  · intro k m' hk
    change Function.update s.box (s.sent.length % n) (some m) k = some m' at hk
    by_cases hkk : k = s.sent.length % n
    · rw [hkk, Function.update_self] at hk
      cases hk
      refine ⟨s.sent.length, hkk.symm, ?_, fun hi => ?_, hlast⟩
      · show s.sent.length < (s.sent ++ [m]).length
        omega
      · exact Nat.lt_irrefl _ (h.bound _ hi)
    · rw [Function.update_of_ne hkk] at hk
      obtain ⟨i, hik, hi, hidx, hm⟩ := h.held k m' hk
      refine ⟨i, hik, ?_, hidx, (hold i hi).trans hm⟩
      show i < (s.sent ++ [m]).length
      omega
  · intro i hi hidx
    change i < (s.sent ++ [m]).length at hi
    show (s.sent ++ [m]).length ≤ i + n
      ∧ Function.update s.box (s.sent.length % n) (some m) (i % n) = (s.sent ++ [m])[i]?
    rw [hlen] at hi ⊢
    rcases Nat.lt_succ_iff_lt_or_eq.mp hi with hlt | rfl
    · obtain ⟨hle, hbox⟩ := h.kept i hlt hidx
      -- the box that was free is not that of a message that is still there
      have hne : i % n ≠ s.sent.length % n := by
        intro hmod
        rw [hmod, hfree, List.getElem?_eq_getElem hlt] at hbox
        cases hbox
      have hfar : s.sent.length ≠ i + n := by
        intro he
        rw [he, Nat.add_mod_right] at hne
        exact hne rfl
      refine ⟨by omega, ?_⟩
      rw [Function.update_of_ne hne, hbox, hold i hlt]
    · exact ⟨by omega, by rw [Function.update_self, hlast]⟩

/-- numbers that share a box and are less than a round apart -/
theorem eq_of_mod_eq {i j : Nat} (h : i % n = j % n) (hij : i < j + n) (hji : j < i + n) : i = j := by
  rcases Nat.le_total i j with hle | hle
  · have hdvd : n ∣ j - i := Nat.dvd_of_mod_eq_zero (Nat.sub_mod_eq_zero_of_mod_eq h.symm)
    have hzero := Nat.eq_zero_of_dvd_of_lt hdvd (by omega)
    omega
  · have hdvd : n ∣ i - j := Nat.dvd_of_mod_eq_zero (Nat.sub_mod_eq_zero_of_mod_eq h)
    have hzero := Nat.eq_zero_of_dvd_of_lt hdvd (by omega)
    omega

theorem take_none {k : Nat} (h : s.box k = none) : take s k = s := by
  unfold take
  rw [h]

theorem take_some {k : Nat} {m : M} (h : s.box k = some m) :
    take s k = { s with box := Function.update s.box k none, taken := s.taken ++ [m] } := by
  unfold take
  rw [h]

/-- a full box holds a message that was not taken, and it is taken now -/
theorem Delivered.take (h : Delivered n s idx) {k : Nat} {m : M} (hk : s.box k = some m) :
    ∃ i, i % n = k ∧ i < s.sent.length ∧ i ∉ idx ∧ Delivered n (take s k) (idx ++ [i]) := by
  obtain ⟨i, rfl, hi, hidx, hm⟩ := h.held k m hk
  have hle := (h.kept i hi hidx).1
  have hmem : ∀ j, j ∈ idx ++ [i] ↔ j ∈ idx ∨ j = i := by simp
  rw [take_some hk]
  refine ⟨i, rfl, hi, hidx,
    { taken := ?_, nodup := ?_, window := ?_, bound := ?_, held := ?_, kept := ?_ }⟩
  · show (s.taken ++ [m]).map some = (idx ++ [i]).map (s.sent[·]?)
    rw [List.map_append, List.map_append, h.taken, List.map_singleton, List.map_singleton, hm]
  · exact List.nodup_append.mpr ⟨h.nodup, List.nodup_singleton i, fun a ha b hb hab =>
      hidx (List.mem_singleton.mp hb ▸ hab ▸ ha)⟩
  · refine List.pairwise_append.mpr ⟨h.window, List.pairwise_singleton _ i, fun a ha b hb => ?_⟩
    have hb' := List.mem_singleton.mp hb
    have hlt := h.bound a ha
    omega
  · intro j hj
    rcases (hmem j).mp hj with hj | rfl
    · exact h.bound j hj
    · exact hi
  · intro k' m' hk'
    change Function.update s.box (i % n) none k' = some m' at hk'
    have hne : k' ≠ i % n := by
      rintro rfl
      rw [Function.update_self] at hk'
      cases hk'
    rw [Function.update_of_ne hne] at hk'
    obtain ⟨j, hjk, hj, hjidx, hjm⟩ := h.held k' m' hk'
    refine ⟨j, hjk, hj, fun hmem' => ?_, hjm⟩
    rcases (hmem j).mp hmem' with hj' | rfl
    · exact hjidx hj'
    · exact hne hjk.symm
  · intro j hj hjidx
    change j < s.sent.length at hj
    have hj' : j ∉ idx ∧ j ≠ i := not_or.mp fun hor => hjidx ((hmem j).mpr hor)
    obtain ⟨hjle, hbox⟩ := h.kept j hj hj'.1
    refine ⟨hjle, ?_⟩
    -- two messages that wait are less than `n` apart
    have hne : j % n ≠ i % n := fun hmod => hj'.2 (eq_of_mod_eq hmod (by omega) (by omega))
    show Function.update s.box (i % n) none (j % n) = _
    rw [Function.update_of_ne hne, hbox]

theorem step_delivered (hn : 0 < n) (h : Delivered n s idx) (e : Event M) :
    ∃ idx', Delivered n (step n s e) idx' := by
  cases e with
  | put m => exact ⟨idx, h.put hn m⟩
  | take k =>
    show ∃ idx', Delivered n (take s k) idx'
    cases hk : s.box k with
    | none => exact ⟨idx, (take_none hk).symm ▸ h⟩
    | some m =>
      obtain ⟨i, -, -, -, htake⟩ := h.take hk
      exact ⟨idx ++ [i], htake⟩

/-- **Every message is taken once or still there**, and no message overtakes one that was sent a round before it. -/
theorem run_delivered (hn : 0 < n) (es : List (Event M)) :
    ∃ idx, Delivered n (Run.run (step n) ({} : Mailboxes M) es) idx :=
  Run.run_inv_all (I := fun s => ∃ idx, Delivered n s idx) (fun _ e ⟨_, h⟩ => step_delivered hn h e) _ es
    ⟨[], delivered_init⟩

/-! ## a receiver that goes round -/

/-- the next box to be emptied is the next one in turn -/
def InTurn (n : Nat) (s : Mailboxes M) : Event M → Prop
  | .put _ => True
  | .take k => k = s.taken.length % n

theorem Delivered.take_inTurn (h : Delivered n s (List.range s.taken.length)) :
    Delivered n (Mailbox.take s (s.taken.length % n))
      (List.range (Mailbox.take s (s.taken.length % n)).taken.length) := by
  cases hk : s.box (s.taken.length % n) with
  | none =>
    rw [take_none hk]
    exact h
  | some m =>
    obtain ⟨i, himod, hi, hidx, htake⟩ := h.take hk
    have hge : s.taken.length ≤ i := Nat.le_of_not_lt fun hlt => hidx (List.mem_range.mpr hlt)
    have hnext := (h.kept s.taken.length (by omega) List.not_mem_range_self).1
    have hi' : i = s.taken.length := eq_of_mod_eq himod (by omega) (by omega)
    have hlen : (Mailbox.take s (s.taken.length % n)).taken.length = s.taken.length + 1 := by
      rw [take_some hk, List.length_append, List.length_singleton]
    rw [hlen, List.range_succ, ← hi']
    rw [hi'] at htake ⊢
    exact htake

/-- **A receiver that goes round gets the messages in order.** -/
theorem run_fifo (hn : 0 < n) (es : List (Event M)) (hes : Run.Along (step n) (InTurn n) {} es) :
    (Run.run (step n) ({} : Mailboxes M) es).taken <+: (Run.run (step n) ({} : Mailboxes M) es).sent := by
  have hinv : Delivered n (Run.run (step n) ({} : Mailboxes M) es)
      (List.range (Run.run (step n) ({} : Mailboxes M) es).taken.length) := by
    refine Run.run_inv (I := fun s : Mailboxes M => Delivered n s (List.range s.taken.length)) ?_ _ es
      delivered_init hes
    intro s e h he
    cases e with
    | put m =>
      have hsame : (put n s m).taken = s.taken := by
        unfold put
        split <;> rfl
      have hput := h.put hn m
      rw [← hsame] at hput
      exact hput
    | take k =>
      have hk : k = s.taken.length % n := he
      rw [hk]
      exact h.take_inTurn
  generalize Run.run (step n) ({} : Mailboxes M) es = s at hinv
  refine List.prefix_iff_getElem?.mpr fun i hi => ?_
  have hget := congrArg (fun l => l[i]?) hinv.taken
  simp only [List.getElem?_map, List.getElem?_range hi, List.getElem?_eq_getElem hi, Option.map_some] at hget
  exact (Option.some.inj hget).symm

end Mailbox
