import Mathlib.Data.List.Nodup
import Mathlib.Logic.Function.Basic

/-!
# Lists of records that are found by a key

An update changes the first record with the key, or puts a new one at the end.

* `get`, `upsert`   the search and the update;
* `get_upsert`     what the search finds after an update;
* `keys_upsert`    the keys stay in their places, and stay distinct;
* `get_upserts`    the record after many updates, as seen through a function;
* `first_upserts`   the first record is that of the first update;
* `foldl_update`   what is read after many writes;
* `get_filterMap`   records that are changed or left out.
-/

namespace Keyed

variable {κ β ρ γ : Type*} [DecidableEq κ] {key : β → κ}

def get (key : β → κ) (k : κ) (l : List β) : Option β := l.find? fun b => decide (key b = k)

def upsert (key : β → κ) (k : κ) (new : β) (f : β → β) : List β → List β
  | [] => [f new]
  | b :: l => if key b = k then f b :: l else b :: upsert key k new f l

theorem get_nil (key : β → κ) (k : κ) : get key k [] = none := rfl

theorem get_cons_self {b : β} {k : κ} (h : key b = k) (l : List β) : get key k (b :: l) = some b := by
  unfold get
  simp [h]

theorem get_cons_ne {b : β} {k : κ} (h : key b ≠ k) (l : List β) : get key k (b :: l) = get key k l := by
  unfold get
  simp [h]

theorem mem_of_get {k : κ} {l : List β} {b : β} (h : get key k l = some b) : b ∈ l :=
  List.mem_of_find?_eq_some h

/-- a record is found under its key, if the keys are distinct -/
theorem get_of_mem {l : List β} (hl : (l.map key).Nodup) {b : β} (h : b ∈ l) :
    get key (key b) l = some b := by
  induction l with
  | nil => cases h
  | cons c l ih =>
    rw [List.map_cons, List.nodup_cons] at hl
    rcases List.mem_cons.mp h with rfl | h
    · exact get_cons_self rfl l
    · have hne : key c ≠ key b := fun hc => hl.1 (hc ▸ List.mem_map_of_mem h)
      rw [get_cons_ne hne, ih hl.2 h]

section
variable {k : κ} {new : β} {f : β → β}

theorem get_upsert_self (hnew : key new = k) (hf : ∀ b, key (f b) = key b) (l : List β) :
    get key k (upsert key k new f l) = some (f ((get key k l).getD new)) := by
  induction l with
  | nil => exact get_cons_self ((hf new).trans hnew) []
  | cons b l ih =>
    unfold upsert
    by_cases hb : key b = k
    · rw [if_pos hb, get_cons_self ((hf b).trans hb), get_cons_self hb]
      rfl
    · rw [if_neg hb, get_cons_ne hb, get_cons_ne hb, ih]

theorem get_upsert_ne (hnew : key new = k) (hf : ∀ b, key (f b) = key b) {k' : κ} (h : k ≠ k')
    (l : List β) : get key k' (upsert key k new f l) = get key k' l := by
  induction l with
  | nil => exact get_cons_ne (((hf new).trans hnew).trans_ne h) []
  | cons b l ih =>
    unfold upsert
    by_cases hb : key b = k
    · have hne : key b ≠ k' := hb.trans_ne h
      rw [if_pos hb, get_cons_ne ((hf b).trans_ne hne), get_cons_ne hne]
    · rw [if_neg hb]
      by_cases hb' : key b = k'
      · rw [get_cons_self hb', get_cons_self hb']
      · rw [get_cons_ne hb', get_cons_ne hb', ih]

theorem keys_upsert (hnew : key new = k) (hf : ∀ b, key (f b) = key b) (l : List β) :
    (upsert key k new f l).map key = if k ∈ l.map key then l.map key else l.map key ++ [k] := by
  induction l with
  | nil =>
    rw [upsert, List.map_cons, hf, hnew]
    simp
  | cons b l ih =>
    unfold upsert
    by_cases hb : key b = k
    · rw [if_pos hb, List.map_cons, List.map_cons, hf, hb, if_pos List.mem_cons_self]
    · have hiff : k ∈ key b :: l.map key ↔ k ∈ l.map key := by simp [Ne.symm hb]
      rw [if_neg hb, List.map_cons, List.map_cons, ih]
      by_cases hk : k ∈ l.map key
      · rw [if_pos hk, if_pos (hiff.mpr hk)]
      · rw [if_neg hk, if_neg (hiff.not.mpr hk), List.cons_append]

theorem nodup_upsert (hnew : key new = k) (hf : ∀ b, key (f b) = key b) {l : List β}
    (hl : (l.map key).Nodup) : ((upsert key k new f l).map key).Nodup := by
  rw [keys_upsert hnew hf]
  by_cases hk : k ∈ l.map key
  · rwa [if_pos hk]
  · rw [if_neg hk, List.nodup_append]
    refine ⟨hl, List.nodup_singleton k, ?_⟩
    intro a ha b hb hab
    rw [List.mem_singleton] at hb
    subst hb hab
    exact hk ha

end

section
variable {k : ρ → κ} {new : ρ → β} {f : ρ → β → β}

/-- a run of updates -/
def upserts (key : β → κ) (k : ρ → κ) (new : ρ → β) (f : ρ → β → β) (rows : List ρ) (l : List β) : List β :=
  rows.foldl (fun l r => upsert key (k r) (new r) (f r) l) l

theorem upserts_cons (r : ρ) (rows : List ρ) (l : List β) :
    upserts key k new f (r :: rows) l = upserts key k new f rows (upsert key (k r) (new r) (f r) l) := rfl

theorem head_upserts (hf : ∀ r b, key (f r b) = key b) (rows : List ρ) {b : β} (l : List β) :
    ∃ c t, upserts key k new f rows (b :: l) = c :: t ∧ key c = key b := by
  induction rows generalizing b l with
  | nil => exact ⟨b, l, rfl, rfl⟩
  | cons r rows ih =>
    rw [upserts_cons, upsert]
    by_cases hb : key b = k r
    · rw [if_pos hb]
      obtain ⟨c, t, h, hc⟩ := ih (b := f r b) l
      exact ⟨c, t, h, hc.trans (hf r b)⟩
    · rw [if_neg hb]
      exact ih _

variable (hnew : ∀ r, key (new r) = k r) (hf : ∀ r b, key (f r b) = key b)
include hnew hf

theorem nodup_upserts (rows : List ρ) {l : List β} (hl : (l.map key).Nodup) :
    ((upserts key k new f rows l).map key).Nodup := by
  induction rows generalizing l with
  | nil => exact hl
  | cons r rows ih => exact ih (nodup_upsert (hnew r) (hf r) hl)

theorem isSome_upserts (rows : List ρ) (l : List β) (x : κ) :
    (get key x (upserts key k new f rows l)).isSome ↔ (get key x l).isSome ∨ ∃ r ∈ rows, k r = x := by
  induction rows generalizing l with
  | nil => simp [upserts]
  | cons r rows ih =>
    rw [upserts_cons, ih]
    by_cases hx : k r = x
    · subst hx
      rw [get_upsert_self (hnew r) (hf r)]
      simp
    · rw [get_upsert_ne (hnew r) (hf r) hx]
      simp [hx]

/-- **The record after many updates**, as `obs` sees it -/
theorem get_upserts (obs : β → γ) (bot : γ) {g : γ → ρ → γ} (hbot : ∀ r, obs (new r) = bot)
    (hobs : ∀ r b, obs (f r b) = g (obs b) r) (rows : List ρ) (l : List β) (x : κ) :
    ((get key x (upserts key k new f rows l)).map obs).getD bot =
      (rows.filter fun r => decide (k r = x)).foldl g (((get key x l).map obs).getD bot) := by
  induction rows generalizing l with
  | nil => rfl
  | cons r rows ih =>
    rw [upserts_cons, ih]
    by_cases hx : k r = x
    · subst hx
      have hr : decide (k r = k r) = true := decide_eq_true rfl
      rw [get_upsert_self (hnew r) (hf r), List.filter_cons_of_pos (p := fun r' => decide (k r' = k r)) hr,
        List.foldl_cons]
      congr 1
      cases get key (k r) l with
      | none => exact (hobs r (new r)).trans (congrArg (g · r) (hbot r))
      | some b => exact hobs r b
    · rw [get_upsert_ne (hnew r) (hf r) hx, List.filter_cons_of_neg (by simpa using hx)]

/-- the first record is that of the first update -/
theorem first_upserts (r : ρ) (rows : List ρ) :
    ∃ c t, upserts key k new f (r :: rows) [] = c :: t ∧ key c = k r := by
  obtain ⟨c, t, h, hc⟩ := head_upserts hf rows (b := f r (new r)) []
  exact ⟨c, t, h, hc.trans ((hf r (new r)).trans (hnew r))⟩

end

/-- **A function that is written in order** gives the last value that was written. -/
theorem foldl_update (val : β → γ) (l : List β) (f : κ → γ) :
    l.foldl (fun f b => Function.update f (key b) (val b)) f
      = fun k => ((get key k l.reverse).map val).getD (f k) := by
  induction l generalizing f with
  | nil => rfl
  | cons b l ih =>
    rw [List.foldl_cons, ih]
    funext k
    have hlast : get key k (b :: l).reverse = (get key k l.reverse).or (get key k [b]) := by
      unfold get
      rw [List.reverse_cons, List.find?_append]
    rw [hlast]
    cases get key k l.reverse with
    | some c => rfl
    | none =>
      by_cases hb : key b = k
      · rw [get_cons_self hb, hb]
        exact Function.update_self k _ f
      · rw [get_cons_ne hb]
        exact Function.update_of_ne (Ne.symm hb) _ f

/-! ## updates of all records -/

theorem get_map {f : β → β} (hf : ∀ b, key (f b) = key b) (k : κ) (l : List β) :
    get key k (l.map f) = (get key k l).map f := by
  induction l with
  | nil => rfl
  | cons b l ih =>
    rw [List.map_cons]
    by_cases hb : key b = k
    · rw [get_cons_self ((hf b).trans hb), get_cons_self hb]
      rfl
    · rw [get_cons_ne ((hf b).trans_ne hb), get_cons_ne hb, ih]

theorem get_eq_none {k : κ} {l : List β} (h : k ∉ l.map key) : get key k l = none := by
  unfold get
  rw [List.find?_eq_none]
  intro b hb
  simp only [decide_eq_true_eq]
  rintro rfl
  exact h (List.mem_map_of_mem hb)

omit [DecidableEq κ] in
/-- records are changed or left out -/
theorem keys_filterMap {g : β → Option β} (hg : ∀ b c, g b = some c → key c = key b) (l : List β) :
    ((l.filterMap g).map key).Sublist (l.map key) := by
  induction l with
  | nil => exact List.Sublist.slnil
  | cons b l ih =>
    rw [List.filterMap_cons]
    cases hb : g b with
    | none => exact ih.cons _
    | some c =>
      rw [List.map_cons, List.map_cons, hg b c hb]
      exact ih.cons_cons _

theorem get_filterMap {g : β → Option β} (hg : ∀ b c, g b = some c → key c = key b) (k : κ) {l : List β}
    (hl : (l.map key).Nodup) : get key k (l.filterMap g) = (get key k l).bind g := by
  induction l with
  | nil => rfl
  | cons b l ih =>
    rw [List.map_cons, List.nodup_cons] at hl
    rw [List.filterMap_cons]
    by_cases hb : key b = k
    · rw [get_cons_self hb]
      show _ = g b
      cases hgb : g b with
      | none => exact get_eq_none fun h => hl.1 (hb ▸ (keys_filterMap hg l).subset h)
      | some c => exact get_cons_self ((hg b c hgb).trans hb) _
    · rw [get_cons_ne hb, ← ih hl.2]
      cases hgb : g b with
      | none => rfl
      | some c => exact get_cons_ne ((hg b c hgb).trans_ne hb) _

end Keyed
