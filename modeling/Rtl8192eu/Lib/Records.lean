import Mathlib.Data.List.Basic

/-!
# Self-delimiting records

Records of a type `ρ` are written one after the other as cells of a type `β`, and each says where it
ends.

* `Format`         how a record is written, and how the first record of a text is cut off;
* `all F rs`       the text of a list of records;
* `IsList F P l`   the text `l` is a list of complete records with the property `P`;
* `isList_cut`     the rule for programs that read one record after the other;
* `pieces F l`     the complete records any text begins with, and what is behind them;
* `first`, `last`   the first and the last record of a kind, with their offsets;
* `onFirst`        the first record of a kind is replaced; `find_onFirst` is what is found then.
-/

namespace Records

variable {ρ β : Type*}

structure Format (ρ β : Type*) where
  bytes : ρ → List β
  /-- the first record of a text, and the text behind it -/
  cut : List β → Option (ρ × List β)
  cut_bytes : ∀ r l, cut (bytes r ++ l) = some (r, l)
  bytes_cut : ∀ {l r l'}, cut l = some (r, l') → bytes r ++ l' = l
  bytes_ne : ∀ r, bytes r ≠ []

/-- the text of the records `rs` -/
def all (F : Format ρ β) (rs : List ρ) : List β := rs.flatMap F.bytes

def IsList (F : Format ρ β) (P : ρ → Prop) (l : List β) : Prop :=
  ∃ rs, (∀ r ∈ rs, P r) ∧ all F rs = l

variable {F : Format ρ β} {P : ρ → Prop} {p : ρ → Bool} {r : ρ} {rs rs' : List ρ} {l l' : List β}

@[simp] theorem all_nil : all F [] = [] := rfl

@[simp] theorem all_cons : all F (r :: rs) = F.bytes r ++ all F rs := rfl

theorem all_append : all F (rs ++ rs') = all F rs ++ all F rs' := List.flatMap_append

theorem all_singleton (r : ρ) : all F [r] = F.bytes r := List.append_nil _

theorem length_bytes_pos (F : Format ρ β) (r : ρ) : 0 < (F.bytes r).length :=
  List.length_pos_iff.mpr (F.bytes_ne r)

/-- there are no more records than cells -/
theorem length_le_all (rs : List ρ) : rs.length ≤ (all F rs).length := by
  induction rs with
  | nil => exact Nat.le_refl _
  | cons r rs ih =>
    have hpos := length_bytes_pos F r
    rw [List.length_cons, all_cons, List.length_append]
    omega

theorem cut_nil (F : Format ρ β) : F.cut [] = none := by
  cases h : F.cut [] with
  | none => rfl
  | some x =>
    have hb : F.bytes x.1 ++ x.2 = [] := F.bytes_cut h
    exact absurd (List.append_eq_nil_iff.mp hb).1 (F.bytes_ne x.1)

theorem length_cut (h : F.cut l = some (r, l')) : l'.length < l.length := by
  have hpos := length_bytes_pos F r
  rw [← F.bytes_cut h, List.length_append]
  omega

/-- **A text is the text of one list of records at most.** -/
theorem all_injective (h : all F rs = all F rs') : rs = rs' := by
  induction rs generalizing rs' with
  | nil =>
    cases rs' with
    | nil => rfl
    | cons r' rs' => exact absurd (List.append_eq_nil_iff.mp h.symm).1 (F.bytes_ne r')
  | cons r rs ih =>
    cases rs' with
    | nil => exact absurd (List.append_eq_nil_iff.mp h).1 (F.bytes_ne r)
    | cons r' rs' =>
      have hc : F.cut (all F (r :: rs)) = F.cut (all F (r' :: rs')) := congrArg F.cut h
      rw [all_cons, all_cons, F.cut_bytes, F.cut_bytes] at hc
      obtain ⟨rfl, hrest⟩ := Prod.mk.inj (Option.some.inj hc)
      rw [ih hrest]

/-! ## reading -/

theorem isList_nil : IsList F P [] := ⟨[], (fun _ hr => nomatch hr), rfl⟩

/-- **The first record is read.** -/
theorem isList_cut (h : F.cut l = some (r, l')) : IsList F P l ↔ P r ∧ IsList F P l' := by
  have hl := F.bytes_cut h
  constructor
  · rintro ⟨rs, hP, hrs⟩
    cases rs with
    | nil =>
      rw [← hrs, all_nil, cut_nil] at h
      cases h
    | cons r' rs =>
      rw [← hrs, all_cons, F.cut_bytes] at h
      cases h
      exact ⟨hP r List.mem_cons_self, rs, fun x hx => hP x (List.mem_cons_of_mem _ hx), rfl⟩
  · rintro ⟨hr, rs, hP, rfl⟩
    refine ⟨r :: rs, ?_, hl⟩
    intro x hx
    rcases List.mem_cons.mp hx with rfl | hx
    · exact hr
    · exact hP x hx

theorem not_isList (h : F.cut l = none) (hl : l ≠ []) : ¬ IsList F P l := by
  rintro ⟨rs, -, rfl⟩
  cases rs with
  | nil => exact hl rfl
  | cons r rs =>
    rw [all_cons, F.cut_bytes] at h
    cases h

/-! ## any text -/

def piecesUpTo (F : Format ρ β) : Nat → List β → List ρ × List β
  | 0, l => ([], l)
  | n + 1, l =>
    match F.cut l with
    | none => ([], l)
    | some (r, l') => (r :: (piecesUpTo F n l').1, (piecesUpTo F n l').2)

/-- the complete records at the head of a text, and its rest -/
def pieces (F : Format ρ β) (l : List β) : List ρ × List β := piecesUpTo F l.length l

theorem piecesUpTo_spec (n : Nat) (l : List β) (hn : l.length ≤ n) :
    all F (piecesUpTo F n l).1 ++ (piecesUpTo F n l).2 = l
      ∧ F.cut (piecesUpTo F n l).2 = none := by
  induction n generalizing l with
  | zero =>
    rw [List.length_eq_zero_iff.mp (Nat.le_zero.mp hn)]
    exact ⟨rfl, cut_nil F⟩
  | succ n ih =>
    unfold piecesUpTo
    cases h : F.cut l with
    | none => exact ⟨rfl, h⟩
    | some x =>
      obtain ⟨r, l'⟩ := x
      have hlt := length_cut h
      obtain ⟨hall, hcut⟩ := ih l' (by omega)
      refine ⟨?_, hcut⟩
      show F.bytes r ++ all F _ ++ _ = l
      rw [List.append_assoc, hall, F.bytes_cut h]

theorem all_pieces (F : Format ρ β) (l : List β) :
    all F (pieces F l).1 ++ (pieces F l).2 = l := (piecesUpTo_spec _ l (Nat.le_refl _)).1

theorem cut_pieces (F : Format ρ β) (l : List β) : F.cut (pieces F l).2 = none :=
  (piecesUpTo_spec _ l (Nat.le_refl _)).2

/-! ## the first and the last of a kind -/

/-- the first record with `p`, and its offset in the text -/
def first (F : Format ρ β) (p : ρ → Bool) : List ρ → Option (Nat × ρ)
  | [] => none
  | r :: rs =>
    if p r then some (0, r) else (first F p rs).map fun x => ((F.bytes r).length + x.1, x.2)

/-- the last one -/
def last (F : Format ρ β) (p : ρ → Bool) : List ρ → Option (Nat × ρ)
  | [] => none
  | r :: rs =>
    match last F p rs with
    | some x => some ((F.bytes r).length + x.1, x.2)
    | none => if p r then some (0, r) else none

theorem first_cons_of_pos (h : p r = true) : first F p (r :: rs) = some (0, r) := by
  rw [first, if_pos h]

theorem first_cons_of_neg (h : p r = false) :
    first F p (r :: rs) = (first F p rs).map fun x => ((F.bytes r).length + x.1, x.2) := by
  rw [first, h, if_neg Bool.false_ne_true]

theorem first_append (hrs : ∀ x ∈ rs, p x = false) (hr : p r = true) :
    first F p (rs ++ r :: rs') = some ((all F rs).length, r) := by
  induction rs with
  | nil => exact first_cons_of_pos hr
  | cons x rs ih =>
    rw [List.cons_append, first_cons_of_neg (hrs x List.mem_cons_self),
      ih fun y hy => hrs y (List.mem_cons_of_mem _ hy), all_cons, List.length_append]
    rfl

theorem first_eq_none : first F p rs = none ↔ ∀ r ∈ rs, p r = false := by
  induction rs with
  | nil => exact iff_of_true rfl fun _ hr => nomatch hr
  | cons x rs ih =>
    cases hx : p x with
    | true => rw [first_cons_of_pos hx]; simp [hx]
    | false => rw [first_cons_of_neg hx, Option.map_eq_none_iff, ih]; simp [hx]

/-- what `first` finds, without offsets -/
theorem first_eq_some {o : Nat} (h : first F p rs = some (o, r)) :
    ∃ pre post, rs = pre ++ r :: post ∧ p r = true ∧ (∀ x ∈ pre, p x = false)
      ∧ o = (all F pre).length := by
  induction rs generalizing o with
  | nil => cases h
  | cons x rs ih =>
    cases hx : p x with
    | true =>
      rw [first_cons_of_pos hx] at h
      cases h
      exact ⟨[], rs, rfl, hx, (fun _ hy => nomatch hy), rfl⟩
    | false =>
      rw [first_cons_of_neg hx] at h
      obtain ⟨⟨o', r'⟩, hf, he⟩ := Option.map_eq_some_iff.mp h
      cases he
      obtain ⟨pre, post, rfl, hr, hpre, rfl⟩ := ih hf
      refine ⟨x :: pre, post, rfl, hr, ?_, by rw [all_cons, List.length_append]⟩
      intro y hy
      rcases List.mem_cons.mp hy with rfl | hy
      · exact hx
      · exact hpre y hy

/-- the first record with `p`, changed by `g` -/
def onFirst (p : ρ → Bool) (g : ρ → ρ) : List ρ → List ρ
  | [] => []
  | r :: rs => if p r then g r :: rs else r :: onFirst p g rs

theorem onFirst_append {g : ρ → ρ} (hrs : ∀ x ∈ rs, p x = false) (hr : p r = true) :
    onFirst p g (rs ++ r :: rs') = rs ++ g r :: rs' := by
  induction rs with
  | nil => exact if_pos hr
  | cons x rs ih =>
    have hx : p x = false := hrs x List.mem_cons_self
    rw [List.cons_append, onFirst, hx, if_neg Bool.false_ne_true,
      ih fun y hy => hrs y (List.mem_cons_of_mem _ hy), List.cons_append]

theorem onFirst_eq_self {g : ρ → ρ} (hrs : ∀ x ∈ rs, p x = false) : onFirst p g rs = rs := by
  induction rs with
  | nil => rfl
  | cons x rs ih =>
    have hx : p x = false := hrs x List.mem_cons_self
    rw [onFirst, hx, if_neg Bool.false_ne_true, ih fun y hy => hrs y (List.mem_cons_of_mem _ hy)]

/-- the first record of a kind, where it was changed -/
theorem find_onFirst {g : ρ → ρ} (hg : ∀ r, p r = true → p (g r) = true) (rs : List ρ) :
    (onFirst p g rs).find? p = (rs.find? p).map g := by
  induction rs with
  | nil => rfl
  | cons r rs ih =>
    cases hr : p r with
    | true => rw [onFirst, if_pos hr, List.find?_cons_of_pos (hg r hr), List.find?_cons_of_pos hr, Option.map_some]
    | false =>
      have hno : ¬p r = true := Bool.eq_false_iff.mp hr
      rw [onFirst, if_neg hno, List.find?_cons_of_neg hno, List.find?_cons_of_neg hno, ih]

/-- the first record of another kind -/
theorem find_onFirst_of {q : ρ → Bool} {g : ρ → ρ} (hg : ∀ r, p r = true → q r = false ∧ q (g r) = false)
    (rs : List ρ) : (onFirst p g rs).find? q = rs.find? q := by
  induction rs with
  | nil => rfl
  | cons r rs ih =>
    cases hr : p r with
    | true =>
      obtain ⟨hq, hq'⟩ := hg r hr
      rw [onFirst, if_pos hr, List.find?_cons_of_neg (by simp [hq']), List.find?_cons_of_neg (by simp [hq])]
    | false =>
      rw [onFirst, if_neg (Bool.eq_false_iff.mp hr)]
      cases hq : q r with
      | true => rw [List.find?_cons_of_pos hq, List.find?_cons_of_pos hq]
      | false => rw [List.find?_cons_of_neg (by simp [hq]), List.find?_cons_of_neg (by simp [hq]), ih]

end Records
