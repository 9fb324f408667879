import Rtl8192eu.Ie.Walkers

/-!
# Element lookup on any bytes

`rtw_get_ie` and `rtw_get_ie_ex` on buffers that nobody has checked.  Both compare the start of an
element with the limit, and neither looks whether its header, its body or the OUI still fits.

* `rtwGetIeExCall`   `rtw_get_ie_ex` as it is called, where `ie` and `ielen` may be `NULL`;
* `Inside`   header and declared body of an element lie in the buffer;
* `LookupOk`, `OuiOk`   which buffers the two lookups can be given;
* `getIe_safe_iff`   both stay in the buffer for those and for no others.
-/

namespace Rtl8192eu

open Records

namespace Walk

/-! ## `rtw_get_ie_ex` with its optional results -/

/-- the comparison at `cnt`, which is not made for another id -/
def ouiMatches (b : List UInt8) (cnt : Nat) (oui : Option (List UInt8)) : Option Bool :=
  match oui with
  | none => some true
  | some oui => (readBytes b (cnt + 2) oui.length).map (· == oui)

def foundAt (b : List UInt8) (cnt : Nat) (eid x : UInt8) (oui : Option (List UInt8)) : Option Bool :=
  if eid = x then ouiMatches b cnt oui else some false

/-- what is read of the element that was found -/
def copyOut (b : List UInt8) (cnt : Nat) (ie ielen : Bool) : Option Unit :=
  if ie then do
    let elen ← b[cnt + 1]?
    let _ ← readBytes b cnt (elen.toNat + 2)
    some ()
  else if ielen then (b[cnt + 1]?).map fun _ => ()
  else some ()

def getIeExCallLoop (b : List UInt8) (inLen : Nat) (eid : UInt8) (oui : Option (List UInt8))
    (ie ielen : Bool) : Nat → Nat → Option (Option Nat)
  | 0, _ => none
  | n + 1, cnt =>
    if cnt < inLen then do
      let x ← b[cnt]?
      let found ← foundAt b cnt eid x oui
      if found then (copyOut b cnt ie ielen).map fun _ => some cnt
      else do
        let elen ← b[cnt + 1]?
        getIeExCallLoop b inLen eid oui ie ielen n (cnt + (elen.toNat + 2))
    else some none

/-- the offset of the element; `ie` and `ielen` say which of the two pointers are not `NULL` -/
def rtwGetIeExCall (b : List UInt8) (inLen : Nat) (eid : UInt8) (oui : Option (List UInt8))
    (ie ielen : Bool) : Option (Option Nat) :=
  if inLen = 0 then some none else getIeExCallLoop b inLen eid oui ie ielen (inLen + 1) 0

/-! ## what is asked of them -/

/-- the element at `p` with the body length `elen` -/
def Inside (b : List UInt8) (p elen : Nat) : Prop := p + 2 + elen ≤ b.length

def GetIeSafe (b : List UInt8) (index limit : Int) : Prop :=
  ∃ r, rtwGetIe b index limit = some r ∧ ∀ x ∈ r, Inside b x.1 x.2

def GetIeExSafe (b : List UInt8) (inLen : Nat) (eid : UInt8) (oui : Option (List UInt8))
    (ie ielen : Bool) : Prop :=
  ∃ r, rtwGetIeExCall b inLen eid oui ie ielen = some r
    ∧ ∀ p ∈ r, ∃ elen, b[p + 1]? = some elen ∧ Inside b p elen.toNat

/-! ## the buffers they can be given -/

/-- behind the last complete element there is nothing, or the header of an element with another id -/
def RestOk (index : Int) (t : List UInt8) : Prop :=
  t = [] ∨ 2 ≤ t.length ∧ ((t.getD 0 0).toNat : Int) ≠ index

/-- a complete element has the id, or the rest is harmless -/
def LookupOk (index : Int) (rs : List Elem) (t : List UInt8) : Prop :=
  (∃ e ∈ rs, e.hasIndex index) ∨ RestOk index t

/-- the id, and the OUI behind the two bytes of the header -/
def Hit (eid : UInt8) (oui : Option (List UInt8)) (l : List UInt8) : Prop :=
  l.head? = some eid ∧ ∀ o ∈ oui, (l.drop 2).take o.length = o

/-- the bytes an OUI is compared with are there -/
def Legible (eid : UInt8) (oui : Option (List UInt8)) (l : List UInt8) : Prop :=
  l.head? = some eid → ∀ o ∈ oui, o.length + 2 ≤ l.length

/-- every comparison up to the first hit is in the buffer, and the hit is a complete element -/
def OuiOk (eid : UInt8) (oui : Option (List UInt8)) : List Elem → List UInt8 → Prop
  | [], t => t = [] ∨ 2 ≤ t.length ∧ Legible eid oui t ∧ ¬ Hit eid oui t
  | e :: rs, t => Legible eid oui (all elems (e :: rs) ++ t)
      ∧ (Hit eid oui (all elems (e :: rs) ++ t) ∨ OuiOk eid oui rs t)

variable {pre rest t : List UInt8} {id elen eid : UInt8} {oui : Option (List UInt8)} {ie ielen : Bool}
  {n inLen : Nat} {rs : List Elem} {index : Int}

/-! ## `rtw_get_ie` -/

theorem length_append_pre (pre rest : List UInt8) (hne : rest ≠ []) :
    pre.length < (pre ++ rest).length := by
  rw [List.length_append]
  have := List.length_pos_iff.mpr hne
  omega

/-- what is found lies in the buffer -/
theorem found_inside_iff (ht : elems.cut t = none) :
    (∃ r, found index rs t = some r ∧ ∀ x ∈ r, Inside (all elems rs ++ t) x.1 x.2) ↔ LookupOk index rs t := by
  unfold found
  cases hf : first elems (Elem.hasIndex index) rs with
  | some x =>
    obtain ⟨l, l', rfl, he, -, ho⟩ := first_eq_some hf
    refine iff_of_true ⟨_, rfl, ?_⟩ (Or.inl ⟨x.2, List.mem_append_right _ List.mem_cons_self, he⟩)
    rintro y ⟨⟩
    show x.1 + 2 + x.2.body.length ≤ _
    rw [all_append, List.append_assoc, all_cons_append, List.length_append, ho]
    simp only [List.length_cons, List.length_append]
    omega
  | none =>
    have hno : ¬∃ e ∈ rs, e.hasIndex index = true := by
      rintro ⟨e, he, hx⟩
      rw [first_eq_none.mp hf e he] at hx
      cases hx
    unfold LookupOk
    rw [or_iff_right hno]
    by_cases hnil : t = []
    · rw [hnil]
      exact iff_of_true ⟨none, rfl, nofun⟩ (Or.inl rfl)
    · rcases cut_eq_none ht hnil with ⟨x, rfl⟩ | ⟨id, elen, rest, rfl, hlt⟩
      · -- the length byte is read behind the buffer
        refine iff_of_false (fun ⟨r, hr, _⟩ => nomatch hr) ?_
        rintro (h | ⟨h, -⟩)
        · cases h
        · exact absurd h (Nat.not_succ_le_self 1)
      · dsimp only [tailFound]
        by_cases hid : (id.toNat : Int) = index
        · rw [if_pos hid]
          refine iff_of_false ?_ fun h => (h.resolve_left (List.cons_ne_nil _ _)).2 hid
          rintro ⟨r, hr, hin⟩
          cases hr
          have hle : (all elems rs).length + 2 + elen.toNat ≤ (all elems rs ++ id :: elen :: rest).length := hin _ rfl
          simp only [List.length_append, List.length_cons] at hle
          omega
        · rw [if_neg hid]
          exact iff_of_true ⟨none, rfl, nofun⟩ (Or.inr ⟨by simp, hid⟩)

theorem getIeSafe_iff (b : Bytes) (index : Int) :
    GetIeSafe b.val index (sintOfUint b.val.length)
      ↔ LookupOk index (pieces elems b.val).1 (pieces elems b.val).2 := by
  unfold GetIeSafe
  rw [sintOfUint_length, rtwGetIe_found (all_pieces elems b.val) (cut_pieces elems b.val), ← found_inside_iff (cut_pieces elems b.val), all_pieces]

/-! ## `rtw_get_ie_ex` -/

theorem ouiMatches_illegible (pre : List UInt8) (h : ¬ Legible eid oui (id :: elen :: rest)) :
    eid = id ∧ ouiMatches (pre ++ id :: elen :: rest) pre.length oui = none := by
  unfold Legible at h
  push Not at h
  obtain ⟨hid, o, rfl, hlt⟩ := h
  refine ⟨(Option.some.inj hid).symm, ?_⟩
  have hfar : ¬ pre.length + 2 + o.length ≤ (pre ++ id :: elen :: rest).length := by
    rw [List.length_append]
    omega
  show (readBytes _ _ _).map _ = none
  rw [readBytes, if_neg hfar]
  rfl

/-- a comparison in the buffer -/
theorem ouiMatches_legible (pre : List UInt8) (h : Legible id oui (id :: elen :: rest)) :
    ∃ found, ouiMatches (pre ++ id :: elen :: rest) pre.length oui = some found
      ∧ (found = true ↔ Hit id oui (id :: elen :: rest)) := by
  cases oui with
  | none => exact ⟨true, rfl, iff_of_true rfl ⟨rfl, nofun⟩⟩
  | some o =>
    have hlen : o.length + 2 ≤ (id :: elen :: rest).length := h rfl o rfl
    have hdrop : (pre ++ id :: elen :: rest).drop (pre.length + 2) = rest := by
      rw [← List.drop_drop, List.drop_left' rfl]
      rfl
    refine ⟨rest.take o.length == o, ?_, ?_⟩
    · show (readBytes _ _ _).map _ = _
      rw [readBytes_some (by rw [List.length_append]; omega), hdrop]
      rfl
    · rw [beq_iff_eq]
      constructor
      · intro ho
        refine ⟨rfl, ?_⟩
        rintro o' ho'
        cases ho'
        exact ho
      · intro hh
        exact hh.2 o rfl

/-- one round at an element whose header is there -/
theorem getIeExCallLoop_step (hlt : pre.length < inLen) :
    getIeExCallLoop (pre ++ id :: elen :: rest) inLen eid oui ie ielen (n + 1) pre.length
      = if eid = id then
          (ouiMatches (pre ++ id :: elen :: rest) pre.length oui).bind fun found =>
            if found then (copyOut (pre ++ id :: elen :: rest) pre.length ie ielen).map
              fun _ => some pre.length
            else getIeExCallLoop (pre ++ id :: elen :: rest) inLen eid oui ie ielen n
              (pre.length + (elen.toNat + 2))
        else getIeExCallLoop (pre ++ id :: elen :: rest) inLen eid oui ie ielen n
          (pre.length + (elen.toNat + 2)) := by
  rw [getIeExCallLoop, if_pos hlt, getElem?_id, getElem?_elen]
  dsimp only [Option.bind_eq_bind, Option.bind_some]
  unfold foundAt
  by_cases hid : eid = id
  · rw [if_pos hid, if_pos hid]
  · rw [if_neg hid, if_neg hid]
    rfl

theorem getIeExCallLoop_illegible (hlt : pre.length < inLen)
    (h : ¬ Legible eid oui (id :: elen :: rest)) :
    getIeExCallLoop (pre ++ id :: elen :: rest) inLen eid oui ie ielen (n + 1) pre.length = none := by
  obtain ⟨hid, hm⟩ := ouiMatches_illegible pre h
  rw [getIeExCallLoop_step hlt, if_pos hid, hm]
  rfl

theorem getIeExCallLoop_hit (hlt : pre.length < inLen) (hl : Legible eid oui (id :: elen :: rest))
    (h : Hit eid oui (id :: elen :: rest)) :
    getIeExCallLoop (pre ++ id :: elen :: rest) inLen eid oui ie ielen (n + 1) pre.length
      = (copyOut (pre ++ id :: elen :: rest) pre.length ie ielen).map fun _ => some pre.length := by
  obtain rfl : id = eid := Option.some.inj h.1
  obtain ⟨found, hm, hf⟩ := ouiMatches_legible pre hl
  rw [getIeExCallLoop_step hlt, if_pos rfl, hm, hf.mpr h]
  rfl

theorem getIeExCallLoop_miss (hlt : pre.length < inLen) (hl : Legible eid oui (id :: elen :: rest))
    (h : ¬ Hit eid oui (id :: elen :: rest)) :
    getIeExCallLoop (pre ++ id :: elen :: rest) inLen eid oui ie ielen (n + 1) pre.length
      = getIeExCallLoop (pre ++ id :: elen :: rest) inLen eid oui ie ielen n
          (pre.length + (elen.toNat + 2)) := by
  rw [getIeExCallLoop_step hlt]
  by_cases hid : eid = id
  · subst hid
    obtain ⟨found, hm, hf⟩ := ouiMatches_legible pre hl
    have hno : found = false := Bool.eq_false_iff.mpr (mt hf.mp h)
    rw [if_pos rfl, hm, hno]
    rfl
  · rw [if_neg hid]

theorem copyOut_some (h : elen.toNat ≤ rest.length) :
    copyOut (pre ++ id :: elen :: rest) pre.length ie ielen = some () := by
  unfold copyOut
  rw [getElem?_elen]
  split
  · dsimp only [Option.bind_eq_bind, Option.bind_some]
    rw [readBytes_some (by rw [List.length_append, List.length_cons, List.length_cons]; omega)]
    rfl
  · split <;> rfl

/-- what a call returns lies in the buffer -/
def ExSafe (b : List UInt8) (x : Option (Option Nat)) : Prop :=
  ∃ r, x = some r ∧ ∀ p ∈ r, ∃ elen, b[p + 1]? = some elen ∧ Inside b p elen.toNat

theorem not_exSafe_copyOut (h : rest.length < elen.toNat) :
    ¬ ExSafe (pre ++ id :: elen :: rest)
      ((copyOut (pre ++ id :: elen :: rest) pre.length ie ielen).map fun _ => some pre.length) := by
  rintro ⟨r, hr, hin⟩
  obtain ⟨_, -, rfl⟩ := Option.map_eq_some_iff.mp hr
  obtain ⟨elen', he, hle⟩ := hin _ rfl
  rw [getElem?_elen] at he
  cases he
  have : pre.length + 2 + elen.toNat ≤ (pre ++ id :: elen :: rest).length := hle
  rw [List.length_append, List.length_cons, List.length_cons] at this
  omega

theorem getIeExCallLoop_end {cnt : Nat} (h : inLen ≤ cnt) (hn : 0 < n) :
    ExSafe t (getIeExCallLoop t inLen eid oui ie ielen n cnt) := by
  obtain ⟨n, rfl⟩ := Nat.exists_eq_add_one.mpr hn
  rw [getIeExCallLoop, if_neg (Nat.not_lt.mpr h)]
  exact ⟨none, rfl, nofun⟩

/-- the length byte of the last element is read behind the buffer, or left to the caller -/
theorem not_exSafe_one (x : UInt8) :
    ¬ ExSafe (pre ++ [x]) (getIeExCallLoop (pre ++ [x]) inLen eid oui ie ielen (n + 1) pre.length)
      ∨ inLen ≤ pre.length := by
  rcases Nat.lt_or_ge pre.length inLen with hlt | hge
  · refine Or.inl ?_
    have h0 : (pre ++ [x])[pre.length]? = some x := getElem?_pre pre [x] 0
    have h1 : (pre ++ [x])[pre.length + 1]? = none := getElem?_pre pre [x] 1
    rintro ⟨r, hr, hin⟩
    rw [getIeExCallLoop, if_pos hlt, h0, h1] at hr
    obtain ⟨_, -, hr⟩ := Option.bind_eq_some_iff.mp hr
    obtain ⟨found, -, hr⟩ := Option.bind_eq_some_iff.mp hr
    cases found with
    | false => cases hr
    | true =>
      obtain ⟨_, -, rfl⟩ := Option.map_eq_some_iff.mp hr
      obtain ⟨elen, he, -⟩ := hin _ rfl
      rw [h1] at he
      cases he
  · exact Or.inr hge

theorem getIeExCallLoop_safe (eid : UInt8) (oui : Option (List UInt8)) (ie ielen : Bool) (n : Nat)
    (pre : List UInt8) (rs : List Elem) (t : List UInt8) (ht : elems.cut t = none)
    (hn : (all elems rs ++ t).length < n) :
    ExSafe (pre ++ (all elems rs ++ t)) (getIeExCallLoop (pre ++ (all elems rs ++ t))
        (pre ++ (all elems rs ++ t)).length eid oui ie ielen n pre.length)
      ↔ OuiOk eid oui rs t := by
  induction n generalizing pre rs with
  | zero => exact absurd hn (Nat.not_lt_zero _)
  | succ n ih =>
    cases rs with
    | nil =>
      rw [all_nil, List.nil_append] at hn ⊢
      by_cases hnil : t = []
      · subst hnil
        rw [List.append_nil]
        exact iff_of_true (getIeExCallLoop_end (Nat.le_refl _) (Nat.succ_pos n)) (Or.inl rfl)
      have hlt := length_append_pre pre t hnil
      rcases cut_eq_none ht hnil with ⟨x, rfl⟩ | ⟨id, elen, rest, rfl, hshort⟩
      · refine iff_of_false ((not_exSafe_one x).resolve_right (Nat.not_le.mpr hlt)) ?_
        rintro (h | ⟨h2, -⟩)
        · cases h
        · exact absurd h2 (Nat.not_succ_le_self 1)
      · have hok : OuiOk eid oui [] (id :: elen :: rest)
            ↔ Legible eid oui (id :: elen :: rest) ∧ ¬ Hit eid oui (id :: elen :: rest) := by
          simp [OuiOk]
        rw [hok]
        by_cases hl : Legible eid oui (id :: elen :: rest)
        · by_cases hh : Hit eid oui (id :: elen :: rest)
          · rw [getIeExCallLoop_hit hlt hl hh]
            exact iff_of_false (not_exSafe_copyOut hshort) fun h => h.2 hh
          · rw [getIeExCallLoop_miss hlt hl hh]
            refine iff_of_true (getIeExCallLoop_end ?_ ?_) ⟨hl, hh⟩
            · rw [List.length_append, List.length_cons, List.length_cons]
              omega
            · rw [List.length_cons] at hn
              omega
        · rw [getIeExCallLoop_illegible hlt hl]
          exact iff_of_false (fun ⟨_, h, _⟩ => nomatch h) fun h => hl h.1
    | cons e rs =>
      have hall := all_cons_append e rs t
      have hlt := length_append_pre pre (all elems (e :: rs) ++ t) (hall ▸ List.cons_ne_nil _ _)
      have hok : OuiOk eid oui (e :: rs) t ↔ Legible eid oui (all elems (e :: rs) ++ t)
          ∧ (Hit eid oui (all elems (e :: rs) ++ t) ∨ OuiOk eid oui rs t) := Iff.rfl
      have hih := ih (pre ++ e.bytes) rs (by
        rw [hall] at hn
        simp only [List.length_cons, List.length_append] at hn ⊢
        omega)
      rw [← split_all_append, length_pre] at hih
      rw [hok]
      rw [hall] at hlt hih ⊢
      by_cases hl : Legible eid oui (e.id :: UInt8.ofNat e.body.length :: (e.body ++ (all elems rs ++ t)))
      · by_cases hh : Hit eid oui (e.id :: UInt8.ofNat e.body.length :: (e.body ++ (all elems rs ++ t)))
        · rw [getIeExCallLoop_hit hlt hl hh, copyOut_some (by
            rw [Elem.toNat_elen, List.length_append]
            exact Nat.le_add_right ..)]
          refine iff_of_true ⟨_, rfl, ?_⟩ ⟨hl, Or.inl hh⟩
          rintro p hp
          cases hp
          refine ⟨_, getElem?_elen _ _, ?_⟩
          show pre.length + 2 + _ ≤ _
          rw [Elem.toNat_elen]
          simp only [List.length_append, List.length_cons]
          omega
        · rw [getIeExCallLoop_miss hlt hl hh, Elem.toNat_elen, hih]
          exact ⟨fun h => ⟨hl, Or.inr h⟩, fun h => h.2.resolve_left hh⟩
      · rw [getIeExCallLoop_illegible hlt hl]
        exact iff_of_false (fun ⟨_, h, _⟩ => nomatch h) fun h => hl h.1

theorem getIeExSafe_iff (b : Bytes) (eid : UInt8) (oui : Option (List UInt8)) (ie ielen : Bool) :
    GetIeExSafe b.val b.val.length eid oui ie ielen
      ↔ OuiOk eid oui (pieces elems b.val).1 (pieces elems b.val).2 := by
  have hall := all_pieces elems b.val
  have hcut := cut_pieces elems b.val
  generalize (pieces elems b.val).1 = rs at hall hcut ⊢
  generalize (pieces elems b.val).2 = t at hall hcut ⊢
  show ExSafe _ (rtwGetIeExCall _ _ _ _ _ _) ↔ _
  unfold rtwGetIeExCall
  by_cases hnil : b.val.length = 0
  · rw [if_pos hnil]
    rw [List.length_eq_zero_iff.mp hnil, List.append_eq_nil_iff] at hall
    have hrs : rs = [] := all_injective (hall.1.trans (all_nil (F := elems)).symm)
    rw [hrs, hall.2]
    exact iff_of_true ⟨none, rfl, nofun⟩ (Or.inl rfl)
  · have h := getIeExCallLoop_safe eid oui ie ielen (b.val.length + 1) [] rs t hcut
      (by rw [hall]; exact Nat.lt_succ_self _)
    rw [List.nil_append, hall] at h
    rw [if_neg hnil]
    exact h

end Walk

/-- **The two lookups stay in the buffer** exactly for the buffers that end where an element ends, or
behind a header that is not asked for. -/
theorem getIe_safe_iff (b : Bytes) (index : Int) (eid : UInt8) (oui : Option (List UInt8))
    (ie ielen : Bool) :
    (Walk.GetIeSafe b.val index (sintOfUint b.val.length)
        ∧ Walk.GetIeExSafe b.val b.val.length eid oui ie ielen)
      ↔ Walk.LookupOk index (pieces elems b.val).1 (pieces elems b.val).2
        ∧ Walk.OuiOk eid oui (pieces elems b.val).1 (pieces elems b.val).2 :=
  and_congr (Walk.getIeSafe_iff b index) (Walk.getIeExSafe_iff b eid oui ie ielen)

/-- one byte of an element is left, and the length behind it is read -/
theorem getIe_past_end :
    ¬ ∀ (b : Bytes) (index : Int) (eid : UInt8) (oui : Option (List UInt8)) (ie ielen : Bool),
      (∀ o ∈ oui, o.length ≤ 6) →
      Walk.GetIeSafe b.val index (sintOfUint b.val.length)
        ∧ Walk.GetIeExSafe b.val b.val.length eid oui ie ielen := by
  intro h
  obtain ⟨⟨r, hr, -⟩, -⟩ := h ⟨[0x00, 0x01, 0x61, 0x01], by decide⟩ 1 1 none false true nofun
  have hread : Walk.rtwGetIe [0x00, 0x01, 0x61, 0x01] 1 (sintOfUint 4) = none := by decide
  exact absurd (hread.symm.trans hr) nofun

end Rtl8192eu
