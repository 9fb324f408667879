import Rtl8192eu.Ap.BcnIe
import Rtl8192eu.Ap.Tim

/-!
# The TIM element of the stored beacon

`update_BCNTIM` of `core/rtw_ap.c` puts the current TIM element into the beacon: over the old one if
that has a body, otherwise at an offset that it computes from the SSID, the rates and the size of a
DS parameter set, whatever elements the beacon has and wherever they are.

* `updateBcnTim`   the routine;
* `TimOk`          the beacons in which the place is right;
* `timIe_iff`      it is right in those and in no others;
* `bcnEdit_iff`    the three routines that edit the beacon.
-/

namespace Rtl8192eu

open Records Mem IeEdit

namespace BcnIe

open Tim

/-- `tim_bitmap`, and `aid_bmp_len`: the octets for the mac ids of the device -/
structure TimMap where
  bits : Nat → UInt8
  len : Nat
  len_pos : 1 ≤ len
  len_le : len ≤ 250

theorem TimMap.range_le (t : TimMap) : (timRange t.bits t.len).2 ≤ 250 := by
  have hspec := @timRange_spec t.bits t.len t.len_pos (Nat.le_succ_of_le t.len_le)
  have hle := t.len_le
  omega

/-- the element of the map -/
def TimMap.elem (t : TimMap) : Elem where
  id := wlanEidTim
  body := [0, 1, bmpControl t.bits t.len]
    ++ read t.bits (timRange t.bits t.len).1 (timRange t.bits t.len).2
  length_lt := by
    have hle := t.range_le
    rw [List.length_append, length_read]
    simp only [List.length_cons, List.length_nil]
    omega

theorem TimMap.bytes_eq (t : TimMap) : (rtwSetTimIe 0 1 t.bits t.len).1 = t.elem.bytes := by
  have hlen : t.elem.body.length = 2 + 1 + (timRange t.bits t.len).2 := by
    show ([0, 1, bmpControl t.bits t.len] ++ read t.bits _ _).length = _
    rw [List.length_append, length_read]
    rfl
  show _ = wlanEidTim :: UInt8.ofNat t.elem.body.length :: t.elem.body
  rw [hlen]
  rfl

theorem TimMap.size_eq (t : TimMap) :
    (rtwSetTimIe 0 1 t.bits t.len).2.toNat = t.elem.bytes.length := by
  have hle := t.range_le
  have hlen : t.elem.bytes.length = 2 + 2 + 1 + (timRange t.bits t.len).2 := by
    show ([0, 1, bmpControl t.bits t.len] ++ read t.bits _ _).length + 2 = _
    rw [List.length_append, length_read]
    simp only [List.length_cons, List.length_nil]
    omega
  rw [hlen]
  exact toNat_ofNat_small (by omega)

/-! ## the routine -/

def ssidIe : UInt8 := 0

def supportedratesIe : UInt8 := 1

/-- the bytes of the element that `rtw_get_ie` found -/
def foundLen (r : Option (Nat × Nat)) : Nat :=
  match r with
  | none => 0
  | some (_, tmpLen) => tmpLen + 2

/-- `offset`, where there is no TIM element to replace; the 3 bytes are the DS parameter set -/
def headLen (b : Beacon) : Nat :=
  fixedIeLength + foundLen (getIe b ssidIe) + foundLen (getIe b supportedratesIe) + 3

def updateBcnTim (rtwMalloc : Nat → Bool) (b : Beacon) (t : TimMap) : Beacon :=
  let tim := rtwSetTimIe 0 1 t.bits t.len
  let append :=
    splice rtwMalloc b (headLen b) (headLen b) (remainderAt b (headLen b) 0) tim.1 tim.2.toNat
  match getIe b wlanEidTim with
  | none => append
  | some (p, timIelen) =>
    if 0 < timIelen then
      splice rtwMalloc b p (p + (timIelen + 2)) (remainderAt b p (timIelen + 2)) tim.1 tim.2.toNat
    else append

/-! ## what is asked of it -/

/-- the bytes of the first element with the id -/
def elemLen (id : UInt8) (es : List Elem) : Nat :=
  match es.find? (Elem.hasId id) with
  | none => 0
  | some e => e.body.length + 2

/-- the TIM element is replaced, or put in once -/
def TimRight (b b' : Beacon) (es : List Elem) (x : Elem) : Prop :=
  if es.any (Elem.hasId wlanEidTim) then
    Becomes b b' (onFirst (Elem.hasId wlanEidTim) (fun _ => x) es)
  else ∃ front back, es = front ++ back ∧ Becomes b b' (front ++ x :: back)

/-- The first TIM element has a body.  Or there is none, and an element ends where SSID, rates and
three bytes would end. -/
def TimOk (es : List Elem) : Prop :=
  match es.find? (Elem.hasId wlanEidTim) with
  | some e => e.body ≠ []
  | none => ∃ front back, es = front ++ back
      ∧ (all elems front).length = elemLen ssidIe es + elemLen supportedratesIe es + 3

variable {rtwMalloc : Nat → Bool} {b : Beacon} {es pre post : List Elem} {e : Elem} {t : TimMap}

theorem elemLen_le (id : UInt8) (es : List Elem) : elemLen id es ≤ 257 := by
  unfold elemLen
  split
  · exact Nat.zero_le _
  · rename_i e _
    have hlt := e.length_lt
    omega

theorem headLen_stored (h : Stored b es) :
    headLen b = fixedIeLength + elemLen ssidIe es + elemLen supportedratesIe es + 3 := by
  have hfound : ∀ id, foundLen (getIe b id) = elemLen id es := by
    intro id
    unfold elemLen
    rw [getIe_stored h, ← find_first]
    cases first elems (Elem.hasId id) es <;> rfl
  unfold headLen
  rw [hfound, hfound]

/-! ## the element is replaced -/

theorem tim_splice (hmalloc : Granted rtwMalloc) {mid : List Elem}
    (h : Stored b (pre ++ (mid ++ post))) {dst from' r : Nat}
    (hdst : dst = fixedIeLength + (all elems pre).length)
    (hfrom : from' = dst + (all elems mid).length) (hr : r = (all elems post).length) :
    Becomes b (splice rtwMalloc b dst from' r (rtwSetTimIe 0 1 t.bits t.len).1
      (rtwSetTimIe 0 1 t.bits t.len).2.toNat) (pre ++ t.elem :: post) := by
  have hedit := splice_elem hmalloc h (x := t.elem) hdst hfrom hr
  rw [Nat.add_comm 2] at hedit
  rw [t.bytes_eq, t.size_eq]
  exact hedit

theorem updateBcnTim_replace (hmalloc : Granted rtwMalloc) (h : Stored b (pre ++ e :: post))
    (hpre : ∀ x ∈ pre, Elem.hasId wlanEidTim x = false) (he : Elem.hasId wlanEidTim e = true)
    (hbody : e.body ≠ []) : Becomes b (updateBcnTim rtwMalloc b t) (pre ++ t.elem :: post) := by
  unfold updateBcnTim
  rw [getIe_stored h, first_append hpre he, Option.map_some]
  dsimp only
  rw [if_pos (List.length_pos_iff.mpr hbody), remainderAt_stored h]
  have hone : pre ++ e :: post = pre ++ ([e] ++ post) := rfl
  rw [hone] at h
  apply tim_splice hmalloc h rfl _ rfl
  rw [all_singleton]
  rfl

/-! ## the element is put in -/

/-- the splice at the computed place -/
def appendTim (rtwMalloc : Nat → Bool) (b : Beacon) (t : TimMap) : Beacon :=
  splice rtwMalloc b (headLen b) (headLen b) (remainderAt b (headLen b) 0)
    (rtwSetTimIe 0 1 t.bits t.len).1 (rtwSetTimIe 0 1 t.bits t.len).2.toNat

theorem updateBcnTim_append (h : Stored b es)
    (hno : ∀ e, es.find? (Elem.hasId wlanEidTim) = some e → e.body = []) :
    updateBcnTim rtwMalloc b t = appendTim rtwMalloc b t := by
  unfold updateBcnTim
  rw [getIe_stored h]
  rw [← find_first] at hno
  cases hf : first elems (Elem.hasId wlanEidTim) es with
  | none => rfl
  | some r =>
    rw [hf] at hno
    rw [Option.map_some]
    dsimp only
    rw [hno r.2 rfl]
    exact if_neg (Nat.lt_irrefl 0)

theorem appendTim_becomes (hmalloc : Granted rtwMalloc) (h : Stored b (pre ++ post))
    (hplace : (all elems pre).length
      = elemLen ssidIe (pre ++ post) + elemLen supportedratesIe (pre ++ post) + 3) :
    Becomes b (appendTim rtwMalloc b t) (pre ++ t.elem :: post) := by
  have hhead := headLen_stored h
  have hlen := h.length
  have hfits := h.fits
  rw [all_append, List.length_append] at hlen
  unfold maxIeSz at hfits
  have hgap : Stored b (pre ++ ([] ++ post)) := h
  apply tim_splice hmalloc hgap (by omega) rfl
  unfold remainderAt subU32
  omega

/-- whatever is written where, `IELength` grows by the size of the element -/
theorem appendTim_length (h : Stored b es) :
    (appendTim rtwMalloc b t).ieLength = b.ieLength + t.elem.bytes.length := by
  have hhead := headLen_stored h
  have h0 := elemLen_le ssidIe es
  have h1 := elemLen_le supportedratesIe es
  have hfits := h.fits
  have hlt := t.elem.length_lt
  have hsize := t.elem.length_bytes
  unfold maxIeSz at hfits
  show (headLen b + (rtwSetTimIe 0 1 t.bits t.len).2.toNat + remainderAt b (headLen b) 0) % 2 ^ 32 = _
  rw [t.size_eq]
  unfold remainderAt subU32
  have hfixed : fixedIeLength = 12 := rfl
  omega

/-! ## cells -/

theorem splice_cell (rtwMalloc : Nat → Bool) (b : Beacon) (dst from' r : Nat) (data : List UInt8) :
    (∀ i, i < dst → (splice rtwMalloc b dst from' r data data.length).ies i = b.ies i)
      ∧ ∀ i (h : i < data.length),
        (splice rtwMalloc b dst from' r data data.length).ies (dst + i) = data[i] := by
  unfold splice
  dsimp only
  cases backup rtwMalloc b.ies from' r with
  | none => exact ⟨fun i hi => write_of_lt hi, fun i hi => write_add hi⟩
  | some w =>
    dsimp only
    refine ⟨fun i hi => ?_, fun i hi => ?_⟩
    · rw [write_of_lt (by omega), write_of_lt hi]
    · rw [write_of_lt (by omega), write_add hi]

/-- the element `x` between two parts, cell by cell -/
theorem becomes_cell {b' : Beacon} {x : Elem} (h : Stored b (pre ++ post))
    (hb : Becomes b b' (pre ++ x :: post)) :
    (∀ i, i < (all elems pre).length → b'.ies (fixedIeLength + i) = b.ies (fixedIeLength + i))
      ∧ b'.ies (fixedIeLength + (all elems pre).length) = x.id := by
  have hnew := hb.read_eq
  have hold := h.read_eq
  rw [all_append] at hnew hold
  obtain ⟨hpre, hrest⟩ := read_eq_append.mp hnew
  obtain ⟨hpre', -⟩ := read_eq_append.mp hold
  constructor
  · intro i hi
    exact cell_congr (hpre.trans hpre'.symm) hi
  · have hhead : all elems (x :: post) = x.id :: UInt8.ofNat x.body.length :: (x.body ++ all elems post) :=
      Walk.all_cons_eq x post
    rw [hhead, List.length_cons] at hrest
    have hone := congrArg List.head? hrest
    rw [Nat.add_comm _ 1, read_add] at hone
    exact Option.some.inj hone

/-- a beacon with the list `es`, and zeros behind it -/
def storedOf (es : List Elem) : Beacon :=
  ⟨write (fun _ => 0) fixedIeLength (all elems es), fixedIeLength + (all elems es).length⟩

theorem storedOf_stored (h : fixedIeLength + (all elems es).length ≤ maxIeSz) :
    Stored (storedOf es) es := ⟨rfl, read_write_self rfl, h⟩

theorem storedOf_behind (es : List Elem) :
    (storedOf es).ies (fixedIeLength + (all elems es).length) = 0 := by
  show write (fun _ => 0) fixedIeLength (all elems es) _ = 0
  rw [write_of_ge (Nat.le_refl _)]

/-- the map with octet 0, of one octet -/
def octetMap (x : UInt8) : TimMap where
  bits i := if i = 0 then x else 0
  len := 1
  len_pos := Nat.le_refl 1
  len_le := by decide

/-- **A place that is no boundary**: the bytes behind it would have to be the element itself. -/
theorem boundary_or (h : Stored (storedOf es) es) (hno : ∀ e ∈ es, e.id ≠ wlanEidTim) {x : UInt8}
    (hbytes : (octetMap x).elem.bytes = [5, 4, 0, 1, 0, x]) (hx : x ≠ 5)
    (hright : ∃ front back, es = front ++ back
      ∧ Becomes (storedOf es) (appendTim rtwMalloc (storedOf es) (octetMap x))
        (front ++ (octetMap x).elem :: back)) :
    (∃ front back, es = front ++ back
        ∧ (all elems front).length = elemLen ssidIe es + elemLen supportedratesIe es + 3)
      ∨ (storedOf es).ies (headLen (storedOf es) + 5) = x := by
  obtain ⟨front, back, hes, hb⟩ := hright
  have hhead := headLen_stored h
  have hcells := splice_cell rtwMalloc (storedOf es) (headLen (storedOf es)) (headLen (storedOf es))
    (remainderAt (storedOf es) (headLen (storedOf es)) 0) (octetMap x).elem.bytes
  have hsame : appendTim rtwMalloc (storedOf es) (octetMap x)
      = splice rtwMalloc (storedOf es) (headLen (storedOf es)) (headLen (storedOf es))
          (remainderAt (storedOf es) (headLen (storedOf es)) 0) (octetMap x).elem.bytes
          (octetMap x).elem.bytes.length := by
    unfold appendTim
    rw [(octetMap x).bytes_eq, (octetMap x).size_eq]
  rw [← hsame, hbytes] at hcells
  obtain ⟨hbelow, hdata⟩ := hcells
  have hparts : Stored (storedOf es) (front ++ back) := by
    rw [← hes]
    exact h
  obtain ⟨hkeep, hid⟩ := becomes_cell hparts hb
  have hid5 : (octetMap x).elem.id = 5 := rfl
  rw [hid5] at hid
  have hlen : (all elems es).length = (all elems front).length + (all elems back).length := by
    rw [hes, all_append, List.length_append]
  rcases Nat.lt_trichotomy (fixedIeLength + (all elems front).length) (headLen (storedOf es)) with hq | hq | hq
  · -- in front of the place there is an element of the list, or a zero
    rw [hbelow _ hq] at hid
    cases back with
    | nil =>
      rw [all_nil, List.length_nil, Nat.add_zero] at hlen
      rw [← hlen, storedOf_behind] at hid
      cases hid
    | cons e back =>
      have hhere := (ies_of_ahead (stored_behind hparts)).1
      rw [hid] at hhere
      refine absurd hhere.symm (hno e ?_)
      rw [hes]
      exact List.mem_append_right _ List.mem_cons_self
  · exact Or.inl ⟨front, back, hes, by omega⟩
  · obtain ⟨d, hd⟩ := Nat.exists_eq_add_of_le (Nat.le_of_lt hq)
    by_cases h6 : d < 6
    · -- the first byte of the element is there, and it is that of the place
      rw [hd, hdata d h6] at hid
      have hpos : d ≠ 0 := by omega
      match d, h6, hid with
      | 0, _, _ => exact absurd rfl hpos
      | 1, _, hid => exact absurd (show (4 : UInt8) = 5 from hid) (by decide)
      | 2, _, hid => exact absurd (show (0 : UInt8) = 5 from hid) (by decide)
      | 3, _, hid => exact absurd (show (1 : UInt8) = 5 from hid) (by decide)
      | 4, _, hid => exact absurd (show (0 : UInt8) = 5 from hid) (by decide)
      | 5, _, hid => exact absurd (show x = 5 from hid) hx
    · right
      have h5 := hdata 5 (Nat.le_refl 6)
      have hk := hkeep (headLen (storedOf es) + 5 - fixedIeLength) (by omega)
      have hadd : fixedIeLength + (headLen (storedOf es) + 5 - fixedIeLength)
          = headLen (storedOf es) + 5 := by omega
      rw [hadd] at hk
      exact hk.symm.trans h5

/-! ## when the place is right -/

theorem find?_none_iff : es.find? (Elem.hasId wlanEidTim) = none ↔ ∀ e ∈ es, e.id ≠ wlanEidTim := by
  simp only [List.find?_eq_none, Elem.hasId_iff, ne_eq]

theorem timRight_none {b' : Beacon} {x : Elem} (hno : ∀ e ∈ es, e.id ≠ wlanEidTim) :
    TimRight b b' es x ↔ ∃ front back, es = front ++ back ∧ Becomes b b' (front ++ x :: back) := by
  have hany : es.any (Elem.hasId wlanEidTim) = false := any_hasId_false (x := ⟨wlanEidTim, [], by decide⟩) hno
  unfold TimRight
  rw [hany, if_neg Bool.false_ne_true]

theorem timRight_some {b' : Beacon} {x : Elem} (hpre : ∀ y ∈ pre, Elem.hasId wlanEidTim y = false)
    (he : Elem.hasId wlanEidTim e = true) :
    TimRight b b' (pre ++ e :: post) x ↔ Becomes b b' (pre ++ x :: post) := by
  have hany : (pre ++ e :: post).any (Elem.hasId wlanEidTim) = true :=
    List.any_eq_true.mpr ⟨e, List.mem_append_right _ List.mem_cons_self, he⟩
  unfold TimRight
  rw [hany, if_pos rfl, onFirst_append hpre he]

/-- **The TIM element is right** in the beacons with a proper place for it, and in no others, if the
map may be any. -/
theorem timIe_iff (hmalloc : Granted rtwMalloc) (es : List Elem)
    (hroom : fixedIeLength + (all elems es).length + 6 ≤ maxIeSz) :
    (∀ b t, Stored b es → b.ieLength + t.elem.bytes.length ≤ maxIeSz →
        TimRight b (updateBcnTim rtwMalloc b t) es t.elem)
      ↔ TimOk es := by
  have hstored : Stored (storedOf es) es := storedOf_stored (by omega)
  have hsmall : ∀ x, (octetMap x).elem.bytes.length = 6 →
      (storedOf es).ieLength + (octetMap x).elem.bytes.length ≤ maxIeSz := by
    intro x hx
    rw [hx]
    exact hroom
  unfold TimOk
  cases hf : es.find? (Elem.hasId wlanEidTim) with
  | none =>
    have hno := find?_none_iff.mp hf
    have hempty : ∀ e, es.find? (Elem.hasId wlanEidTim) = some e → e.body = [] := by
      intro e he
      rw [hf] at he
      cases he
    constructor
    · intro h
      have hpoint : ∀ x, (octetMap x).elem.bytes.length = 6 → _ := fun x hx => by
        have hr := h (storedOf es) (octetMap x) hstored (hsmall x hx)
        rw [timRight_none hno, updateBcnTim_append hstored hempty] at hr
        exact hr
      have h0 := boundary_or hstored hno (x := 0) (by decide) (by decide) (hpoint 0 (by decide))
      have h2 := boundary_or hstored hno (x := 2) (by decide) (by decide) (hpoint 2 (by decide))
      rcases h0 with h0 | h0
      · exact h0
      rcases h2 with h2 | h2
      · exact h2
      rw [h0] at h2
      cases h2
    · intro ⟨front, back, hes, hplace⟩ b t hb _
      rw [timRight_none hno, updateBcnTim_append hb hempty]
      subst hes
      exact ⟨front, back, rfl, appendTim_becomes hmalloc hb hplace⟩
  | some e =>
    obtain ⟨he, pre, post, rfl, hpre⟩ := List.find?_eq_some_iff_append.mp hf
    have hpre : ∀ y ∈ pre, Elem.hasId wlanEidTim y = false := fun y hy => by simpa using hpre y hy
    dsimp only
    constructor
    · intro h hbody
      have hr := h (storedOf _) (octetMap 0) hstored (hsmall 0 (by decide))
      rw [timRight_some hpre he, updateBcnTim_append hstored fun e' he' => by
        rw [hf] at he'
        cases he'
        exact hbody] at hr
      have hlen := hr.length
      rw [appendTim_length hstored, hstored.length, length_all_split, length_all_split,
        Elem.length_bytes, hbody, List.length_nil] at hlen
      omega
    · intro hbody b t hb _
      rw [timRight_some hpre he]
      exact updateBcnTim_replace hmalloc hb hpre he hbody

/-- **The three routines that edit the beacon**, each with the lists that it edits rightly. -/
theorem bcnEdit_iff (hmalloc : Granted rtwMalloc) (es : List Elem)
    (hroom : fixedIeLength + (all elems es).length + 6 ≤ maxIeSz) :
    ((∀ b t, Stored b es → b.ieLength + t.elem.bytes.length ≤ maxIeSz →
        TimRight b (updateBcnTim rtwMalloc b t) es t.elem) ↔ TimOk es)
      ∧ (∀ b, Stored b es → ∀ x : Elem,
        Becomes b (rtwAddBcnIe rtwMalloc b x.id x.body) (addElem x es) ↔ AddOk x es)
      ∧ ∀ b, Stored b es → ∀ index,
        Becomes b (rtwRemoveBcnIe rtwMalloc b index) (es.eraseP (Elem.hasId index)) ↔ RemoveOk index es :=
  ⟨timIe_iff hmalloc es hroom, fun _ hb x => addIe_iff hmalloc hb x,
    fun _ hb index => removeIe_iff hmalloc hb index⟩

/-- every block is there -/
def plenty : Nat → Bool := fun _ => true

theorem plenty_granted : Granted plenty := fun _ _ => rfl

/-- SSID, rates and DS parameter set, each with a body -/
def plainElems : List Elem := [⟨0, [0x61], by decide⟩, ⟨1, [0x82], by decide⟩, ⟨3, [6], by decide⟩]

theorem bcnEdit_iff_plain :
    (∀ b t, Stored b plainElems → b.ieLength + t.elem.bytes.length ≤ maxIeSz →
        TimRight b (updateBcnTim plenty b t) plainElems t.elem)
      ∧ Becomes (storedOf plainElems) (rtwAddBcnIe plenty (storedOf plainElems) 2 [])
        [⟨0, [0x61], by decide⟩, ⟨1, [0x82], by decide⟩, ⟨2, [], by decide⟩, ⟨3, [6], by decide⟩] := by
  have hexact := bcnEdit_iff plenty_granted plainElems (by decide)
  constructor
  · exact hexact.1.mpr ⟨plainElems, [], rfl, rfl⟩
  · exact (hexact.2.1 _ (storedOf_stored (by decide)) ⟨2, [], by decide⟩).mpr
      ⟨⟨1, [0x82], by decide⟩, rfl, by decide⟩

/-- a hidden SSID, and no DS parameter set -/
def hiddenElems : List Elem := [⟨0, [], by decide⟩, ⟨6, [1, 0], by decide⟩]

/-- none of the three edits this list rightly: the TIM element is put into another one, the rates do
not come in behind the SSID, and the SSID does not go -/
theorem hiddenElems_edits :
    ¬ (∀ b t, Stored b hiddenElems → b.ieLength + t.elem.bytes.length ≤ maxIeSz →
        TimRight b (updateBcnTim plenty b t) hiddenElems t.elem)
      ∧ ¬ Becomes (storedOf hiddenElems) (rtwAddBcnIe plenty (storedOf hiddenElems) 1 [0x82])
        (addElem ⟨1, [0x82], by decide⟩ hiddenElems)
      ∧ ¬ Becomes (storedOf hiddenElems) (rtwRemoveBcnIe plenty (storedOf hiddenElems) 0)
        (hiddenElems.eraseP (Elem.hasId 0)) := by
  have hstored : Stored (storedOf hiddenElems) hiddenElems := storedOf_stored (by decide)
  refine ⟨fun h => ?_, fun h => ?_, fun h => ?_⟩
  · obtain ⟨front, back, hes, hplace⟩ := (timIe_iff plenty_granted hiddenElems (by decide)).mp h
    have hfive : (all elems front).length = 5 := hplace
    match front, hes, hfive with
    | [], _, hfive => cases hfive
    | [_], hes, hfive =>
      cases hes
      cases hfive
    | [_, _], hes, hfive =>
      cases hes
      cases hfive
    | _ :: _ :: _ :: _, hes, _ => cases hes
  · obtain ⟨l, hl, hbody⟩ := (addIe_iff plenty_granted hstored ⟨1, [0x82], by decide⟩).mp h
    cases hl
    exact hbody rfl
  · exact (removeIe_iff plenty_granted hstored 0).mp h ⟨0, [], by decide⟩ rfl rfl

end BcnIe

end Rtl8192eu
