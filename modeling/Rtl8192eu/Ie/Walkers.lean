import Mathlib.Algebra.Group.Int.Defs
import Mathlib.Algebra.Group.Nat.Defs
import Rtl8192eu.Lib.Records
import Rtl8192eu.Ie.Elems

/-!
# The element walkers

Four loops over the same format: `check_ielen` counts the bytes left in a signed number,
`rtw_ieee802_11_parse_elems` in an unsigned one, `rtw_get_ie` moves a pointer and an index, and
`rtw_get_ie_ex` only an index.  Every read is checked: `none` is a read outside the buffer.

* `Elem`, `elems`   an element with its id and body, and the format as self-delimiting records;
* `Bytes`   a buffer in memory, with a length that both kinds of counter can hold;
* `walkers_agree`   what the four loops make of any buffer.
-/

namespace Rtl8192eu

open Records

/-! ## elements -/

structure Elem where
  id : UInt8
  body : List UInt8
  length_lt : body.length < 256
  deriving DecidableEq, Repr

namespace Elem

def bytes (e : Elem) : List UInt8 := e.id :: UInt8.ofNat e.body.length :: e.body

def cut : List UInt8 → Option (Elem × List UInt8)
  | id :: elen :: rest =>
    if elen.toNat ≤ rest.length then
      some (⟨id, rest.take elen.toNat, by
        rw [List.length_take]
        exact Nat.lt_of_le_of_lt (Nat.min_le_left ..) elen.toNat_lt⟩, rest.drop elen.toNat)
    else none
  | _ => none

theorem toNat_elen (e : Elem) : (UInt8.ofNat e.body.length).toNat = e.body.length :=
  UInt8.toNat_ofNat_of_lt' e.length_lt

theorem cut_bytes (e : Elem) (l : List UInt8) : cut (e.bytes ++ l) = some (e, l) := by
  show cut (e.id :: UInt8.ofNat e.body.length :: (e.body ++ l)) = _
  rw [cut, if_pos (by rw [toNat_elen, List.length_append]; exact Nat.le_add_right ..)]
  congr 2
  · obtain ⟨id, body, h⟩ := e
    simp only [mk.injEq, true_and]
    rw [UInt8.toNat_ofNat_of_lt' h, List.take_left' rfl]
  · rw [toNat_elen, List.drop_left' rfl]

theorem bytes_cut {l l' : List UInt8} {e : Elem} (h : cut l = some (e, l')) : e.bytes ++ l' = l := by
  unfold cut at h
  split at h
  · rename_i id elen rest
    split at h
    · rename_i hle
      cases h
      show id :: UInt8.ofNat (rest.take elen.toNat).length :: (rest.take elen.toNat
        ++ rest.drop elen.toNat) = _
      rw [List.take_append_drop, List.length_take, Nat.min_eq_left hle, UInt8.ofNat_toNat]
    · cases h
  · cases h

theorem length_bytes (e : Elem) : e.bytes.length = e.body.length + 2 := rfl

def hasId (id : UInt8) (e : Elem) : Bool := e.id == id

/-- the same, asked with a `sint` -/
def hasIndex (index : Int) (e : Elem) : Bool := (e.id.toNat : Int) == index

theorem hasId_iff {id : UInt8} {e : Elem} : e.hasId id = true ↔ e.id = id := beq_iff_eq

theorem hasIndex_iff {index : Int} {e : Elem} : e.hasIndex index = true ↔ (e.id.toNat : Int) = index :=
  beq_iff_eq

end Elem

/-- the format of element lists -/
def elems : Format Elem UInt8 where
  bytes := Elem.bytes
  cut := Elem.cut
  cut_bytes := Elem.cut_bytes
  bytes_cut := Elem.bytes_cut
  bytes_ne _ := List.cons_ne_nil _ _

/-- a buffer; its length is the same as `uint` and as `sint` -/
abbrev Bytes := { l : List UInt8 // l.length < 2 ^ 31 }

/-- a `uint` assigned to a `sint` -/
def sintOfUint (n : Nat) : Int := if n < 2 ^ 31 then n else n - 2 ^ 32

theorem sintOfUint_length (b : Bytes) : sintOfUint b.val.length = b.val.length := if_pos b.property

namespace Walk

/-! ## `check_ielen` -/

def eidVendorSpecific : UInt8 := 221

def checkIelenLoop (b : List UInt8) : Nat → Nat → Int → Option Bool
  | 0, _, _ => none
  | n + 1, pos, left =>
    if 2 ≤ left then do
      let id ← b[pos]?
      let elen ← b[pos + 1]?
      if left - 2 < elen.toNat then some false
      else if id = eidVendorSpecific ∧ elen.toNat < 3 then some false
      else checkIelenLoop b n (pos + 2 + elen.toNat) (left - 2 - elen.toNat)
    else some (left == 0)

/-- every round takes two bytes at least -/
def checkIelen (b : List UInt8) (len : Nat) : Option Bool :=
  checkIelenLoop b (len + 1) 0 (sintOfUint len)

/-! ## `rtw_get_ie` and `rtw_get_ie_ex` -/

/-- `p` and `i` of the source move together; the result is the element and its length byte -/
def getIeLoop (b : List UInt8) (index limit : Int) : Nat → Nat → Int → Option (Option (Nat × Nat))
  | 0, _, _ => none
  | n + 1, p, i => do
    let x ← b[p]?
    let tmp ← b[p + 1]?
    if (x.toNat : Int) = index then some (some (p, tmp.toNat))
    else if limit ≤ i + (tmp.toNat + 2) then some none
    else getIeLoop b index limit n (p + (tmp.toNat + 2)) (i + (tmp.toNat + 2))

/-- `some none` is `NULL` -/
def rtwGetIe (b : List UInt8) (index limit : Int) : Option (Option (Nat × Nat)) :=
  if limit < 1 then some none else getIeLoop b index limit limit.toNat 0 0

/-- `n` bytes at `pos`, for `_rtw_memcpy` and `_rtw_memcmp` -/
def readBytes (b : List UInt8) (pos n : Nat) : Option (List UInt8) :=
  if pos + n ≤ b.length then some ((b.drop pos).take n) else none

/-- the element, and what is copied to `ie` -/
def getIeExLoop (b : List UInt8) (inLen : Nat) (eid : UInt8) (oui : Option (List UInt8)) :
    Nat → Nat → Option (Option (Nat × List UInt8))
  | 0, _ => none
  | n + 1, cnt =>
    if cnt < inLen then do
      let x ← b[cnt]?
      let found ← if eid ≠ x then some false else
        match oui with
        | none => some true
        | some oui => (readBytes b (cnt + 2) oui.length).map (· == oui)
      let elen ← b[cnt + 1]?
      if found then do
        let ie ← readBytes b cnt (elen.toNat + 2)
        some (some (cnt, ie))
      else getIeExLoop b inLen eid oui n (cnt + (elen.toNat + 2))
    else some none

def rtwGetIeEx (b : List UInt8) (inLen : Nat) (eid : UInt8) (oui : Option (List UInt8)) :
    Option (Option (Nat × List UInt8)) :=
  if inLen = 0 then some none else getIeExLoop b inLen eid oui (inLen + 1) 0

/-! ## `rtw_ieee802_11_parse_elems` -/

/-- the fields of `struct rtw_ieee802_11_elems` that one id fills -/
inductive Field where
  | ssid | suppRates | fhParams | dsParams | cfParams | tim | ibssParams | challenge | erpInfo
  | extSuppRates | rsnIe | powerCap | suppChannels | mdie | ftie | timeoutInt | htCapabilities
  | htOperation | vhtCapabilities | vhtOperation | vhtOpModeNotify | rmEnCap
  deriving DecidableEq, Repr

/-- the cases of the switch over the id -/
def Field.id : Field → UInt8
  | .ssid => 0
  | .suppRates => 1
  | .fhParams => 2
  | .dsParams => 3
  | .cfParams => 4
  | .tim => 5
  | .ibssParams => 6
  | .challenge => 16
  | .powerCap => 33
  | .suppChannels => 36
  | .erpInfo => 42
  | .htCapabilities => 45
  | .rsnIe => 48
  | .extSuppRates => 50
  | .mdie => 54
  | .ftie => 55
  | .timeoutInt => 56
  | .htOperation => 61
  | .rmEnCap => 70
  | .vhtCapabilities => 191
  | .vhtOperation => 192
  | .vhtOpModeNotify => 199

def Field.list : List Field :=
  [.ssid, .suppRates, .fhParams, .dsParams, .cfParams, .tim, .ibssParams, .challenge, .erpInfo,
    .extSuppRates, .rsnIe, .powerCap, .suppChannels, .mdie, .ftie, .timeoutInt, .htCapabilities,
    .htOperation, .vhtCapabilities, .vhtOperation, .vhtOpModeNotify, .rmEnCap]

def fieldOf (id : UInt8) : Option Field := Field.list.find? fun f => f.id == id

/-- the fields of the vendor specific elements -/
inductive VendorField where
  | wpaIe | wme | wmeTspec | wpsIe | vendorHtCap
  deriving DecidableEq, Repr

/-- `struct rtw_ieee802_11_elems`: where each body starts, and its length -/
structure ElemPtrs where
  field : Field → Option (Nat × Nat) := fun _ => none
  vendor : VendorField → Option (Nat × Nat) := fun _ => none

def ouiMicrosoft : List UInt8 := [0x00, 0x50, 0xf2]
def ouiBroadcom : List UInt8 := [0x00, 0x90, 0x4c]

/-- the field that a vendor specific element at `pos` fills; `some none` is the return value `-1` -/
def vendorFieldOf (b : List UInt8) (pos elen : Nat) : Option (Option VendorField) :=
  if elen < 4 then some none
  else do
    let oui ← readBytes b pos 3
    let type ← b[pos + 3]?
    if oui = ouiMicrosoft then
      match type with
      | 1 => some (some .wpaIe)
      | 2 =>
        if elen < 5 then some none
        else do
          let subtype ← b[pos + 4]?
          match subtype with
          | 0 | 1 => some (some .wme)
          | 2 => some (some .wmeTspec)
          | _ => some none
      | 4 => some (some .wpsIe)
      | _ => some none
    else if oui = ouiBroadcom then
      match type with
      | 0x33 => some (some .vendorHtCap)
      | _ => some none
    else some none

/-- one round of the switch: the elements, and whether the id was unknown -/
def parseElem (b : List UInt8) (e : ElemPtrs) (id : UInt8) (pos elen : Nat) :
    Option (ElemPtrs × Bool) :=
  if id = eidVendorSpecific then
    (vendorFieldOf b pos elen).map fun
      | some f => ({ e with vendor := Function.update e.vendor f (some (pos, elen)) }, false)
      | none => (e, true)
  else
    match fieldOf id with
    | some f => some ({ e with field := Function.update e.field f (some (pos, elen)) }, false)
    | none => some (e, true)

inductive ParseRes where
  | ok
  | unknown
  | failed
  deriving DecidableEq, Repr

def parseElemsLoop (b : List UInt8) :
    Nat → Nat → Nat → Nat → ElemPtrs → Option (ParseRes × ElemPtrs)
  | 0, _, _, _, _ => none
  | n + 1, pos, left, unknown, e =>
    if 2 ≤ left then do
      let id ← b[pos]?
      let elen ← b[pos + 1]?
      if left - 2 < elen.toNat then some (.failed, e)
      else do
        let (e, u) ← parseElem b e id (pos + 2) elen.toNat
        parseElemsLoop b n (pos + 2 + elen.toNat) (left - 2 - elen.toNat)
          (unknown + if u then 1 else 0) e
    else if left ≠ 0 then some (.failed, e)
    else some (if unknown ≠ 0 then .unknown else .ok, e)

def rtwIeee80211ParseElems (b : List UInt8) (len : Nat) : Option (ParseRes × ElemPtrs) :=
  parseElemsLoop b (len + 1) 0 len 0 {}

/-! ## what is read -/

variable {b pre rest t : List UInt8} {id elen : UInt8} {rs : List Elem}

theorem getElem?_pre (pre rest : List UInt8) (k : Nat) :
    (pre ++ rest)[pre.length + k]? = rest[k]? := by
  rw [List.getElem?_append_right (Nat.le_add_right ..), Nat.add_sub_cancel_left]

theorem getElem?_id (pre rest : List UInt8) :
    (pre ++ id :: elen :: rest)[pre.length]? = some id := getElem?_pre pre _ 0

theorem getElem?_elen (pre rest : List UInt8) :
    (pre ++ id :: elen :: rest)[pre.length + 1]? = some elen := getElem?_pre pre _ 1

theorem readBytes_some {pos n : Nat} (h : pos + n ≤ b.length) :
    readBytes b pos n = some ((b.drop pos).take n) := if_pos h

/-- the text of a list of elements, with the head of the first one written out -/
theorem all_cons_eq (e : Elem) (rs : List Elem) :
    all elems (e :: rs) = e.id :: UInt8.ofNat e.body.length :: (e.body ++ all elems rs) := rfl

/-- the element that starts at `id` and `elen`, when the buffer holds its body -/
theorem cut_cons_of_le (id : UInt8) (hle : elen.toNat ≤ rest.length) :
    ∃ e, elems.cut (id :: elen :: rest) = some (e, rest.drop elen.toNat) ∧ e.id = id
      ∧ e.body.length = elen.toNat := by
  refine ⟨_, if_pos hle, rfl, ?_⟩
  rw [List.length_take, Nat.min_eq_left hle]

theorem cut_cons_of_lt (hlt : rest.length < elen.toNat) :
    elems.cut (id :: elen :: rest) = none := if_neg (Nat.not_le.mpr hlt)

/-- the buffer, cut behind the element at `pre` -/
theorem split_elem (pre : List UInt8) (id : UInt8) (hle : elen.toNat ≤ rest.length) :
    ∃ pre', pre ++ id :: elen :: rest = pre' ++ rest.drop elen.toNat
      ∧ pre'.length = pre.length + 2 + elen.toNat := by
  refine ⟨pre ++ id :: elen :: rest.take elen.toNat, ?_, ?_⟩
  · rw [List.append_assoc, List.cons_append, List.cons_append, List.take_append_drop]
  · rw [List.length_append, List.length_cons, List.length_cons, List.length_take,
      Nat.min_eq_left hle]
    omega

/-! ## which buffers are accepted -/

/-- what `check_ielen` asks of an element -/
def VendorOk (e : Elem) : Prop := e.id = eidVendorSpecific → 3 ≤ e.body.length

/-- the rest of the buffer is checked -/
theorem checkIelenLoop_spec (n : Nat) (pre rest : List UInt8) (hn : rest.length < n) :
    ∃ ok, checkIelenLoop (pre ++ rest) n pre.length rest.length = some ok
      ∧ (ok = true ↔ IsList elems VendorOk rest) := by
  induction n generalizing pre rest with
  | zero => exact absurd hn (Nat.not_lt_zero _)
  | succ n ih =>
    match rest with
    | [] => exact ⟨true, rfl, iff_of_true rfl isList_nil⟩
    | [x] => exact ⟨false, rfl, iff_of_false Bool.false_ne_true (not_isList rfl (List.cons_ne_nil _ _))⟩
    | id :: elen :: rest =>
      simp only [List.length_cons] at hn ⊢
      have hleft : (2 : Int) ≤ ((rest.length + 1 + 1 : Nat) : Int) := by omega
      unfold checkIelenLoop
      rw [if_pos hleft, getElem?_id, getElem?_elen]
      dsimp only [Option.bind_eq_bind, Option.bind_some]
      by_cases hlt : rest.length < elen.toNat
      · rw [if_pos (by omega)]
        refine ⟨false, rfl, iff_of_false Bool.false_ne_true ?_⟩
        exact not_isList (cut_cons_of_lt hlt) (List.cons_ne_nil _ _)
      · have hle : elen.toNat ≤ rest.length := Nat.not_lt.mp hlt
        obtain ⟨e, hcut, rfl, hbody⟩ := cut_cons_of_le id hle
        rw [if_neg (by omega)]
        by_cases hv : e.id = eidVendorSpecific ∧ elen.toNat < 3
        · rw [if_pos hv]
          refine ⟨false, rfl, iff_of_false Bool.false_ne_true ?_⟩
          rw [isList_cut hcut]
          intro h
          have := h.1 hv.1
          omega
        · rw [if_neg hv]
          obtain ⟨pre', hsplit, hlen⟩ := split_elem pre e.id hle
          obtain ⟨ok, hok, hiff⟩ := ih pre' (rest.drop elen.toNat) (by
            rw [List.length_drop]
            omega)
          refine ⟨ok, ?_, ?_⟩
          · rw [hsplit, ← hlen, ← hok, List.length_drop]
            congr 1
            omega
          · rw [hiff, isList_cut hcut]
            refine (and_iff_right ?_).symm
            intro hid
            rw [hbody]
            exact Nat.not_lt.mp fun h3 => hv ⟨hid, h3⟩

/-- a vendor specific element is looked at inside its body only -/
theorem vendorFieldOf_some {pos elen : Nat} (h : pos + elen ≤ b.length) :
    ∃ f, vendorFieldOf b pos elen = some f := by
  unfold vendorFieldOf
  split
  · exact ⟨_, rfl⟩
  · have h3 : pos + 3 < b.length := by omega
    rw [readBytes_some (by omega), List.getElem?_eq_getElem h3]
    dsimp only [Option.bind_eq_bind, Option.bind_some]
    split
    · split
      · exact ⟨_, rfl⟩
      · split
        · exact ⟨_, rfl⟩
        · have h4 : pos + 4 < b.length := by omega
          rw [List.getElem?_eq_getElem h4]
          dsimp only [Option.bind_some]
          split <;> exact ⟨_, rfl⟩
      · exact ⟨_, rfl⟩
      · exact ⟨_, rfl⟩
    · split
      · split <;> exact ⟨_, rfl⟩
      · exact ⟨_, rfl⟩

theorem fieldOf_eq_some {f : Field} : fieldOf id = some f ↔ id = f.id := by
  constructor
  · intro h
    have hid := List.find?_some (p := fun f : Field => f.id == id) (l := Field.list) h
    exact (beq_iff_eq.mp hid).symm
  · rintro rfl
    cases f <;> decide

theorem fieldId_ne (f : Field) : f.id ≠ eidVendorSpecific := by cases f <;> decide

/-- one element fills the field of its id and leaves the others -/
theorem parseElem_spec {pos elen : Nat} (e : ElemPtrs) (id : UInt8) (h : pos + elen ≤ b.length) :
    ∃ e' u, parseElem b e id pos elen = some (e', u)
      ∧ ∀ f : Field, e'.field f = if id = f.id then some (pos, elen) else e.field f := by
  unfold parseElem
  split
  · rename_i hid
    obtain ⟨vf, hvf⟩ := vendorFieldOf_some h
    rw [hvf]
    have hother : ∀ f : Field, id ≠ f.id := fun f hf => fieldId_ne f (hf.symm.trans hid)
    cases vf with
    | none => exact ⟨_, _, rfl, fun f => (if_neg (hother f)).symm⟩
    | some vf => exact ⟨_, _, rfl, fun f => (if_neg (hother f)).symm⟩
  · split
    · rename_i g hg
      refine ⟨_, _, rfl, fun f => ?_⟩
      show Function.update e.field g (some (pos, elen)) f = _
      rw [fieldOf_eq_some] at hg
      by_cases hf : f = g
      · subst hf
        rw [Function.update_self, if_pos hg]
      · rw [Function.update_of_ne hf, if_neg]
        rintro rfl
        exact hf (by rw [← Option.some.injEq, ← fieldOf_eq_some.mpr rfl, fieldOf_eq_some.mpr hg])
    · rename_i hnone
      refine ⟨_, _, rfl, fun f => (if_neg ?_).symm⟩
      intro hf
      rw [fieldOf_eq_some.mpr hf] at hnone
      cases hnone

/-- the rest of the buffer is parsed -/
theorem parseElemsLoop_spec (n : Nat) (pre rest : List UInt8) (u : Nat) (e : ElemPtrs)
    (hn : rest.length < n) :
    ∃ res e', parseElemsLoop (pre ++ rest) n pre.length rest.length u e = some (res, e')
      ∧ (res ≠ .failed ↔ IsList elems (fun _ => True) rest) := by
  induction n generalizing pre rest u e with
  | zero => exact absurd hn (Nat.not_lt_zero _)
  | succ n ih =>
    match rest with
    | [] =>
      refine ⟨_, _, rfl, iff_of_true ?_ isList_nil⟩
      split <;> exact ParseRes.noConfusion
    | [x] => exact ⟨_, _, rfl, iff_of_false (fun h => h rfl) (not_isList rfl (List.cons_ne_nil _ _))⟩
    | id :: elen :: rest =>
      simp only [List.length_cons] at hn ⊢
      unfold parseElemsLoop
      rw [if_pos (Nat.le_add_left ..), getElem?_id, getElem?_elen]
      dsimp only [Option.bind_eq_bind, Option.bind_some]
      by_cases hlt : rest.length < elen.toNat
      · rw [if_pos (by omega)]
        refine ⟨_, _, rfl, iff_of_false (fun h => h rfl) ?_⟩
        exact not_isList (cut_cons_of_lt hlt) (List.cons_ne_nil _ _)
      · have hle : elen.toNat ≤ rest.length := Nat.not_lt.mp hlt
        obtain ⟨el, hcut, -, -⟩ := cut_cons_of_le id hle
        obtain ⟨pre', hsplit, hlen⟩ := split_elem pre id hle
        have hin : pre.length + 2 + elen.toNat ≤ (pre ++ id :: elen :: rest).length := by
          rw [List.length_append, List.length_cons, List.length_cons]
          omega
        obtain ⟨e1, u1, he1, -⟩ := parseElem_spec e id hin
        rw [if_neg (by omega), he1]
        dsimp only [Option.bind_some]
        obtain ⟨res, e', hres, hiff⟩ := ih pre' (rest.drop elen.toNat)
          (u + if u1 = true then 1 else 0) e1 (by
            rw [List.length_drop]
            omega)
        refine ⟨res, e', ?_, ?_⟩
        · rw [hsplit, ← hlen, ← hres, List.length_drop]
          congr 1
        · rw [hiff, isList_cut hcut]
          exact (and_iff_right trivial).symm

/-! ## complete lists -/

/-- the buffer, cut behind the element `e` -/
theorem split_all (pre : List UInt8) (e : Elem) (rs : List Elem) :
    pre ++ all elems (e :: rs) = (pre ++ e.bytes) ++ all elems rs :=
  (List.append_assoc ..).symm

theorem length_pre (pre : List UInt8) (e : Elem) :
    (pre ++ e.bytes).length = pre.length + (e.body.length + 2) := by
  rw [List.length_append, Elem.length_bytes]

theorem length_all_cons (e : Elem) (rs : List Elem) :
    (all elems (e :: rs)).length = e.body.length + 2 + (all elems rs).length := by
  rw [all_cons, List.length_append]
  rfl

/-- the bytes of a list of elements and a rest, with the head of the first element written out -/
theorem all_cons_append (e : Elem) (rs : List Elem) (t : List UInt8) :
    all elems (e :: rs) ++ t
      = e.id :: UInt8.ofNat e.body.length :: (e.body ++ (all elems rs ++ t)) := by
  rw [all_cons_eq, List.cons_append, List.cons_append, List.append_assoc]

theorem split_all_append (pre : List UInt8) (e : Elem) (rs : List Elem) (t : List UInt8) :
    pre ++ (all elems (e :: rs) ++ t) = (pre ++ e.bytes) ++ (all elems rs ++ t) := by
  rw [all_cons, List.append_assoc, List.append_assoc]
  rfl

/-! ## what `rtw_get_ie` finds -/

/-- a rest that is no element is one byte, or a header with too few bytes behind it -/
theorem cut_eq_none (h : elems.cut t = none) (hne : t ≠ []) :
    (∃ x, t = [x]) ∨ ∃ id elen rest, t = id :: elen :: rest ∧ rest.length < elen.toNat := by
  match t with
  | [] => exact absurd rfl hne
  | [x] => exact Or.inl ⟨x, rfl⟩
  | id :: elen :: rest =>
    refine Or.inr ⟨id, elen, rest, rfl, ?_⟩
    by_contra hle
    obtain ⟨e, hcut, -, -⟩ := cut_cons_of_le id (Nat.not_lt.mp hle)
    rw [hcut] at h
    cases h

/-- the rest behind the complete elements: nothing, one byte, or a header -/
def tailFound (index : Int) (o : Nat) : List UInt8 → Option (Option (Nat × Nat))
  | [] => some none
  | [_] => none
  | id :: elen :: _ => if (id.toNat : Int) = index then some (some (o, elen.toNat)) else some none

/-- the first element with the id, or the rest -/
def found (index : Int) (rs : List Elem) (t : List UInt8) : Option (Option (Nat × Nat)) :=
  match first elems (Elem.hasIndex index) rs with
  | some (o, e) => some (some (o, e.body.length))
  | none => tailFound index (all elems rs).length t

theorem tailFound_add (o k : Nat) :
    tailFound index (o + k) t = (tailFound index k t).map (Option.map fun x => (o + x.1, x.2)) := by
  match t with
  | [] => rfl
  | [_] => rfl
  | id :: elen :: _ =>
    by_cases hid : (id.toNat : Int) = index
    · simp [tailFound, hid]
    · simp [tailFound, hid]

theorem found_cons_of_pos (h : e.hasIndex index = true) :
    found index (e :: rs) t = some (some (0, e.body.length)) := by
  unfold found
  rw [first_cons_of_pos h]

theorem found_cons_of_neg (h : e.hasIndex index = false) : found index (e :: rs) t
    = (found index rs t).map (Option.map fun x => (e.body.length + 2 + x.1, x.2)) := by
  unfold found
  rw [first_cons_of_neg h]
  cases hf : first elems (Elem.hasIndex index) rs with
  | none =>
    rw [Option.map_none]
    dsimp only
    rw [length_all_cons, tailFound_add]
  | some x => rfl

theorem getIeLoop_found (index : Int) (n : Nat) (pre : List UInt8) (rs : List Elem) (ht : elems.cut t = none)
    (hne : all elems rs ++ t ≠ []) (hn : (all elems rs ++ t).length ≤ n) :
    getIeLoop (pre ++ (all elems rs ++ t)) index (pre ++ (all elems rs ++ t)).length n pre.length
        pre.length
      = (found index rs t).map (Option.map fun x => (pre.length + x.1, x.2)) := by
  induction n generalizing pre rs with
  | zero =>
    have := List.length_pos_iff.mpr hne
    omega
  | succ n ih =>
    unfold getIeLoop
    cases rs with
    | nil =>
      rw [all_nil, List.nil_append] at hne ⊢
      rcases cut_eq_none ht hne with ⟨x, rfl⟩ | ⟨id, elen, rest, rfl, hlt⟩
      · have h1 : (pre ++ [x])[pre.length + 1]? = none := getElem?_pre pre [x] 1
        rw [h1]
        cases (pre ++ [x])[pre.length]? <;> rfl
      · have hlen : (pre ++ id :: elen :: rest).length = pre.length + (rest.length + 2) := List.length_append
        rw [getElem?_id, getElem?_elen]
        dsimp only [Option.bind_eq_bind, Option.bind_some]
        unfold found tailFound
        by_cases hid : (id.toNat : Int) = index
        · rw [if_pos hid]
          simp [first, hid]
        · rw [if_neg hid, if_pos (by omega)]
          simp [first, hid]
    | cons e rs =>
      have hsplit := split_all_append pre e rs t
      have hlen : (pre ++ (all elems (e :: rs) ++ t)).length
          = pre.length + (e.body.length + 2) + (all elems rs ++ t).length := by
        rw [hsplit, List.length_append, length_pre]
      rw [all_cons_append e rs t, getElem?_id, getElem?_elen, ← all_cons_append e rs t]
      dsimp only [Option.bind_eq_bind, Option.bind_some]
      rw [Elem.toNat_elen]
      by_cases hid : (e.id.toNat : Int) = index
      · rw [if_pos hid, found_cons_of_pos (Elem.hasIndex_iff.mpr hid)]
        rfl
      · have hno : e.hasIndex index = false := Bool.eq_false_iff.mpr (mt Elem.hasIndex_iff.mp hid)
        rw [if_neg hid, found_cons_of_neg hno]
        by_cases hnil : all elems rs ++ t = []
        · obtain ⟨hrs, rfl⟩ := List.append_eq_nil_iff.mp hnil
          have hrs : rs = [] := all_injective hrs
          rw [if_pos (by rw [hlen, hnil]; simp only [List.length_nil]; omega), hrs]
          rfl
        · have hpos := List.length_pos_iff.mpr hnil
          rw [if_neg (by omega)]
          have h := ih (pre ++ e.bytes) rs hnil (by rw [List.length_append] at hlen; omega)
          rw [← hsplit, length_pre] at h
          have hint : ((pre.length + (e.body.length + 2) : Nat) : Int) = pre.length + (e.body.length + 2) := by
            omega
          rw [hint] at h
          rw [h, Option.map_map]
          congr 1
          funext x
          cases x with
          | none => rfl
          | some x => simp [Nat.add_assoc]

/-- **The element that is found**, in any bytes. -/
theorem rtwGetIe_found {l : List UInt8} (hall : all elems rs ++ t = l) (hcut : elems.cut t = none) (index : Int) :
    rtwGetIe l index l.length = found index rs t := by
  unfold rtwGetIe
  by_cases hnil : l = []
  · rw [hnil] at hall ⊢
    obtain ⟨hrs, rfl⟩ := List.append_eq_nil_iff.mp hall
    have hrs : rs = [] := all_injective hrs
    rw [if_pos (by decide), hrs]
    rfl
  · have hpos := List.length_pos_iff.mpr hnil
    have h := getIeLoop_found index l.length [] rs hcut (hall ▸ hnil) (hall ▸ Nat.le_refl _)
    rw [List.nil_append, hall] at h
    rw [if_neg (by omega), Int.toNat_natCast]
    refine h.trans ?_
    cases found index rs t with
    | none => rfl
    | some r => cases r <;> simp

/-- in a complete list there is only an element to find -/
theorem found_nil (index : Int) (rs : List Elem) : found index rs []
    = some ((first elems (Elem.hasIndex index) rs).map fun x => (x.1, x.2.body.length)) := by
  unfold found
  cases first elems (Elem.hasIndex index) rs <;> rfl

/-- `rtw_get_ie_ex` without an OUI -/
theorem getIeExLoop_all (eid : UInt8) (n : Nat) (pre : List UInt8) (rs : List Elem)
    (hn : (all elems rs).length < n) :
    getIeExLoop (pre ++ all elems rs) (pre ++ all elems rs).length eid none n pre.length
      = some ((first elems (Elem.hasId eid) rs).map fun x =>
          (pre.length + x.1, x.2.bytes)) := by
  induction n generalizing pre rs with
  | zero => exact absurd hn (Nat.not_lt_zero _)
  | succ n ih =>
    unfold getIeExLoop
    cases rs with
    | nil =>
      rw [all_nil, List.append_nil, if_neg (Nat.lt_irrefl _)]
      rfl
    | cons e rs =>
      rw [length_all_cons] at hn
      have hlen := length_all_cons e rs
      rw [if_pos (by rw [List.length_append]; omega), all_cons_eq, getElem?_id, getElem?_elen]
      dsimp only [Option.bind_eq_bind, Option.bind_some]
      rw [Elem.toNat_elen]
      by_cases hid : e.id = eid
      · rw [if_neg (by rw [hid]; exact not_not.mpr rfl), first_cons_of_pos (Elem.hasId_iff.mpr hid)]
        rw [if_pos rfl, ← all_cons_eq, readBytes_some]
        · dsimp only [Option.bind_some, Option.map_some]
          rw [List.drop_left' rfl, all_cons]
          exact congrArg (fun l => some (some (pre.length, l))) (List.take_left' rfl)
        · rw [List.length_append]
          omega
      · have hno := Bool.eq_false_iff.mpr (mt Elem.hasId_iff.mp hid)
        rw [if_pos (Ne.symm hid), first_cons_of_neg hno]
        rw [if_neg Bool.false_ne_true, ← all_cons_eq, split_all, ← length_pre,
          ih (pre ++ e.bytes) rs (by omega), Option.map_map, length_pre]
        congr 2
        funext x
        show (pre.length + (e.body.length + 2) + x.1, _) = (pre.length + (e.bytes.length + x.1), _)
        rw [Elem.length_bytes, Nat.add_assoc pre.length]

/-- a field points at the last element of its id, or still at what it did before -/
theorem parseElemsLoop_all (n : Nat) (pre : List UInt8) (rs : List Elem) (u : Nat) (e : ElemPtrs)
    (hn : (all elems rs).length < n) :
    ∃ res e', parseElemsLoop (pre ++ all elems rs) n pre.length (all elems rs).length u e
        = some (res, e')
      ∧ ∀ f : Field, e'.field f =
          match last elems (Elem.hasId f.id) rs with
          | some x => some (pre.length + x.1 + 2, x.2.body.length)
          | none => e.field f := by
  induction n generalizing pre rs u e with
  | zero => exact absurd hn (Nat.not_lt_zero _)
  | succ n ih =>
    cases rs with
    | nil => exact ⟨_, e, rfl, fun f => rfl⟩
    | cons el rs =>
      rw [length_all_cons] at hn ⊢
      unfold parseElemsLoop
      rw [if_pos (by omega), all_cons_eq, getElem?_id, getElem?_elen]
      dsimp only [Option.bind_eq_bind, Option.bind_some]
      rw [Elem.toNat_elen, if_neg (by omega), ← all_cons_eq]
      have hin : pre.length + 2 + el.body.length ≤ (pre ++ all elems (el :: rs)).length := by
        rw [List.length_append, length_all_cons]
        omega
      obtain ⟨e1, u1, he1, hf1⟩ := parseElem_spec e el.id hin
      rw [he1]
      dsimp only [Option.bind_some]
      obtain ⟨res, e', hres, hf⟩ := ih (pre ++ el.bytes) rs (u + if u1 = true then 1 else 0) e1
        (by omega)
      refine ⟨res, e', ?_, ?_⟩
      · rw [split_all, ← hres, length_pre]
        congr 1
        · omega
        · omega
      · intro f
        rw [hf f, last]
        cases last elems (Elem.hasId f.id) rs with
        | some x =>
          show some ((pre ++ el.bytes).length + x.1 + 2, _)
            = some (pre.length + (el.bytes.length + x.1) + 2, _)
          rw [length_pre, Elem.length_bytes, Nat.add_assoc pre.length]
        | none =>
          dsimp only
          rw [hf1 f]
          by_cases hid : el.id = f.id
          · rw [if_pos hid, if_pos (Elem.hasId_iff.mpr hid)]
            rfl
          · rw [if_neg hid, if_neg (mt Elem.hasId_iff.mp hid)]

end Walk

/-- **The four walkers read the same elements.** -/
theorem walkers_agree (b : Bytes) :
    (∃ ok, Walk.checkIelen b.val b.val.length = some ok
        ∧ (ok = true ↔ IsList elems Walk.VendorOk b.val))
      ∧ (∃ res e, Walk.rtwIeee80211ParseElems b.val b.val.length = some (res, e)
        ∧ (res ≠ .failed ↔ IsList elems (fun _ => True) b.val)
        ∧ ∀ rs, all elems rs = b.val → ∀ f : Walk.Field,
            e.field f = (last elems (Elem.hasId f.id) rs).map fun x =>
              (x.1 + 2, x.2.body.length))
      ∧ ∀ rs, all elems rs = b.val →
          (∀ index : Int, Walk.rtwGetIe b.val index (sintOfUint b.val.length)
            = some ((first elems (Elem.hasIndex index) rs).map fun x =>
                (x.1, x.2.body.length)))
          ∧ ∀ eid, Walk.rtwGetIeEx b.val b.val.length eid none
            = some ((first elems (Elem.hasId eid) rs).map fun x => (x.1, x.2.bytes)) := by
  refine ⟨?_, ?_, ?_⟩
  · obtain ⟨ok, hok, hiff⟩ := Walk.checkIelenLoop_spec _ [] b.val (Nat.lt_succ_self _)
    refine ⟨ok, ?_, hiff⟩
    rw [Walk.checkIelen, sintOfUint_length]
    exact hok
  · obtain ⟨res, e, hres, hiff⟩ := Walk.parseElemsLoop_spec _ [] b.val 0 {} (Nat.lt_succ_self _)
    refine ⟨res, e, hres, hiff, ?_⟩
    rintro rs hrs f
    have hn : (all elems rs).length < b.val.length + 1 := by
      rw [hrs]
      exact Nat.lt_succ_self _
    obtain ⟨res', e', hres', hf⟩ := Walk.parseElemsLoop_all _ [] rs 0 {} hn
    rw [hrs] at hres'
    cases hres.symm.trans hres'
    rw [hf f]
    cases last elems (Elem.hasId f.id) rs with
    | none => rfl
    | some x =>
      show some (0 + x.1 + 2, _) = some (x.1 + 2, _)
      rw [Nat.zero_add]
  · rintro rs hrs
    have hzero : ∀ k : Nat, ([] : List UInt8).length + k = k := Nat.zero_add
    constructor
    · intro index
      rw [sintOfUint_length, Walk.rtwGetIe_found ((List.append_nil _).trans hrs) rfl index, Walk.found_nil]
    · intro eid
      rw [Walk.rtwGetIeEx]
      by_cases hnil : b.val.length = 0
      · rw [if_pos hnil]
        have : rs = [] := all_injective (hrs.trans (List.length_eq_zero_iff.mp hnil))
        rw [this]
        rfl
      · have h := Walk.getIeExLoop_all eid (b.val.length + 1) [] rs (by rw [hrs]; omega)
        rw [List.nil_append, hrs] at h
        rw [if_neg hnil]
        refine h.trans ?_
        simp only [hzero]

end Rtl8192eu
