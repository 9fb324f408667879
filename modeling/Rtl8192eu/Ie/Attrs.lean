import Rtl8192eu.Lib.Tlv
import Rtl8192eu.Ie.Elems
import Rtl8192eu.Ie.VendorDelete

/-!
# Attributes of vendor elements

`rtw_get_wps_attr`, `rtw_get_p2p_attr` and `rtw_get_wfd_attr`.  The size of an attribute is computed
in a `u16`, so that an attribute of 2^16 bytes or more is one of 0 to 3 bytes; the first function does
not look whether an attribute fits.

* `wpsHdr`, `p2pHdr`, `wfdHdr`   the headers of the attributes;
* `rtwGetWpsAttr`, `rtwGetP2pAttr`, `rtwGetWfdAttr`, and the two content helpers;
* `AttrsOk`   what the lookups can be given;
* `attr_lookup_iff`   they are safe on this and on nothing else.
-/

namespace Rtl8192eu

open Records

/-- `RTW_GET_BE16` -/
def getBe16 (l : List UInt8) : Nat := 256 * (l.getD 0 0).toNat + (l.getD 1 0).toNat

def putBe16 (n : Nat) : List UInt8 := [UInt8.ofNat (n / 256), UInt8.ofNat n]

def putLe16 (n : Nat) : List UInt8 := [UInt8.ofNat n, UInt8.ofNat (n / 256)]

namespace Attr

theorem getBe16_lt (l : List UInt8) : getBe16 l < 65536 := by
  have h0 := (l.getD 0 0).toNat_lt
  have h1 := (l.getD 1 0).toNat_lt
  unfold getBe16
  omega

theorem getLe16_lt (l : List UInt8) : getLe16 l < 65536 := by
  have h0 := (l.getD 0 0).toNat_lt
  have h1 := (l.getD 1 0).toNat_lt
  unfold getLe16
  omega

theorem getBe16_put {n : Nat} (h : n < 65536) (l : List UInt8) : getBe16 (putBe16 n ++ l) = n := by
  show 256 * (UInt8.ofNat (n / 256)).toNat + (UInt8.ofNat n).toNat = n
  rw [UInt8.toNat_ofNat', UInt8.toNat_ofNat']
  omega

theorem getLe16_put {n : Nat} (h : n < 65536) (l : List UInt8) : getLe16 (putLe16 n ++ l) = n := by
  show (UInt8.ofNat n).toNat + 256 * (UInt8.ofNat (n / 256)).toNat = n
  rw [UInt8.toNat_ofNat', UInt8.toNat_ofNat']
  omega

theorem ofNat_high (x y : UInt8) : UInt8.ofNat ((256 * x.toNat + y.toNat) / 256) = x := by
  have hx := x.toNat_lt
  have hy := y.toNat_lt
  apply UInt8.toNat_inj.mp
  rw [UInt8.toNat_ofNat']
  omega

theorem ofNat_low (x y : UInt8) : UInt8.ofNat (256 * x.toNat + y.toNat) = y := by
  have hy := y.toNat_lt
  apply UInt8.toNat_inj.mp
  rw [UInt8.toNat_ofNat']
  omega

theorem putBe16_get (x y : UInt8) (l : List UInt8) : putBe16 (getBe16 (x :: y :: l)) = [x, y] := by
  show [UInt8.ofNat ((256 * x.toNat + y.toNat) / 256), UInt8.ofNat (256 * x.toNat + y.toNat)] = _
  rw [ofNat_high, ofNat_low]

theorem putLe16_get (x y : UInt8) (l : List UInt8) : putLe16 (getLe16 (x :: y :: l)) = [x, y] := by
  show [UInt8.ofNat (x.toNat + 256 * y.toNat), UInt8.ofNat ((x.toNat + 256 * y.toNat) / 256)] = _
  rw [Nat.add_comm, ofNat_high, ofNat_low]

/-- `2(Attribute ID) + 2(Length)` -/
def wpsHdr : Header UInt16 UInt8 where
  size := 4
  max := 65536
  put id n := putBe16 id.toNat ++ putBe16 n
  take l := (UInt16.ofNat (getBe16 l), getBe16 (l.drop 2))
  size_pos := Nat.succ_pos _
  length_put _ _ := rfl
  take_put id n l h := by
    rw [List.append_assoc, getBe16_put id.toNat_lt, UInt16.ofNat_toNat]
    show (id, getBe16 (putBe16 n ++ l)) = _
    rw [getBe16_put h]
  put_take l h := by
    match l, h with
    | a :: b :: c :: d :: rest, _ =>
      have hid : (UInt16.ofNat (getBe16 (a :: b :: c :: d :: rest))).toNat
          = getBe16 (a :: b :: c :: d :: rest) := UInt16.toNat_ofNat_of_lt' (getBe16_lt _)
      dsimp only
      rw [hid, putBe16_get]
      show [a, b] ++ putBe16 (getBe16 (c :: d :: rest)) ++ rest = _
      rw [putBe16_get]
      rfl
  take_lt l := getBe16_lt _

/-- `1(Attribute ID) + 2(Length)`, little-endian -/
def p2pHdr : Header UInt8 UInt8 where
  size := 3
  max := 65536
  put id n := id :: putLe16 n
  take l := (l.getD 0 0, getLe16 (l.drop 1))
  size_pos := Nat.succ_pos _
  length_put _ _ := rfl
  take_put id n l h := by
    show (id, getLe16 (putLe16 n ++ l)) = _
    rw [getLe16_put h]
  put_take l h := by
    match l, h with
    | a :: b :: c :: rest, _ =>
      show a :: putLe16 (getLe16 (b :: c :: rest)) ++ rest = _
      rw [putLe16_get]
      rfl
  take_lt l := getLe16_lt _

/-- the same, big-endian -/
def wfdHdr : Header UInt8 UInt8 where
  size := 3
  max := 65536
  put id n := id :: putBe16 n
  take l := (l.getD 0 0, getBe16 (l.drop 1))
  size_pos := Nat.succ_pos _
  length_put _ _ := rfl
  take_put id n l h := by
    show (id, getBe16 (putBe16 n ++ l)) = _
    rw [getBe16_put h]
  put_take l h := by
    match l, h with
    | a :: b :: c :: rest, _ =>
      show a :: putBe16 (getBe16 (b :: c :: rest)) ++ rest = _
      rw [putBe16_get]
      rfl
  take_lt l := getBe16_lt _

/-! ## the loops -/

/-- how a lookup ends: behind the buffer, with `NULL`, or with an attribute and `*len_attr` -/
inductive AttrRes where
  | outside
  | nothing
  | found (pos len : Nat)

/-- `none`: still running -/
def scan (step : Nat → Look) : Nat → Nat → Option AttrRes
  | 0, _ => none
  | n + 1, pos =>
    match step pos with
    | .outside => some .outside
    | .done => some .nothing
    | .hit len => some (.found pos len)
    | .next len => scan step n (pos + len)

/-- one round of `rtw_get_wps_attr`; `buf` says whether `buf_attr` is not `NULL` -/
def wpsAt (b : List UInt8) (target : UInt16) (buf : Bool) (pos : Nat) : Look :=
  if pos < b.length then
    match Walk.readBytes b pos 4 with
    | none => .outside
    | some attr =>
      let attrId := (wpsHdr.take attr).1
      let attrDataLen := (wpsHdr.take attr).2
      let attrLen := (attrDataLen + 4) % 65536
      if attrId = target then
        if buf ∧ b.length < pos + attrLen then .outside else .hit attrLen
      else .next attrLen
  else .done

/-- one round of `rtw_get_p2p_attr` and of `rtw_get_wfd_attr`; the copy to `buf_attr` is in the buffer -/
def vendorAt (H : Header UInt8 UInt8) (b : List UInt8) (target : UInt8) (pos : Nat) : Look :=
  if pos + 3 ≤ b.length then
    match Walk.readBytes b pos 3 with
    | none => .outside
    | some attr =>
      let attrId := (H.take attr).1
      let attrDataLen := (H.take attr).2
      let attrLen := (attrDataLen + 3) % 65536
      if b.length < pos + attrLen then .done
      else if attrId = target then .hit attrLen
      else .next attrLen
  else .done

/-- id and OUI are compared first -/
def enter (oui b : List UInt8) (res : Option AttrRes) : Option AttrRes :=
  match b[0]? with
  | none => some .outside
  | some id =>
    if id ≠ Walk.eidVendorSpecific then some .nothing
    else
      match Walk.readBytes b 2 4 with
      | none => some .outside
      | some x => if x ≠ oui then some .nothing else res

def wpsOui : List UInt8 := [0x00, 0x50, 0xf2, 0x04]

def vendorAttr (H : Header UInt8 UInt8) (oui b : List UInt8) (target : UInt8) (n : Nat) :
    Option AttrRes :=
  if b.length ≤ 6 then some .nothing else enter oui b (scan (vendorAt H b target) n 6)

/-- a content helper: behind the buffer, `NULL`, or the content with `*len_content` and the number of
bytes that are copied -/
inductive ContentRes where
  | outside
  | nothing
  | content (pos : Nat) (len : Option Nat) (copied : Nat)

/-- `attr_len - hdr` is a `u32`; `lenContent` is `none` for `NULL` -/
def contentOf (hdr : Nat) (b : List UInt8) (buf : Bool) (lenContent : Option Nat) :
    AttrRes → ContentRes
  | .outside => .outside
  | .nothing => .nothing
  | .found pos attrLen =>
    if attrLen = 0 then .nothing
    else
      let dataLen := (attrLen + 2 ^ 32 - hdr) % 2 ^ 32
      let len := lenContent.map fun l => if buf ∧ dataLen < l ∨ ¬ buf then dataLen else l
      let copied := if buf then len.getD 1 else 0
      if b.length < pos + hdr + copied then .outside else .content (pos + hdr) len copied

end Attr

open Attr

/-- the element is all of `b`; `n` bounds the rounds -/
def rtwGetWpsAttr (b : List UInt8) (target : UInt16) (buf : Bool) (n : Nat) : Option AttrRes :=
  enter wpsOui b (scan (wpsAt b target buf) n 6)

def rtwGetWpsAttrContent (b : List UInt8) (target : UInt16) (buf : Bool) (lenContent : Option Nat)
    (n : Nat) : Option ContentRes :=
  (rtwGetWpsAttr b target false n).map (contentOf 4 b buf lenContent)

def rtwGetP2pAttr (b : List UInt8) (target : UInt8) (n : Nat) : Option AttrRes :=
  vendorAttr p2pHdr p2pOui b target n

def rtwGetP2pAttrContent (b : List UInt8) (target : UInt8) (buf : Bool) (lenContent : Option Nat)
    (n : Nat) : Option ContentRes :=
  (rtwGetP2pAttr b target n).map (contentOf 3 b buf lenContent)

def rtwGetWfdAttr (b : List UInt8) (target : UInt8) (n : Nat) : Option AttrRes :=
  vendorAttr wfdHdr wfdOui b target n

namespace Attr

/-! ## what is asked of them -/

variable {ι : Type} [DecidableEq ι]

abbrev Attrs (H : Header ι UInt8) := List (Tlv ι UInt8 H.max)

/-- the first complete attribute with the id, with its offset in the element -/
def firstAttr (H : Header ι UInt8) (b : List UInt8) (target : ι) : Option (Nat × Tlv ι UInt8 H.max) :=
  (first H.format (fun e => decide (e.id = target)) (pieces H.format (b.drop 6)).1).map
    fun x => (6 + x.1, x.2)

/-- nothing, or the first attribute with the id, which is in the buffer -/
def IsFirst (H : Header ι UInt8) (b : List UInt8) (target : ι) : AttrRes → Prop
  | .outside => False
  | .nothing => True
  | .found pos len => pos + len ≤ b.length
      ∧ ∃ e, firstAttr H b target = some (pos, e) ∧ len = (H.bytes e).length

/-- no more than the body of the attribute is reported or copied -/
def InBody (H : Header ι UInt8) (b : List UInt8) (target : ι) : ContentRes → Prop
  | .outside => False
  | .nothing => True
  | .content pos len copied => ∃ p e, firstAttr H b target = some (p, e) ∧ pos = p + H.size
      ∧ (∀ l ∈ len, l ≤ e.body.length) ∧ copied ≤ e.body.length

/-- the lookup ends, with a result that is right -/
def Returns {α : Type} (f : Nat → Option α) (good : α → Prop) : Prop := ∃ n r, f n = some r ∧ good r

/-! ## what they can be given -/

/-- the rounds, on the text from `attr_ptr` on -/
def look (H : Header ι UInt8) (checked : Bool) (target : ι) (u : List UInt8) : Look :=
  if u.length < H.size then (if checked ∨ u = [] then .done else .outside)
  else
    let attrLen := H.extent u % 65536
    if checked ∧ u.length < attrLen then .done
    else if (H.take u).1 = target then .hit attrLen
    else .next attrLen

/-- the size of the attribute is right, and so is the one byte that is copied without `len_content` -/
def Fit (H : Header ι UInt8) (oneByte : Bool) (e : Tlv ι UInt8 H.max) : Prop :=
  (H.bytes e).length < 65536 ∧ (oneByte → e.body ≠ [])

instance (H : Header ι UInt8) (oneByte : Bool) (e : Tlv ι UInt8 H.max) : Decidable (Fit H oneByte e) :=
  inferInstanceAs (Decidable (_ ∧ _))

/-- the text from the first attribute with the id on, if it is fit -/
def goal (H : Header ι UInt8) (oneByte : Bool) (target : ι) : Attrs H → List UInt8 → Option (List UInt8)
  | [], _ => none
  | e :: es, t =>
    if e.id = target then
      if Fit H oneByte e then some (all H.format (e :: es) ++ t) else none
    else goal H oneByte target es t

/-- behind the last complete attribute there is no header, or the header of an attribute that is not
looked for and does not fit.  An attribute of 2^16 bytes or more is left in its middle -/
def RestOk (H : Header ι UInt8) (checked : Bool) (target : ι) (t : List UInt8) : Prop :=
  if t.length < H.size then checked ∨ t = []
  else if H.extent t < 65536 then checked ∨ (H.take t).1 ≠ target
  else (H.take t).1 ≠ target ∧ Leads (look H checked target) none (t.drop (H.extent t - 65536))

/-- the attributes before the one that is looked for have less than 2^16 bytes, and it is fit; where one
has more, the bytes in its middle must lead to the end, or back -/
def AttrsOk (H : Header ι UInt8) (checked oneByte : Bool) (target : ι) :
    Attrs H → List UInt8 → Prop
  | [], t => RestOk H checked target t
  | e :: es, t =>
    if e.id = target then Fit H oneByte e
    else if (H.bytes e).length < 65536 then AttrsOk H checked oneByte target es t
    else Leads (look H checked target) (goal H oneByte target es t)
      ((all H.format (e :: es) ++ t).drop ((H.bytes e).length - 65536))

variable {H : Header ι UInt8} {checked oneByte : Bool} {target : ι} {es : Attrs H} {t u b : List UInt8}
  {e : Tlv ι UInt8 H.max} {step : Nat → Look} {v : Option (List UInt8)} {n pos : Nat} {r : AttrRes}

/-! ## the reader -/

theorem look_bytes (e : Tlv ι UInt8 H.max) (u : List UInt8) :
    look H checked target (H.bytes e ++ u)
      = if e.id = target then .hit ((H.bytes e).length % 65536) else .next ((H.bytes e).length % 65536) := by
  have hlen := H.length_bytes e
  have hsize : ¬ (H.bytes e ++ u).length < H.size := by
    rw [List.length_append]
    omega
  have hfit : ¬ (checked ∧ (H.bytes e ++ u).length < (H.bytes e).length % 65536) := by
    rw [List.length_append]
    rintro ⟨-, h⟩
    have := Nat.mod_le (H.bytes e).length 65536
    omega
  rw [look, if_neg hsize]
  dsimp only
  rw [H.extent_bytes, if_neg hfit, H.take_bytes]

omit [DecidableEq ι] in
theorem all_cons_text (e : Tlv ι UInt8 H.max) (es : Attrs H) (t : List UInt8) :
    all H.format (e :: es) ++ t = H.bytes e ++ (all H.format es ++ t) := by
  rw [all_cons, List.append_assoc]
  rfl

omit [DecidableEq ι] in
/-- the size wraps once at most -/
theorem extent_lt (H : Header ι UInt8) (hsize : H.size < 65536) (hmax : H.max = 65536) (u : List UInt8) :
    H.extent u < 2 * 65536 := by
  have := H.take_lt u
  unfold Header.extent
  omega

section
variable (hsize : H.size < 65536) (hmax : H.max = 65536)
include hsize hmax

theorem leads_rest (ht : H.format.cut t = none) :
    Leads (look H checked target) none t ↔ RestOk H checked target t := by
  have hshort := Header.cut_eq_none.mp ht
  have hlt := extent_lt H hsize hmax t
  have hnil : Leads (look H checked target) none [] := by
    refine Leads.done ?_
    have h0 : ([] : List UInt8).length < H.size := H.size_pos
    rw [look, if_pos h0, if_pos (Or.inr rfl)]
  unfold RestOk
  by_cases h : t.length < H.size
  · rw [if_pos h]
    by_cases hc : checked = true ∨ t = []
    · refine iff_of_true (Leads.done ?_) hc
      rw [look, if_pos h, if_pos hc]
    · refine iff_of_false (not_leads_outside ?_) hc
      rw [look, if_pos h, if_neg hc]
  · have hlook : look H checked target t
        = if checked = true ∧ t.length < H.extent t % 65536 then .done
          else if (H.take t).1 = target then .hit (H.extent t % 65536)
          else .next (H.extent t % 65536) := by
      rw [look, if_neg h]
    rw [if_neg h]
    by_cases hw : H.extent t < 65536
    · rw [if_pos hw]
      rw [Nat.mod_eq_of_lt hw] at hlook
      by_cases hc : checked = true
      · rw [if_pos ⟨hc, hshort⟩] at hlook
        exact iff_of_true (Leads.done hlook) (Or.inl hc)
      · rw [if_neg (fun h => hc h.1)] at hlook
        by_cases hid : (H.take t).1 = target
        · rw [if_pos hid] at hlook
          refine iff_of_false ?_ ?_
          · rw [leads_hit hlook]
            exact nofun
          · rintro (h | h)
            · exact hc h
            · exact h hid
        · rw [if_neg hid] at hlook
          refine iff_of_true ?_ (Or.inr hid)
          rw [leads_next hlook, List.drop_of_length_le (Nat.le_of_lt hshort)]
          exact hnil
    · have hmod : H.extent t % 65536 = H.extent t - 65536 := by omega
      have hsmall : H.extent t - 65536 ≤ t.length := by
        have := H.take_lt t
        have hext : H.extent t = H.size + (H.take t).2 := rfl
        omega
      rw [if_neg hw]
      rw [hmod, if_neg (fun h => Nat.not_lt.mpr hsmall h.2)] at hlook
      by_cases hid : (H.take t).1 = target
      · rw [if_pos hid] at hlook
        refine iff_of_false ?_ (fun h => h.1 hid)
        rw [leads_hit hlook]
        exact nofun
      · rw [if_neg hid] at hlook
        rw [leads_next hlook, and_iff_right hid]

/-- **The reader gets through** exactly what the lookups can be given. -/
theorem leads_iff (ht : H.format.cut t = none) (es : Attrs H) :
    Leads (look H checked target) (goal H oneByte target es t) (all H.format es ++ t)
      ↔ AttrsOk H checked oneByte target es t := by
  induction es with
  | nil => exact leads_rest hsize hmax ht
  | cons e es ih =>
    have hlook : look H checked target (H.bytes e ++ (all H.format es ++ t)) = _ := look_bytes e _
    rw [← all_cons_text] at hlook
    rw [AttrsOk, goal]
    by_cases hid : e.id = target
    · rw [if_pos hid] at hlook
      rw [if_pos hid, if_pos hid, leads_hit hlook]
      by_cases hf : Fit H oneByte e
      · rw [if_pos hf]
        exact iff_of_true rfl hf
      · rw [if_neg hf]
        exact iff_of_false nofun hf
    · rw [if_neg hid] at hlook
      rw [if_neg hid, if_neg hid, leads_next hlook]
      by_cases hw : (H.bytes e).length < 65536
      · rw [if_pos hw, Nat.mod_eq_of_lt hw, all_cons_text, List.drop_left' rfl]
        exact ih
      · have hlt := extent_lt H hsize hmax (H.bytes e ++ [])
        rw [H.extent_bytes] at hlt
        have hmod : (H.bytes e).length % 65536 = (H.bytes e).length - 65536 := by omega
        rw [if_neg hw, hmod]

end

/-! ## the loops follow the reader -/

/-- an end of a lookup where the reader ends -/
def Hits (b : List UInt8) (look : List UInt8 → Look) (v : Option (List UInt8)) (r : AttrRes) : Prop :=
  r = .nothing ∨ ∃ pos len, r = .found pos len ∧ v = some (b.drop pos) ∧ look (b.drop pos) = .hit len

/-- a round of the loop does what the reader does, but it may leave the buffer at an attribute that is
not the one at the head of `v` -/
def Follows (step : Nat → Look) (b : List UInt8) (look : List UInt8 → Look) (v : Option (List UInt8)) :
    Prop :=
  ∀ pos, step pos = look (b.drop pos)
    ∨ step pos = .outside ∧ v ≠ some (b.drop pos) ∧ ∃ k, look (b.drop pos) = .hit k

section
variable {lk : List UInt8 → Look}

theorem scan_step (n pos : Nat) : scan step (n + 1) pos = match step pos with
    | .outside => some .outside
    | .done => some .nothing
    | .hit len => some (.found pos len)
    | .next len => scan step n (pos + len) := rfl

theorem returns_scan_iff (hstep : Follows step b lk v) (pos : Nat) :
    Returns (fun n => scan step n pos) (Hits b lk v) ↔ Leads lk v (b.drop pos) := by
  constructor
  · rintro ⟨n, r, hr, hits⟩
    dsimp only at hr
    induction n generalizing pos with
    | zero => cases hr
    | succ n ih =>
      rw [scan_step] at hr
      rcases hstep pos with hs | ⟨hs, -, -⟩
      · rw [hs] at hr
        cases hl : lk (b.drop pos) with
        | outside =>
          rw [hl] at hr
          cases hr
          rcases hits with h | ⟨_, _, h, -⟩ <;> cases h
        | done => exact Leads.done hl
        | hit len =>
          rw [hl] at hr
          cases hr
          rcases hits with h | ⟨_, _, h, hv, -⟩
          · cases h
          · cases h
            exact Leads.hit hl hv
        | next len =>
          rw [hl] at hr
          refine Leads.next hl ?_
          rw [List.drop_drop]
          exact ih (pos + len) hr
      · rw [hs] at hr
        cases hr
        rcases hits with h | ⟨_, _, h, -⟩ <;> cases h
  · intro h
    generalize hu : b.drop pos = u at h
    induction h generalizing pos with
    | done hl =>
      subst hu
      rcases hstep pos with hs | ⟨-, -, k, hk⟩
      · refine ⟨1, .nothing, ?_, Or.inl rfl⟩
        show scan step 1 pos = _
        rw [scan_step, hs, hl]
      · cases hl.symm.trans hk
    | @hit _ k hl hv =>
      subst hu
      rcases hstep pos with hs | ⟨-, hno, -⟩
      · refine ⟨1, .found pos k, ?_, Or.inr ⟨pos, k, rfl, hv, hl⟩⟩
        show scan step 1 pos = _
        rw [scan_step, hs, hl]
      · exact absurd hv hno
    | @next _ k hl _ ih =>
      subst hu
      rcases hstep pos with hs | ⟨-, -, j, hj⟩
      · obtain ⟨n, r, hr, hits⟩ := ih (pos + k) List.drop_drop.symm
        refine ⟨n + 1, r, ?_, hits⟩
        show scan step (n + 1) pos = _
        rw [scan_step, hs, hl]
        exact hr
      · cases hl.symm.trans hj

theorem look_of_found (hstep : Follows step b lk v) {n pos p len : Nat}
    (h : scan step n pos = some (.found p len)) : lk (b.drop p) = .hit len := by
  induction n generalizing pos with
  | zero => cases h
  | succ n ih =>
    rw [scan_step] at h
    rcases hstep pos with hs | ⟨hs, -, -⟩
    · cases hl : lk (b.drop pos) with
      | outside => rw [hs, hl] at h; cases h
      | done => rw [hs, hl] at h; cases h
      | hit k =>
        rw [hs, hl] at h
        cases h
        exact hl
      | next k =>
        rw [hs, hl] at h
        exact ih h
    · rw [hs] at h
      cases h

/-- more rounds do not change a result -/
theorem scan_mono {n pos : Nat} (h : scan step n pos = some r) (k : Nat) : scan step (n + k) pos = some r := by
  induction n generalizing pos with
  | zero => cases h
  | succ n ih =>
    rw [Nat.succ_add, scan_step]
    rw [scan_step] at h
    cases hl : step pos with
    | outside => rw [hl] at h; exact h
    | done => rw [hl] at h; exact h
    | hit len => rw [hl] at h; exact h
    | next len =>
      rw [hl] at h
      exact ih h

theorem scan_unique {n m pos : Nat} {r r' : AttrRes} (h : scan step n pos = some r)
    (h' : scan step m pos = some r') : r = r' := by
  have h1 := scan_mono h m
  have h2 := scan_mono h' n
  rw [Nat.add_comm m n] at h2
  exact Option.some.inj (h1.symm.trans h2)

end

/-! ## the first attribute -/

theorem goal_eq (es : Attrs H) (t : List UInt8) : goal H oneByte target es t
    = (first H.format (fun e => decide (e.id = target)) es).bind fun x =>
        if Fit H oneByte x.2 then some ((all H.format es ++ t).drop x.1) else none := by
  induction es with
  | nil => rfl
  | cons e es ih =>
    rw [goal]
    by_cases hid : e.id = target
    · rw [if_pos hid, first_cons_of_pos (by simpa using hid)]
      rfl
    · rw [if_neg hid, first_cons_of_neg (by simpa using hid), Option.bind_map, ih]
      congr 1
      funext x
      show _ = if Fit H oneByte x.2 then some ((all H.format (e :: es) ++ t).drop ((H.bytes e).length + x.1))
        else none
      rw [all_cons_text, ← List.drop_drop, List.drop_left' rfl]

/-- the text at the first attribute -/
theorem text_of_first {o : Nat} (h : first H.format (fun e => decide (e.id = target)) es = some (o, e)) :
    e.id = target ∧ ∃ u, (all H.format es ++ t).drop o = H.bytes e ++ u := by
  obtain ⟨pre, post, rfl, he, -, rfl⟩ := first_eq_some h
  refine ⟨by simpa using he, all H.format post ++ t, ?_⟩
  rw [all_append, List.append_assoc, List.drop_left' rfl, all_cons_text]

theorem isFirst_iff {len : Nat} (hb : b.drop 6 = all H.format es ++ t)
    (hes : es = (pieces H.format (b.drop 6)).1)
    (hlook : look H checked target (b.drop pos) = .hit len) :
    IsFirst H b target (.found pos len) ↔ goal H false target es t = some (b.drop pos) := by
  have hfirst : firstAttr H b target
      = (first H.format (fun e => decide (e.id = target)) es).map fun x => (6 + x.1, x.2) := by
    rw [firstAttr, ← hes]
  rw [goal_eq]
  show (_ ∧ ∃ e, firstAttr H b target = some (pos, e) ∧ _) ↔ _
  rw [hfirst]
  cases hf : first H.format (fun e => decide (e.id = target)) es with
  | none =>
    refine iff_of_false ?_ nofun
    rintro ⟨-, e, h, -⟩
    cases h
  | some x =>
    obtain ⟨o, e⟩ := x
    obtain ⟨hid, u, hu⟩ := text_of_first (t := t) hf
    rw [← hb, List.drop_drop] at hu
    have hat : look H checked target (b.drop (6 + o)) = .hit ((H.bytes e).length % 65536) := by
      rw [hu, look_bytes, if_pos hid]
    have hpos := H.length_bytes e
    have hsize := H.size_pos
    have hlen := congrArg List.length hu
    rw [List.length_drop, List.length_append] at hlen
    rw [Option.map_some, Option.bind_some]
    dsimp only
    rw [← hb, List.drop_drop]
    constructor
    · rintro ⟨-, e', h, rfl⟩
      cases h
      have hsame := hat.symm.trans hlook
      have hmod : (H.bytes e).length % 65536 = (H.bytes e).length := Look.hit.inj hsame
      have hfit : Fit H false e := ⟨by omega, nofun⟩
      rw [if_pos hfit]
    · intro h
      split at h
      · rename_i hfit
        have htext := Option.some.inj h
        have hl := congrArg List.length htext
        rw [List.length_drop, List.length_drop] at hl
        have hp : pos = 6 + o := by omega
        subst hp
        have hsame := hat.symm.trans hlook
        have hmod : (H.bytes e).length % 65536 = len := Look.hit.inj hsame
        rw [Nat.mod_eq_of_lt hfit.1] at hmod
        exact ⟨by omega, e, rfl, hmod.symm⟩
      · cases h

/-! ## lookup and content -/

theorem goal_false (h : goal H oneByte target es t = some u) : goal H false target es t = some u := by
  rw [goal_eq] at h ⊢
  obtain ⟨x, hx, h⟩ := Option.bind_eq_some_iff.mp h
  rw [hx, Option.bind_some]
  split at h
  · rename_i hf
    have hfit : Fit H false x.2 := ⟨hf.1, nofun⟩
    rw [if_pos hfit]
    exact h
  · cases h

theorem Hits.weaken (h : Hits b (look H checked target) (goal H oneByte target es t) r) :
    Hits b (look H checked target) (goal H false target es t) r := by
  rcases h with h | ⟨pos, len, hr, hv, hl⟩
  · exact Or.inl h
  · exact Or.inr ⟨pos, len, hr, goal_false hv, hl⟩

/-- the content of the first attribute -/
theorem inBody_found {buf : Bool} {lc : Option Nat} {e : Tlv ι UInt8 H.max}
    (hfirst : firstAttr H b target = some (pos, e)) (hfit : (H.bytes e).length < 65536)
    (hin : pos + (H.bytes e).length ≤ b.length) :
    InBody H b target (contentOf H.size b buf lc (.found pos (H.bytes e).length))
      ↔ Fit H (buf && lc.isNone) e := by
  have hlen := H.length_bytes e
  have hpos := H.size_pos
  have hdata : ((H.bytes e).length + 2 ^ 32 - H.size) % 2 ^ 32 = e.body.length := by omega
  have hno : e.body = [] ↔ e.body.length = 0 := List.length_eq_zero_iff.symm
  rw [contentOf, if_neg (by omega), hdata]
  dsimp only
  cases buf with
  | false =>
    rw [if_neg Bool.false_ne_true, if_neg (by omega)]
    refine iff_of_true ⟨pos, e, hfirst, rfl, ?_, Nat.zero_le _⟩ ⟨hfit, nofun⟩
    intro l hl
    obtain ⟨l', -, rfl⟩ := Option.map_eq_some_iff.mp hl
    exact Nat.le_of_eq (if_pos (Or.inr Bool.false_ne_true))
  | true =>
    cases lc with
    | none =>
      rw [if_pos rfl]
      show InBody H b target (if b.length < pos + H.size + 1 then _ else _) ↔ _
      by_cases hbody : e.body = []
      · refine iff_of_false ?_ fun h => h.2 rfl hbody
        split
        · exact id
        · rintro ⟨p, e', h, -, -, hle⟩
          cases hfirst.symm.trans h
          have hzero := hno.mp hbody
          change 1 ≤ e.body.length at hle
          omega
      · have hne := mt hno.mpr hbody
        have hroom : ¬ b.length < pos + H.size + 1 := by omega
        rw [if_neg hroom]
        refine iff_of_true ⟨pos, e, hfirst, rfl, nofun, ?_⟩ ⟨hfit, fun _ => hbody⟩
        show 1 ≤ _
        omega
    | some l =>
      rw [if_pos rfl]
      have hle : (if true = true ∧ e.body.length < l ∨ ¬ true = true then e.body.length else l)
          ≤ e.body.length := by
        split
        · exact Nat.le_refl _
        · rename_i h
          exact Nat.not_lt.mp fun h' => h (Or.inl ⟨rfl, h'⟩)
      have hcopy : ((some l).map fun l =>
          if true = true ∧ e.body.length < l ∨ ¬ true = true then e.body.length else l).getD 1
            ≤ e.body.length := hle
      have hroom : ¬ b.length < pos + H.size + ((some l).map fun l =>
          if true = true ∧ e.body.length < l ∨ ¬ true = true then e.body.length else l).getD 1 := by
        omega
      rw [if_neg hroom]
      refine iff_of_true ⟨pos, e, hfirst, rfl, ?_, hcopy⟩ ⟨hfit, nofun⟩
      intro l' hl'
      cases hl'
      exact hle

/-- a lookup is right where the reader ends -/
theorem isFirst_iff_hits {n : Nat} (hes : es = (pieces H.format (b.drop 6)).1)
    (hall : all H.format es ++ t = b.drop 6)
    (hstep : Follows step b (look H checked target) (goal H false target es t))
    (hr : scan step n 6 = some r) :
    IsFirst H b target r ↔ Hits b (look H checked target) (goal H false target es t) r := by
  cases r with
  | outside =>
    refine iff_of_false id ?_
    rintro (h | ⟨_, _, h, -⟩) <;> cases h
  | nothing => exact iff_of_true trivial (Or.inl rfl)
  | found pos len =>
    have hl := look_of_found hstep hr
    rw [isFirst_iff hall.symm hes hl]
    constructor
    · exact fun h => Or.inr ⟨pos, len, rfl, h, hl⟩
    · rintro (h | ⟨_, _, h, hv, -⟩)
      · cases h
      · cases h
        exact hv

/-- and so is the content of what it found -/
theorem inBody_iff_hits {buf : Bool} {lc : Option Nat} (hes : es = (pieces H.format (b.drop 6)).1)
    (hfirst : IsFirst H b target r)
    (hits : Hits b (look H checked target) (goal H false target es t) r) :
    InBody H b target (contentOf H.size b buf lc r)
      ↔ Hits b (look H checked target) (goal H (buf && lc.isNone) target es t) r := by
  rcases hits with rfl | ⟨pos, len, rfl, hv, hl⟩
  · exact iff_of_true trivial (Or.inl rfl)
  · obtain ⟨hin, e, he, rfl⟩ := hfirst
    rw [goal_eq] at hv
    obtain ⟨x, hx, hv⟩ := Option.bind_eq_some_iff.mp hv
    have he' := he
    rw [firstAttr, ← hes, hx] at he'
    cases he'
    split at hv
    · rename_i hf
      rw [inBody_found he hf.1 hin]
      constructor
      · intro hfit
        refine Or.inr ⟨_, _, rfl, ?_, hl⟩
        rw [goal_eq, hx, Option.bind_some, if_pos hfit]
        exact hv
      · rintro (h | ⟨_, _, h, hv', -⟩)
        · cases h
        · rw [goal_eq, hx, Option.bind_some] at hv'
          split at hv'
          · assumption
          · cases hv'
    · cases hv

section
variable (hsize : H.size < 65536) (hmax : H.max = 65536)
include hsize hmax

/-- **A lookup and its content helper are right** exactly for what they can be given. -/
theorem lookup_content_iff {stepNull : Nat → Look} (buf : Bool) (lc : Option Nat)
    (hes : es = (pieces H.format (b.drop 6)).1) (hall : all H.format es ++ t = b.drop 6)
    (hcut : H.format.cut t = none)
    (hstep : Follows step b (look H checked target) (goal H false target es t))
    (hnull : ∀ pos, stepNull pos = look H checked target (b.drop pos)) :
    (Returns (fun n => scan step n 6) (IsFirst H b target)
        ∧ Returns (fun n => (scan stepNull n 6).map (contentOf H.size b buf lc)) (InBody H b target))
      ↔ AttrsOk H checked (buf && lc.isNone) target es t := by
  have hfollows : ∀ v, Follows stepNull b (look H checked target) v := fun v pos => Or.inl (hnull pos)
  rw [← leads_iff hsize hmax hcut es, hall]
  constructor
  · rintro ⟨⟨n, r, hr, hgood⟩, ⟨m, c, hc, hbody⟩⟩
    have hits := (isFirst_iff_hits hes hall hstep hr).mp hgood
    have hleads := (returns_scan_iff hstep 6).mp ⟨n, r, hr, hits⟩
    obtain ⟨k, r', hr', hits'⟩ := (returns_scan_iff (hfollows _) 6).mpr hleads
    obtain ⟨r'', hr'', rfl⟩ := Option.map_eq_some_iff.mp hc
    cases scan_unique hr' hr''
    have hfirst := (isFirst_iff_hits hes hall (hfollows _) hr').mpr hits'
    exact (returns_scan_iff (hfollows _) 6).mp ⟨k, r', hr', (inBody_iff_hits hes hfirst hits').mp hbody⟩
  · intro hleads
    obtain ⟨k, r, hr, hits⟩ := (returns_scan_iff (hfollows _) 6).mpr hleads
    have hweak := hits.weaken
    have hleads' := (returns_scan_iff (hfollows _) 6).mp ⟨k, r, hr, hweak⟩
    obtain ⟨n, r', hr', hits'⟩ := (returns_scan_iff hstep 6).mpr hleads'
    have hfirst := (isFirst_iff_hits hes hall (hfollows _) hr).mpr hweak
    exact ⟨⟨n, r', hr', (isFirst_iff_hits hes hall hstep hr').mpr hits'⟩, k, _, congrArg _ hr,
      (inBody_iff_hits hes hfirst hweak).mpr hits⟩

/-- a lookup alone -/
theorem lookup_iff (hes : es = (pieces H.format (b.drop 6)).1) (hall : all H.format es ++ t = b.drop 6)
    (hcut : H.format.cut t = none)
    (hstep : Follows step b (look H checked target) (goal H false target es t)) :
    Returns (fun n => scan step n 6) (IsFirst H b target) ↔ AttrsOk H checked false target es t := by
  rw [← leads_iff hsize hmax hcut es, hall, ← returns_scan_iff hstep 6]
  constructor
  · rintro ⟨n, r, hr, h⟩
    exact ⟨n, r, hr, (isFirst_iff_hits hes hall hstep hr).mp h⟩
  · rintro ⟨n, r, hr, h⟩
    exact ⟨n, r, hr, (isFirst_iff_hits hes hall hstep hr).mpr h⟩

end

/-! ## the rounds of the source -/

theorem goal_fits (h : goal H oneByte target es t = some u) : H.extent u ≤ u.length ∧ H.extent u < 65536 := by
  rw [goal_eq] at h
  obtain ⟨x, hx, h⟩ := Option.bind_eq_some_iff.mp h
  obtain ⟨-, w, hw⟩ := text_of_first (t := t) hx
  split at h
  · rename_i hf
    have hu := Option.some.inj h
    rw [hw] at hu
    subst hu
    rw [H.extent_bytes, List.length_append]
    exact ⟨Nat.le_add_right .., hf.1⟩
  · cases h

omit [DecidableEq ι] in
/-- the header is read -/
theorem take_readBytes (H : Header ι UInt8) (h : H.size ≤ (b.drop pos).length) (hpos : pos < b.length) :
    ∃ attr, Walk.readBytes b pos H.size = some attr ∧ H.take attr = H.take (b.drop pos) := by
  rw [List.length_drop] at h
  refine ⟨(b.drop pos).take H.size, Walk.readBytes_some (by omega), Header.take_take ?_⟩
  rw [List.length_drop]
  exact h

theorem wpsAt_header (b : List UInt8) (target : UInt16) (buf : Bool) (pos : Nat)
    (h : wpsHdr.size ≤ (b.drop pos).length) :
    wpsAt b target buf pos
      = if (wpsHdr.take (b.drop pos)).1 = target then
          if buf ∧ b.length < pos + wpsHdr.extent (b.drop pos) % 65536 then .outside
          else .hit (wpsHdr.extent (b.drop pos) % 65536)
        else .next (wpsHdr.extent (b.drop pos) % 65536) := by
  have hpos : pos < b.length := by
    rw [List.length_drop] at h
    change 4 ≤ b.length - pos at h
    omega
  obtain ⟨attr, hread, htake⟩ := take_readBytes wpsHdr h hpos
  have hext : wpsHdr.extent (b.drop pos) = (wpsHdr.take (b.drop pos)).2 + 4 := Nat.add_comm ..
  change Walk.readBytes b pos 4 = some attr at hread
  rw [wpsAt, if_pos hpos, hread, hext]
  dsimp only
  rw [htake]

/-- fewer than four bytes are left -/
theorem wpsAt_short (b : List UInt8) (target : UInt16) (buf : Bool) (pos : Nat)
    (h : (b.drop pos).length < wpsHdr.size) :
    wpsAt b target buf pos = look wpsHdr false target (b.drop pos) := by
  rw [look, if_pos h]
  rw [List.length_drop] at h
  change b.length - pos < 4 at h
  rw [wpsAt]
  by_cases hpos : pos < b.length
  · have hread : Walk.readBytes b pos 4 = none := by
      rw [Walk.readBytes, if_neg (by omega)]
    have hne : ¬ ((false : Bool) = true ∨ b.drop pos = []) := by
      rintro (h | h)
      · cases h
      · have := List.drop_eq_nil_iff.mp h
        omega
    rw [if_pos hpos, hread, if_neg hne]
  · rw [if_neg hpos, if_pos (Or.inr (List.drop_of_length_le (Nat.not_lt.mp hpos)))]

theorem wpsAt_null (b : List UInt8) (target : UInt16) (pos : Nat) :
    wpsAt b target false pos = look wpsHdr false target (b.drop pos) := by
  by_cases h : (b.drop pos).length < wpsHdr.size
  · exact wpsAt_short b target false pos h
  · have hno : ∀ p : Prop, ¬ ((false : Bool) = true ∧ p) := fun _ h => Bool.false_ne_true h.1
    rw [wpsAt_header b target false pos (Nat.not_lt.mp h), look, if_neg h, if_neg (hno _)]
    dsimp only
    rw [if_neg (hno _)]

theorem wpsAt_follows {es : Attrs wpsHdr} (b : List UInt8) (target : UInt16) (buf : Bool) :
    Follows (wpsAt b target buf) b (look wpsHdr false target) (goal wpsHdr oneByte target es t) := by
  intro pos
  rw [← wpsAt_null b target pos]
  by_cases h : (b.drop pos).length < wpsHdr.size
  · left
    rw [wpsAt_short b target buf pos h, wpsAt_short b target false pos h]
  · have hle := Nat.not_lt.mp h
    rw [wpsAt_header b target buf pos hle, wpsAt_header b target false pos hle]
    by_cases hout : (wpsHdr.take (b.drop pos)).1 = target
        ∧ (buf = true ∧ b.length < pos + wpsHdr.extent (b.drop pos) % 65536)
    · right
      obtain ⟨hid, hout⟩ := hout
      rw [if_pos hid, if_pos hid, if_pos hout, if_neg (fun h => Bool.false_ne_true h.1)]
      refine ⟨rfl, ?_, _, rfl⟩
      intro hgoal
      obtain ⟨hfit, hlt⟩ := goal_fits hgoal
      have h2 := hout.2
      rw [Nat.mod_eq_of_lt hlt] at h2
      rw [List.length_drop] at hfit hle
      change 4 ≤ b.length - pos at hle
      omega
    · left
      by_cases hid : (wpsHdr.take (b.drop pos)).1 = target
      · rw [if_pos hid, if_pos hid, if_neg (fun h => hout ⟨hid, h⟩),
          if_neg (fun h => Bool.false_ne_true h.1)]
      · rw [if_neg hid, if_neg hid]

theorem vendorAt_eq (H : Header UInt8 UInt8) (h3 : H.size = 3) (b : List UInt8) (target : UInt8)
    (pos : Nat) : vendorAt H b target pos = look H true target (b.drop pos) := by
  have hlen : (b.drop pos).length = b.length - pos := List.length_drop
  by_cases h : pos + 3 ≤ b.length
  · have hsize : H.size ≤ (b.drop pos).length := by omega
    obtain ⟨attr, hread, htake⟩ := take_readBytes H hsize (by omega)
    have hext : H.extent (b.drop pos) = (H.take (b.drop pos)).2 + 3 := by
      rw [Header.extent, h3, Nat.add_comm]
    rw [h3] at hread
    rw [vendorAt, if_pos h, hread, look, if_neg (by omega), hext]
    dsimp only
    rw [htake]
    generalize hk : ((H.take (b.drop pos)).2 + 3) % 65536 = k
    by_cases hlt : b.length < pos + k
    · rw [if_pos hlt, if_pos ⟨rfl, by omega⟩]
    · have hfit : ¬ (true = true ∧ (b.drop pos).length < k) := by
        rintro ⟨-, h'⟩
        omega
      rw [if_neg hlt, if_neg hfit]
  · rw [vendorAt, if_neg h, look, if_pos (by omega), if_pos (Or.inl rfl)]

/-! ## the head of the element -/

/-- id and OUI -/
def Enters (oui b : List UInt8) : Prop := b.head? = some Walk.eidVendorSpecific ∧ (b.drop 2).take 4 = oui

/-- what the comparison reads is there -/
def HeadOk (b : List UInt8) : Prop := b ≠ [] ∧ (b.head? = some Walk.eidVendorSpecific → 6 ≤ b.length)

/-- a lookup ends in the head, or goes on -/
theorem returns_enter {α : Type} (k : Nat → Option AttrRes) (f : AttrRes → α) (good : α → Prop)
    (oui b : List UInt8) (hout : ¬ good (f .outside)) (hnothing : good (f .nothing)) :
    Returns (fun n => (enter oui b (k n)).map f) good
      ↔ HeadOk b ∧ (Enters oui b → Returns (fun n => (k n).map f) good) := by
  unfold HeadOk Enters
  cases b with
  | nil =>
    refine iff_of_false ?_ fun h => h.1.1 rfl
    rintro ⟨n, r, hr, hgood⟩
    cases hr
    exact hout hgood
  | cons id b =>
    have hhead : (id :: b).head? = some Walk.eidVendorSpecific ↔ id = Walk.eidVendorSpecific := by
      rw [List.head?_cons, Option.some_inj]
    rw [hhead, and_iff_right (List.cons_ne_nil _ _)]
    by_cases hid : id = Walk.eidVendorSpecific
    · by_cases h6 : 6 ≤ (id :: b).length
      · have hread : Walk.readBytes (id :: b) 2 4 = some (((id :: b).drop 2).take 4) :=
          Walk.readBytes_some h6
        rw [and_iff_right (fun _ => h6), and_iff_right hid]
        by_cases ho : ((id :: b).drop 2).take 4 = oui
        · have henter : ∀ res, enter oui (id :: b) res = res := by
            intro res
            show (if id ≠ _ then _ else _) = _
            rw [if_neg (not_not.mpr hid), hread]
            dsimp only
            rw [if_neg (not_not.mpr ho)]
          simp only [henter, ho, true_implies]
        · have henter : ∀ res, enter oui (id :: b) res = some .nothing := by
            intro res
            show (if id ≠ _ then _ else _) = _
            rw [if_neg (not_not.mpr hid), hread]
            dsimp only
            rw [if_pos ho]
          refine iff_of_true ⟨0, f .nothing, ?_, hnothing⟩ fun h => absurd h ho
          dsimp only
          rw [henter]
          rfl
      · have hread : Walk.readBytes (id :: b) 2 4 = none := if_neg h6
        refine iff_of_false ?_ fun h => h6 (h.1 hid)
        rintro ⟨n, r, hr, hgood⟩
        have henter : enter oui (id :: b) (k n) = some .outside := by
          show (if id ≠ _ then _ else _) = _
          rw [if_neg (not_not.mpr hid), hread]
        dsimp only at hr
        rw [henter] at hr
        cases hr
        exact hout hgood
    · have henter : ∀ res, enter oui (id :: b) res = some .nothing := fun _ => if_pos hid
      refine iff_of_true ⟨0, f .nothing, ?_, hnothing⟩ ⟨fun h => absurd h hid, fun h => absurd h.1 hid⟩
      dsimp only
      rw [henter]
      rfl

end Attr

/-! ## the lookups -/

/-- `rtw_get_wps_attr` and its content helper end, stay in the buffer, give the first attribute and no
more than its body -/
def WpsLookupOk (b : List UInt8) (target : UInt16) (bufAttr buf : Bool) (lenContent : Option Nat) : Prop :=
  Returns (rtwGetWpsAttr b target bufAttr) (IsFirst wpsHdr b target)
    ∧ Returns (rtwGetWpsAttrContent b target buf lenContent) (InBody wpsHdr b target)

def P2pLookupOk (b : List UInt8) (target : UInt8) (buf : Bool) (lenContent : Option Nat) : Prop :=
  Returns (rtwGetP2pAttr b target) (IsFirst p2pHdr b target)
    ∧ Returns (rtwGetP2pAttrContent b target buf lenContent) (InBody p2pHdr b target)

def WfdLookupOk (b : List UInt8) (target : UInt8) : Prop :=
  Returns (rtwGetWfdAttr b target) (IsFirst wfdHdr b target)

namespace Attr

variable {ι : Type} [DecidableEq ι] {b : List UInt8}

/-- the attributes of the element -/
def ElemOk (H : Header ι UInt8) (checked oneByte : Bool) (target : ι) (b : List UInt8) : Prop :=
  AttrsOk H checked oneByte target (pieces H.format (b.drop 6)).1 (pieces H.format (b.drop 6)).2

theorem headOk_of_lt (h6 : 6 < b.length) : HeadOk b := by
  refine ⟨?_, fun _ => Nat.le_of_lt h6⟩
  rintro rfl
  exact absurd h6 (Nat.not_lt_zero 6)

/-- a lookup in the head of an element that is long enough -/
theorem returns_vendorAttr {α : Type} (H : Header UInt8 UInt8) (oui b : List UInt8) (target : UInt8)
    (f : AttrRes → α) (good : α → Prop) (hout : ¬ good (f .outside)) (hnothing : good (f .nothing)) :
    Returns (fun n => (vendorAttr H oui b target n).map f) good
      ↔ (6 < b.length → Enters oui b → Returns (fun n => (scan (vendorAt H b target) n 6).map f) good) := by
  unfold vendorAttr
  by_cases h6 : b.length ≤ 6
  · simp only [if_pos h6]
    exact iff_of_true ⟨0, f .nothing, rfl, hnothing⟩ fun h => absurd h (Nat.not_lt.mpr h6)
  · have h := returns_enter (fun n => scan (vendorAt H b target) n 6) f good oui b hout hnothing
    have hlt := Nat.not_le.mp h6
    simp only [if_neg h6]
    rw [h, and_iff_right (headOk_of_lt hlt)]
    exact ⟨fun h _ => h, fun h => h hlt⟩

theorem vendorLookup_iff (H : Header UInt8 UInt8) (h3 : H.size = 3) (hmax : H.max = 65536)
    (oui b : List UInt8) (target : UInt8) (buf : Bool) (lc : Option Nat) :
    (Returns (vendorAttr H oui b target) (IsFirst H b target)
        ∧ Returns (fun n => (vendorAttr H oui b target n).map (contentOf H.size b buf lc))
          (InBody H b target))
      ↔ (6 < b.length → Enters oui b → ElemOk H true (buf && lc.isNone) target b) := by
  have hlookup := returns_vendorAttr H oui b target (fun r => r) (IsFirst H b target) id trivial
  have hcontent := returns_vendorAttr H oui b target (contentOf H.size b buf lc) (InBody H b target) id
    trivial
  have hstep : ∀ v, Follows (vendorAt H b target) b (look H true target) v :=
    fun v pos => Or.inl (vendorAt_eq H h3 b target pos)
  have hboth := lookup_content_iff (by omega) hmax buf lc rfl (all_pieces H.format (b.drop 6))
    (cut_pieces H.format (b.drop 6)) (hstep _) (vendorAt_eq H h3 b target)
  simp only [Option.map_id'] at hlookup
  rw [hlookup, hcontent, ElemOk, ← hboth, ← forall_and]
  exact forall_congr' fun _ => forall_and.symm

theorem wfdLookup_iff (b : List UInt8) (target : UInt8) : WfdLookupOk b target
    ↔ (6 < b.length → Enters wfdOui b → ElemOk wfdHdr true false target b) := by
  have hlookup := returns_vendorAttr wfdHdr wfdOui b target (fun r => r) (IsFirst wfdHdr b target) id
    trivial
  have hstep : ∀ v, Follows (vendorAt wfdHdr b target) b (look wfdHdr true target) v :=
    fun v pos => Or.inl (vendorAt_eq wfdHdr rfl b target pos)
  simp only [Option.map_id'] at hlookup
  rw [ElemOk, ← lookup_iff (by decide) rfl rfl (all_pieces wfdHdr.format (b.drop 6))
    (cut_pieces wfdHdr.format (b.drop 6)) (hstep _)]
  exact hlookup

theorem wpsLookup_iff (b : List UInt8) (target : UInt16) (bufAttr buf : Bool) (lc : Option Nat) :
    WpsLookupOk b target bufAttr buf lc
      ↔ HeadOk b ∧ (Enters wpsOui b → ElemOk wpsHdr false (buf && lc.isNone) target b) := by
  have hlookup := returns_enter (fun n => scan (wpsAt b target bufAttr) n 6) (fun r => r)
    (IsFirst wpsHdr b target) wpsOui b id trivial
  have hcontent := returns_enter (fun n => scan (wpsAt b target false) n 6)
    (contentOf wpsHdr.size b buf lc) (InBody wpsHdr b target) wpsOui b id trivial
  have hboth := lookup_content_iff (by decide) rfl buf lc rfl (all_pieces wpsHdr.format (b.drop 6))
    (cut_pieces wpsHdr.format (b.drop 6)) (wpsAt_follows b target bufAttr) (wpsAt_null b target)
  simp only [Option.map_id'] at hlookup
  rw [ElemOk, ← hboth]
  constructor
  · rintro ⟨h1, h2⟩
    obtain ⟨hhead, h1⟩ := hlookup.mp h1
    exact ⟨hhead, fun he => ⟨h1 he, (hcontent.mp h2).2 he⟩⟩
  · rintro ⟨hhead, h⟩
    exact ⟨hlookup.mpr ⟨hhead, fun he => (h he).1⟩, hcontent.mpr ⟨hhead, fun he => (h he).2⟩⟩

end Attr

/-- **The attribute lookups and their content helpers are safe** exactly for the elements whose
attributes up to the first with the id have less than 2^16 bytes, end in the element, and where the
WPS lookup finds a whole header wherever it looks. -/
theorem attr_lookup_iff (b : List UInt8) :
    (∀ target bufAttr buf lc, WpsLookupOk b target bufAttr buf lc
        ↔ HeadOk b ∧ (Enters wpsOui b → ElemOk wpsHdr false (buf && lc.isNone) target b))
      ∧ (∀ target buf lc, P2pLookupOk b target buf lc
        ↔ (6 < b.length → Enters p2pOui b → ElemOk p2pHdr true (buf && lc.isNone) target b))
      ∧ ∀ target, WfdLookupOk b target
        ↔ (6 < b.length → Enters wfdOui b → ElemOk wfdHdr true false target b) :=
  ⟨wpsLookup_iff b, fun target buf lc => vendorLookup_iff p2pHdr rfl rfl p2pOui b target buf lc,
    wfdLookup_iff b⟩

/-- an attribute of three bytes with the length 0xfffd -/
theorem p2p_attr_endless : ¬ P2pLookupOk [0xdd, 7, 0x50, 0x6f, 0x9a, 9, 2, 0xfd, 0xff] 5 false none := by
  rintro ⟨⟨n, r, hr, -⟩, -⟩
  have hscan : ∀ n, scan (vendorAt p2pHdr [0xdd, 7, 0x50, 0x6f, 0x9a, 9, 2, 0xfd, 0xff] 5) n 6 = none := by
    intro n
    induction n with
    | zero => rfl
    | succ n ih => exact ih
  cases (hscan n).symm.trans hr

end Rtl8192eu
