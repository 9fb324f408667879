import Rtl8192eu.Ie.VendorDelete

/-!
# P2P elements are merged

`rtw_get_p2p_merged_ies_len` adds up the attributes of all P2P elements in an `int`, and
`rtw_p2p_merge_ies` copies them one behind the other and counts in a `u8`.

* `rtwGetP2pMergedIesLen`, `rtwP2pMergeIes`   the source;
* `attributes`   the attributes of the P2P elements, one behind the other;
* `p2p_merge_iff`   when the two agree.
-/

namespace Rtl8192eu

open Records Mem IeEdit

namespace P2p

/-- element id and OUI at `i` -/
def isP2p (m : Nat → UInt8) (i : Nat) : Bool :=
  m i == Walk.eidVendorSpecific && read m (i + 2) 4 == p2pOui

def mergedLenLoop (m : Nat → UInt8) (inLen : Nat) : Nat → Nat → Int → Int
  | 0, _, len => len
  | n + 1, i, len =>
    if i < inLen then
      let length := (m (i + 1)).toNat
      mergedLenLoop m inLen n (i + (length + 2)) (if isP2p m i then len + (length - 4) else len)
    else len

/-- the bytes are appended at `merge_ie`; `none` is a copy of a negative length -/
def mergeLoop (m : Nat → UInt8) (inLen : Nat) : Nat → Nat → UInt8 → List UInt8 →
    Option (UInt8 × List UInt8)
  | 0, _, len, out => some (len, out)
  | n + 1, i, len, out =>
    if i < inLen then
      let length := (m (i + 1)).toNat
      if isP2p m i then
        if length < 4 then none
        else
          mergeLoop m inLen n (i + (length + 2)) (len + UInt8.ofNat (length - 4))
            (out ++ read m (i + 2 + 4) (length - 4))
      else mergeLoop m inLen n (i + (length + 2)) len out
    else some (len, out)

/-- `ELOUI` -/
def elOui : List UInt8 := [0xdd, 0x00, 0x50, 0x6f, 0x9a, 0x09]

end P2p

/-- a `u32` -/
def rtwGetP2pMergedIesLen (m : Nat → UInt8) (inLen : Nat) : Nat :=
  ((P2p.mergedLenLoop m inLen inLen 0 0 + 4) % 2 ^ 32).toNat

/-- the value returned, and what was written to `merge_ie` when it is not `NULL` -/
def rtwP2pMergeIes (m : Nat → UInt8) (inLen : Nat) (mergeIe : Bool) : Option (Nat × List UInt8) :=
  if mergeIe then
    (P2p.mergeLoop m inLen inLen 0 0 P2p.elOui).map fun x => (x.1.toNat + 4, x.2)
  else some (0, [])

namespace P2p

/-! ## what it means -/

/-- the attributes of the P2P elements -/
def attributes (rs : List Elem) : List UInt8 :=
  (rs.filter fun e => OfVendor p2pOui e).flatMap fun e => e.body.drop 4

/-- an element is taken for a P2P element only if its own body starts with the OUI -/
def NoStray (behind : Nat → UInt8) (rs : List Elem) : Prop :=
  ∀ a e c, rs = a ++ e :: c →
    Taken Walk.eidVendorSpecific (some p2pOui) (ahead (all elems (e :: c)) behind) → OfVendor p2pOui e

/-- the two functions agree, and the attributes are there -/
structure Merged (m : Nat → UInt8) (inLen : Nat) (rs : List Elem) (ret : Nat) (out : List UInt8) : Prop where
  ret_eq : ret = rtwGetP2pMergedIesLen m inLen
  length : out.length = rtwGetP2pMergedIesLen m inLen + 2
  out_eq : out = elOui ++ attributes rs

variable {m behind : Nat → UInt8} {e : Elem} {rs : List Elem} {i inLen n : Nat} {len : UInt8}
  {out : List UInt8}

theorem isP2p_iff : isP2p m i = true ↔ Taken Walk.eidVendorSpecific (some p2pOui) (shift m i) := by
  have hread : read (shift m i) 2 4 = read m (i + 2) 4 := read_shift
  unfold isP2p Taken ouiAt
  rw [Bool.and_eq_true, beq_iff_eq]
  show _ ↔ Walk.eidVendorSpecific = m i ∧ (read (shift m i) 2 4 == p2pOui) = true
  rw [hread]
  exact and_congr_left fun _ => eq_comm

theorem attributes_cons_of_vendor (h : OfVendor p2pOui e) :
    attributes (e :: rs) = e.body.drop 4 ++ attributes rs := by
  rw [attributes, List.filter_cons_of_pos (by simpa using h), List.flatMap_cons]
  rfl

theorem attributes_cons_of_not (h : ¬ OfVendor p2pOui e) : attributes (e :: rs) = attributes rs := by
  rw [attributes, List.filter_cons_of_neg (by simpa using h)]
  rfl

theorem noStray_nil : NoStray behind [] := by
  intro a e c h
  cases a <;> cases h

theorem noStray_cons : NoStray behind (e :: rs) ↔
    (Taken Walk.eidVendorSpecific (some p2pOui) (ahead (all elems (e :: rs)) behind) → OfVendor p2pOui e)
      ∧ NoStray behind rs := by
  constructor
  · intro h
    exact ⟨h [] e rs rfl, fun a x c hx => h (e :: a) x c (by rw [hx]; rfl)⟩
  · rintro ⟨he, h⟩ a x c hx
    cases a with
    | nil =>
      cases hx
      exact he
    | cons y a =>
      cases hx
      exact h a x c rfl

/-! ## the loops -/

/-- a P2P element is long enough for its OUI -/
theorem four_le_of_vendor (h : OfVendor p2pOui e) : 4 ≤ e.body.length := (h.2 p2pOui rfl).length_le

/-- an element that is taken and has four bytes is a P2P element -/
theorem vendor_of_taken
    (h : Taken Walk.eidVendorSpecific (some p2pOui) (ahead (all elems (e :: rs)) behind))
    (h4 : 4 ≤ e.body.length) : OfVendor p2pOui e := by
  obtain ⟨hid, ho⟩ := h
  refine ⟨hid.symm, ?_⟩
  rintro o ⟨⟩
  have hbody : read (ahead (all elems (e :: rs)) behind) 2 4 = (e.body ++ all elems rs).take 4 := by
    refine read_behind [e.id, UInt8.ofNat e.body.length] shift_zero ?_
    rw [List.length_append]
    omega
  have heq : e.body.take 4 = p2pOui := by
    rw [← List.take_append_of_le_length h4, ← hbody]
    exact beq_iff_eq.mp ho
  rw [← heq]
  exact List.take_prefix 4 e.body

/-- what the two loops see of the element at `i` -/
theorem length_at (hm : shift m i = ahead (all elems (e :: rs)) behind) :
    (m (i + 1)).toNat = e.body.length ∧ shift m (i + (e.body.length + 2)) = ahead (all elems rs) behind := by
  rw [← List.append_nil (all elems (e :: rs))] at hm
  have hs := size_ahead hm
  have hr := shift_size hm
  rw [Elem.length_bytes] at hs hr
  rw [List.append_nil] at hr
  exact ⟨by omega, hr⟩

theorem read_attributes (hm : shift m i = ahead (all elems (e :: rs)) behind) (h4 : 4 ≤ e.body.length) :
    read m (i + 2 + 4) (e.body.length - 4) = e.body.drop 4 := by
  have hl : ([e.id, UInt8.ofNat e.body.length] ++ e.body.take 4).length = 6 := by
    rw [List.length_append, List.length_take_of_le h4]
    rfl
  have hsplit : all elems (e :: rs)
      = ([e.id, UInt8.ofNat e.body.length] ++ e.body.take 4) ++ (e.body.drop 4 ++ all elems rs) := by
    rw [List.append_assoc, ← List.append_assoc (e.body.take 4), List.take_append_drop]
    rfl
  have hlen : e.body.length - 4 = (e.body.drop 4).length := List.length_drop.symm
  rw [hsplit] at hm
  show read m (i + 6) _ = _
  rw [← hl, hlen, read_behind _ hm (by rw [List.length_append]; omega), List.take_left]

theorem size_cons (h : i + (all elems (e :: rs)).length = inLen) :
    i < inLen ∧ i + (e.body.length + 2) + (all elems rs).length = inLen := by
  rw [all_cons, List.length_append] at h
  change i + (e.body.length + 2 + _) = inLen at h
  exact ⟨by omega, by omega⟩

theorem mergedLenLoop_spec (hstray : NoStray behind rs) (hm : shift m i = ahead (all elems rs) behind)
    (hlen : i + (all elems rs).length = inLen) (hn : rs.length ≤ n) (len : Int) :
    mergedLenLoop m inLen n i len = len + (attributes rs).length := by
  induction rs generalizing i n len with
  | nil =>
    have hi : ¬ i < inLen := by
      rw [← hlen]
      exact Nat.lt_irrefl i
    have hout : mergedLenLoop m inLen n i len = len := by
      cases n with
      | zero => rfl
      | succ n => exact if_neg hi
    rw [hout]
    exact (Int.add_zero len).symm
  | cons e rs ih =>
    obtain ⟨n, rfl⟩ := Nat.exists_eq_add_one.mpr (Nat.lt_of_lt_of_le (Nat.succ_pos _) hn)
    obtain ⟨hhead, htail⟩ := noStray_cons.mp hstray
    obtain ⟨hlt, hlen'⟩ := size_cons hlen
    obtain ⟨hl, hm'⟩ := length_at hm
    have hrest := fun len => ih htail hm' hlen' (Nat.le_of_succ_le_succ hn) len
    rw [mergedLenLoop, if_pos hlt, hl, hrest]
    by_cases hv : OfVendor p2pOui e
    · have h4 := four_le_of_vendor hv
      have htk : isP2p m i = true := by
        rw [isP2p_iff, hm, ← List.append_nil (all elems (e :: rs))]
        exact taken_of_wanted hv
      rw [if_pos htk, attributes_cons_of_vendor hv, List.length_append, List.length_drop]
      omega
    · have hno : ¬ isP2p m i = true := by
        rw [isP2p_iff, hm]
        exact fun h => hv (hhead h)
      rw [if_neg hno, attributes_cons_of_not hv]

theorem mergeLoop_spec (hstray : NoStray behind rs) (hm : shift m i = ahead (all elems rs) behind)
    (hlen : i + (all elems rs).length = inLen) (hn : rs.length ≤ n) (len : UInt8) (out : List UInt8) :
    mergeLoop m inLen n i len out
      = some (len + UInt8.ofNat (attributes rs).length, out ++ attributes rs) := by
  induction rs generalizing i n len out with
  | nil =>
    have hi : ¬ i < inLen := by
      rw [← hlen]
      exact Nat.lt_irrefl i
    have hout : mergeLoop m inLen n i len out = some (len, out) := by
      cases n with
      | zero => rfl
      | succ n => exact if_neg hi
    rw [hout]
    show some (len, out) = some (len + 0, out ++ [])
    rw [UInt8.add_zero, List.append_nil]
  | cons e rs ih =>
    obtain ⟨n, rfl⟩ := Nat.exists_eq_add_one.mpr (Nat.lt_of_lt_of_le (Nat.succ_pos _) hn)
    obtain ⟨hhead, htail⟩ := noStray_cons.mp hstray
    obtain ⟨hlt, hlen'⟩ := size_cons hlen
    obtain ⟨hl, hm'⟩ := length_at hm
    have hrest := fun len out => ih htail hm' hlen' (Nat.le_of_succ_le_succ hn) len out
    rw [mergeLoop, if_pos hlt, hl]
    by_cases hv : OfVendor p2pOui e
    · have h4 := four_le_of_vendor hv
      have htk : isP2p m i = true := by
        rw [isP2p_iff, hm, ← List.append_nil (all elems (e :: rs))]
        exact taken_of_wanted hv
      dsimp only
      rw [if_pos htk, if_neg (by omega), hrest, attributes_cons_of_vendor hv, read_attributes hm h4,
        List.length_append, List.length_drop, UInt8.ofNat_add, UInt8.add_assoc, List.append_assoc]
    · have hno : ¬ isP2p m i = true := by
        rw [isP2p_iff, hm]
        exact fun h => hv (hhead h)
      dsimp only
      rw [if_neg hno, hrest, attributes_cons_of_not hv]

/-- a stray element is too short for the copy -/
theorem mergeLoop_stray (hstray : ¬ NoStray behind rs) (hm : shift m i = ahead (all elems rs) behind)
    (hlen : i + (all elems rs).length = inLen) (hn : rs.length ≤ n) (len : UInt8) (out : List UInt8) :
    mergeLoop m inLen n i len out = none := by
  induction rs generalizing i n len out with
  | nil => exact absurd noStray_nil hstray
  | cons e rs ih =>
    obtain ⟨n, rfl⟩ := Nat.exists_eq_add_one.mpr (Nat.lt_of_lt_of_le (Nat.succ_pos _) hn)
    obtain ⟨hlt, hlen'⟩ := size_cons hlen
    obtain ⟨hl, hm'⟩ := length_at hm
    have hrest := fun htail len out => ih htail hm' hlen' (Nat.le_of_succ_le_succ hn) len out
    rw [mergeLoop, if_pos hlt, hl]
    dsimp only
    by_cases htk : isP2p m i = true
    · rw [if_pos htk]
      rw [isP2p_iff, hm] at htk
      by_cases h4 : e.body.length < 4
      · exact if_pos h4
      · have hv := vendor_of_taken htk (Nat.not_lt.mp h4)
        rw [if_neg h4]
        exact hrest (fun h => hstray (noStray_cons.mpr ⟨fun _ => hv, h⟩)) _ _
    · rw [if_neg htk]
      rw [isP2p_iff, hm] at htk
      exact hrest (fun h => hstray (noStray_cons.mpr ⟨fun h' => absurd h' htk, h⟩)) _ _

theorem length_attributes_le (rs : List Elem) : (attributes rs).length ≤ (all elems rs).length := by
  induction rs with
  | nil => exact Nat.le_refl _
  | cons e rs ih =>
    rw [all_cons, List.length_append]
    change _ ≤ e.body.length + 2 + _
    by_cases hv : OfVendor p2pOui e
    · rw [attributes_cons_of_vendor hv, List.length_append, List.length_drop]
      omega
    · rw [attributes_cons_of_not hv]
      omega

end P2p

open P2p

/-- **The merge writes and returns what the length computation says** exactly when every element taken
for a P2P element has room for its OUI, and the attributes are fewer than 256 bytes. -/
theorem p2p_merge_iff (m : Nat → UInt8) (n : Nat) (rs : List Elem) (hm : read m 0 n = all elems rs)
    (h31 : n < 2 ^ 31) :
    (∃ ret out, rtwP2pMergeIes m n true = some (ret, out) ∧ Merged m n rs ret out)
      ↔ NoStray (shift m n) rs ∧ (attributes rs).length < 256 := by
  have hhere : shift m 0 = ahead (all elems rs) (shift m n) := by
    rw [shift_zero, ← hm, ahead_read]
  have hlen : 0 + (all elems rs).length = n := by rw [← hm, length_read, Nat.zero_add]
  have hfuel : rs.length ≤ n := by
    have := length_le_all (F := elems) rs
    omega
  by_cases hstray : NoStray (shift m n) rs
  · have hle := length_attributes_le rs
    have hwant : rtwGetP2pMergedIesLen m n = (attributes rs).length + 4 := by
      rw [rtwGetP2pMergedIesLen, mergedLenLoop_spec hstray hhere hlen hfuel]
      omega
    have hout : rtwP2pMergeIes m n true
        = some ((UInt8.ofNat (attributes rs).length).toNat + 4, elOui ++ attributes rs) := by
      rw [rtwP2pMergeIes, if_pos rfl, mergeLoop_spec hstray hhere hlen hfuel, UInt8.zero_add]
      rfl
    rw [and_iff_right hstray, hout]
    constructor
    · rintro ⟨ret, out, h, hmg⟩
      cases h
      have hret := hmg.ret_eq
      rw [hwant, UInt8.toNat_ofNat'] at hret
      omega
    · intro hlt
      refine ⟨_, _, rfl, ?_, ?_, rfl⟩
      · rw [hwant, UInt8.toNat_ofNat_of_lt' hlt]
      · rw [hwant, List.length_append]
        show 6 + _ = _
        omega
  · refine iff_of_false ?_ fun h => hstray h.1
    rintro ⟨ret, out, h, -⟩
    rw [rtwP2pMergeIes, if_pos rfl, mergeLoop_stray hstray hhere hlen hfuel] at h
    cases h

namespace P2p

/-- a P2P element of 255 bytes, and one of nine -/
def longList : List Elem :=
  [⟨0xdd, p2pOui ++ List.replicate 251 0, by decide +kernel⟩,
    ⟨0xdd, p2pOui ++ [1, 2, 3, 4, 5], by decide⟩]

theorem length_channel : [(6 : UInt8)].length < 256 := by decide

/-- two P2P elements, and another one between them -/
def shortList : List Elem :=
  [⟨0xdd, p2pOui ++ [1, 2], by decide⟩, ⟨3, [6], length_channel⟩, ⟨0xdd, p2pOui ++ [3], by decide⟩]

end P2p

/-- 256 bytes of attributes are counted as none -/
theorem long_p2p_merge : ¬ ∃ ret out,
    rtwP2pMergeIes (ahead (all elems longList) fun _ => 0) 268 true = some (ret, out)
      ∧ Merged (ahead (all elems longList) fun _ => 0) 268 longList ret out := by
  rintro ⟨ret, out, h, hmg⟩
  have h1 : (rtwP2pMergeIes (ahead (all elems longList) fun _ => 0) 268 true).map Prod.fst = some 4 := by
    decide +kernel
  have h2 : rtwGetP2pMergedIesLen (ahead (all elems longList) fun _ => 0) 268 = 260 := by decide +kernel
  have hret := hmg.ret_eq
  rw [h] at h1
  have hfour : ret = 4 := Option.some.inj h1
  rw [h2, hfour] at hret
  cases hret

theorem p2p_merge_iff_short : ∃ ret out,
    rtwP2pMergeIes (ahead (all elems shortList) fun _ => 0) 18 true = some (ret, out)
      ∧ Merged (ahead (all elems shortList) fun _ => 0) 18 shortList ret out := by
  refine (p2p_merge_iff _ 18 shortList rfl (by decide)).mpr ⟨?_, by decide⟩
  refine noStray_cons.mpr ⟨fun _ => by decide, noStray_cons.mpr ⟨fun h => ?_,
    noStray_cons.mpr ⟨fun _ => by decide, noStray_nil⟩⟩⟩
  exact absurd h (by decide)

end Rtl8192eu
