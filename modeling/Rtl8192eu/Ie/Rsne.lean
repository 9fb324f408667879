import Rtl8192eu.Ie.Attrs

/-!
# RSN elements

`rtw_rsne_info_parse` with its pointers into the element, and `rtw_parse_wpa2_ie` on top of it.  The
functions `rtwRsneInfoParse` and `rtwParseWpa2Ie` on values are the same two without addresses.

* `RsnePtrs`   `struct rsne_info`;
* `rsneInfoParse`, `parseWpa2Ie`   the source, with every read of the element;
* `Parsed`     a run that stays in the element, and what it has found;
* `Rsne`       an element that is built, and cut behind one of its fields;
* `rsne_parse_exact`   all bytes are read inside the element, and a built one is read as it was built.
-/

namespace Rtl8192eu

/-- `struct rsne_info`, with offsets into the element for pointers -/
structure RsnePtrs where
  gcs : Option Nat := none
  pcsCnt : Nat := 0
  pcsList : Option Nat := none
  akmCnt : Nat := 0
  akmList : Option Nat := none
  cap : Option Nat := none
  pmkidCnt : Nat := 0
  pmkidList : Option Nat := none
  gmcs : Option Nat := none
  err : Bool := false
  deriving DecidableEq, Repr

namespace Rsn

/-! ## the source -/

/-- `RTW_GET_LE16` at `pos` -/
def le16At (ie : List UInt8) (pos : Nat) : Option Nat := do
  let lo ← ie[pos]?
  let hi ← ie[pos + 1]?
  some (lo.toNat + 256 * hi.toNat)

/-- `if (ie + ie_len != pos) goto err; goto exit;` -/
def endAt (ie : List UInt8) (pos : Nat) (info : RsnePtrs) : Option (Bool × RsnePtrs) :=
  if ie.length ≠ pos then some (false, { info with err := true }) else some (true, info)

def gmcsAt (ie : List UInt8) (pos : Nat) (info : RsnePtrs) : Option (Bool × RsnePtrs) :=
  if ie.length < pos + 4 then endAt ie pos info
  else some (true, { info with gmcs := some pos })

def pmkidAt (ie : List UInt8) (pos : Nat) (info : RsnePtrs) : Option (Bool × RsnePtrs) :=
  if ie.length < pos + 2 then endAt ie pos info
  else
    (le16At ie pos).bind fun cnt =>
      if ie.length < pos + 2 + 16 * cnt then endAt ie (pos + 2) info
      else gmcsAt ie (pos + 2 + 16 * cnt) { info with pmkidCnt := cnt, pmkidList := some (pos + 2) }

def capAt (ie : List UInt8) (pos : Nat) (info : RsnePtrs) : Option (Bool × RsnePtrs) :=
  if ie.length < pos + 2 then endAt ie pos info
  else pmkidAt ie (pos + 2) { info with cap := some pos }

def akmAt (ie : List UInt8) (pos : Nat) (info : RsnePtrs) : Option (Bool × RsnePtrs) :=
  if ie.length < pos + 2 then endAt ie pos info
  else
    (le16At ie pos).bind fun cnt =>
      if ie.length < pos + 2 + 4 * cnt then endAt ie (pos + 2) info
      else capAt ie (pos + 2 + 4 * cnt) { info with akmCnt := cnt, akmList := some (pos + 2) }

def pcsAt (ie : List UInt8) (pos : Nat) (info : RsnePtrs) : Option (Bool × RsnePtrs) :=
  if ie.length < pos + 2 then endAt ie pos info
  else
    (le16At ie pos).bind fun cnt =>
      if ie.length < pos + 2 + 4 * cnt then endAt ie (pos + 2) info
      else akmAt ie (pos + 2 + 4 * cnt) { info with pcsCnt := cnt, pcsList := some (pos + 2) }

def gcsAt (ie : List UInt8) (pos : Nat) (info : RsnePtrs) : Option (Bool × RsnePtrs) :=
  if ie.length < pos + 4 then endAt ie pos info
  else pcsAt ie (pos + 4) { info with gcs := some pos }

end Rsn

open Rsn

/-- `rtw_rsne_info_parse`; `none` is a read outside of the element -/
def rsneInfoParse (ie : List UInt8) : Option (Bool × RsnePtrs) :=
  if ie.length < 4 then some (false, { err := true })
  else
    (ie[0]?).bind fun id =>
      (ie[1]?).bind fun elen =>
        if id ≠ 0x30 ∨ elen.toNat ≠ ie.length - 2 then some (false, { err := true })
        else gcsAt ie 4 {}

namespace Rsn

/-- the suite selectors `list[0..cnt)`, each looked up with `f` -/
def orSuites (ie : List UInt8) (f : List UInt8 → Nat) (list cnt : Nat) : Option Nat :=
  (List.range cnt).foldlM (fun acc i => (Walk.readBytes ie (list + 4 * i) 4).map fun s => acc ||| f s) 0

/-- a field that may be `NULL` -/
def suiteAt (ie : List UInt8) (p : Option Nat) (absent : Nat) : Option Nat :=
  match p with
  | none => some absent
  | some p => (Walk.readBytes ie p 4).map rsnCipherSuite

/-- `LE_BITS_TO_2BYTE(cap, lo, 2)` -/
def capBits (ie : List UInt8) (p : Option Nat) (lo : Nat) : Option Nat :=
  match p with
  | none => some 0
  | some p => (le16At ie p).map fun cap => cap / 2 ^ lo % 4

def suiteSel (ie : List UInt8) (info : RsnePtrs) : Option SuiteSel := do
  let groupCipher ← suiteAt ie info.gcs 0
  let pairwiseCipher ← orSuites ie rsnCipherSuite (info.pcsList.getD 0) info.pcsCnt
  let gmcs ← suiteAt ie info.gmcs wpaCipherBipCmac128
  let akm ← orSuites ie akmSuiteBitmap (info.akmList.getD 0) info.akmCnt
  let mfpOpt ← capBits ie info.cap 6
  let sppOpt ← capBits ie info.cap 10
  some { groupCipher, pairwiseCipher, gmcs, akm, mfpOpt, sppOpt }

end Rsn

/-- `rtw_parse_wpa2_ie`, asked for everything; the outer `none` is a read outside of the element, the
inner one is `_FAIL` -/
def parseWpa2Ie (ie : List UInt8) : Option (Option SuiteSel) :=
  (rsneInfoParse ie).bind fun x => if x.1 then (suiteSel ie x.2).map some else some none

namespace Rsn

/-! ## what is found -/

/-- the first `n` pieces of `size` bytes -/
def blocks (size n : Nat) (l : List UInt8) : List (List UInt8) :=
  (List.range n).map fun i => (l.drop (size * i)).take size

/-- the fields that are there, with their bytes -/
structure Fields where
  gcs : Option (List UInt8) := none
  pcs : Option (List (List UInt8)) := none
  akm : Option (List (List UInt8)) := none
  cap : Option Nat := none
  pmkid : Option (List (List UInt8)) := none
  gmcs : Option (List UInt8) := none
  deriving DecidableEq, Repr

def fieldsOf (ie : List UInt8) (info : RsnePtrs) : Fields where
  gcs := info.gcs.map fun p => (ie.drop p).take 4
  pcs := info.pcsList.map fun p => blocks 4 info.pcsCnt (ie.drop p)
  akm := info.akmList.map fun p => blocks 4 info.akmCnt (ie.drop p)
  cap := info.cap.map fun p => getLe16 (ie.drop p)
  pmkid := info.pmkidList.map fun p => blocks 16 info.pmkidCnt (ie.drop p)
  gmcs := info.gmcs.map fun p => (ie.drop p).take 4

/-- the same without the PMKIDs -/
def Fields.info (f : Fields) : RsneInfo where
  gcs := f.gcs
  pcsList := f.pcs.getD []
  akmList := f.akm.getD []
  cap := f.cap
  gmcs := f.gmcs

/-- offset and size of the fields that are there -/
def extents (info : RsnePtrs) : List (Nat × Nat) :=
  (info.gcs.map fun p => (p, 4)).toList
    ++ ((info.pcsList.map fun p => (p, 4 * info.pcsCnt)).toList
    ++ ((info.akmList.map fun p => (p, 4 * info.akmCnt)).toList
    ++ ((info.cap.map fun p => (p, 2)).toList
    ++ ((info.pmkidList.map fun p => (p, 16 * info.pmkidCnt)).toList
    ++ (info.gmcs.map fun p => (p, 4)).toList))))

/-- pieces one behind the other, that end at `n` at the latest -/
def InOrder (xs : List (Nat × Nat)) (n : Nat) : Prop :=
  xs.Pairwise (fun x y => x.1 + x.2 ≤ y.1) ∧ ∀ x ∈ xs, x.1 + x.2 ≤ n

/-- a list that is not there has no entries -/
def Counted (info : RsnePtrs) : Prop :=
  (info.pcsList = none → info.pcsCnt = 0) ∧ (info.akmList = none → info.akmCnt = 0)
    ∧ (info.pmkidList = none → info.pmkidCnt = 0)

/-- what the parser reports -/
structure Found (ie : List UInt8) (info : RsnePtrs) : Prop where
  order : InOrder (extents info) ie.length
  counted : Counted info

/-- a run that ends inside the element, and the run on values -/
def Parsed (ie : List UInt8) (x : Option (Bool × RsnePtrs)) (y : Option RsneInfo) : Prop :=
  ∃ ret info, x = some (ret, info) ∧ (ret = true → Found ie info)
    ∧ y = if ret then some (fieldsOf ie info).info else none

variable {ie : List UInt8} {info : RsnePtrs} {pos n k p : Nat} {xs : List (Nat × Nat)}

theorem InOrder.snoc (h : InOrder xs pos) (hp : pos ≤ p) : InOrder (xs ++ [(p, k)]) (p + k) := by
  refine ⟨List.pairwise_append.mpr ⟨h.1, List.pairwise_singleton _ _, ?_⟩, ?_⟩
  · intro x hx y hy
    rw [List.mem_singleton.mp hy]
    exact Nat.le_trans (h.2 x hx) hp
  · intro x hx
    rcases List.mem_append.mp hx with hx | hx
    · have := h.2 x hx
      omega
    · obtain rfl := List.mem_singleton.mp hx
      exact Nat.le_refl _

theorem InOrder.mono (h : InOrder xs pos) (hp : pos ≤ n) : InOrder xs n :=
  ⟨h.1, fun x hx => Nat.le_trans (h.2 x hx) hp⟩

theorem le16At_eq (h : pos + 2 ≤ ie.length) : le16At ie pos = some (getLe16 (ie.drop pos)) := by
  have h0 : ie[pos]? = some ie[pos] := List.getElem?_eq_getElem (by omega)
  have h1 : ie[pos + 1]? = some ie[pos + 1] := List.getElem?_eq_getElem (by omega)
  have hd0 : (ie.drop pos).getD 0 0 = ie[pos] := by
    rw [List.getD_eq_getElem?_getD, List.getElem?_drop, Nat.add_zero, h0, Option.getD_some]
  have hd1 : (ie.drop pos).getD 1 0 = ie[pos + 1] := by
    rw [List.getD_eq_getElem?_getD, List.getElem?_drop, h1, Option.getD_some]
  rw [le16At, h0, h1, getLe16, hd0, hd1]
  rfl

/-! ## field after field -/

theorem endAt_parsed (hpos : pos ≤ ie.length) (ho : InOrder (extents info) pos) (hc : Counted info) :
    Parsed ie (endAt ie pos info) (rsneEnd (fieldsOf ie info).info (ie.drop pos)) := by
  unfold endAt rsneEnd
  by_cases h : ie.length ≠ pos
  · have hne : ¬ (ie.drop pos).isEmpty = true := by
      rw [List.isEmpty_iff, List.drop_eq_nil_iff]
      omega
    rw [if_pos h, if_neg hne]
    exact ⟨false, _, rfl, nofun, rfl⟩
  · have hnil : (ie.drop pos).isEmpty = true := by
      rw [List.isEmpty_iff, List.drop_eq_nil_iff]
      omega
    rw [if_neg h, if_pos hnil]
    exact ⟨true, info, rfl, fun _ => ⟨ho.mono hpos, hc⟩, rfl⟩

theorem gmcsAt_parsed (hpos : pos ≤ ie.length) (ho : InOrder (extents info) pos) (hc : Counted info)
    (hn : info.gmcs = none) :
    Parsed ie (gmcsAt ie pos info) (rsneGmcs (fieldsOf ie info).info (ie.drop pos)) := by
  unfold gmcsAt rsneGmcs
  have hlen : (ie.drop pos).length = ie.length - pos := List.length_drop
  by_cases h : ie.length < pos + 4
  · rw [if_pos h, if_pos (by omega)]
    exact endAt_parsed hpos ho hc
  · rw [if_neg h, if_neg (by omega)]
    have hext : extents { info with gmcs := some pos } = extents info ++ [(pos, 4)] := by
      simp [extents, hn]
    have hord := ho.snoc (k := 4) (Nat.le_refl pos)
    rw [← hext] at hord
    exact ⟨true, _, rfl, fun _ => ⟨hord.mono (by omega), hc⟩, rfl⟩

/-- **A list behind its count**: the run ends before it, or goes on behind it. -/
theorem counted_parsed {size : Nat} {next : Nat → Option (Bool × RsnePtrs)} {v : Option RsneInfo}
    (hpos : pos ≤ ie.length) (ho : InOrder (extents info) pos) (hc : Counted info)
    (hnext : pos + 2 + size * getLe16 (ie.drop pos) ≤ ie.length →
      InOrder (extents info ++ [(pos + 2, size * getLe16 (ie.drop pos))])
        (pos + 2 + size * getLe16 (ie.drop pos)) →
      Parsed ie (next (getLe16 (ie.drop pos))) v) :
    Parsed ie
      (if ie.length < pos + 2 then endAt ie pos info
      else (le16At ie pos).bind fun cnt =>
        if ie.length < pos + 2 + size * cnt then endAt ie (pos + 2) info else next cnt)
      (if (ie.drop pos).length < 2 then rsneEnd (fieldsOf ie info).info (ie.drop pos)
      else if ((ie.drop pos).drop 2).length < size * getLe16 (ie.drop pos) then
        rsneEnd (fieldsOf ie info).info ((ie.drop pos).drop 2)
      else v) := by
  have hlen : (ie.drop pos).length = ie.length - pos := List.length_drop
  by_cases h : ie.length < pos + 2
  · rw [if_pos h, if_pos (by omega)]
    exact endAt_parsed hpos ho hc
  · rw [if_neg h, if_neg (by omega), le16At_eq (by omega), Option.bind_some, List.length_drop]
    by_cases hl : ie.length < pos + 2 + size * getLe16 (ie.drop pos)
    · rw [if_pos hl, if_pos (by omega), List.drop_drop]
      exact endAt_parsed (by omega) (ho.mono (by omega)) hc
    · rw [if_neg hl, if_neg (by omega)]
      exact hnext (by omega) (ho.snoc (Nat.le_add_right pos 2))

theorem pmkidAt_parsed (hpos : pos ≤ ie.length) (ho : InOrder (extents info) pos) (hc : Counted info)
    (hp : info.pmkidList = none) (hn : info.gmcs = none) :
    Parsed ie (pmkidAt ie pos info) (rsnePmkid (fieldsOf ie info).info (ie.drop pos)) := by
  unfold pmkidAt rsnePmkid
  refine counted_parsed hpos ho hc fun hle hord => ?_
  have hext : extents { info with pmkidCnt := getLe16 (ie.drop pos), pmkidList := some (pos + 2) }
      = extents info ++ [(pos + 2, 16 * getLe16 (ie.drop pos))] := by
    simp [extents, hp, hn]
  rw [← hext] at hord
  rw [List.drop_drop, List.drop_drop, ← Nat.add_assoc]
  exact gmcsAt_parsed hle hord ⟨hc.1, hc.2.1, nofun⟩ hn

theorem capAt_parsed (hpos : pos ≤ ie.length) (ho : InOrder (extents info) pos) (hc : Counted info)
    (hcap : info.cap = none) (hp : info.pmkidList = none) (hn : info.gmcs = none) :
    Parsed ie (capAt ie pos info) (rsneCap (fieldsOf ie info).info (ie.drop pos)) := by
  unfold capAt rsneCap
  have hlen : (ie.drop pos).length = ie.length - pos := List.length_drop
  by_cases h : ie.length < pos + 2
  · rw [if_pos h, if_pos (by omega)]
    exact endAt_parsed hpos ho hc
  · rw [if_neg h, if_neg (by omega), List.drop_drop]
    have hext : extents { info with cap := some pos } = extents info ++ [(pos, 2)] := by
      simp [extents, hcap, hp, hn]
    have hord := ho.snoc (k := 2) (Nat.le_refl pos)
    rw [← hext] at hord
    exact pmkidAt_parsed (by omega) hord hc hp hn

theorem akmAt_parsed (hpos : pos ≤ ie.length) (ho : InOrder (extents info) pos) (hc : Counted info)
    (hakm : info.akmList = none) (hcap : info.cap = none) (hp : info.pmkidList = none)
    (hn : info.gmcs = none) :
    Parsed ie (akmAt ie pos info) (rsneAkm (fieldsOf ie info).info (ie.drop pos)) := by
  unfold akmAt rsneAkm
  refine counted_parsed hpos ho hc fun hle hord => ?_
  have hext : extents { info with akmCnt := getLe16 (ie.drop pos), akmList := some (pos + 2) }
      = extents info ++ [(pos + 2, 4 * getLe16 (ie.drop pos))] := by
    simp [extents, hakm, hcap, hp, hn]
  rw [← hext] at hord
  rw [List.drop_drop, List.drop_drop]
  exact capAt_parsed hle hord ⟨hc.1, nofun, hc.2.2⟩ hcap hp hn

theorem pcsAt_parsed (hpos : pos ≤ ie.length) (ho : InOrder (extents info) pos) (hc : Counted info)
    (hpcs : info.pcsList = none) (hakm : info.akmList = none) (hcap : info.cap = none)
    (hp : info.pmkidList = none) (hn : info.gmcs = none) :
    Parsed ie (pcsAt ie pos info) (rsnePcs (fieldsOf ie info).info (ie.drop pos)) := by
  unfold pcsAt rsnePcs
  refine counted_parsed hpos ho hc fun hle hord => ?_
  have hext : extents { info with pcsCnt := getLe16 (ie.drop pos), pcsList := some (pos + 2) }
      = extents info ++ [(pos + 2, 4 * getLe16 (ie.drop pos))] := by
    simp [extents, hpcs, hakm, hcap, hp, hn]
  rw [← hext] at hord
  rw [List.drop_drop, List.drop_drop]
  exact akmAt_parsed hle hord ⟨nofun, hc.2⟩ hakm hcap hp hn

theorem gcsAt_parsed (hpos : pos ≤ ie.length) :
    Parsed ie (gcsAt ie pos {}) (rsneGcs {} (ie.drop pos)) := by
  unfold gcsAt rsneGcs
  have hlen : (ie.drop pos).length = ie.length - pos := List.length_drop
  have hempty : InOrder (extents {}) pos := ⟨List.Pairwise.nil, nofun⟩
  by_cases h : ie.length < pos + 4
  · rw [if_pos h, if_pos (by omega)]
    exact endAt_parsed hpos hempty ⟨fun _ => rfl, fun _ => rfl, fun _ => rfl⟩
  · rw [if_neg h, if_neg (by omega), List.drop_drop]
    have hord : InOrder (extents { gcs := some pos }) (pos + 4) := hempty.snoc (k := 4) (Nat.le_refl pos)
    exact pcsAt_parsed (by omega) hord ⟨fun _ => rfl, fun _ => rfl, fun _ => rfl⟩ rfl rfl rfl rfl rfl

/-- **The parser stays in the element** and does what the one on values does. -/
theorem rsneInfoParse_parsed (ie : List UInt8) : Parsed ie (rsneInfoParse ie) (rtwRsneInfoParse ie) := by
  unfold rsneInfoParse rtwRsneInfoParse
  by_cases h : ie.length < 4
  · rw [if_pos h, if_pos h]
    exact ⟨false, _, rfl, nofun, rfl⟩
  · have h0 : ie[0]? = some (ie.getD 0 0) := by
      rw [List.getD_eq_getElem?_getD, List.getElem?_eq_getElem (by omega), Option.getD_some]
    have h1 : ie[1]? = some (ie.getD 1 0) := by
      rw [List.getD_eq_getElem?_getD, List.getElem?_eq_getElem (by omega), Option.getD_some]
    have hor : (ie.getD 0 0 ≠ 0x30 || (ie.getD 1 0).toNat ≠ ie.length - 2) = true
        ↔ ie.getD 0 0 ≠ 0x30 ∨ (ie.getD 1 0).toNat ≠ ie.length - 2 := by
      rw [Bool.or_eq_true, decide_eq_true_iff, decide_eq_true_iff]
    rw [if_neg h, if_neg h, h0, h1, Option.bind_some, Option.bind_some]
    by_cases hbad : ie.getD 0 0 ≠ 0x30 ∨ (ie.getD 1 0).toNat ≠ ie.length - 2
    · rw [if_pos hbad, if_pos (hor.mpr hbad)]
      exact ⟨false, _, rfl, nofun, rfl⟩
    · rw [if_neg hbad, if_neg (mt hor.mp hbad)]
      exact gcsAt_parsed (by omega)

/-! ## `rtw_parse_wpa2_ie` -/

theorem orSuites_eq (f : List UInt8 → Nat) {list cnt : Nat} (h : list + 4 * cnt ≤ ie.length) :
    orSuites ie f list cnt = some (orAll ((suites cnt (ie.drop list)).map f)) := by
  induction cnt with
  | zero => rfl
  | succ cnt ih =>
    have hread : Walk.readBytes ie (list + 4 * cnt) 4 = some (((ie.drop list).drop (4 * cnt)).take 4) := by
      rw [List.drop_drop]
      exact Walk.readBytes_some (by omega)
    unfold orSuites suites orAll at ih ⊢
    rw [List.range_succ, List.foldlM_append, ih (by omega), List.map_append, List.map_append,
      List.foldl_append]
    dsimp only [Option.bind_eq_bind, Option.bind_some]
    rw [List.foldlM_cons, hread]
    rfl

theorem suiteAt_eq {p : Option Nat} (absent : Nat) (h : ∀ x ∈ p, x + 4 ≤ ie.length) :
    suiteAt ie p absent = some (((p.map fun p => (ie.drop p).take 4).map rsnCipherSuite).getD absent) := by
  cases p with
  | none => rfl
  | some p =>
    show (Walk.readBytes ie p 4).map _ = _
    rw [Walk.readBytes_some (h p rfl)]
    rfl

theorem capBits_eq {p : Option Nat} (lo : Nat) (h : ∀ x ∈ p, x + 2 ≤ ie.length) :
    capBits ie p lo = some ((p.map fun p => getLe16 (ie.drop p)).getD 0 / 2 ^ lo % 4) := by
  cases p with
  | none =>
    show some 0 = some (0 / 2 ^ lo % 4)
    rw [Nat.zero_div]
  | some p =>
    show (le16At ie p).map _ = _
    rw [le16At_eq (h p rfl)]
    rfl

/-- what a parser on values gives -/
def selOf (info : RsneInfo) : SuiteSel where
  groupCipher := (info.gcs.map rsnCipherSuite).getD 0
  pairwiseCipher := orAll (info.pcsList.map rsnCipherSuite)
  gmcs := (info.gmcs.map rsnCipherSuite).getD wpaCipherBipCmac128
  akm := orAll (info.akmList.map akmSuiteBitmap)
  mfpOpt := (info.cap.getD 0 / 64) % 4
  sppOpt := (info.cap.getD 0 / 1024) % 4

theorem rtwParseWpa2Ie_eq (ie : List UInt8) : rtwParseWpa2Ie ie = (rtwRsneInfoParse ie).map selOf := rfl

/-- a list that was found -/
theorem orSuites_found (f : List UInt8 → Nat) {list : Option Nat} {cnt : Nat}
    (hin : ∀ p ∈ list, p + 4 * cnt ≤ ie.length) (hcnt : list = none → cnt = 0) :
    orSuites ie f (list.getD 0) cnt
      = some (orAll (((list.map fun p => blocks 4 cnt (ie.drop p)).getD []).map f)) := by
  cases list with
  | none =>
    rw [hcnt rfl]
    rfl
  | some p => exact orSuites_eq f (hin p rfl)

theorem suiteSel_eq (h : Found ie info) : suiteSel ie info = some (selOf (fieldsOf ie info).info) := by
  obtain ⟨⟨-, hin⟩, hpcs, hakm, -⟩ := h
  have hgcs : ∀ p ∈ info.gcs, p + 4 ≤ ie.length := by
    intro p hp
    exact hin (p, 4) (by simp [extents, Option.mem_def.mp hp])
  have hpl : ∀ p ∈ info.pcsList, p + 4 * info.pcsCnt ≤ ie.length := by
    intro p hp
    exact hin (p, 4 * info.pcsCnt) (by simp [extents, Option.mem_def.mp hp])
  have hal : ∀ p ∈ info.akmList, p + 4 * info.akmCnt ≤ ie.length := by
    intro p hp
    exact hin (p, 4 * info.akmCnt) (by simp [extents, Option.mem_def.mp hp])
  have hcap : ∀ p ∈ info.cap, p + 2 ≤ ie.length := by
    intro p hp
    exact hin (p, 2) (by simp [extents, Option.mem_def.mp hp])
  have hgmcs : ∀ p ∈ info.gmcs, p + 4 ≤ ie.length := by
    intro p hp
    exact hin (p, 4) (by simp [extents, Option.mem_def.mp hp])
  rw [suiteSel, suiteAt_eq 0 hgcs, orSuites_found _ hpl hpcs, suiteAt_eq _ hgmcs,
    orSuites_found _ hal hakm, capBits_eq 6 hcap, capBits_eq 10 hcap]
  rfl

/-- **`rtw_parse_wpa2_ie` stays in the element** and does what the one on values does. -/
theorem parseWpa2Ie_eq (ie : List UInt8) : parseWpa2Ie ie = some (rtwParseWpa2Ie ie) := by
  obtain ⟨ret, info, hrun, hfound, hval⟩ := rsneInfoParse_parsed ie
  rw [parseWpa2Ie, hrun, rtwParseWpa2Ie_eq, hval, Option.bind_some]
  cases ret with
  | false => rfl
  | true =>
    show (suiteSel ie info).map some = _
    rw [suiteSel_eq (hfound rfl)]
    rfl

/-! ## elements that are built -/

abbrev Suite := { l : List UInt8 // l.length = 4 }
abbrev Pmkid := { l : List UInt8 // l.length = 16 }

/-- a list of pieces behind its count -/
def counted (xs : List (List UInt8)) : List UInt8 := putLe16 xs.length ++ xs.flatten

end Rsn

/-- the fields of an RSNE -/
structure RsneFields where
  version : UInt16
  gcs : Suite
  pcs : List Suite
  akm : List Suite
  cap : UInt16
  pmkid : List Pmkid
  gmcs : Suite

namespace RsneFields

variable (r : RsneFields) (k : Nat)

/-- the element is cut behind the first `k` fields that follow the version -/
def fromGmcs : List UInt8 := if 6 ≤ k then r.gmcs.val else []
def fromPmkid : List UInt8 := if 5 ≤ k then counted (r.pmkid.map (·.val)) ++ r.fromGmcs k else []
def fromCap : List UInt8 := if 4 ≤ k then putLe16 r.cap.toNat ++ r.fromPmkid k else []
def fromAkm : List UInt8 := if 3 ≤ k then counted (r.akm.map (·.val)) ++ r.fromCap k else []
def fromPcs : List UInt8 := if 2 ≤ k then counted (r.pcs.map (·.val)) ++ r.fromAkm k else []
def fromGcs : List UInt8 := if 1 ≤ k then r.gcs.val ++ r.fromPcs k else []

def body : List UInt8 := putLe16 r.version.toNat ++ r.fromGcs k

end RsneFields

/-- an RSNE that ends behind a field; its body has room in an element -/
structure Rsne extends RsneFields where
  present : Nat
  length_lt : (toRsneFields.body present).length < 256

namespace Rsne

def bytes (r : Rsne) : List UInt8 :=
  0x30 :: UInt8.ofNat (r.body r.present).length :: r.body r.present

/-- the fields that are there -/
def fields (r : Rsne) : Rsn.Fields where
  gcs := if 1 ≤ r.present then some r.gcs.val else none
  pcs := if 2 ≤ r.present then some (r.pcs.map (·.val)) else none
  akm := if 3 ≤ r.present then some (r.akm.map (·.val)) else none
  cap := if 4 ≤ r.present then some r.cap.toNat else none
  pmkid := if 5 ≤ r.present then some (r.pmkid.map (·.val)) else none
  gmcs := if 6 ≤ r.present then some r.gmcs.val else none

end Rsne

namespace Rsn

variable {r : RsneFields} {pre rest : List UInt8} {f : Fields}

/-- the pieces that were written -/
theorem blocks_flatten {size : Nat} (ys : List (List UInt8)) (hys : ∀ y ∈ ys, y.length = size)
    (rest : List UInt8) : blocks size ys.length (ys.flatten ++ rest) = ys := by
  induction ys with
  | nil => rfl
  | cons y ys ih =>
    have hy : y.length = size := hys y List.mem_cons_self
    have htail := ih fun z hz => hys z (List.mem_cons_of_mem _ hz)
    unfold blocks at htail ⊢
    rw [List.length_cons, List.range_succ_eq_map, List.map_cons, List.map_map, List.flatten_cons,
      List.append_assoc, Nat.mul_zero, List.drop_zero, List.take_left' hy]
    congr 1
    conv_rhs => rw [← htail]
    apply List.map_congr_left
    intro i _
    show ((y ++ (ys.flatten ++ rest)).drop (size * (i + 1))).take size = _
    rw [Nat.mul_succ, Nat.add_comm, ← List.drop_drop, List.drop_left' hy]

theorem length_flatten {size : Nat} (ys : List (List UInt8)) (hys : ∀ y ∈ ys, y.length = size) :
    ys.flatten.length = size * ys.length := by
  induction ys with
  | nil => rfl
  | cons y ys ih =>
    rw [List.flatten_cons, List.length_append, hys y List.mem_cons_self,
      ih fun z hz => hys z (List.mem_cons_of_mem _ hz), List.length_cons, Nat.mul_succ, Nat.add_comm]

theorem length_counted {size : Nat} {ys : List (List UInt8)} (hys : ∀ y ∈ ys, y.length = size) :
    (counted ys).length = 2 + size * ys.length := by
  rw [counted, List.length_append, length_flatten ys hys]
  rfl

theorem length_val {size : Nat} (l : List { l : List UInt8 // l.length = size }) :
    ∀ y ∈ l.map (·.val), y.length = size := by
  intro y hy
  obtain ⟨x, -, rfl⟩ := List.mem_map.mp hy
  exact x.property

/-- the end of the element -/
theorem endAt_built (ie : List UInt8) (info : RsnePtrs) : endAt ie ie.length info = some (true, info) :=
  if_neg (not_not.mpr rfl)

/-! ## the fields from one on -/

def addGmcs (r : RsneFields) (k : Nat) (f : Fields) : Fields :=
  if 6 ≤ k then { f with gmcs := some r.gmcs.val } else f

def addPmkid (r : RsneFields) (k : Nat) (f : Fields) : Fields :=
  if 5 ≤ k then addGmcs r k { f with pmkid := some (r.pmkid.map (·.val)) } else f

def addCap (r : RsneFields) (k : Nat) (f : Fields) : Fields :=
  if 4 ≤ k then addPmkid r k { f with cap := some r.cap.toNat } else f

def addAkm (r : RsneFields) (k : Nat) (f : Fields) : Fields :=
  if 3 ≤ k then addCap r k { f with akm := some (r.akm.map (·.val)) } else f

def addPcs (r : RsneFields) (k : Nat) (f : Fields) : Fields :=
  if 2 ≤ k then addAkm r k { f with pcs := some (r.pcs.map (·.val)) } else f

def addGcs (r : RsneFields) (k : Nat) (f : Fields) : Fields :=
  if 1 ≤ k then addPcs r k { f with gcs := some r.gcs.val } else f

theorem addGcs_eq (r : Rsne) : addGcs r.toRsneFields r.present {} = r.fields := by
  have hmono : ∀ {i}, ¬ i ≤ r.present → ∀ j, i ≤ j → ¬ j ≤ r.present := fun h j hj hk => h (Nat.le_trans hj hk)
  unfold Rsne.fields addGcs addPcs addAkm addCap addPmkid addGmcs
  by_cases h1 : 1 ≤ r.present
  · by_cases h2 : 2 ≤ r.present
    · by_cases h3 : 3 ≤ r.present
      · by_cases h4 : 4 ≤ r.present
        · by_cases h5 : 5 ≤ r.present
          · by_cases h6 : 6 ≤ r.present
            · simp only [if_pos h1, if_pos h2, if_pos h3, if_pos h4, if_pos h5, if_pos h6]
            · simp only [if_pos h1, if_pos h2, if_pos h3, if_pos h4, if_pos h5, if_neg h6]
          · simp only [if_pos h1, if_pos h2, if_pos h3, if_pos h4, if_neg h5,
              if_neg (hmono h5 6 (by decide))]
        · simp only [if_pos h1, if_pos h2, if_pos h3, if_neg h4, if_neg (hmono h4 5 (by decide)),
            if_neg (hmono h4 6 (by decide))]
      · simp only [if_pos h1, if_pos h2, if_neg h3, if_neg (hmono h3 4 (by decide)),
          if_neg (hmono h3 5 (by decide)), if_neg (hmono h3 6 (by decide))]
    · simp only [if_pos h1, if_neg h2, if_neg (hmono h2 3 (by decide)), if_neg (hmono h2 4 (by decide)),
        if_neg (hmono h2 5 (by decide)), if_neg (hmono h2 6 (by decide))]
  · simp only [if_neg h1, if_neg (hmono h1 2 (by decide)), if_neg (hmono h1 3 (by decide)),
      if_neg (hmono h1 4 (by decide)), if_neg (hmono h1 5 (by decide)), if_neg (hmono h1 6 (by decide))]

/-- the run succeeds, and reports `f` -/
def Reports (ie : List UInt8) (x : Option (Bool × RsnePtrs)) (f : Fields) : Prop :=
  ∃ info, x = some (true, info) ∧ fieldsOf ie info = f

/-- a count, and the pieces behind it -/
theorem counted_at {size : Nat} {ys : List (List UInt8)} (hys : ∀ y ∈ ys, y.length = size)
    (hie : ie = pre ++ (counted ys ++ rest)) (hlt : ie.length < 65536) (hsize : 0 < size) :
    le16At ie pre.length = some ys.length ∧ pre.length + 2 + size * ys.length ≤ ie.length
      ∧ blocks size ys.length (ie.drop (pre.length + 2)) = ys
      ∧ (pre ++ counted ys).length = pre.length + 2 + size * ys.length := by
  have hc := length_counted hys
  have hlen : ie.length = pre.length + (2 + size * ys.length + rest.length) := by
    rw [hie, List.length_append, List.length_append, hc]
  have hle : ys.length ≤ size * ys.length := Nat.le_mul_of_pos_left _ hsize
  have hdrop : ie.drop pre.length = putLe16 ys.length ++ (ys.flatten ++ rest) := by
    rw [hie, List.drop_left' rfl, counted, List.append_assoc]
  refine ⟨?_, by omega, ?_, ?_⟩
  · rw [le16At_eq (by omega), hdrop, Attr.getLe16_put (by omega)]
  · rw [← List.drop_drop, hdrop]
    exact blocks_flatten ys hys rest
  · rw [List.length_append, hc]
    omega

theorem gmcsAt_built (hie : ie = pre ++ r.fromGmcs k) (info : RsnePtrs) :
    Reports ie (gmcsAt ie pre.length info) (addGmcs r k (fieldsOf ie info)) := by
  unfold RsneFields.fromGmcs at hie
  unfold gmcsAt addGmcs
  by_cases h : 6 ≤ k
  · rw [if_pos h] at hie ⊢
    have hlen : ie.length = pre.length + 4 := by rw [hie, List.length_append, r.gmcs.property]
    rw [if_neg (by omega)]
    refine ⟨_, rfl, ?_⟩
    have htake : (ie.drop pre.length).take 4 = r.gmcs.val := by
      rw [hie, List.drop_left' rfl, List.take_of_length_le (Nat.le_of_eq r.gmcs.property)]
    rw [← htake]
    rfl
  · rw [if_neg h, List.append_nil] at hie
    subst hie
    rw [if_pos (by omega), if_neg h, endAt_built]
    exact ⟨info, rfl, rfl⟩

/-- a list behind its count is reported, or the element ends before it -/
theorem counted_reports {size : Nat} {ys : List (List UInt8)} {next : Nat → Option (Bool × RsnePtrs)}
    {p : Prop} [Decidable p] {g : Fields} (hys : ∀ y ∈ ys, y.length = size) (hsize : 0 < size)
    (hie : ie = pre ++ if p then counted ys ++ rest else []) (hlt : ie.length < 65536)
    (hnext : ie = pre ++ counted ys ++ rest →
      (pre ++ counted ys).length = pre.length + 2 + size * ys.length →
      blocks size ys.length (ie.drop (pre.length + 2)) = ys → Reports ie (next ys.length) g) :
    Reports ie
      (if ie.length < pre.length + 2 then endAt ie pre.length info
      else (le16At ie pre.length).bind fun cnt =>
        if ie.length < pre.length + 2 + size * cnt then endAt ie (pre.length + 2) info else next cnt)
      (if p then g else fieldsOf ie info) := by
  by_cases h : p
  · rw [if_pos h] at hie ⊢
    obtain ⟨hcnt, hle, hblocks, hpre⟩ := counted_at hys hie hlt hsize
    rw [if_neg (by omega), hcnt, Option.bind_some, if_neg (by omega)]
    exact hnext (hie.trans (List.append_assoc ..).symm) hpre hblocks
  · rw [if_neg h, List.append_nil] at hie
    subst hie
    rw [if_pos (by omega), if_neg h, endAt_built]
    exact ⟨info, rfl, rfl⟩

theorem pmkidAt_built (hie : ie = pre ++ r.fromPmkid k) (hlt : ie.length < 65536) (info : RsnePtrs) :
    Reports ie (pmkidAt ie pre.length info) (addPmkid r k (fieldsOf ie info)) := by
  unfold RsneFields.fromPmkid at hie
  unfold pmkidAt addPmkid
  refine counted_reports (length_val r.pmkid) (by decide) hie hlt fun hie hpre hblocks => ?_
  have hval : fieldsOf ie { info with pmkidCnt := (r.pmkid.map (·.val)).length, pmkidList := some (pre.length + 2) }
      = { fieldsOf ie info with pmkid := some (r.pmkid.map (·.val)) } := by
    conv_rhs => rw [← hblocks]
    rfl
  rw [← hval, ← hpre]
  exact gmcsAt_built hie _

theorem capAt_built (hie : ie = pre ++ r.fromCap k) (hlt : ie.length < 65536) (info : RsnePtrs) :
    Reports ie (capAt ie pre.length info) (addCap r k (fieldsOf ie info)) := by
  unfold RsneFields.fromCap at hie
  unfold capAt addCap
  by_cases h : 4 ≤ k
  · rw [if_pos h] at hie ⊢
    have hlen : ie.length = pre.length + (2 + (r.fromPmkid k).length) := by
      rw [hie, List.length_append, List.length_append]
      rfl
    have hpre : (pre ++ putLe16 r.cap.toNat).length = pre.length + 2 := List.length_append
    have hcap : getLe16 (ie.drop pre.length) = r.cap.toNat := by
      rw [hie, List.drop_left' rfl, Attr.getLe16_put r.cap.toNat_lt]
    have hnext := pmkidAt_built (hie.trans (List.append_assoc ..).symm) hlt
      { info with cap := some pre.length }
    rw [hpre] at hnext
    rw [if_neg (by omega), ← hcap]
    exact hnext
  · rw [if_neg h, List.append_nil] at hie
    subst hie
    rw [if_pos (by omega), if_neg h, endAt_built]
    exact ⟨info, rfl, rfl⟩

theorem akmAt_built (hie : ie = pre ++ r.fromAkm k) (hlt : ie.length < 65536) (info : RsnePtrs) :
    Reports ie (akmAt ie pre.length info) (addAkm r k (fieldsOf ie info)) := by
  unfold RsneFields.fromAkm at hie
  unfold akmAt addAkm
  refine counted_reports (length_val r.akm) (by decide) hie hlt fun hie hpre hblocks => ?_
  have hval : fieldsOf ie { info with akmCnt := (r.akm.map (·.val)).length, akmList := some (pre.length + 2) }
      = { fieldsOf ie info with akm := some (r.akm.map (·.val)) } := by
    conv_rhs => rw [← hblocks]
    rfl
  rw [← hval, ← hpre]
  exact capAt_built hie hlt _

theorem pcsAt_built (hie : ie = pre ++ r.fromPcs k) (hlt : ie.length < 65536) (info : RsnePtrs) :
    Reports ie (pcsAt ie pre.length info) (addPcs r k (fieldsOf ie info)) := by
  unfold RsneFields.fromPcs at hie
  unfold pcsAt addPcs
  refine counted_reports (length_val r.pcs) (by decide) hie hlt fun hie hpre hblocks => ?_
  have hval : fieldsOf ie { info with pcsCnt := (r.pcs.map (·.val)).length, pcsList := some (pre.length + 2) }
      = { fieldsOf ie info with pcs := some (r.pcs.map (·.val)) } := by
    conv_rhs => rw [← hblocks]
    rfl
  rw [← hval, ← hpre]
  exact akmAt_built hie hlt _

theorem gcsAt_built (hie : ie = pre ++ r.fromGcs k) (hlt : ie.length < 65536) (info : RsnePtrs) :
    Reports ie (gcsAt ie pre.length info) (addGcs r k (fieldsOf ie info)) := by
  unfold RsneFields.fromGcs at hie
  unfold gcsAt addGcs
  by_cases h : 1 ≤ k
  · rw [if_pos h] at hie ⊢
    have hlen : ie.length = pre.length + (4 + (r.fromPcs k).length) := by
      rw [hie, List.length_append, List.length_append, r.gcs.property]
    have hpre : (pre ++ r.gcs.val).length = pre.length + 4 := by
      rw [List.length_append, r.gcs.property]
    have hgcs : (ie.drop pre.length).take 4 = r.gcs.val := by
      rw [hie, List.drop_left' rfl, List.take_left' r.gcs.property]
    have hnext := pcsAt_built (hie.trans (List.append_assoc ..).symm) hlt
      { info with gcs := some pre.length }
    rw [hpre] at hnext
    rw [if_neg (by omega), ← hgcs]
    exact hnext
  · rw [if_neg h, List.append_nil] at hie
    subst hie
    rw [if_pos (by omega), if_neg h, endAt_built]
    exact ⟨info, rfl, rfl⟩

/-- **A built element is read as it was built.** -/
theorem rsneInfoParse_built (r : Rsne) : Reports r.bytes (rsneInfoParse r.bytes) r.fields := by
  have hlen : r.bytes.length = (r.body r.present).length + 2 := rfl
  have hbody : (r.body r.present).length = 2 + (r.fromGcs r.present).length := List.length_append
  have hlt := r.length_lt
  have helen : (UInt8.ofNat (r.body r.present).length).toNat = (r.body r.present).length :=
    UInt8.toNat_ofNat_of_lt' hlt
  have hsplit : r.bytes = (0x30 :: UInt8.ofNat (r.body r.present).length :: putLe16 r.version.toNat)
      ++ r.fromGcs r.present := rfl
  have hnext := gcsAt_built hsplit (by omega) {}
  change Reports r.bytes (gcsAt r.bytes 4 {}) (addGcs r.toRsneFields r.present {}) at hnext
  rw [addGcs_eq] at hnext
  unfold rsneInfoParse
  rw [if_neg (by omega)]
  have h0 : r.bytes[0]? = some 0x30 := rfl
  have h1 : r.bytes[1]? = some (UInt8.ofNat (r.body r.present).length) := rfl
  have hgood : ¬ ((0x30 : UInt8) ≠ 0x30
      ∨ (UInt8.ofNat (r.body r.present).length).toNat ≠ r.bytes.length - 2) := by
    rw [helen, hlen]
    rintro (h | h)
    · exact h rfl
    · omega
  rw [h0, h1, Option.bind_some, Option.bind_some, if_neg hgood]
  exact hnext

example : parseWpa2Ie [0x30, 20, 1, 0, 0, 0x0f, 0xac, 4, 1, 0, 0, 0x0f, 0xac, 4, 1, 0, 0, 0x0f, 0xac, 2, 0x80, 0]
    = some (some { groupCipher := 16, pairwiseCipher := 16, gmcs := 256, akm := 2, mfpOpt := 2 }) := by
  decide

/-- what the suites of an element come to -/
def unionOf (f : List UInt8 → Nat) (l : List Suite) : Nat := orAll (l.map fun s => f s.val)

theorem union_present {p : Prop} [Decidable p] (f : List UInt8 → Nat) (l : List Suite) :
    orAll (((if p then some (l.map (·.val)) else none).getD []).map f) = if p then unionOf f l else 0 := by
  by_cases h : p
  · rw [if_pos h, if_pos h, Option.getD_some, List.map_map]
    rfl
  · rw [if_neg h, if_neg h]
    rfl

end Rsn

/-- **RSN elements are parsed exactly**: of any bytes nothing outside is read and the fields that are
reported lie in order; an element cut behind one of its fields is reported as it was built, and its
suites are united. -/
theorem rsne_parse_exact :
    (∀ ie, ∃ ret info, rsneInfoParse ie = some (ret, info) ∧ (ret = true → Found ie info))
      ∧ ∀ r : Rsne, Reports r.bytes (rsneInfoParse r.bytes) r.fields
        ∧ ∃ sel, parseWpa2Ie r.bytes = some (some sel)
          ∧ sel.groupCipher = (if 1 ≤ r.present then rsnCipherSuite r.gcs.val else 0)
          ∧ sel.pairwiseCipher = (if 2 ≤ r.present then unionOf rsnCipherSuite r.pcs else 0)
          ∧ sel.akm = (if 3 ≤ r.present then unionOf akmSuiteBitmap r.akm else 0)
          ∧ sel.gmcs = (if 6 ≤ r.present then rsnCipherSuite r.gmcs.val else wpaCipherBipCmac128) := by
  constructor
  · intro ie
    obtain ⟨ret, info, hrun, hfound, -⟩ := rsneInfoParse_parsed ie
    exact ⟨ret, info, hrun, hfound⟩
  · intro r
    have hbuilt := rsneInfoParse_built r
    refine ⟨hbuilt, ?_⟩
    obtain ⟨info, hrun, hfields⟩ := hbuilt
    obtain ⟨ret, info', hrun', -, hval⟩ := rsneInfoParse_parsed r.bytes
    cases hrun.symm.trans hrun'
    rw [if_pos rfl, hfields] at hval
    refine ⟨selOf r.fields.info, ?_, ?_, union_present _ r.pcs, union_present _ r.akm, ?_⟩
    · rw [parseWpa2Ie_eq, rtwParseWpa2Ie_eq, hval]
      rfl
    · show ((if 1 ≤ r.present then some r.gcs.val else none).map rsnCipherSuite).getD 0 = _
      split <;> rfl
    · show ((if 6 ≤ r.present then some r.gmcs.val else none).map rsnCipherSuite).getD _ = _
      split <;> rfl

end Rtl8192eu
