import Rtl8192eu.Ap.BcnTim
import Rtl8192eu.Ap.BssCap

/-!
# The protection that the beacon advertises

`bss_cap_update_on_sta_join` and `.._leave` of `core/rtw_ap.c` edit the ERP and the HT Operation element when
a counter turns to or from zero, or the HT mode changes.  The ERP element is not edited when the number of
stations without short preamble turns, and stations that cannot receive greenfield frames do not count for
the HT mode, which the table above `rtw_ht_operation_update` says they do.

* `ApBcn`        the counters of `CapRun`, with the beacon;
* `ApBcn.join`, `.leave`   the two functions; `join_cap`, `leave_cap` are their counters;
* `Advertised`   what the beacon is to say;
* `ApBcn.Kept`   the steps after which it does;
* `erp_stored`, `ht_stored`   the edits, in the bytes of a beacon.

The BSS is started, and `start_bss_network` has put a TIM element into the beacon.
-/

namespace Rtl8192eu

open Records Run BcnIe

/-! ## the elements -/

/-- `_ERPINFO_IE_` -/
def erpinfoIe : UInt8 := 42

/-- `_HT_ADD_INFO_IE_` -/
def htAddInfoIe : UInt8 := 61

def Elem.setByte (e : Elem) (i : Nat) (x : UInt8) : Elem where
  id := e.id
  body := e.body.set i x
  length_lt := by
    rw [List.length_set]
    exact e.length_lt

/-- the octet of the first element with the id -/
def octetOf (id : UInt8) (i : Nat) (ies : List Elem) : Option UInt8 :=
  (ies.find? (Elem.hasId id)).bind fun e => e.body[i]?

/-! ## the access point -/

/-- what the updates read besides the counters, constant in a run -/
structure ApHt where
  /-- `ERP_enable` -/
  erpEnable : Bool
  /-- `HT_info_enable` -/
  htInfoEnable : Bool
  htOption : Bool
  /-- `ht_enable`, in a wireless mode with HT -/
  htEnable : Bool
  /-- `IEEE80211_HT_CAP_SUP_WIDTH` of the access point -/
  supWidth : Bool
  olbc : Bool
  olbcHt : Bool
  ht20mhzWidthReq : Bool
  htIntolerantChReported : Bool
  curChannel : Nat
  /-- `cur_bwmode` is 40 MHz or more -/
  curBwmode40 : Bool
  /-- `cur_ch_offset` is `HAL_PRIME_CHNL_OFFSET_LOWER` -/
  curChOffsetLower : Bool

structure ApHt.Enabled (conf : ApHt) : Prop where
  erp : conf.erpEnable = true
  htInfo : conf.htInfoEnable = true
  option : conf.htOption = true
  ht : conf.htEnable = true

structure ApBcn where
  cap : CapRun := {}
  /-- `ht_40mhz_intolerant` of each station -/
  intolerant : Nat → Bool := fun _ => false
  numSta40mhzIntolerant : Nat := 0
  htOpMode : BitVec 16 := 0
  swTo20mhz : Bool := false
  /-- the elements of the beacon -/
  ies : List Elem

inductive BcnEvent where
  | join (p : Nat) (c : AssocCaps)
  /-- with `tim_bitmap`, if the bit of the station was set in it -/
  | leave (p : Nat) (tim : Option TimMap)

/-! ## the edits -/

/-- the new octet of the ERP element -/
def erpUpdate (nonErp noShortPreamble : Int) (x : UInt8) : UInt8 :=
  let x := if nonErp = 1 then x ||| 0x03 else x &&& 0xfc
  if 0 < noShortPreamble then x ||| 0x04 else x &&& 0xfb

/-- `infos[0]` and `sw_to_20mhz` -/
def ApHt.htWidth (conf : ApHt) (num40mhzIntolerant : Nat) (sw : Bool) (x : UInt8) : UInt8 × Bool :=
  let to20 := decide (0 < num40mhzIntolerant) || conf.ht20mhzWidthReq || conf.htIntolerantChReported
    || conf.olbc
  if !sw && decide (conf.curChannel ≤ 14) then
    if to20 then (x &&& 0xf8, true) else (x, sw)
  else if !to20 && conf.curBwmode40 then
    ((x &&& 0xf8) ||| 0x04 ||| (if conf.curChOffsetLower then 0x01 else 0x03), false)
  else (x, sw)

def lowByte (m : BitVec 16) : UInt8 := UInt8.ofBitVec (m.setWidth 8)

def highByte (m : BitVec 16) : UInt8 := UInt8.ofBitVec ((m >>> 8).setWidth 8)

def erpElem (nonErp noShortPreamble : Int) (e : Elem) : Elem :=
  e.setByte 0 (erpUpdate nonErp noShortPreamble (e.body.getD 0 0))

/-- `infos[0]`, and `ht_op_mode` in `infos[1]` and `infos[2]` -/
def htElem (width : UInt8) (m : BitVec 16) (e : Elem) : Elem :=
  ((e.setByte 1 width).setByte 2 (lowByte m)).setByte 3 (highByte m)

namespace ApBcn

def updateBcnErpinfoIe (conf : ApHt) (s : ApBcn) : ApBcn :=
  if !conf.erpEnable then s
  else
    { s with
      ies := onFirst (Elem.hasId erpinfoIe)
        (fun e => if 0 < e.body.length then erpElem (s.cap.num .nonErp) (s.cap.num .noShortPreamble) e else e)
        s.ies }

def updateBcnHtinfoIe (conf : ApHt) (s : ApBcn) : ApBcn :=
  if !conf.htOption || !conf.htInfoEnable then s
  else
    match s.ies.find? (Elem.hasId htAddInfoIe) with
    | none => s
    | some e =>
      if e.body.length = 0 then s
      else
        let w := conf.htWidth s.numSta40mhzIntolerant s.swTo20mhz (e.body.getD 1 0)
        { s with
          ies := onFirst (Elem.hasId htAddInfoIe) (htElem w.1 s.htOpMode) s.ies
          swTo20mhz := w.2 }

/-- `update_BCNTIM`, where there is a TIM element -/
def updateTim (s : ApBcn) (tim : Option TimMap) : ApBcn :=
  match tim with
  | none => s
  | some t => { s with ies := onFirst (Elem.hasId Tim.wlanEidTim) (fun _ => t.elem) s.ies }

end ApBcn

/-! ## `rtw_ht_operation_update` -/

/-- a flag of `ht_op_mode`, with `op_mode_changes` -/
def flagUpdate (bit : BitVec 16) (b : Bool) (r : BitVec 16 × Nat) : BitVec 16 × Nat :=
  if r.1 &&& bit = 0 ∧ b = true then (r.1 ||| bit, r.2 + 1)
  else if r.1 &&& bit ≠ 0 ∧ b = false then (r.1 &&& ~~~bit, r.2 + 1)
  else r

def ApHt.newOpMode (conf : ApHt) (num : Prot → Int) : BitVec 16 :=
  if num .noHt ≠ 0 then 3
  else if conf.supWidth = true ∧ num .ht20mhz ≠ 0 then 2
  else if conf.olbcHt then 1
  else 0

/-- the new `ht_op_mode`, and `op_mode_changes` -/
def ApHt.htOpModeUpdate (conf : ApHt) (num : Prot → Int) (m : BitVec 16) : BitVec 16 × Nat :=
  let r := flagUpdate 4 (decide (num .htNoGf ≠ 0)) (m, 0)
  let r := flagUpdate 16 (decide (num .noHt ≠ 0) || conf.olbcHt) r
  if r.1 &&& 3 ≠ conf.newOpMode num then ((r.1 &&& ~~~3) ||| conf.newOpMode num, r.2 + 1) else r

namespace ApBcn

/-- `rtw_ht_operation_update`, with the update of the beacon if there were changes -/
def htOperationUpdate (conf : ApHt) (s : ApBcn) : ApBcn :=
  if !conf.htOption then s
  else
    let r := conf.htOpModeUpdate s.cap.num s.htOpMode
    if 0 < r.2 then ({ s with htOpMode := r.1 } : ApBcn).updateBcnHtinfoIe conf else { s with htOpMode := r.1 }

/-! ## join and leave -/

def setTo (s : ApBcn) (p : Nat) (m : Prot) (b : Bool) : ApBcn := { s with cap := s.cap.setTo p m b }

def lower (s : ApBcn) (p : Nat) (m : Prot) : ApBcn := { s with cap := s.cap.lower p m }

/-- `nonerp_set`: the beacon is updated for the first station in and the last one out -/
def setErp (conf : ApHt) (s : ApBcn) (p : Nat) (b : Bool) : ApBcn :=
  let s' := s.setTo p .nonErp b
  if s.cap.marks p .nonErp ≠ b ∧ s'.cap.num .nonErp = (if b then 1 else 0) then s'.updateBcnErpinfoIe conf
  else s'

/-- `ht_40mhz_intolerant` -/
def joinIntolerant (s : ApBcn) (p : Nat) (ht : Option Nat) : ApBcn :=
  if ht.any (fun capab => capab.testBit 14) = true ∧ s.intolerant p = false then
    { s with
      intolerant := Function.update s.intolerant p true
      numSta40mhzIntolerant := s.numSta40mhzIntolerant + 1 }
  else s

def leaveIntolerant (s : ApBcn) (p : Nat) : ApBcn :=
  if s.intolerant p then
    { s with
      intolerant := Function.update s.intolerant p false
      numSta40mhzIntolerant := s.numSta40mhzIntolerant - 1 }
  else s

def joinHt (s : ApBcn) (p : Nat) (ht : Option Nat) : ApBcn := { s with cap := s.cap.joinHt p ht }

/-- `bss_cap_update_on_sta_join` -/
def join (conf : ApHt) (s : ApBcn) (p : Nat) (c : AssocCaps) : ApBcn :=
  let s := s.setTo p .noShortPreamble (!c.shortPreamble)
  let s := s.setErp conf p c.nonErp
  let s := s.setTo p .noShortSlotTime (!c.shortSlotTime)
  if !conf.htEnable then s else ((s.joinHt p c.ht).joinIntolerant p c.ht).htOperationUpdate conf

/-- `bss_cap_update_on_sta_leave` -/
def leave (conf : ApHt) (s : ApBcn) (p : Nat) (tim : Option TimMap) : ApBcn :=
  let s := s.updateTim tim
  let s := s.lower p .noShortPreamble
  let s := s.setErp conf p false
  let s := s.lower p .noShortSlotTime
  let s := ((s.lower p .htNoGf).lower p .noHt).lower p .ht20mhz
  (s.leaveIntolerant p).htOperationUpdate conf

def step (conf : ApHt) (s : ApBcn) : BcnEvent → ApBcn
  | .join p c => s.join conf p c
  | .leave p tim => s.leave conf p tim

end ApBcn

/-! ## what the beacon is to say -/

/-- the table above `rtw_ht_operation_update` -/
def ApHt.opModeTable (conf : ApHt) (num : Prot → Int) : BitVec 2 :=
  if 0 < num .noHt ∨ 0 < num .htNoGf then 3
  else if conf.supWidth = true ∧ 0 < num .ht20mhz then 2
  else if conf.olbcHt then 1
  else 0

/-- `NonERP_Present`, `Use_Protection` and `Barker_Preamble` -/
structure ErpRight (nonErp noShortPreamble : Int) (x : UInt8) : Prop where
  nonErpPresent : x.toBitVec.getLsbD 0 = decide (0 < nonErp)
  useProtection : x.toBitVec.getLsbD 1 = decide (0 < nonErp)
  barkerPreamble : x.toBitVec.getLsbD 2 = decide (0 < noShortPreamble)

/-- the protection field and the bit for stations without greenfield -/
structure HtRight (mode : BitVec 2) (noGf : Int) (x : UInt8) : Prop where
  protection : x.toBitVec.setWidth 2 = mode
  nonGreenfield : x.toBitVec.getLsbD 2 = decide (0 < noGf)

structure Advertised (conf : ApHt) (s : ApBcn) : Prop where
  erp : ∃ x, octetOf erpinfoIe 0 s.ies = some x ∧ ErpRight (s.cap.num .nonErp) (s.cap.num .noShortPreamble) x
  ht : ∃ x, octetOf htAddInfoIe 2 s.ies = some x ∧ HtRight (conf.opModeTable s.cap.num) (s.cap.num .htNoGf) x

/-- the elements that the claim is about, and a TIM element -/
structure HasElems3 (ies : List Elem) : Prop where
  tim : ∃ e, ies.find? (Elem.hasId Tim.wlanEidTim) = some e
  erp : ∃ e, ies.find? (Elem.hasId erpinfoIe) = some e ∧ 0 < e.body.length
  ht : ∃ e, ies.find? (Elem.hasId htAddInfoIe) = some e ∧ 3 < e.body.length

/-- a BSS that is started, without stations; its beacon says so -/
structure Started (conf : ApHt) (s : ApBcn) : Prop where
  elems : HasElems3 s.ies
  marks : ∀ p m, s.cap.marks p m = false
  num : ∀ m, s.cap.num m = 0
  mode : s.htOpMode = if conf.olbcHt then 1 else 0
  right : Advertised conf s

namespace ApBcn

/-- what the event says about the mark, if it says anything -/
def gives : BcnEvent → Prot → Option Bool
  | .join _ c, m => if m.sticky = true ∧ m.holds c = false then none else some (m.holds c)
  | .leave _ _, _ => some false

def sta : BcnEvent → Nat
  | .join p _ => p
  | .leave p _ => p

/-- the station is the first one with the mark, or the last one -/
def Turns (s : ApBcn) (e : BcnEvent) (m : Prot) : Prop :=
  gives e m = some true ∧ s.cap.marks (sta e) m = false ∧ s.cap.num m = 0 ∨
    gives e m = some false ∧ s.cap.marks (sta e) m = true ∧ s.cap.num m = 1

/-- some station has the mark afterwards: another one, or this one -/
def Stays (s : ApBcn) (e : BcnEvent) (m : Prot) : Prop :=
  (s.cap.marks (sta e) m).toNat < s.cap.num m ∨ gives e m = some true ∨
    gives e m = none ∧ s.cap.marks (sta e) m = true

/-- short preambles turn only with the first or last station of 802.11b, and a station without greenfield
is never without one without HT -/
def Kept (s : ApBcn) (e : BcnEvent) : Prop :=
  (s.Turns e .noShortPreamble → s.Turns e .nonErp) ∧ (s.Stays e .htNoGf → s.Stays e .noHt)

end ApBcn

/-! ## the elements after an edit -/

variable {ies : List Elem} {id id' : UInt8} {i : Nat}

theorem hasId_other {e : Elem} (hne : id' ≠ id) (h : Elem.hasId id e = true) : Elem.hasId id' e = false := by
  rw [Elem.hasId_iff] at h
  rw [← Bool.not_eq_true, Elem.hasId_iff, h]
  exact hne.symm

/-- an edit that leaves the id -/
def KeepsId (g : Elem → Elem) : Prop := ∀ e, (g e).id = e.id

theorem hasId_of_keepsId {g : Elem → Elem} (hg : KeepsId g) (e : Elem) :
    Elem.hasId id (g e) = Elem.hasId id e := by
  unfold Elem.hasId
  rw [hg e]

theorem find_edit {g : Elem → Elem} (hg : KeepsId g) (ies : List Elem) :
    (onFirst (Elem.hasId id) g ies).find? (Elem.hasId id) = (ies.find? (Elem.hasId id)).map g := by
  apply find_onFirst
  intro e he
  rw [hasId_of_keepsId hg, he]

theorem find_edit_other {g : Elem → Elem} (hg : KeepsId g) (hne : id' ≠ id) (ies : List Elem) :
    (onFirst (Elem.hasId id) g ies).find? (Elem.hasId id') = ies.find? (Elem.hasId id') := by
  apply find_onFirst_of
  intro e he
  rw [hasId_of_keepsId hg]
  exact ⟨hasId_other hne he, hasId_other hne he⟩

theorem find_tim (t : TimMap) (hne : id' ≠ Tim.wlanEidTim) (ies : List Elem) :
    (onFirst (Elem.hasId Tim.wlanEidTim) (fun _ => t.elem) ies).find? (Elem.hasId id')
      = ies.find? (Elem.hasId id') := by
  apply find_onFirst_of
  intro e he
  exact ⟨hasId_other hne he, hasId_other hne (by simp [Elem.hasId, TimMap.elem])⟩

theorem octetOf_of_find {l l' : List Elem} (h : l.find? (Elem.hasId id) = l'.find? (Elem.hasId id)) :
    octetOf id i l = octetOf id i l' := by
  unfold octetOf
  rw [h]

theorem keepsId_erpElem (n k : Int) : KeepsId fun e => if 0 < e.body.length then erpElem n k e else e := by
  intro e
  dsimp only
  split <;> rfl

theorem keepsId_htElem (w : UInt8) (m : BitVec 16) : KeepsId (htElem w m) := fun _ => rfl

namespace ApBcn

variable {conf : ApHt} {s : ApBcn} {p : Nat} {m : Prot} {b : Bool} {c : AssocCaps}

/-- where the elements are, and which other fields the steps on the elements leave -/
structure SameCap (s s' : ApBcn) : Prop where
  cap : s'.cap = s.cap
  htOpMode : s'.htOpMode = s.htOpMode

theorem updateBcnErpinfoIe_ies (h : conf.Enabled) : (s.updateBcnErpinfoIe conf).ies
    = onFirst (Elem.hasId erpinfoIe)
      (fun e => if 0 < e.body.length then erpElem (s.cap.num .nonErp) (s.cap.num .noShortPreamble) e else e)
      s.ies := by
  simp [updateBcnErpinfoIe, h.erp]

theorem updateBcnErpinfoIe_same : SameCap s (s.updateBcnErpinfoIe conf) := by
  unfold updateBcnErpinfoIe
  split <;> exact ⟨rfl, rfl⟩

theorem updateBcnHtinfoIe_same : SameCap s (s.updateBcnHtinfoIe conf) := by
  unfold updateBcnHtinfoIe
  split
  · exact ⟨rfl, rfl⟩
  · split
    · exact ⟨rfl, rfl⟩
    · split <;> exact ⟨rfl, rfl⟩

end ApBcn

/-! ## the bits -/

/-- the edit, when the number of 802.11b stations is one for which the code comes here -/
theorem erpUpdate_right {n k : Int} (hn : n = 0 ∨ n = 1) (x : UInt8) : ErpRight n k (erpUpdate n k x) := by
  unfold erpUpdate
  by_cases hk : 0 < k
  · rcases hn with rfl | rfl <;> constructor <;> simp [hk]
  · rcases hn with rfl | rfl <;> constructor <;> simp [hk]

section
variable {k i : Nat} {r : BitVec 16 × Nat} {n m : BitVec 16}

theorem and_twoPow_eq_zero {x : BitVec 16} (hk : k < 16) :
    x &&& BitVec.twoPow 16 k = 0 ↔ x.getLsbD k = false := by
  rw [BitVec.and_twoPow]
  cases hb : x.getLsbD k with
  | false => simp
  | true =>
    rw [if_pos rfl]
    refine iff_of_false (fun h => ?_) Bool.noConfusion
    have hbit := congrArg (·.getLsbD k) h
    simp [hk] at hbit

/-- the flag is what it should be, and the others are as before -/
theorem flagUpdate_getLsbD (hk : k < 16) (hi : i < 16) (b : Bool) :
    (flagUpdate (BitVec.twoPow 16 k) b r).1.getLsbD i = if i = k then b else r.1.getLsbD i := by
  unfold flagUpdate
  by_cases hik : i = k
  · subst hik
    simp only [if_true, ne_eq, and_twoPow_eq_zero hi]
    cases hb : r.1.getLsbD i <;> cases b <;> simp [hb, hi, -BitVec.getLsbD_eq_getElem]
  · rw [if_neg hik]
    split
    · simp [BitVec.getLsbD_twoPow, Ne.symm hik]
    · split
      · simp [hi, hik]
      · rfl

/-- a flag that changes is counted -/
theorem flagUpdate_count (bit : BitVec 16) (b : Bool) :
    flagUpdate bit b r = r ∨ (flagUpdate bit b r).2 = r.2 + 1 := by
  unfold flagUpdate
  split
  · exact .inr rfl
  · split
    · exact .inr rfl
    · exact .inl rfl

/-- the two bits of the mode are replaced -/
def setMode (n : BitVec 16) (r : BitVec 16 × Nat) : BitVec 16 × Nat :=
  if r.1 &&& 3 ≠ n then ((r.1 &&& ~~~3) ||| n, r.2 + 1) else r

theorem setMode_count : setMode n r = r ∨ (setMode n r).2 = r.2 + 1 := by
  unfold setMode
  split
  · exact .inr rfl
  · exact .inl rfl

theorem setMode_mode (hn : n &&& 3 = n) : (setMode n r).1 &&& 3 = n := by
  unfold setMode
  split
  · rw [BitVec.and_or_distrib_right, hn, BitVec.and_assoc]
    simp
  · next h => exact not_not.mp h

theorem setMode_nonGf (hn : n &&& 3 = n) : (setMode n r).1.getLsbD 2 = r.1.getLsbD 2 := by
  have hn2 : n.getLsbD 2 = false := by
    rw [← hn]
    simp
  unfold setMode
  split
  · simp only [BitVec.getLsbD_or, BitVec.getLsbD_and, hn2]
    simp
  · rfl

end

namespace ApHt

variable {conf : ApHt} {num : Prot → Int} {m : BitVec 16}

theorem newOpMode_mask : conf.newOpMode num &&& 3 = conf.newOpMode num := by
  unfold newOpMode
  split
  · rfl
  · split
    · rfl
    · split <;> rfl

/-- the update is made of three changes -/
theorem htOpModeUpdate_eq : conf.htOpModeUpdate num m
    = setMode (conf.newOpMode num) (flagUpdate (BitVec.twoPow 16 4) (decide (num .noHt ≠ 0) || conf.olbcHt)
      (flagUpdate (BitVec.twoPow 16 2) (decide (num .htNoGf ≠ 0)) (m, 0))) := rfl

theorem htOpModeUpdate_mode : (conf.htOpModeUpdate num m).1 &&& 3 = conf.newOpMode num := by
  rw [htOpModeUpdate_eq]
  exact setMode_mode newOpMode_mask

theorem htOpModeUpdate_nonGf : (conf.htOpModeUpdate num m).1.getLsbD 2 = decide (num .htNoGf ≠ 0) := by
  rw [htOpModeUpdate_eq, setMode_nonGf newOpMode_mask, flagUpdate_getLsbD (by omega) (by omega),
    if_neg (by omega), flagUpdate_getLsbD (by omega) (by omega), if_pos rfl]

/-- **Every change is counted.** -/
theorem htOpModeUpdate_count (h : (conf.htOpModeUpdate num m).2 = 0) : (conf.htOpModeUpdate num m).1 = m := by
  rw [htOpModeUpdate_eq] at h ⊢
  rcases setMode_count (n := conf.newOpMode num) with hs | hs
  · rw [hs] at h ⊢
    rcases flagUpdate_count (BitVec.twoPow 16 4) (decide (num .noHt ≠ 0) || conf.olbcHt) with hf | hf
    · rw [hf] at h ⊢
      rcases flagUpdate_count (BitVec.twoPow 16 2) (decide (num .htNoGf ≠ 0)) with hg | hg
      · rw [hg]
      · rw [hg] at h
        cases h
    · rw [hf] at h
      cases h
  · rw [hs] at h
    cases h

/-- **The mode is that of the table, unless there are stations without greenfield and none without HT.** -/
theorem newOpMode_iff (hpos : ∀ m, 0 ≤ num m) :
    (conf.newOpMode num).setWidth 2 = conf.opModeTable num ↔ (0 < num .htNoGf → 0 < num .noHt) := by
  have h0 : ∀ m, num m ≠ 0 ↔ 0 < num m := by
    intro m
    have := hpos m
    omega
  unfold newOpMode opModeTable
  simp only [h0]
  by_cases hn : 0 < num .noHt
  · simp [hn]
  · by_cases hg : 0 < num .htNoGf
    · simp only [hn, hg]
      split_ifs <;> simp_all
    · simp only [hn, hg]
      split_ifs <;> simp_all

end ApHt

/-! ## the bytes -/

/-- a byte of `IEs` is written -/
def poke (b : Beacon) (a : Nat) (x : UInt8) : Beacon := { b with ies := Mem.write b.ies a [x] }

/-- `update_bcn_erpinfo_ie`, with the two counters -/
def updateErpBytes (conf : ApHt) (nonErp noShortPreamble : Int) (b : Beacon) : Beacon :=
  if !conf.erpEnable then b
  else
    match getIe b erpinfoIe with
    | none => b
    | some (p, len) =>
      if 0 < len then poke b (p + 2) (erpUpdate nonErp noShortPreamble (b.ies (p + 2))) else b

/-- `update_bcn_htinfo_ie` -/
def updateHtBytes (conf : ApHt) (num40mhzIntolerant : Nat) (sw : Bool) (m : BitVec 16) (b : Beacon) : Beacon :=
  if !conf.htOption || !conf.htInfoEnable then b
  else
    match getIe b htAddInfoIe with
    | none => b
    | some (p, len) =>
      if len = 0 then b
      else
        let b := poke b (p + 3) (conf.htWidth num40mhzIntolerant sw (b.ies (p + 3))).1
        poke (poke b (p + 4) (lowByte m)) (p + 5) (highByte m)

section
variable {bcn : Beacon} {es pre post : List Elem} {e : Elem} {x : UInt8}

theorem read_poke (m : Nat → UInt8) (a n k : Nat) (x : UInt8) :
    Mem.read (Mem.write m (a + k) [x]) a n = (Mem.read m a n).set k x := by
  apply List.ext_getElem
  · simp
  · intro j hj _
    rw [Mem.length_read] at hj
    rw [Mem.getElem_read, List.getElem_set]
    by_cases h : k = j
    · rw [if_pos h, ← h, Mem.write_one_self]
    · rw [if_neg h, Mem.getElem_read, Mem.write_one_of_ne x (by omega)]

/-- **A byte of an element is written.** -/
theorem poke_stored {i : Nat} (h : Stored bcn (pre ++ e :: post)) (hi : i < e.body.length) :
    Stored (poke bcn (fixedIeLength + (all elems pre).length + 2 + i) x) (pre ++ e.setByte i x :: post) := by
  have hset : (all elems (pre ++ e :: post)).set ((all elems pre).length + (2 + i)) x
      = all elems (pre ++ e.setByte i x :: post) := by
    rw [all_append, all_append, List.set_append_right _ _ (by omega), Nat.add_sub_cancel_left, all_cons,
      all_cons]
    have hb : (Elem.bytes e ++ all elems post).set (2 + i) x
        = Elem.bytes (e.setByte i x) ++ all elems post := by
      rw [List.set_append_left _ _ (by rw [Elem.length_bytes]; omega)]
      simp [Elem.bytes, Elem.setByte, Nat.add_comm 2 i]
    exact congrArg _ hb
  have hlen : (all elems (pre ++ e.setByte i x :: post)).length = (all elems (pre ++ e :: post)).length := by
    rw [← hset, List.length_set]
  constructor
  · rw [hlen]
    exact h.length
  · show Mem.read (Mem.write bcn.ies _ [x]) _ _ = _
    rw [hlen, Nat.add_assoc, Nat.add_assoc, read_poke, h.read_eq, hset]
  · exact h.fits

theorem stored_cell {i : Nat} (h : Stored bcn (pre ++ e :: post)) (hi : i < e.body.length) :
    bcn.ies (fixedIeLength + (all elems pre).length + 2 + i) = e.body[i] := by
  have hlen : (all elems pre).length + (2 + i) < (all elems (pre ++ e :: post)).length := by
    have hb : (elems.bytes e).length = e.body.length + 2 := Elem.length_bytes e
    rw [all_append, all_cons, List.length_append, List.length_append, hb]
    omega
  have hget : (Mem.read bcn.ies fixedIeLength
      (all elems (pre ++ e :: post)).length)[(all elems pre).length + (2 + i)]?
      = (all elems (pre ++ e :: post))[(all elems pre).length + (2 + i)]? := by rw [h.read_eq]
  rw [List.getElem?_eq_getElem (by rw [Mem.length_read]; exact hlen), Mem.getElem_read] at hget
  rw [all_append, List.getElem?_append_right (by omega), Nat.add_sub_cancel_left, all_cons] at hget
  have hbody : (elems.bytes e ++ all elems post)[2 + i]? = some e.body[i] := by
    rw [List.getElem?_append_left (by
      have hb : (elems.bytes e).length = e.body.length + 2 := Elem.length_bytes e
      omega)]
    show (e.id :: UInt8.ofNat e.body.length :: e.body)[2 + i]? = _
    rw [Nat.add_comm 2 i, List.getElem?_cons_succ, List.getElem?_cons_succ, List.getElem?_eq_getElem hi]
  rw [hbody] at hget
  rw [Nat.add_assoc, Nat.add_assoc]
  exact Option.some.inj hget

/-- the element that is found, in the list and in the bytes -/
theorem stored_find (h : Stored bcn es) (hf : es.find? (Elem.hasId id) = some e) :
    ∃ pre post, es = pre ++ e :: post ∧ (∀ y ∈ pre, Elem.hasId id y = false) ∧ Elem.hasId id e = true
    ∧ getIe bcn id = some (fixedIeLength + (all elems pre).length, e.body.length) := by
  rw [← find_first] at hf
  obtain ⟨⟨o, e'⟩, hfirst, rfl⟩ := Option.map_eq_some_iff.mp hf
  obtain ⟨pre, post, rfl, hid, hpre, rfl⟩ := first_eq_some hfirst
  refine ⟨pre, post, rfl, hpre, hid, ?_⟩
  rw [getIe_stored h, hfirst, Option.map_some]

/-- **The ERP element, in the bytes.** -/
theorem erp_stored {conf : ApHt} {s : ApBcn} (h : Stored bcn s.ies) :
    Stored (updateErpBytes conf (s.cap.num .nonErp) (s.cap.num .noShortPreamble) bcn)
      (s.updateBcnErpinfoIe conf).ies := by
  unfold updateErpBytes ApBcn.updateBcnErpinfoIe
  cases conf.erpEnable with
  | false => exact h
  | true =>
    simp only [Bool.not_true, Bool.false_eq_true, if_false]
    cases hf : s.ies.find? (Elem.hasId erpinfoIe) with
    | none =>
      have hno : ∀ e ∈ s.ies, Elem.hasId erpinfoIe e = false := by simpa using hf
      rw [getIe_stored h, first_eq_none.mpr hno, onFirst_eq_self hno]
      exact h
    | some e =>
      obtain ⟨pre, post, hes, hpre, hid, hget⟩ := stored_find h hf
      rw [hes] at h ⊢
      rw [hget, onFirst_append hpre hid]
      dsimp only
      by_cases hlen : 0 < e.body.length
      · have hcell := stored_cell h hlen
        rw [Nat.add_zero] at hcell
        have hd : e.body.getD 0 0 = e.body[0] := by simp [hlen]
        rw [if_pos hlen, if_pos hlen, hcell, ← hd]
        exact poke_stored h hlen
      · rw [if_neg hlen, if_neg hlen]
        exact h

/-- **The HT Operation element, in the bytes**: one with `infos`. -/
theorem ht_stored {conf : ApHt} {s : ApBcn} (h : Stored bcn s.ies)
    (hlen : ∀ e, s.ies.find? (Elem.hasId htAddInfoIe) = some e → 3 < e.body.length) :
    Stored (updateHtBytes conf s.numSta40mhzIntolerant s.swTo20mhz s.htOpMode bcn)
      (s.updateBcnHtinfoIe conf).ies := by
  unfold updateHtBytes ApBcn.updateBcnHtinfoIe
  by_cases hopt : (!conf.htOption || !conf.htInfoEnable) = true
  · rw [if_pos hopt, if_pos hopt]
    exact h
  · rw [if_neg hopt, if_neg hopt]
    cases hf : s.ies.find? (Elem.hasId htAddInfoIe) with
    | none =>
      have hno : ∀ e ∈ s.ies, Elem.hasId htAddInfoIe e = false := by simpa using hf
      rw [getIe_stored h, first_eq_none.mpr hno]
      exact h
    | some e =>
      have he := hlen e hf
      obtain ⟨pre, post, hes, hpre, hid, hget⟩ := stored_find h hf
      rw [hes] at h
      have hcell : bcn.ies (fixedIeLength + (all elems pre).length + 3) = e.body.getD 1 0 := by
        have hc := stored_cell (i := 1) h (by omega)
        have hd : e.body.getD 1 0 = e.body[1] := by simp [show 1 < e.body.length by omega]
        exact hc.trans hd.symm
      rw [hget]
      dsimp only
      rw [if_neg (by omega), if_neg (by omega), hes, hcell]
      show Stored _ (onFirst (Elem.hasId htAddInfoIe) _ (pre ++ e :: post))
      rw [onFirst_append hpre hid]
      have h1 := poke_stored (i := 1)
        (x := (conf.htWidth s.numSta40mhzIntolerant s.swTo20mhz (e.body.getD 1 0)).1) h (by omega)
      have h2 := poke_stored (i := 2) (x := lowByte s.htOpMode) h1 (by simp [Elem.setByte]; omega)
      exact poke_stored (i := 3) (x := highByte s.htOpMode) h2 (by simp [Elem.setByte]; omega)

end

end Rtl8192eu
