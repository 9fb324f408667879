import Rtl8192eu.Recv.Adapter
import Rtl8192eu.Recv.Mgnt
import Rtl8192eu.Ie.VendorDelete
import Rtl8192eu.Ie.Rates

/-!
# A hidden SSID becomes known

`rtw_absorb_ssid_ifneed`: a frame with an SSID comes from a network that was recorded without one, and
the SSID element of the record gets its body.

* `ScannedNetwork`   the record; its elements begin where those of the frame do;
* `rtwAbsorbSsidIfneed`   the source, on the scanned queue;
* `absorb_ssid_iff`   the list stays one when the recorded element was empty.
-/

namespace Rtl8192eu

open Records Mem IeEdit

/-- `NDIS_802_11_SSID` -/
structure Ndis80211Ssid where
  ssid : List UInt8
  length_le : ssid.length ≤ 32
  deriving DecidableEq, Repr

def isAllNull (ssid : List UInt8) : Bool := ssid.all (· == 0)

def isHiddenSsid (ssid : List UInt8) : Bool := ssid.length == 0 || isAllNull ssid

structure ScannedNetwork where
  macAddress : Mac
  ssid : Ndis80211Ssid
  ies : Nat → UInt8
  ieLength : Nat

def wifiProbereq : Nat := 0x40

/-- the fixed fields of the frame; any frame but a probe request has those of a beacon -/
def ieOffset (f : RecvFrame) : Nat := if getFrameSubType f = wifiProbereq then 0 else beaconIeOffset

def eidSsid : UInt8 := 0

/-- `bssid` is what the frame says; `none` is a write behind `IEs` or `backupIE` -/
def absorbSsid (snetwork : ScannedNetwork) (bssid : Ndis80211Ssid) (ieOffset : Nat) :
    Option ScannedNetwork :=
  if isHiddenSsid snetwork.ssid.ssid && !isHiddenSsid bssid.ssid then
    match rtwGetIe (shift snetwork.ies ieOffset) eidSsid (snetwork.ieLength - ieOffset) with
    | none => some snetwork
    | some (i, ssidLenOri) =>
      let p := ieOffset + i
      let nextIe := p + 2 + ssidLenOri
      let remainLen := snetwork.ieLength - nextIe
      let backupIe := read snetwork.ies nextIe remainLen
      if maxIeSz < p + 2 + bssid.ssid.length + remainLen then none
      else some { snetwork with
        ssid := bssid
        ies := newBody snetwork.ies p bssid.ssid backupIe
        ieLength := snetwork.ieLength + bssid.ssid.length }
  else some snetwork

/-- the first network with the address is the one -/
def absorbIn (mac : Mac) (bssid : Ndis80211Ssid) (ieOffset : Nat) :
    List ScannedNetwork → Option (List ScannedNetwork)
  | [] => some []
  | snetwork :: queue =>
    if snetwork.macAddress = mac then (absorbSsid snetwork bssid ieOffset).map (· :: queue)
    else (absorbIn mac bssid ieOffset queue).map (snetwork :: ·)

def rtwAbsorbSsidIfneed (scannedQueue : List ScannedNetwork) (bssid : Ndis80211Ssid) (pframe : RecvFrame) :
    Option (List ScannedNetwork) :=
  let mac := getAddr2 pframe
  if mac = zeroMac then some scannedQueue else absorbIn mac bssid (ieOffset pframe) scannedQueue

/-! ## one record -/

def ssidElem (bssid : Ndis80211Ssid) (e : Elem) : Elem where
  id := e.id
  body := bssid.ssid
  length_lt := Nat.lt_of_le_of_lt bssid.length_le (by decide)

/-- the SSID element of the record -/
def ssidOf (rs : List Elem) : Option Elem := (first elems (Elem.hasId eidSsid) rs).map Prod.snd

/-- a network that was recorded without its SSID, with room for one -/
structure HiddenRecord (snetwork : ScannedNetwork) (off : Nat) (rs : List Elem) (e : Elem) : Prop where
  list : read snetwork.ies off (snetwork.ieLength - off) = all elems rs
  fixed : off ≤ snetwork.ieLength
  room : snetwork.ieLength ≤ maxIeSz - 32
  hidden : isHiddenSsid snetwork.ssid.ssid = true
  elem : ssidOf rs = some e
  empty : isHiddenSsid e.body = true

/-- the record with the SSID: the element has it, nothing else changed, and the length is right -/
structure Learned (snetwork snetwork' : ScannedNetwork) (off : Nat) (rs : List Elem) (e : Elem)
    (bssid : Ndis80211Ssid) : Prop where
  list : read snetwork'.ies off (snetwork'.ieLength - off)
    = all elems (onFirst (Elem.hasId eidSsid) (ssidElem bssid) rs)
  length : snetwork'.ieLength + e.body.length = snetwork.ieLength + bssid.ssid.length
  ssid : snetwork'.ssid = bssid
  macAddress : snetwork'.macAddress = snetwork.macAddress

variable {snetwork : ScannedNetwork} {bssid : Ndis80211Ssid} {off : Nat} {rs : List Elem} {e : Elem}

/-- **The record is right afterwards** exactly when the element was empty: the old body is not taken
off the length. -/
theorem absorbSsid_iff (h : HiddenRecord snetwork off rs e) (hb : isHiddenSsid bssid.ssid = false) :
    (∃ snetwork', absorbSsid snetwork bssid off = some snetwork' ∧ Learned snetwork snetwork' off rs e bssid)
      ↔ e.body = [] := by
  obtain ⟨hlist, hfixed, hroom, hhidden, helem, -⟩ := h
  obtain ⟨⟨o, x⟩, hf, hx⟩ := Option.map_eq_some_iff.mp helem
  obtain rfl : e = x := hx.symm
  obtain ⟨pre, post, rfl, he, hpre, rfl⟩ := first_eq_some hf
  have hlook := rtwGetIe_mem eidSsid (pre ++ e :: post) ((read_shift (m := snetwork.ies)).trans hlist)
  rw [first_append hpre he, Option.map_some] at hlook
  have hlen := congrArg List.length hlist
  rw [length_read, length_all_split] at hlen
  have hle := bssid.length_le
  obtain ⟨-, hpost⟩ := read_elem hlist
  have hrem : snetwork.ieLength - (off + (all elems pre).length + 2 + e.body.length)
      = (all elems post).length := by omega
  have hnew : read (newBody snetwork.ies (off + (all elems pre).length) bssid.ssid (all elems post)) off
      (all elems (pre ++ ssidElem bssid e :: post)).length = all elems (pre ++ ssidElem bssid e :: post) :=
    newBody_read hlist (rfl : (ssidElem bssid e).id = e.id)
  have hsize : (all elems (pre ++ ssidElem bssid e :: post)).length
      = (all elems pre).length + 2 + bssid.ssid.length + (all elems post).length := length_all_split ..
  have hfit : ¬ maxIeSz < off + (all elems pre).length + 2 + bssid.ssid.length + (all elems post).length := by
    have : maxIeSz = 768 := rfl
    omega
  unfold absorbSsid
  rw [hhidden, hb, Bool.not_false, Bool.and_self, if_pos rfl, hlook]
  dsimp only
  rw [hrem, hpost, if_neg hfit]
  constructor
  · rintro ⟨snetwork', hs, hl⟩
    cases hs
    have hgrown : snetwork.ieLength + bssid.ssid.length + e.body.length
        = snetwork.ieLength + bssid.ssid.length := hl.length
    exact List.length_eq_zero_iff.mp (by omega)
  · intro hnil
    rw [hnil, List.length_nil] at hlen
    refine ⟨_, rfl, ?_, ?_, rfl, rfl⟩
    · rw [onFirst_append hpre he]
      have hl : snetwork.ieLength + bssid.ssid.length - off
          = (all elems (pre ++ ssidElem bssid e :: post)).length := by omega
      dsimp only
      rw [hl]
      exact hnew
    · rw [hnil]
      rfl

/-- the record that the address finds -/
theorem absorbIn_append {pre post : List ScannedNetwork} {mac : Mac}
    (hpre : ∀ x ∈ pre, x.macAddress ≠ mac) (hmac : snetwork.macAddress = mac) :
    absorbIn mac bssid off (pre ++ snetwork :: post)
      = (absorbSsid snetwork bssid off).map fun snetwork' => pre ++ snetwork' :: post := by
  induction pre with
  | nil => exact if_pos hmac
  | cons x pre ih =>
    rw [List.cons_append, absorbIn, if_neg (hpre x List.mem_cons_self),
      ih fun y hy => hpre y (List.mem_cons_of_mem _ hy), Option.map_map]
    rfl

/-! ## the queue -/

/-- **A hidden SSID is learned** without damage exactly when the recorded element was empty. -/
theorem absorb_ssid_iff (pre post : List ScannedNetwork) (snetwork : ScannedNetwork) (bssid : Ndis80211Ssid)
    (pframe : RecvFrame) (rs : List Elem) (e : Elem)
    (hpre : ∀ x ∈ pre, x.macAddress ≠ getAddr2 pframe) (hmac : snetwork.macAddress = getAddr2 pframe)
    (hz : getAddr2 pframe ≠ zeroMac) (h : HiddenRecord snetwork (ieOffset pframe) rs e)
    (hb : isHiddenSsid bssid.ssid = false) :
    (∃ snetwork', rtwAbsorbSsidIfneed (pre ++ snetwork :: post) bssid pframe
          = some (pre ++ snetwork' :: post)
        ∧ Learned snetwork snetwork' (ieOffset pframe) rs e bssid)
      ↔ e.body = [] := by
  rw [← absorbSsid_iff h hb]
  unfold rtwAbsorbSsidIfneed
  dsimp only
  rw [if_neg hz, absorbIn_append hpre hmac]
  constructor
  · rintro ⟨snetwork', hq, hl⟩
    obtain ⟨snetwork'', hs, he⟩ := Option.map_eq_some_iff.mp hq
    cases List.append_cancel_left he
    exact ⟨snetwork', hs, hl⟩
  · rintro ⟨snetwork', hs, hl⟩
    exact ⟨snetwork', by rw [hs, Option.map_some], hl⟩

/-- a beacon with an SSID element of the given body and one more element -/
def hiddenBeacon (len : Nat) (l : List UInt8) : ScannedNetwork :=
  ⟨[2, 0, 0, 0, 0, 1], ⟨[], by decide⟩, ahead (List.replicate 12 0 ++ l) fun _ => 0, len⟩

/-- the header of a probe response from that network -/
def probeRsp : RecvFrame :=
  { id := 0, data := [0x50, 0, 0, 0, 1, 1, 1, 1, 1, 1, 2, 0, 0, 0, 0, 1, 2, 0, 0, 0, 0, 1, 0, 0] }

theorem absorb_ssid_iff_probeRsp :
    ∃ snetwork', rtwAbsorbSsidIfneed [hiddenBeacon 17 [0, 0, 3, 1, 6]] ⟨[0x61], by decide⟩ probeRsp
          = some [snetwork']
        ∧ Learned (hiddenBeacon 17 [0, 0, 3, 1, 6]) snetwork' 12 [⟨0, [], by decide⟩, ⟨3, [6], by decide⟩]
          ⟨0, [], by decide⟩ ⟨[0x61], by decide⟩ :=
  (absorb_ssid_iff [] [] (hiddenBeacon 17 [0, 0, 3, 1, 6]) ⟨[0x61], by decide⟩ probeRsp
    [⟨0, [], by decide⟩, ⟨3, [6], by decide⟩] ⟨0, [], by decide⟩ nofun (by decide) (by decide)
    ⟨by decide, by decide, by decide, by decide, by decide, by decide⟩ (by decide)).mpr rfl

/-- an SSID element of one zero byte: the list ends one byte too late -/
theorem zero_ssid_length :
    (rtwAbsorbSsidIfneed [hiddenBeacon 18 [0, 1, 0, 3, 1, 6]] ⟨[0x61], by decide⟩ probeRsp).map
        (fun queue => queue.map ScannedNetwork.ieLength) = some [19]
      ∧ ¬ ∃ snetwork', rtwAbsorbSsidIfneed [hiddenBeacon 18 [0, 1, 0, 3, 1, 6]] ⟨[0x61], by decide⟩ probeRsp
          = some [snetwork']
        ∧ Learned (hiddenBeacon 18 [0, 1, 0, 3, 1, 6]) snetwork' 12 [⟨0, [0], by decide⟩, ⟨3, [6], by decide⟩]
          ⟨0, [0], by decide⟩ ⟨[0x61], by decide⟩ := by
  have hlen : (rtwAbsorbSsidIfneed [hiddenBeacon 18 [0, 1, 0, 3, 1, 6]] ⟨[0x61], by decide⟩ probeRsp).map
      (fun queue => queue.map ScannedNetwork.ieLength) = some [19] := by decide
  refine ⟨hlen, ?_⟩
  rintro ⟨snetwork', hq, hl⟩
  have hright : snetwork'.ieLength + 1 = 18 + 1 := hl.length
  rw [hq] at hlen
  have h19 : snetwork'.ieLength = 19 := List.head_eq_of_cons_eq (Option.some.inj hlen)
  omega

end Rtl8192eu
