import Rtl8192eu.Ie.Replace

/-!
# The rates of a mode

`rtw_update_rate_bymode` cuts the supported rates of a network down to those of a mode, in place.

* `rtwFilterSuppportRateie`   the rates of one class stay, and the mandatory OFDM rates become basic;
* `rtwUpdateRateBymode`   CCK alone for 11B, which loses its extended rates as well, OFDM alone for
                               modes without 11B;
* `updateRate_keeps_list`   the list afterwards.
-/

namespace Rtl8192eu

open Records Mem IeEdit

/-! ## classes of rates -/

def wifiCckRates : List UInt8 := [0x82, 0x84, 0x8b, 0x96]

def wifiOfdmRates : List UInt8 := [0x0c, 0x12, 0x18, 0x24, 0x30, 0x48, 0x60, 0x6c]

def rtwBasicRateOfdm : List UInt8 := [0x8c, 0x98, 0xb0]

def rateIn (table : List UInt8) (rate : UInt8) : Bool := table.any fun r => r &&& 0x7f == rate &&& 0x7f

def rtwIsCckRate (rate : UInt8) : Bool := rateIn wifiCckRates rate

def rtwIsOfdmRate (rate : UInt8) : Bool := rateIn wifiOfdmRates rate

def rtwIsBasicRateOfdm (rate : UInt8) : Bool := rateIn rtwBasicRateOfdm rate

/-- `keep` -/
inductive RateClass where
  | cck | ofdm
  deriving DecidableEq, Repr

def RateClass.has : RateClass → UInt8 → Bool
  | .cck, rate => rtwIsCckRate rate
  | .ofdm, rate => rtwIsOfdmRate rate

/-- `new_rate` -/
def newRates (keep : RateClass) (rates : List UInt8) : List UInt8 :=
  (rates.filter keep.has).map fun rate => if rtwIsBasicRateOfdm rate then rate ||| 0x80 else rate

/-! ## the network -/

def ndisLengthRatesEx : Nat := 16

def beaconIeOffset : Nat := 12

/-- `WLAN_BSSID_EX`; the elements begin behind the fixed fields of a beacon -/
structure WlanBssidEx where
  ies : Nat → UInt8
  ieLength : Nat
  dsConfig : Nat
  supportedRates : List UInt8

def eidSupportedRates : UInt8 := 1

def eidExtSupportedRates : UInt8 := 50

/-- `none`: more rates are kept than `new_rate` has room for -/
def rtwFilterSuppportRateie (b : WlanBssidEx) (keep : RateClass) : Option WlanBssidEx :=
  match rtwGetIe (shift b.ies beaconIeOffset) eidSupportedRates (b.ieLength - beaconIeOffset) with
  | none => some b
  | some (i, ieOrilen) =>
    let p := beaconIeOffset + i
    let newRate := newRates keep (read b.ies (p + 2) ieOrilen)
    if ndisLengthRatesEx < newRate.length then none
    else
      let m := write (write b.ies (p + 1) [UInt8.ofNat newRate.length]) (p + 2) newRate
      let remainIes := p + 2 + ieOrilen
      let remainLen := b.ieLength - remainIes
      some { b with
        ies := write m (p + 2 + newRate.length) (read m remainIes remainLen)
        ieLength := b.ieLength - (ieOrilen - newRate.length) }

/-! ## `rtw_update_rate_bymode` -/

def wireless11b : Nat := 1
def wireless11g : Nat := 2
def wireless11a : Nat := 4
def wireless11bg : Nat := 3

/-- the cases that `rtw_update_rate_bymode` asks for -/
def rtwSetSupportedRate (mode : Nat) : List UInt8 :=
  let rates :=
    if mode = wireless11b then wifiCckRates
    else if mode = wireless11g ∨ mode = wireless11a then wifiOfdmRates
    else if mode = wireless11bg then wifiCckRates ++ wifiOfdmRates
    else []
  rates ++ List.replicate (ndisLengthRatesEx - rates.length) 0

/-- the extended rates go; `networkIelen` is the length from before the first edit -/
def dropExtRates (b : WlanBssidEx) (networkIelen : Nat) : Option WlanBssidEx :=
  match rtwGetIe (shift b.ies beaconIeOffset) eidExtSupportedRates (b.ieLength - beaconIeOffset) with
  | none => some b
  | some (_, ieLen) =>
    match rtwIesRemoveIe ⟨b.ies, networkIelen⟩ beaconIeOffset eidExtSupportedRates none with
    | some (.done s _) => some { b with ies := s.mem, ieLength := b.ieLength - ieLen }
    | _ => none

/-- the network and its type; `none` is a write outside the buffers -/
def rtwUpdateRateBymode (b : WlanBssidEx) (mode : Nat) : Option (WlanBssidEx × Nat) :=
  if mode = wireless11b then do
    let b' ← rtwFilterSuppportRateie b .cck
    let b'' ← dropExtRates b' b.ieLength
    some ({ b'' with supportedRates := rtwSetSupportedRate wireless11b }, wireless11b)
  else if mode &&& wireless11b = 0 then do
    let b' ← rtwFilterSuppportRateie b .ofdm
    let networkType := if 14 < b.dsConfig then wireless11a else wireless11g
    some ({ b' with supportedRates := rtwSetSupportedRate networkType }, networkType)
  else some ({ b with supportedRates := rtwSetSupportedRate wireless11bg }, wireless11bg)

/-! ## one class of rates -/

variable {b : WlanBssidEx} {rs pre post : List Elem} {e : Elem} {keep : RateClass} {mode : Nat}

theorem length_newRates_le (keep : RateClass) (rates : List UInt8) :
    (newRates keep rates).length ≤ rates.length := by
  rw [newRates, List.length_map]
  exact List.length_filter_le ..

/-- the rates element of one class -/
def rateElem (keep : RateClass) (e : Elem) : Elem where
  id := e.id
  body := newRates keep e.body
  length_lt := Nat.lt_of_le_of_lt (length_newRates_le ..) e.length_lt

/-- a network whose elements are complete -/
structure HasElems (b : WlanBssidEx) (rs : List Elem) : Prop where
  fixed : beaconIeOffset ≤ b.ieLength
  list : read b.ies beaconIeOffset (b.ieLength - beaconIeOffset) = all elems rs

theorem HasElems.ieLength (h : HasElems b rs) : b.ieLength = beaconIeOffset + (all elems rs).length := by
  have h1 := congrArg List.length h.list
  have h2 := h.fixed
  rw [length_read] at h1
  omega

theorem HasElems.lookup (h : HasElems b rs) (id : UInt8) :
    rtwGetIe (shift b.ies beaconIeOffset) id (b.ieLength - beaconIeOffset)
      = (first elems (Elem.hasId id) rs).map fun x => (x.1, x.2.body.length) := by
  refine IeEdit.rtwGetIe_mem id rs ?_
  rw [read_shift]
  exact h.list

theorem filterRates_none (h : HasElems b rs) (hno : ∀ e ∈ rs, Elem.hasId eidSupportedRates e = false) :
    rtwFilterSuppportRateie b keep = some b := by
  unfold rtwFilterSuppportRateie
  rw [h.lookup, first_eq_none.mpr hno]
  rfl

theorem filterRates_some (h : HasElems b (pre ++ e :: post))
    (hpre : ∀ x ∈ pre, Elem.hasId eidSupportedRates x = false) (he : Elem.hasId eidSupportedRates e = true)
    (h16 : e.body.length ≤ ndisLengthRatesEx) :
    ∃ b', rtwFilterSuppportRateie b keep = some b' ∧ HasElems b' (pre ++ rateElem keep e :: post)
      ∧ b' = { b with ies := b'.ies, ieLength := b'.ieLength } := by
  have hlen := h.ieLength
  rw [length_all_split] at hlen
  obtain ⟨hbody, hpost⟩ := read_elem h.list
  have hle := length_newRates_le keep e.body
  have hrem : b.ieLength - (beaconIeOffset + (all elems pre).length + 2 + e.body.length)
      = (all elems post).length := by omega
  have hkept : read (write (write b.ies (beaconIeOffset + (all elems pre).length + 1)
        [UInt8.ofNat (newRates keep e.body).length]) (beaconIeOffset + (all elems pre).length + 2)
        (newRates keep e.body)) (beaconIeOffset + (all elems pre).length + 2 + e.body.length)
        (all elems post).length = all elems post := by
    rw [read_write_of_disjoint (Or.inr (by omega)), read_write_of_disjoint, hpost]
    exact Or.inr (by rw [List.length_singleton]; omega)
  have hnew := newBody_read h.list (rfl : (rateElem keep e).id = e.id)
  unfold rtwFilterSuppportRateie
  rw [h.lookup, first_append hpre he]
  dsimp only [Option.map_some]
  rw [hbody, if_neg (Nat.not_lt.mpr (Nat.le_trans hle h16)), hrem, hkept]
  refine ⟨_, rfl, ⟨?_, ?_⟩, rfl⟩
  · show beaconIeOffset ≤ b.ieLength - (e.body.length - (newRates keep e.body).length)
    omega
  · have hlen' : b.ieLength - (e.body.length - (newRates keep e.body).length) - beaconIeOffset
        = (all elems (pre ++ rateElem keep e :: post)).length := by
      rw [length_all_split]
      show _ = (all elems pre).length + 2 + (newRates keep e.body).length + _
      omega
    dsimp only
    rw [hlen']
    exact hnew

/-- the supported rates fit into `new_rate` -/
def FewRates (rs : List Elem) : Prop :=
  ∀ x, first elems (Elem.hasId eidSupportedRates) rs = some x → x.2.body.length ≤ ndisLengthRatesEx

/-- **One class of rates** is kept in the first rates element, and the others are as they were. -/
theorem filterRates_spec (h : HasElems b rs) (h16 : FewRates rs) (keep : RateClass) :
    ∃ b', rtwFilterSuppportRateie b keep = some b'
      ∧ HasElems b' (onFirst (Elem.hasId eidSupportedRates) (rateElem keep) rs)
      ∧ b' = { b with ies := b'.ies, ieLength := b'.ieLength } := by
  cases hf : first elems (Elem.hasId eidSupportedRates) rs with
  | none =>
    have hno := first_eq_none.mp hf
    rw [onFirst_eq_self hno]
    exact ⟨b, filterRates_none h hno, h, rfl⟩
  | some x =>
    obtain ⟨o, e⟩ := x
    obtain ⟨pre, post, rfl, he, hpre, -⟩ := first_eq_some hf
    rw [onFirst_append hpre he]
    exact filterRates_some h hpre he (h16 _ hf)

/-! ## the list afterwards -/

/-- the list for a mode; `g` is what happens to the supported rates -/
def modeElems (g : RateClass → Elem → Elem) (mode : Nat) (rs : List Elem) : List Elem :=
  if mode = wireless11b then
    (onFirst (Elem.hasId eidSupportedRates) (g .cck) rs).filter fun e => !Elem.hasId eidExtSupportedRates e
  else if mode &&& wireless11b = 0 then onFirst (Elem.hasId eidSupportedRates) (g .ofdm) rs
  else rs

/-- the rates element without the rates of the other class -/
def classElem (keep : RateClass) (e : Elem) : Elem where
  id := e.id
  body := e.body.filter keep.has
  length_lt := Nat.lt_of_le_of_lt (List.length_filter_le ..) e.length_lt

/-- the network is updated, and its elements are then `rs` -/
def UpdatedTo (b : WlanBssidEx) (mode : Nat) (rs : List Elem) : Prop :=
  ∃ b' networkType, rtwUpdateRateBymode b mode = some (b', networkType) ∧ HasElems b' rs
    ∧ b'.ieLength = beaconIeOffset + (all elems rs).length

/-- an edit of the rates brings no extended rates -/
theorem onFirst_not_ext (keep : RateClass) (hno : ∀ e ∈ rs, Elem.hasId eidExtSupportedRates e = false)
    {x : Elem} (hx : x ∈ onFirst (Elem.hasId eidSupportedRates) (rateElem keep) rs) :
    Elem.hasId eidExtSupportedRates x = false := by
  induction rs with
  | nil => cases hx
  | cons e rs ih =>
    rw [onFirst] at hx
    have he := hno e List.mem_cons_self
    have hrest := fun y hy => hno y (List.mem_cons_of_mem e hy)
    split at hx
    · rcases List.mem_cons.mp hx with rfl | hx
      · exact he
      · exact hrest x hx
    · rcases List.mem_cons.mp hx with rfl | hx
      · exact he
      · exact ih hrest hx

/-- **The element list stays one**: the supported rates are cut down to the class of the mode, with the
mandatory OFDM rates marked, and everything else is unchanged. -/
theorem updateRate_keeps_list (b : WlanBssidEx) (rs : List Elem) (mode : Nat) (h : HasElems b rs)
    (h16 : FewRates rs)
    (hext : mode = wireless11b → ∀ e ∈ rs, Elem.hasId eidExtSupportedRates e = false) :
    UpdatedTo b mode (modeElems rateElem mode rs) := by
  unfold UpdatedTo rtwUpdateRateBymode modeElems
  split
  · rename_i hmode
    obtain ⟨b', hb', hl, -⟩ := filterRates_spec h h16 .cck
    have hno : ∀ x ∈ onFirst (Elem.hasId eidSupportedRates) (rateElem .cck) rs,
        Elem.hasId eidExtSupportedRates x = false := fun _ hx => onFirst_not_ext .cck (hext hmode) hx
    have hdrop : dropExtRates b' b.ieLength = some b' := by
      unfold dropExtRates
      rw [hl.lookup, first_eq_none.mpr hno]
      rfl
    rw [List.filter_eq_self.mpr fun x hx => by rw [hno x hx]; rfl, hb']
    dsimp only [Option.bind_eq_bind, Option.bind_some]
    rw [hdrop]
    exact ⟨_, _, rfl, ⟨hl.fixed, hl.list⟩, hl.ieLength⟩
  · split
    · obtain ⟨b', hb', hl, -⟩ := filterRates_spec h h16 .ofdm
      rw [hb']
      exact ⟨_, _, rfl, ⟨hl.fixed, hl.list⟩, hl.ieLength⟩
    · exact ⟨_, _, rfl, ⟨h.fixed, h.list⟩, h.ieLength⟩

/-- rates of both classes, between an SSID and a DS parameter set -/
def mixedElems : List Elem :=
  [⟨0, [0x61, 0x62], by decide⟩, ⟨1, [0x82, 0x0c, 0x84, 0x12], by decide⟩, ⟨3, [11], by decide⟩]

theorem updateRate_keeps_list_11g :
    UpdatedTo ⟨ahead (List.replicate 12 0 ++ all elems mixedElems) fun _ => 0, 25, 4, []⟩ wireless11g
      [⟨0, [0x61, 0x62], by decide⟩, ⟨1, [0x8c, 0x12], by decide⟩, ⟨3, [11], by decide⟩] := by
  have h := updateRate_keeps_list ⟨ahead (List.replicate 12 0 ++ all elems mixedElems) fun _ => 0, 25, 4, []⟩
    mixedElems wireless11g ⟨by decide, by decide⟩ (fun x hx => by cases hx; decide) nofun
  have he : modeElems rateElem wireless11g mixedElems
      = [⟨0, [0x61, 0x62], by decide⟩, ⟨1, [0x8c, 0x12], by decide⟩, ⟨3, [11], by decide⟩] := by decide
  rwa [he] at h

/-- a mandatory rate is marked; and when extended rates go, two bytes too many are left of the list -/
theorem rates_marked :
    ¬ UpdatedTo ⟨ahead (List.replicate 12 0 ++ [1, 1, 0x0c]) fun _ => 0, 15, 1, []⟩ wireless11g
        (modeElems classElem wireless11g [⟨1, [0x0c], by decide⟩])
      ∧ ¬ UpdatedTo ⟨ahead (List.replicate 12 0 ++ [1, 1, 0x82, 50, 1, 0x0c]) fun _ => 0, 18, 1, []⟩
        wireless11b (modeElems classElem wireless11b [⟨1, [0x82], by decide⟩, ⟨50, [0x0c], by decide⟩]) := by
  constructor
  · rintro ⟨b', networkType, hb', hl, hlen⟩
    have hlist := hl.list
    rw [hlen] at hlist
    have h14 : b'.ies 14 = 0x0c := congrArg (fun l => l.getD 2 0) hlist
    have hbyte : (rtwUpdateRateBymode ⟨ahead (List.replicate 12 0 ++ [1, 1, 0x0c]) fun _ => 0, 15, 1, []⟩
        wireless11g).map (fun x => x.1.ies 14) = some 0x8c := by decide
    rw [hb', Option.map_some, h14] at hbyte
    exact absurd hbyte (by decide)
  · rintro ⟨b', networkType, hb', -, hlen⟩
    have hkept : (rtwUpdateRateBymode
        ⟨ahead (List.replicate 12 0 ++ [1, 1, 0x82, 50, 1, 0x0c]) fun _ => 0, 18, 1, []⟩ wireless11b).map
        (fun x => x.1.ieLength) = some 17 := by decide
    rw [hb', Option.map_some, hlen] at hkept
    exact absurd hkept (by decide)

end Rtl8192eu
