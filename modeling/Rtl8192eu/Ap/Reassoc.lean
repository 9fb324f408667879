import Rtl8192eu.Ap.MfpSta
import Rtl8192eu.Ap.StaLists
import Rtl8192eu.Ie.Remove

/-!
# A request of an associated station that is refused

`OnAssocReq` for a station that is associated already.  It takes `WIFI_FW_ASSOC_SUCCESS` away before it looks
at the request, and its parsers write into the record of the station; nothing of this is taken back when the
request is refused.  Only the refusal that starts an SA Query sets the state again.

* `QosFlags`, `StaRecords`   the bits of `flags` for QoS and HT, which are read last;
* `StaRecord`    what is asked to stay as it is;
* `SecOk`, `Welcome`   a request that passes all checks, and
* `askedSta`     the record it leads to (`Welcome.assocParse`);
* `reject_iff`   which requests leave the record alone when they are refused.

802.11ac, Multi-AP and P2P are not compiled in.
-/

namespace Rtl8192eu

open Records

/-! ## the last parsers -/

/-- `WLAN_STA_WME`, `WLAN_STA_HT`, `WLAN_STA_VHT` and `WLAN_STA_MULTI_AP` of `flags` -/
structure QosFlags where
  wme : Bool := false
  ht : Bool := false
  vht : Bool := false
  multiAp : Bool := false
  deriving DecidableEq, Repr

/-- `qos_option` and `ht_option` of the access point -/
structure QosConf where
  qosOption : Bool := false
  htOption : Bool := false

namespace QosFlags

/-- `rtw_ap_parse_sta_wmm_ie`, the flag -/
def rtwApParseStaWmmIe (q : QosConf) (flags : QosFlags) (f : RecvFrame) (off : Nat) : QosFlags :=
  { flags with wme := q.qosOption
      && (IeEdit.getIeEx (fun i => f.byte (off + i)) (f.len - off) 221
        (some [0x00, 0x50, 0xf2, 0x02, 0x00, 0x01])).isSome }

/-- `ht_capabilities` is the last such element, and long enough -/
def htCapabilities (f : RecvFrame) (off : Nat) : Bool :=
  match last elems (Elem.hasIndex 45) (pieces elems (f.data.drop off)).1 with
  | none => false
  | some (_, e) => 26 ≤ e.body.length

/-- `rtw_ap_parse_sta_ht_ie`, the flags -/
def rtwApParseStaHtIe (q : QosConf) (flags : QosFlags) (f : RecvFrame) (off : Nat) : QosFlags :=
  if q.htOption && htCapabilities f off then { flags with ht := true, wme := true }
  else { flags with ht := false }

def rtwApParseStaVhtIe (flags : QosFlags) : QosFlags := { flags with vht := false }

/-- no HT with TKIP -/
def dropTkip (sec : StaSec) (flags : QosFlags) : QosFlags :=
  if (flags.ht || flags.vht) && (sec.wpa2PairwiseCipher.testBit 3 || sec.wpaPairwiseCipher.testBit 3) then
    { flags with ht := false, vht := false }
  else flags

def rtwApParseStaMultiApIe (flags : QosFlags) : QosFlags := { flags with multiAp := false }

/-- what follows the checks of a request -/
def parse (q : QosConf) (sec : StaSec) (flags : QosFlags) (f : RecvFrame) (off : Nat) : QosFlags :=
  rtwApParseStaMultiApIe (dropTkip sec
    (rtwApParseStaVhtIe (rtwApParseStaHtIe q (rtwApParseStaWmmIe q flags f off) f off)))

end QosFlags

/-! ## the handler, with all flags -/

structure StaRecords where
  priv : StaPriv
  qos : Nat → QosFlags := fun _ => {}

/-- a request that is not answered at all -/
def AssocSilent (s : StaPriv) (f : RecvFrame) (p : Nat) : Prop :=
  invalidMac (getAddr2 f) = true ∨ f.len < asocreqIeOffset f
    ∨ (s.pool p).authalg = authAlgSae ∧ (s.pool p).state.authNull = true

instance (s : StaPriv) (f : RecvFrame) (p : Nat) : Decidable (AssocSilent s f p) :=
  inferInstanceAs (Decidable (_ ∨ _ ∨ _))

/-- the station, and its record when the last parsers are reached -/
def assocPassed (conf : ApConf) (s : StaPriv) (f : RecvFrame) : Option (Nat × ApSta) := do
  let p ← s.rtwGetStainfo (getAddr2 f)
  if AssocSilent s f p then none
  else do
    let st ← assocStart (s.pool p).state
    match assocParse conf { s.pool p with state := st } f with
    | (0, sta) => some (p, sta)
    | _ => none

/-- `OnAssocReq`; `onAssocReq` is the same without the flags for QoS and HT -/
def StaRecords.onAssocReq (conf : ApConf) (q : QosConf) (r : StaRecords) (f : RecvFrame) :
    StaRecords × List ApOut :=
  let ret := Rtl8192eu.onAssocReq conf r.priv f
  let qos :=
    match assocPassed conf r.priv f with
    | none => r.qos
    | some (p, sta) => Function.update r.qos p (QosFlags.parse q sta.sec (r.qos p) f (asocreqIeOffset f))
  (⟨ret.1, qos⟩, ret.2)

/-- what an association is to the driver -/
structure StaRecord where
  state : StaState
  flags : StaFlags
  qos : QosFlags
  capability : Nat
  bssrateset : List UInt8
  /-- the ciphers, the key management and the AID -/
  info : AsocInfo
  wpaIe : List UInt8
  deriving DecidableEq, Repr

def ApSta.record (sta : ApSta) (qos : QosFlags) : StaRecord :=
  ⟨sta.state, sta.flags, qos, sta.capability, sta.bssrateset, sta.asocInfo, sta.sec.wpaIe⟩

def StaRecords.record (r : StaRecords) (p : Nat) : StaRecord := (r.priv.pool p).record (r.qos p)

/-- a request of an associated station that is refused leaves the record as it was -/
def RejectKeeps (conf : ApConf) (q : QosConf) (r : StaRecords) (f : RecvFrame) : Prop :=
  ∀ p, r.priv.rtwGetStainfo (getAddr2 f) = some p → p ∈ r.priv.asocList.nodes →
    (r.priv.pool p).state.assocSuccess = true →
      ∀ status, status ≠ 0 → ApOut.asocRsp (getAddr2 f) status ∈ (r.onAssocReq conf q f).2 →
        (r.onAssocReq conf q f).1.record p = r.record p

/-! ## what a request asks for -/

/-- the selection of the element that decides; an RSN element also names key management and options -/
def askedSel (conf : ApConf) (e : Elems) : Option SuiteSel :=
  match secIe conf e with
  | .rsn ie => rtwParseWpa2Ie ie
  | .wpa ie => (rtwParseWpaIe ie).map fun sel => { sel with gmcs := 0, akm := 0, mfpOpt := 0, sppOpt := 0 }
  | .none => some {}

/-- a cipher of each kind, and for RSN a key management, that both sides have -/
def SuitesCommon (conf : ApConf) (e : Elems) (sel : SuiteSel) : Prop :=
  match secIe conf e with
  | .rsn _ => ¬ (akmTypeSae &&& sel.akm ≠ 0 ∧ sel.mfpOpt = 0) ∧ conf.akmp &&& sel.akm ≠ 0
      ∧ sel.groupCipher &&& conf.wpa2GroupCipher ≠ 0 ∧ sel.pairwiseCipher &&& conf.wpa2PairwiseCipher ≠ 0
  | .wpa _ => sel.groupCipher &&& conf.wpaGroupCipher ≠ 0 ∧ sel.pairwiseCipher &&& conf.wpaPairwiseCipher ≠ 0
  | .none => True

/-- the element that decides, if there is one -/
def SecIe.bytes : SecIe → Option (List UInt8)
  | .rsn ie => some ie
  | .wpa ie => some ie
  | .none => Option.none

/-- the key management after the request: a WPA element leaves the old one -/
def askedAkm (conf : ApConf) (sta : ApSta) (e : Elems) (sel : SuiteSel) : Nat :=
  match secIe conf e with
  | .rsn _ => sel.akm
  | _ => sta.sec.akmSuiteType

/-- the checks of `rtw_ap_parse_sta_security_ie` -/
structure SecOk (conf : ApConf) (sta : ApSta) (e : Elems) (sel : SuiteSel) : Prop where
  asked : askedSel conf e = some sel
  suites : SuitesCommon conf e sel
  /-- neither side requires a protection that the other does not have -/
  mfp : ¬ (conf.mfpOpt = 3 ∧ sel.mfpOpt < 2) ∧ ¬ (sel.mfpOpt = 3 ∧ conf.mfpOpt < 2)
  gmcs : bothMfp conf sel = true → conf.gmcs = sel.gmcs
  /-- SAE by open authentication needs a cached PMKSA -/
  pmkid : conf.authTypeSae = true → akmTypeSae &&& askedAkm conf sta e sel ≠ 0 → sta.authalg = 0 →
    conf.cachedPmkid sta.macAddr = true
  /-- without an element of its own the station is left to WPS -/
  wps : (secIe conf e).bytes = none → ¬ (0 < conf.wpaPsk ∧ conf.wpsRegistrar = some false)

def askedRates (f : RecvFrame) : List UInt8 :=
  rtwIesGetSupportedRate (fun i => f.byte (asocreqIeOffset f + i)) (f.len - asocreqIeOffset f)

/-- the checks of `OnAssocReq` up to the AID -/
structure Welcome (conf : ApConf) (sta : ApSta) (f : RecvFrame) (e : Elems) (sel : SuiteSel) : Prop where
  forced : conf.forceAsocFail = 0
  elems : rtwIeee80211ParseElems (f.data.drop (asocreqIeOffset f)) = some e
  ssid : conf.ssid ≠ [] ∧ e.ssid = some conf.ssid
  rates : askedRates f ≠ []
  sec : SecOk conf sta e sel

/-- the ciphers, and the element if it is stored -/
def askedSec (conf : ApConf) (sec : StaSec) (e : Elems) (sel : SuiteSel) : StaSec :=
  let wpaIe := if e.wpsIe.isSome then [] else ((secIe conf e).bytes.getD []).take 32
  match secIe conf e with
  | .rsn _ =>
    { dot8021xalg := 1
      wpaPsk := 2
      wpa2GroupCipher := sel.groupCipher &&& conf.wpa2GroupCipher
      wpa2PairwiseCipher := sel.pairwiseCipher &&& conf.wpa2PairwiseCipher
      akmSuiteType := sel.akm
      wpaIe := wpaIe }
  | .wpa _ =>
    { dot8021xalg := 1
      wpaPsk := 1
      wpaGroupCipher := sel.groupCipher &&& conf.wpaGroupCipher
      wpaPairwiseCipher := sel.pairwiseCipher &&& conf.wpaPairwiseCipher
      akmSuiteType := sec.akmSuiteType
      wpaIe := wpaIe }
  | .none => { akmSuiteType := sec.akmSuiteType }

def askedFlags (conf : ApConf) (flags : StaFlags) (f : RecvFrame) (e : Elems) (sel : SuiteSel) : StaFlags where
  shortPreamble := (le16 f wlanHdrA3Len).testBit 5
  nonErp := (updateBrateTblForSoftAp (askedRates f)).all fun r => (r &&& 0x7f).toNat ≤ 22
  amsduDisable := flags.amsduDisable
    || conf.dot11PrivacyAlgrthm ≠ .noPrivacy && rtwCheckAmsduDisable conf.amsduMode sel.sppOpt
  mfp := flags.mfp || bothMfp conf sel
  wps := e.wpsIe.isSome
  maybeWps := (secIe conf e).bytes.isNone && e.wpsIe.isNone

/-- the record after a request that passes the checks -/
def askedSta (conf : ApConf) (sta : ApSta) (f : RecvFrame) (e : Elems) (sel : SuiteSel) : ApSta :=
  { sta with
    capability := le16 f wlanHdrA3Len
    bssrateset := updateBrateTblForSoftAp (askedRates f)
    flags := askedFlags conf sta.flags f e sel
    sec := askedSec conf sta.sec e sel }

/-! ## requests that leave the record alone -/

/-- a station that is protected after the request; it is answered with an SA Query -/
def AsksProtected (conf : ApConf) (sta : ApSta) (sel : SuiteSel) : Prop :=
  sta.bpairwiseKeyInstalled = true ∧ (sta.flags.mfp = true ∨ bothMfp conf sel = true)

/-- the record says already what the request asks for -/
structure AsksSame (conf : ApConf) (q : QosConf) (sta : ApSta) (qos : QosFlags) (f : RecvFrame) (e : Elems)
    (sel : SuiteSel) : Prop where
  state : sta.state.authSuccess = false ∧ sta.state.assocState = false
  aid : sta.aid ≠ 0
  capability : sta.capability = le16 f wlanHdrA3Len
  rates : sta.bssrateset = updateBrateTblForSoftAp (askedRates f)
  flags : sta.flags = askedFlags conf sta.flags f e sel
  qos : qos = QosFlags.parse q (askedSec conf sta.sec e sel) qos f (asocreqIeOffset f)
  suites : (askedSta conf sta f e sel).asocInfo = sta.asocInfo
  wpaIe : sta.sec.wpaIe = (askedSec conf sta.sec e sel).wpaIe

/-- a request that is not answered, is accepted, or asks a protected station for what it has -/
def RejectOk (conf : ApConf) (q : QosConf) (r : StaRecords) (f : RecvFrame) : Prop :=
  ∀ p, r.priv.rtwGetStainfo (getAddr2 f) = some p → p ∈ r.priv.asocList.nodes →
    (r.priv.pool p).state.assocSuccess = true →
      AssocSilent r.priv f p ∨ ∃ e sel, Welcome conf (r.priv.pool p) f e sel
        ∧ ((r.priv.pool p).aid ≠ 0 ∨ (r.priv.aidSearch r.priv.maxAid 0).isSome = true)
        ∧ (AsksProtected conf (r.priv.pool p) sel → AsksSame conf q (r.priv.pool p) (r.qos p) f e sel)

/-! ## the security elements -/

section
variable {conf : ApConf} {sta : ApSta} {e : Elems} {sel : SuiteSel}

/-- the ciphers without the element -/
theorem parseSuites_of_common (ha : askedSel conf e = some sel) (hc : SuitesCommon conf e sel) :
    parseSuites conf sta e
      = (0, setSec sta { askedSec conf sta.sec e sel with wpaIe := [] }, (secIe conf e).bytes, sel) := by
  unfold parseSuites
  unfold askedSel at ha
  unfold SuitesCommon at hc
  unfold askedSec
  cases hie : secIe conf e with
  | rsn ie =>
    rw [hie] at ha hc
    obtain ⟨h1, h2, h3, h4⟩ := hc
    simp only at ha
    simp [ha, setSec, h2, h3, h4, SecIe.bytes]
    intro hsae hmfp
    exact absurd ⟨hsae, hmfp⟩ h1
  | wpa ie =>
    rw [hie] at ha hc
    obtain ⟨h1, h2⟩ := hc
    obtain ⟨sel', hp, rfl⟩ := Option.map_eq_some_iff.mp ha
    dsimp only at h1 h2
    simp [hp, setSec, h1, h2, SecIe.bytes]
  | none =>
    rw [hie] at ha
    obtain rfl := Option.some.inj ha
    simp [setSec, SecIe.bytes]

theorem common_of_parseSuites (h : (parseSuites conf sta e).1 = 0) :
    ∃ sel, askedSel conf e = some sel ∧ SuitesCommon conf e sel := by
  unfold parseSuites at h
  unfold askedSel SuitesCommon
  cases hie : secIe conf e with
  | rsn ie =>
    rw [hie] at h
    cases hp : rtwParseWpa2Ie ie with
    | none => simp [hp] at h
    | some sel =>
      refine ⟨sel, by simp [hp], ?_⟩
      by_cases h1 : akmTypeSae &&& sel.akm ≠ 0 ∧ sel.mfpOpt = 0
      · simp [hp, setSec, h1] at h
      by_cases h2 : conf.akmp &&& sel.akm = 0
      · simp [hp, setSec, h1, h2] at h
      by_cases h3 : sel.groupCipher &&& conf.wpa2GroupCipher = 0
      · simp [hp, setSec, h1, h2, h3] at h
      by_cases h4 : sel.pairwiseCipher &&& conf.wpa2PairwiseCipher = 0
      · simp [hp, setSec, h1, h2, h3, h4] at h
      exact ⟨h1, h2, h3, h4⟩
  | wpa ie =>
    rw [hie] at h
    cases hp : rtwParseWpaIe ie with
    | none => simp [hp] at h
    | some sel =>
      refine ⟨{ sel with gmcs := 0, akm := 0, mfpOpt := 0, sppOpt := 0 }, by simp [hp], ?_⟩
      by_cases h1 : sel.groupCipher &&& conf.wpaGroupCipher = 0
      · simp [hp, setSec, h1] at h
      by_cases h2 : sel.pairwiseCipher &&& conf.wpaPairwiseCipher = 0
      · simp [hp, setSec, h1, h2] at h
      exact ⟨h1, h2⟩
  | none => exact ⟨{}, rfl, trivial⟩

end

section
variable {conf : ApConf} {sta : ApSta} {e : Elems} {sel : SuiteSel}

theorem wpaPsk_ne_zero {ie : List UInt8} (h : (secIe conf e).bytes = some ie) : conf.wpaPsk ≠ 0 := by
  intro h0
  unfold secIe at h
  rw [h0] at h
  simp [SecIe.bytes] at h

/-- the element as it is stored -/
def askedWpaIe (conf : ApConf) (e : Elems) : List UInt8 :=
  if e.wpsIe.isSome then [] else ((secIe conf e).bytes.getD []).take 32

theorem askedSec_wpaIe (conf : ApConf) (sec : StaSec) (e : Elems) (sel : SuiteSel) :
    (askedSec conf sec e sel).wpaIe = askedWpaIe conf e := by
  unfold askedSec askedWpaIe
  cases secIe conf e with
  | rsn ie => rfl
  | wpa ie => rfl
  | none => simp [SecIe.bytes]

theorem parseWps_of_ok (hw : (secIe conf e).bytes = none → ¬ (0 < conf.wpaPsk ∧ conf.wpsRegistrar = some false))
    (hie : sta.sec.wpaIe = []) :
    parseWps conf sta e (secIe conf e).bytes
      = (0, { sta with
          flags := { sta.flags with
            wps := e.wpsIe.isSome, maybeWps := (secIe conf e).bytes.isNone && e.wpsIe.isNone }
          sec := { sta.sec with wpaIe := askedWpaIe conf e } }) := by
  have hsec : { sta.sec with wpaIe := [] } = sta.sec := by
    rw [← hie]
  unfold parseWps askedWpaIe
  cases hb : (secIe conf e).bytes with
  | none =>
    rw [hb] at hw
    simp [setFlags, hsec, hw]
  | some ie =>
    have hpsk := wpaPsk_ne_zero hb
    cases hwps : e.wpsIe with
    | none => simp [setFlags, setSec, hpsk]
    | some w => simp [setFlags, hpsk, hsec]

/-- left to WPS while the access point does WPA -/
theorem wps_of_parseWps (h : (parseWps conf sta e (secIe conf e).bytes).1 = 0) :
    (secIe conf e).bytes = none → ¬ (0 < conf.wpaPsk ∧ conf.wpsRegistrar = some false) := by
  intro hb hw
  rw [hb] at h
  simp [parseWps, hw] at h

theorem askedAkm_eq : (askedSec conf sta.sec e sel).akmSuiteType = askedAkm conf sta e sel := by
  unfold askedSec askedAkm
  cases secIe conf e with
  | rsn ie => rfl
  | wpa ie => rfl
  | none => rfl

theorem parseAmsdu_eq (conf : ApConf) (sta : ApSta) (sel : SuiteSel) : parseAmsdu conf sta sel
    = setFlags sta { sta.flags with amsduDisable := sta.flags.amsduDisable
      || conf.dot11PrivacyAlgrthm ≠ .noPrivacy && rtwCheckAmsduDisable conf.amsduMode sel.sppOpt } := by
  unfold parseAmsdu
  by_cases h : (conf.dot11PrivacyAlgrthm ≠ .noPrivacy && rtwCheckAmsduDisable conf.amsduMode sel.sppOpt) = true
  · rw [if_pos h, h, Bool.or_true]
  · rw [if_neg h, Bool.eq_false_iff.mpr h, Bool.or_false]
    rfl

theorem parseMfp_eq (conf : ApConf) (sta : ApSta) (sel : SuiteSel) : parseMfp conf sta sel
    = setFlags sta { sta.flags with mfp := sta.flags.mfp || bothMfp conf sel } := by
  unfold parseMfp
  by_cases h : bothMfp conf sel = true
  · rw [if_pos h, h, Bool.or_true]
  · rw [if_neg h, Bool.eq_false_iff.mpr h, Bool.or_false]
    rfl

/-- the flags after the security elements -/
def secFlags (conf : ApConf) (flags : StaFlags) (e : Elems) (sel : SuiteSel) : StaFlags :=
  { flags with
    amsduDisable := flags.amsduDisable
      || conf.dot11PrivacyAlgrthm ≠ .noPrivacy && rtwCheckAmsduDisable conf.amsduMode sel.sppOpt
    mfp := flags.mfp || bothMfp conf sel
    wps := e.wpsIe.isSome
    maybeWps := (secIe conf e).bytes.isNone && e.wpsIe.isNone }

/-- the checks before WPS, on the record with the ciphers -/
theorem securityIe_of_common (ha : askedSel conf e = some sel) (hc : SuitesCommon conf e sel) :
    rtwApParseStaSecurityIe conf sta e
      = let sta' := setSec sta { askedSec conf sta.sec e sel with wpaIe := [] }
        let sta'' := parseMfp conf (parseAmsdu conf sta' sel) sel
        if conf.mfpOpt = 3 ∧ sel.mfpOpt < 2 ∨ sel.mfpOpt = 3 ∧ conf.mfpOpt < 2 then
          (31, parseAmsdu conf sta' sel)
        else if bothMfp conf sel = true ∧ conf.gmcs ≠ sel.gmcs then (46, sta'')
        else if conf.authTypeSae = true ∧ akmTypeSae &&& askedAkm conf sta e sel ≠ 0 ∧ sta.authalg = 0
            ∧ conf.cachedPmkid sta.macAddr = false then (53, sta'')
        else parseWps conf sta'' e (secIe conf e).bytes := by
  have hakm : (askedSec conf sta.sec e sel).akmSuiteType = askedAkm conf sta e sel := askedAkm_eq
  unfold rtwApParseStaSecurityIe
  rw [parseSuites_of_common ha hc]
  dsimp only
  rw [if_neg (not_not.mpr rfl)]
  refine if_congr (by simp) rfl (if_congr ?_ rfl (if_congr ?_ rfl rfl))
  · rw [parseMfp_eq]
    cases bothMfp conf sel with
    | false => simp
    | true => simp [setFlags]
  · rw [parseMfp_eq, parseAmsdu_eq]
    simp [setFlags, setSec, hakm, and_assoc]

theorem securityIe_of_ok (h : SecOk conf sta e sel) : rtwApParseStaSecurityIe conf sta e
    = (0, { sta with flags := secFlags conf sta.flags e sel, sec := askedSec conf sta.sec e sel }) := by
  rw [securityIe_of_common h.asked h.suites]
  dsimp only
  rw [if_neg (not_or.mpr h.mfp), if_neg fun hg => hg.2 (h.gmcs hg.1), if_neg, parseMfp_eq, parseAmsdu_eq,
    parseWps_of_ok h.wps rfl]
  · simp [setFlags, setSec, secFlags, ← askedSec_wpaIe conf sta.sec e sel]
  · rintro ⟨h1, h2, h3, h4⟩
    rw [h.pmkid h1 h2 h3] at h4
    cases h4

theorem ok_of_securityIe (h : (rtwApParseStaSecurityIe conf sta e).1 = 0) : ∃ sel, SecOk conf sta e sel := by
  have hsuites : (parseSuites conf sta e).1 = 0 := by
    by_contra hne
    unfold rtwApParseStaSecurityIe at h
    simp [hne] at h
  obtain ⟨sel, ha, hc⟩ := common_of_parseSuites hsuites
  rw [securityIe_of_common ha hc] at h
  dsimp only at h
  by_cases h31 : conf.mfpOpt = 3 ∧ sel.mfpOpt < 2 ∨ sel.mfpOpt = 3 ∧ conf.mfpOpt < 2
  · rw [if_pos h31] at h
    cases h
  by_cases h46 : bothMfp conf sel = true ∧ conf.gmcs ≠ sel.gmcs
  · rw [if_neg h31, if_pos h46] at h
    cases h
  by_cases h53 : conf.authTypeSae = true ∧ akmTypeSae &&& askedAkm conf sta e sel ≠ 0 ∧ sta.authalg = 0
      ∧ conf.cachedPmkid sta.macAddr = false
  · rw [if_neg h31, if_neg h46, if_pos h53] at h
    cases h
  rw [if_neg h31, if_neg h46, if_neg h53] at h
  refine ⟨sel, ha, hc, not_or.mp h31, ?_, ?_, wps_of_parseWps h⟩
  · intro hb
    by_contra hne
    exact h46 ⟨hb, hne⟩
  · intro h1 h2 h3
    by_contra hne
    exact h53 ⟨h1, h2, h3, Bool.eq_false_iff.mpr hne⟩

end

/-! ## the checks of a request -/

section
variable {conf : ApConf} {sta sta' : ApSta} {f : RecvFrame} {e : Elems} {sel : SuiteSel}

/-- the checks look at nothing else of the record -/
theorem SecOk.of_eq (h : SecOk conf sta e sel) (hakm : sta'.sec.akmSuiteType = sta.sec.akmSuiteType)
    (halg : sta'.authalg = sta.authalg) (hmac : sta'.macAddr = sta.macAddr) : SecOk conf sta' e sel := by
  refine ⟨h.asked, h.suites, h.mfp, h.gmcs, ?_, h.wps⟩
  have hpmkid := h.pmkid
  unfold askedAkm at hpmkid ⊢
  rw [hakm, halg, hmac]
  exact hpmkid

theorem Welcome.of_state (h : Welcome conf sta f e sel) (st : StaState) :
    Welcome conf { sta with state := st } f e sel :=
  ⟨h.forced, h.elems, h.ssid, h.rates, h.sec.of_eq rfl rfl rfl⟩

theorem supportedRates_of_ne (h : askedRates f ≠ []) : rtwApParseStaSupportedRates sta f (asocreqIeOffset f)
    = (0, { sta with
        bssrateset := updateBrateTblForSoftAp (askedRates f)
        flags := { sta.flags with
          nonErp := (updateBrateTblForSoftAp (askedRates f)).all fun r => (r &&& 0x7f).toNat ≤ 22 } }) := by
  unfold rtwApParseStaSupportedRates
  exact if_neg (by rw [List.isEmpty_iff]; exact h)

theorem securityIe_after (h : SecOk conf sta e sel) (flags : StaFlags) (capability : Nat) (rates : List UInt8) :
    rtwApParseStaSecurityIe conf { sta with flags := flags, capability := capability, bssrateset := rates } e
      = (0, { sta with
          flags := secFlags conf flags e sel
          capability := capability
          bssrateset := rates
          sec := askedSec conf sta.sec e sel }) :=
  securityIe_of_ok (h.of_eq rfl rfl rfl)

/-- **A request that passes the checks**, and the record after it. -/
theorem Welcome.assocParse (h : Welcome conf sta f e sel) :
    assocParse conf sta f = (0, askedSta conf sta f e sel) := by
  unfold Rtl8192eu.assocParse
  rw [if_neg (not_not.mpr h.forced), h.elems]
  dsimp only
  rw [if_neg (by simp [h.ssid]), supportedRates_of_ne h.rates]
  exact securityIe_after h.sec _ _ _

theorem welcome_of_assocParse (h : (assocParse conf sta f).1 = 0) : ∃ e sel, Welcome conf sta f e sel := by
  unfold assocParse at h
  by_cases hforce : conf.forceAsocFail ≠ 0
  · rw [if_pos hforce] at h
    exact absurd h hforce
  rw [if_neg hforce] at h
  cases he : rtwIeee80211ParseElems (f.data.drop (asocreqIeOffset f)) with
  | none =>
    rw [he] at h
    cases h
  | some e =>
    rw [he] at h
    dsimp only at h
    by_cases hssid : (conf.ssid = [] || e.ssid ≠ some conf.ssid) = true
    · rw [if_pos hssid] at h
      cases h
    rw [if_neg hssid] at h
    by_cases hrates : askedRates f = []
    · unfold rtwApParseStaSupportedRates at h
      rw [show rtwIesGetSupportedRate (fun i => f.byte (asocreqIeOffset f + i)) (f.len - asocreqIeOffset f) = []
        from hrates] at h
      cases h
    rw [supportedRates_of_ne hrates] at h
    obtain ⟨sel, hsec⟩ := ok_of_securityIe h
    exact ⟨e, sel, not_not.mp hforce, he, by simpa using hssid, hrates, hsec.of_eq rfl rfl rfl⟩

end

/-! ## what a refusal leaves -/

section
variable {conf : ApConf} {s : StaPriv} {f : RecvFrame} {p : Nat} {st st' : StaState} {e : Elems}
  {sel : SuiteSel}

/-- the association is taken away first -/
theorem assocStart_ne (h : assocStart st = some st') : st' ≠ st := by
  unfold assocStart at h
  rintro rfl
  by_cases ha : st'.authSuccess = true
  · rw [if_pos ha] at h
    have := congrArg StaState.authSuccess (Option.some.inj h)
    simp [ha] at this
  · rw [if_neg ha] at h
    by_cases hs : st'.assocSuccess = true
    · rw [if_pos hs] at h
      have := congrArg StaState.assocSuccess (Option.some.inj h)
      simp [hs] at this
    · rw [if_neg hs] at h
      cases h

theorem assocStart_isSome (h : st.assocSuccess = true) : ∃ st', assocStart st = some st' := by
  unfold assocStart
  by_cases ha : st.authSuccess = true
  · exact ⟨_, if_pos ha⟩
  · exact ⟨_, by rw [if_neg ha, if_pos h]⟩

/-- the state of a station that is accepted again -/
theorem assocStart_again (h : assocStart st = some st') (hs : st.assocSuccess = true) :
    { st' with assocState := false, assocSuccess := true } = st
      ↔ st.authSuccess = false ∧ st.assocState = false := by
  unfold assocStart at h
  by_cases ha : st.authSuccess = true
  · rw [if_pos ha] at h
    obtain rfl := Option.some.inj h
    refine iff_of_false (fun hst => ?_) (by simp [ha])
    have := congrArg StaState.authSuccess hst
    simp [ha] at this
  · rw [if_neg ha, if_pos hs] at h
    obtain rfl := Option.some.inj h
    cases st
    simp_all

theorem onAssocReq_silent (hfound : s.rtwGetStainfo (getAddr2 f) = some p) (h : AssocSilent s f p) :
    onAssocReq conf s f = (s, []) := by
  unfold onAssocReq
  dsimp only
  by_cases h1 : invalidMac (getAddr2 f) = true
  · rw [if_pos h1]
  rw [if_neg h1]
  by_cases h2 : f.len < asocreqIeOffset f
  · rw [if_pos h2]
  rw [if_neg h2, hfound]
  have h3 := (h.resolve_left h1).resolve_left h2
  exact if_pos (by simp [h3.1, h3.2])

theorem onAssocReq_heard (hfound : s.rtwGetStainfo (getAddr2 f) = some p) (h : ¬ AssocSilent s f p)
    (hst : assocStart (s.pool p).state = some st) :
    onAssocReq conf s f = match assocParse conf { s.pool p with state := st } f with
      | (0, sta) =>
        match assocAid (s.modSta p fun _ => sta) p with
        | none => (s.modSta p fun _ => sta, [.asocRsp (getAddr2 f) 17])
        | some s => assocDone s p (getAddr2 f)
      | (status, sta) => (s.modSta p fun _ => sta, [.asocRsp (getAddr2 f) status]) := by
  obtain ⟨h1, h2, h3⟩ : ¬ invalidMac (getAddr2 f) = true ∧ ¬ f.len < asocreqIeOffset f
      ∧ ¬ ((s.pool p).authalg = authAlgSae && (s.pool p).state.authNull) = true := by
    unfold AssocSilent at h
    simpa [not_or] using h
  unfold onAssocReq
  dsimp only
  rw [if_neg h1, if_neg h2, hfound]
  dsimp only
  rw [if_neg h3]
  generalize assocStart (s.pool p).state = o at hst
  subst hst
  rfl

theorem onAssocReq_refused (hfound : s.rtwGetStainfo (getAddr2 f) = some p) (h : ¬ AssocSilent s f p)
    (hst : assocStart (s.pool p).state = some st)
    (h0 : (assocParse conf { s.pool p with state := st } f).1 ≠ 0) :
    onAssocReq conf s f = (s.modSta p fun _ => (assocParse conf { s.pool p with state := st } f).2,
      [.asocRsp (getAddr2 f) (assocParse conf { s.pool p with state := st } f).1]) := by
  rw [onAssocReq_heard hfound h hst]
  generalize assocParse conf { s.pool p with state := st } f = x at h0
  obtain ⟨status, sta⟩ := x
  cases status with
  | zero => exact absurd rfl h0
  | succ n => rfl

theorem onAssocReq_welcome (hfound : s.rtwGetStainfo (getAddr2 f) = some p) (h : ¬ AssocSilent s f p)
    (hst : assocStart (s.pool p).state = some st) (hw : Welcome conf (s.pool p) f e sel) :
    onAssocReq conf s f
      = let s' := s.modSta p fun _ => askedSta conf { s.pool p with state := st } f e sel
        match assocAid s' p with
        | none => (s', [.asocRsp (getAddr2 f) 17])
        | some s => assocDone s p (getAddr2 f) := by
  rw [onAssocReq_heard hfound h hst, (hw.of_state st).assocParse]
  rfl

theorem assocPassed_heard (hfound : s.rtwGetStainfo (getAddr2 f) = some p) (h : ¬ AssocSilent s f p)
    (hst : assocStart (s.pool p).state = some st) (hw : Welcome conf (s.pool p) f e sel) :
    assocPassed conf s f = some (p, askedSta conf { s.pool p with state := st } f e sel) := by
  unfold assocPassed
  rw [hfound]
  dsimp only [Option.bind_eq_bind, Option.bind_some]
  rw [if_neg h, hst, Option.bind_some, (hw.of_state st).assocParse]
  rfl

/-- a parser does not touch the state -/
theorem assocParse_state (conf : ApConf) (sta : ApSta) (f : RecvFrame) :
    (assocParse conf sta f).2.state = sta.state := by
  obtain ⟨⟨_, _, _, _, h, -⟩, -⟩ := assocParse_spec conf sta f
  rw [h]

end

section
variable {conf : ApConf} {q : QosConf} {r : StaRecords} {s s' : StaPriv} {f : RecvFrame} {p : Nat}
  {st : StaState} {sta : ApSta} {qos : QosFlags} {e e' : Elems} {sel sel' : SuiteSel} {sa : Mac}

/-- the search for an AID looks at the ids only -/
theorem aidSearch_modSta (s : StaPriv) (p : Nat) (g : ApSta → ApSta) (n i : Nat) :
    (s.modSta p g).aidSearch n i = s.aidSearch n i := by
  induction n generalizing i with
  | zero => rfl
  | succ n ih =>
    unfold StaPriv.aidSearch
    rw [ih]
    rfl

/-- a station without an AID gets one that is not zero, if there is one -/
theorem assocAid_isSome : (assocAid s p).isSome = true
    ↔ (s.pool p).aid ≠ 0 ∨ (s.aidSearch s.maxAid 0).isSome = true := by
  unfold assocAid
  by_cases h : 0 < (s.pool p).aid
  · simp [h, Nat.pos_iff_ne_zero.mp h]
  · have h0 : (s.pool p).aid = 0 := Nat.eq_zero_of_not_pos h
    simp [h0, StaPriv.rtwAidAlloc]

theorem assocAid_pool (h : assocAid s p = some s') :
    ∃ aid, s'.pool p = { s.pool p with aid := aid } ∧ aid ≠ 0 ∧ ((s.pool p).aid ≠ 0 → s' = s) := by
  unfold assocAid at h
  by_cases h0 : 0 < (s.pool p).aid
  · rw [if_pos h0] at h
    obtain rfl := Option.some.inj h
    exact ⟨(s.pool p).aid, rfl, Nat.pos_iff_ne_zero.mp h0, fun _ => rfl⟩
  · rw [if_neg h0] at h
    obtain ⟨aid, ha, rfl⟩ := Option.map_eq_some_iff.mp h
    exact ⟨aid, StaPriv.modSta_pool s p fun sta => { sta with aid := aid }, StaPriv.aidSearch_ne_zero ha,
      fun hne => absurd (Nat.pos_iff_ne_zero.mpr hne) h0⟩

theorem assocDone_protected (sa : Mac) (h : (s.pool p).isProtected = true) : assocDone s p sa
    = (s.modSta p fun sta => { sta with state := { sta.state with assocState := false, assocSuccess := true } },
      [.asocRsp sa 30, .saQuery sa]) := by
  have hp : ApSta.isProtected { s.pool p with
      state := { (s.pool p).state with assocState := false, assocSuccess := true } } = true := h
  unfold assocDone assocLists
  simp [hp]

theorem assocDone_open (h : (s.pool p).isProtected = false) :
    (assocDone s p sa).2 = [.asocRsp sa 0, .addSta sa] := by
  have hp : ApSta.isProtected { s.pool p with
      state := { (s.pool p).state with assocState := false, assocSuccess := true } } = false := h
  unfold assocDone
  simp [hp]

theorem Welcome.unique (h : Welcome conf sta f e sel) (h' : Welcome conf sta f e' sel') :
    e' = e ∧ sel' = sel := by
  obtain rfl : e' = e := Option.some.inj (h'.elems.symm.trans h.elems)
  exact ⟨rfl, Option.some.inj (h'.sec.asked.symm.trans h.sec.asked)⟩

theorem askedSta_isProtected (sta : ApSta) :
    (askedSta conf sta f e sel).isProtected = true ↔ AsksProtected conf sta sel := by
  unfold ApSta.isProtected AsksProtected askedSta askedFlags
  simp

/-- the record after a request that a protected station repeats -/
theorem record_again (hst : assocStart sta.state = some st) (hs : sta.state.assocSuccess = true)
    (h0 : sta.aid ≠ 0) :
    ({ askedSta conf { sta with state := st } f e sel with
        state := { st with assocState := false, assocSuccess := true } } : ApSta).record
        (QosFlags.parse q (askedSec conf sta.sec e sel) qos f (asocreqIeOffset f)) = sta.record qos
      ↔ AsksSame conf q sta qos f e sel := by
  unfold ApSta.record
  rw [StaRecord.mk.injEq, assocStart_again hst hs]
  constructor
  · rintro ⟨h1, h2, h3, h4, h5, h6, h7⟩
    exact ⟨h1, h0, h4.symm, h5.symm, h2.symm, h3.symm, h6, h7.symm⟩
  · intro h
    exact ⟨h.state, h.flags.symm, h.qos.symm, h.capability.symm, h.rates.symm, h.suites, h.wpaIe.symm⟩

end

/-! ## the requests -/

section
variable {conf : ApConf} {q : QosConf} {r : StaRecords} {f : RecvFrame} {p : Nat} {st : StaState}
  {e : Elems} {sel : SuiteSel}

/-- a refusal leaves the record of the station as it was -/
def KeepsSta (conf : ApConf) (q : QosConf) (r : StaRecords) (f : RecvFrame) (p : Nat) : Prop :=
  ∀ status, status ≠ 0 → ApOut.asocRsp (getAddr2 f) status ∈ (r.onAssocReq conf q f).2 →
    (r.onAssocReq conf q f).1.record p = r.record p

/-- a refusal without the state -/
theorem not_keepsSta {status : Nat} (h0 : status ≠ 0)
    (hout : .asocRsp (getAddr2 f) status ∈ (Rtl8192eu.onAssocReq conf r.priv f).2)
    (hst : ((Rtl8192eu.onAssocReq conf r.priv f).1.pool p).state ≠ (r.priv.pool p).state) :
    ¬ KeepsSta conf q r f p :=
  fun h => hst (congrArg StaRecord.state (h status h0 hout))

theorem keepsSta_silent (hfound : r.priv.rtwGetStainfo (getAddr2 f) = some p) (h : AssocSilent r.priv f p) :
    KeepsSta conf q r f p := by
  intro status _ hout
  have hnone : (Rtl8192eu.onAssocReq conf r.priv f).2 = [] := by
    rw [onAssocReq_silent hfound h]
  rw [show (r.onAssocReq conf q f).2 = [] from hnone] at hout
  cases hout

/-- a request that does not pass the checks -/
theorem not_keepsSta_refused (hfound : r.priv.rtwGetStainfo (getAddr2 f) = some p)
    (hh : ¬ AssocSilent r.priv f p) (hst : assocStart (r.priv.pool p).state = some st)
    (hw : (assocParse conf { r.priv.pool p with state := st } f).1 ≠ 0) : ¬ KeepsSta conf q r f p := by
  have heq := onAssocReq_refused hfound hh hst hw
  apply not_keepsSta hw
  · rw [heq]
    exact List.mem_cons_self
  · rw [heq, StaPriv.modSta_pool, assocParse_state]
    exact assocStart_ne hst

/-- no AID is left -/
theorem not_keepsSta_full (hfound : r.priv.rtwGetStainfo (getAddr2 f) = some p)
    (hh : ¬ AssocSilent r.priv f p) (hst : assocStart (r.priv.pool p).state = some st)
    (hw : Welcome conf (r.priv.pool p) f e sel)
    (haid : assocAid (r.priv.modSta p fun _ => askedSta conf { r.priv.pool p with state := st } f e sel) p
      = none) :
    ¬ KeepsSta conf q r f p := by
  have heq := onAssocReq_welcome hfound hh hst hw
  dsimp only at heq
  rw [haid] at heq
  have h17 : (17 : Nat) ≠ 0 := by decide
  apply not_keepsSta h17
  · rw [heq]
    exact List.mem_cons_self
  · rw [heq, StaPriv.modSta_pool]
    exact assocStart_ne hst

/-- a request that is accepted, or answered with an SA Query -/
theorem keepsSta_welcome {s' : StaPriv} (hfound : r.priv.rtwGetStainfo (getAddr2 f) = some p)
    (hh : ¬ AssocSilent r.priv f p) (hs : (r.priv.pool p).state.assocSuccess = true)
    (hst : assocStart (r.priv.pool p).state = some st) (hw : Welcome conf (r.priv.pool p) f e sel)
    (haid : assocAid (r.priv.modSta p fun _ => askedSta conf { r.priv.pool p with state := st } f e sel) p
      = some s') :
    KeepsSta conf q r f p
      ↔ (AsksProtected conf (r.priv.pool p) sel → AsksSame conf q (r.priv.pool p) (r.qos p) f e sel) := by
  have heq := onAssocReq_welcome hfound hh hst hw
  dsimp only at heq
  rw [haid] at heq
  dsimp only at heq
  obtain ⟨aid, hpool, haid0, hsame⟩ := assocAid_pool haid
  rw [StaPriv.modSta_pool] at hpool hsame
  have hprot : (s'.pool p).isProtected = true ↔ AsksProtected conf (r.priv.pool p) sel := by
    rw [hpool]
    exact askedSta_isProtected { r.priv.pool p with state := st }
  by_cases hp : (s'.pool p).isProtected = true
  · have hdone := assocDone_protected (getAddr2 f) hp
    have hout : (r.onAssocReq conf q f).2 = [.asocRsp (getAddr2 f) 30, .saQuery (getAddr2 f)] := by
      show (Rtl8192eu.onAssocReq conf r.priv f).2 = _
      rw [heq, hdone]
    have hrecord : (r.onAssocReq conf q f).1.record p
        = ({ askedSta conf { r.priv.pool p with state := st } f e sel with
            aid := aid, state := { st with assocState := false, assocSuccess := true } } : ApSta).record
          (QosFlags.parse q (askedSec conf (r.priv.pool p).sec e sel) (r.qos p) f (asocreqIeOffset f)) := by
      unfold StaRecords.record StaRecords.onAssocReq
      dsimp only
      rw [heq, hdone, StaPriv.modSta_pool, hpool, assocPassed_heard hfound hh hst hw]
      dsimp only
      rw [Function.update_self]
      rfl
    have hkeeps : KeepsSta conf q r f p ↔ (r.onAssocReq conf q f).1.record p = r.record p := by
      constructor
      · intro h
        exact h 30 (by decide) (by rw [hout]; exact List.mem_cons_self)
      · intro h _ _ _
        exact h
    rw [hkeeps, hrecord, forall_prop_of_true (hprot.mp hp)]
    by_cases h0 : (r.priv.pool p).aid = 0
    · refine iff_of_false (fun h => ?_) fun h => h.aid h0
      have haid1 : aid = (r.priv.pool p).aid := congrArg (fun x => x.info.aid) h
      exact haid0 (haid1.trans h0)
    · have haid1 : aid = (r.priv.pool p).aid := by
        rw [hsame h0, StaPriv.modSta_pool] at hpool
        exact (congrArg ApSta.aid hpool).symm
      rw [haid1]
      exact record_again hst hs h0
  · have hout : (r.onAssocReq conf q f).2 = [.asocRsp (getAddr2 f) 0, .addSta (getAddr2 f)] := by
      show (Rtl8192eu.onAssocReq conf r.priv f).2 = _
      rw [heq, assocDone_open (Bool.eq_false_iff.mpr hp)]
    refine iff_of_true (fun status h0 hmem => ?_) fun h => absurd (hprot.mpr h) hp
    rw [hout] at hmem
    simp at hmem
    exact absurd hmem h0

/-- **A request of an associated station.** -/
theorem keepsSta_iff (hfound : r.priv.rtwGetStainfo (getAddr2 f) = some p)
    (hs : (r.priv.pool p).state.assocSuccess = true) :
    KeepsSta conf q r f p ↔ AssocSilent r.priv f p ∨ ∃ e sel, Welcome conf (r.priv.pool p) f e sel
      ∧ ((r.priv.pool p).aid ≠ 0 ∨ (r.priv.aidSearch r.priv.maxAid 0).isSome = true)
      ∧ (AsksProtected conf (r.priv.pool p) sel → AsksSame conf q (r.priv.pool p) (r.qos p) f e sel) := by
  by_cases hh : AssocSilent r.priv f p
  · exact iff_of_true (keepsSta_silent hfound hh) (Or.inl hh)
  rw [or_iff_right hh]
  obtain ⟨st, hst⟩ := assocStart_isSome hs
  by_cases hw : (assocParse conf { r.priv.pool p with state := st } f).1 = 0
  · obtain ⟨e, sel, hw⟩ := welcome_of_assocParse hw
    have hw : Welcome conf (r.priv.pool p) f e sel := hw.of_state (r.priv.pool p).state
    generalize hs' : r.priv.modSta p (fun _ => askedSta conf { r.priv.pool p with state := st } f e sel) = s'
    have haid : (assocAid s' p).isSome = true
        ↔ (r.priv.pool p).aid ≠ 0 ∨ (r.priv.aidSearch r.priv.maxAid 0).isSome = true := by
      rw [← hs', assocAid_isSome, aidSearch_modSta, StaPriv.modSta_pool]
      rfl
    have hone : (∃ e' sel', Welcome conf (r.priv.pool p) f e' sel'
        ∧ ((r.priv.pool p).aid ≠ 0 ∨ (r.priv.aidSearch r.priv.maxAid 0).isSome = true)
        ∧ (AsksProtected conf (r.priv.pool p) sel' → AsksSame conf q (r.priv.pool p) (r.qos p) f e' sel'))
        ↔ ((r.priv.pool p).aid ≠ 0 ∨ (r.priv.aidSearch r.priv.maxAid 0).isSome = true)
        ∧ (AsksProtected conf (r.priv.pool p) sel → AsksSame conf q (r.priv.pool p) (r.qos p) f e sel) := by
      constructor
      · rintro ⟨e', sel', hw', h⟩
        obtain ⟨rfl, rfl⟩ := hw.unique hw'
        exact h
      · intro h
        exact ⟨e, sel, hw, h⟩
    rw [hone, ← haid]
    cases ha : assocAid s' p with
    | none =>
      exact iff_of_false (not_keepsSta_full hfound hh hst hw (hs' ▸ ha)) fun h => Bool.false_ne_true h.1
    | some s'' =>
      rw [keepsSta_welcome hfound hh hs hst hw (hs' ▸ ha)]
      exact (and_iff_right rfl).symm
  · refine iff_of_false (not_keepsSta_refused hfound hh hst hw) ?_
    rintro ⟨e, sel, hwel, -⟩
    rw [(hwel.of_state st).assocParse] at hw
    exact hw rfl

/-- **A refused request leaves the record alone** if it is one of these, and only then. -/
theorem reject_iff (conf : ApConf) (q : QosConf) (r : StaRecords) (f : RecvFrame) :
    RejectKeeps conf q r f ↔ RejectOk conf q r f := by
  unfold RejectKeeps RejectOk
  refine forall_congr' fun p => ?_
  refine imp_congr_right fun hfound => imp_congr_right fun _ => imp_congr_right fun hs => ?_
  exact keepsSta_iff hfound hs

end

/-- a request with another SSID, from a station that is associated -/
theorem reject_clobbers :
    ¬ ∀ (conf : ApConf) (q : QosConf) (r : StaRecords) (f : RecvFrame), RejectKeeps conf q r f := by
  intro h
  have hkept := h wpa2Conf {} { priv := mfpStaPriv }
    (staMgnt [0x00, 0] staAddr ([0x31, 4, 0, 0] ++ [0, 1, 0x62])) 0 (by decide) (by decide) rfl 1 (by decide)
    (by decide)
  exact absurd hkept (by decide)

end Rtl8192eu
