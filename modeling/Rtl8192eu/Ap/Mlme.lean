import Rtl8192eu.Ap.StaPriv
import Rtl8192eu.Ie.Elems
import Rtl8192eu.Recv.Mgnt
import Rtl8192eu.Lib.Run

/-!
# The MLME of the access point

`OnAuth`, `OnAssocReq` and the AP side of `OnDeAuth` and `OnDisassoc` of `core/rtw_mlme_ext.c`, with
`rtw_ap_parse_sta_security_ie` and `ap_free_sta` of `core/rtw_ap.c`, the deletion event of
`core/rtw_mlme.c` and the expiry of `auth_list`.

* `onAuth`       `authFind` finds or allocates the station, `authSeqCheck` decides;
* `rtwApParseStaSecurityIe`   the ciphers and the key management a request asks for;
* `onAssocReq`   `assocParse` checks the request, `assocDone` lets the station in;
* `apFreeSta`    queues a deletion event, `rtwStadelEventCallback` handles it;
* `assocParse_spec`   a request that is read leaves what it asks for, `askedSuites`;
* `ApRun`        runs of frames, queued events and expiry.

What a station's QoS, HT and VHT elements say is left out: reading them cannot fail.
-/

namespace Rtl8192eu

open Run

/-! ## configuration -/

inductive AmsduMode where
  | nonSpp | spp | allDrop
  deriving DecidableEq, Repr

structure ApConf where
  /-- `MLME_IS_ASOC`: the BSS has been started -/
  asoc : Bool := true
  bssid : Mac := []
  ssid : List UInt8 := []
  dot11AuthAlgrthm : AuthAlgrthm := .openSystem
  dot11PrivacyAlgrthm : SecurityType := .noPrivacy
  wpaPsk : Nat := 0
  wpaGroupCipher : Nat := 0
  wpa2GroupCipher : Nat := 0
  wpaPairwiseCipher : Nat := 0
  wpa2PairwiseCipher : Nat := 0
  akmp : Nat := 0
  mfpOpt : Nat := 0
  /-- `security_type_bip_to_gmcs` of `dot11wCipher` -/
  gmcs : Nat := wpaCipherBipCmac128
  /-- `auth_type` is `MLME_AUTHTYPE_SAE` -/
  authTypeSae : Bool := false
  amsduMode : AmsduMode := .nonSpp
  /-- the status codes of `rtw_ap_linking_test_force_*_fail`, zero when off -/
  forceAuthFail : Nat := 0
  forceAsocFail : Nat := 0
  /-- `rtw_access_ctrl` lets the address in -/
  accessCtrl : Mac → Bool := fun _ => true
  /-- `GET_CFG80211_REPORT_MGMT` for authentication frames -/
  reportAuth : Bool := false
  /-- `rtw_cached_pmkid` finds the address -/
  cachedPmkid : Mac → Bool := fun _ => false
  /-- the selected registrar in `wps_beacon_ie`, if there is one -/
  wpsRegistrar : Option Bool := none

/-- the answers of the code outside this model -/
structure ApOracle where
  /-- `rtw_defs_attack_chk` -/
  defsAttack : Bool := false
  /-- `rtw_wep_decrypt` -/
  wepDecrypt : RecvFrame → RecvFrame := id

/-- what leaves the driver -/
inductive ApOut where
  | auth (addr : Mac) (status : Nat)
  | asocRsp (addr : Mac) (status : Nat)
  | deauth (addr : Mac) (reason : Nat)
  | saQuery (addr : Mac)
  | addSta (addr : Mac)
  /-- `rtw_cfg80211_rx_mframe` -/
  | rxMframe (addr : Mac)
  deriving DecidableEq, Repr

/-! ## `OnAuth` -/

def authAlgSae : Nat := 3

/-- the MFP test around the lists and states: the station keeps its association for now -/
def ApSta.isProtected (sta : ApSta) : Bool := sta.bpairwiseKeyInstalled && sta.flags.mfp

/-- `rtw_check_invalid_mac_address` without the local bit -/
def invalidMac (addr : Mac) : Bool :=
  addr = List.replicate 6 0 || addr = bcAddr || isMcast addr

def authMode (conf : ApConf) (alg : Nat) : AuthAlgrthm :=
  if conf.dot11AuthAlgrthm = .ieee8021x && alg ≠ authAlgSae && conf.dot11PrivacyAlgrthm ≠ .wep40
      && conf.dot11PrivacyAlgrthm ≠ .wep104 then .openSystem
  else conf.dot11AuthAlgrthm

/-- the tests before a station is looked up; the status of a refusal -/
def authRefused (conf : ApConf) (o : ApOracle) (s : StaPriv) (sa : Mac) (alg : Nat) : Option Nat :=
  if o.defsAttack && !((s.rtwGetStainfo sa).map fun p => (s.pool p).state.assocSuccess).getD false then
    some 30
  else if conf.forceAuthFail ≠ 0 then some conf.forceAuthFail
  else if 0 < alg && authMode conf alg = .openSystem || alg = 0 && authMode conf alg = .shared then
    some 13
  else if !conf.accessCtrl sa then some 17
  else none

/-- find the station and take it out of `asoc_list`, or allocate it -/
def authFind (s : StaPriv) (sa : Mac) : Option (Nat × StaPriv) :=
  match s.rtwGetStainfo sa with
  | some p =>
    some (p, if (s.pool p).isProtected then s else { s with asocList := s.asocList.unlink p })
  | none =>
    (s.rtwAllocStainfo sa).map fun r =>
      (r.1, r.2.modSta r.1 fun sta => { sta with state := { authNull := true }, authSeq := 0 })

/-- into `auth_list`, with a time to live -/
def authList (s : StaPriv) (p : Nat) : StaPriv :=
  let s := if (s.pool p).isProtected then s else { s with authList := s.authList.link p }
  s.modSta p fun sta => if sta.authSeq = 0 then { sta with expireTo := s.authTo } else sta

def chgTxtIe (f : RecvFrame) : Option (Nat × Nat) :=
  rtwGetIe (fun i => f.byte (wlanHdrA3Len + 4 + 6 + i)) 16 (f.len - wlanHdrA3Len - 6 - 4)

def ApSta.authDone (sta : ApSta) (assocTo : Nat) (st : StaState) : ApSta :=
  if sta.isProtected then sta else { sta with state := st, expireTo := assocTo }

/-- sequence number, algorithm and challenge text; the status of a refusal, or the station -/
def authSeqCheck (mode : AuthAlgrthm) (assocTo : Nat) (sta : ApSta) (alg seq : Nat) (f : RecvFrame) :
    Except Nat ApSta :=
  if sta.authSeq + 1 ≠ seq then .error 14
  else if alg = 0 && (mode = .openSystem || mode = .ieee8021x || mode = .auto) then
    if seq = 1 then
      .ok { sta.authDone assocTo { sta.state with authNull := false, authSuccess := true } with
        authalg := alg }
    else .error 14
  else if seq = 1 then
    .ok { sta with
      chgTxt := List.replicate 128 78
      state := if sta.isProtected then sta.state
        else { sta.state with authNull := false, authState := true }
      authalg := alg
      authSeq := 2 }
  else if seq = 3 then
    match chgTxtIe f with
    | none => .error 15
    | some (i, n) =>
      if n = 0 then .error 15
      else if f.bytes (wlanHdrA3Len + 4 + 6 + i + 2) 128 = sta.chgTxt then
        .ok (sta.authDone assocTo { sta.state with authState := false, authSuccess := true })
      else .error 15
  else .error 14

/-- `auth_seq` for the next frame -/
def ApSta.authNext (sta : ApSta) (seq : Nat) : ApSta :=
  { sta with
    authSeq := if sta.state.authSuccess || sta.state.assocSuccess then 0 else seq + 1 }

/-- an authentication frame, decrypted if it was protected, with its first two words -/
structure AuthWords where
  frame : RecvFrame
  alg : Nat
  seq : Nat

def authWords (o : ApOracle) (f : RecvFrame) : AuthWords :=
  let f' := if getPrivacy f then o.wepDecrypt f else f
  let offset := if getPrivacy f then 4 else 0
  ⟨f', le16 f' (wlanHdrA3Len + offset), le16 f' (wlanHdrA3Len + offset + 2)⟩

/-- the frame is for the user space, which does SAE -/
def authReported (conf : ApConf) (alg : Nat) : Bool :=
  conf.reportAuth && alg = authAlgSae && authMode conf alg = .ieee8021x

/-- the station is known -/
def authSta (conf : ApConf) (s : StaPriv) (sa : Mac) (p : Nat) (w : AuthWords) :
    StaPriv × List ApOut :=
  if authReported conf w.alg then
    (s.modSta p fun sta => { sta with authalg := w.alg }, [.rxMframe sa])
  else
    match authSeqCheck (authMode conf w.alg) s.assocTo (s.pool p) w.alg w.seq w.frame with
    | .error status => (s.rtwFreeStainfo p, [.auth sa status])
    | .ok sta => (s.modSta p fun _ => sta.authNext w.seq, [.auth sa 0])

def onAuth (conf : ApConf) (o : ApOracle) (s : StaPriv) (f : RecvFrame) : StaPriv × List ApOut :=
  let sa := getAddr2 f
  let w := authWords o f
  if !conf.asoc || invalidMac sa then (s, [])
  else
    match authRefused conf o s sa w.alg with
    | some status => (s, [.auth sa status])
    | none =>
      match authFind s sa with
      | none => (s, [.auth sa 17])
      | some (p, s) => authSta conf (authList s p) sa p w

/-! ## `rtw_ap_parse_sta_security_ie` -/

def rtwCheckAmsduDisable (mode : AmsduMode) (sppOpt : Nat) : Bool :=
  match mode with
  | .nonSpp => sppOpt.testBit 1
  | .spp => !sppOpt.testBit 0
  | .allDrop => true

def setSec (sta : ApSta) (sec : StaSec) : ApSta := { sta with sec := sec }

/-- the element that decides, with its id and length -/
inductive SecIe where
  | rsn (ie : List UInt8)
  | wpa (ie : List UInt8)
  | none

/-- RSN goes before WPA, each of them if the access point has it -/
def secIe (conf : ApConf) (e : Elems) : SecIe :=
  match (if conf.wpaPsk.testBit 1 then e.rsnIe else .none),
    (if conf.wpaPsk.testBit 0 then e.wpaIe else .none) with
  | some body, _ => .rsn (0x30 :: UInt8.ofNat body.length :: body)
  | .none, some body => .wpa (0xdd :: UInt8.ofNat body.length :: body)
  | .none, .none => .none

/-- the RSN or WPA element: a status other than zero, or the element and what it selects -/
def parseSuites (conf : ApConf) (sta : ApSta) (e : Elems) :
    Nat × ApSta × Option (List UInt8) × SuiteSel :=
  let sta := setSec sta { akmSuiteType := sta.sec.akmSuiteType }
  match secIe conf e with
  | .rsn ie =>
    match rtwParseWpa2Ie ie with
    | none => (40, sta, some ie, {})
    | some sel =>
      let sta := setSec sta { sta.sec with
        dot8021xalg := 1
        wpaPsk := 2
        wpa2GroupCipher := sel.groupCipher &&& conf.wpa2GroupCipher
        wpa2PairwiseCipher := sel.pairwiseCipher &&& conf.wpa2PairwiseCipher
        akmSuiteType := sel.akm }
      if akmTypeSae &&& sel.akm ≠ 0 && sel.mfpOpt = 0 then (31, sta, some ie, sel)
      else if conf.akmp &&& sel.akm = 0 then (43, sta, some ie, sel)
      else if sta.sec.wpa2GroupCipher = 0 then (41, sta, some ie, sel)
      else if sta.sec.wpa2PairwiseCipher = 0 then (42, sta, some ie, sel)
      else (0, sta, some ie, sel)
  | .wpa ie =>
    match rtwParseWpaIe ie with
    | none => (40, sta, some ie, {})
    | some sel =>
      let sta := setSec sta { sta.sec with
        dot8021xalg := 1
        wpaPsk := 1
        wpaGroupCipher := sel.groupCipher &&& conf.wpaGroupCipher
        wpaPairwiseCipher := sel.pairwiseCipher &&& conf.wpaPairwiseCipher }
      -- key management and options are read from an RSN element only
      let sel := { sel with gmcs := 0, akm := 0, mfpOpt := 0, sppOpt := 0 }
      if sta.sec.wpaGroupCipher = 0 then (41, sta, some ie, sel)
      else if sta.sec.wpaPairwiseCipher = 0 then (42, sta, some ie, sel)
      else (0, sta, some ie, sel)
  | .none => (0, sta, none, {})

def setFlags (sta : ApSta) (flags : StaFlags) : ApSta := { sta with flags := flags }

/-- with or without an RSN or WPA element: WPS, and the copy of the element -/
def parseWps (conf : ApConf) (sta : ApSta) (e : Elems) (ie : Option (List UInt8)) : Nat × ApSta :=
  let sta := setFlags sta { sta.flags with wps := false, maybeWps := false }
  match ie with
  | none =>
    let sta := setFlags sta { sta.flags with wps := e.wpsIe.isSome, maybeWps := e.wpsIe.isNone }
    (if 0 < conf.wpaPsk && conf.wpsRegistrar = some false then 17 else 0, sta)
  | some ie =>
    if conf.wpaPsk = 0 then (40, sta)
    else if e.wpsIe.isSome then (0, setFlags sta { sta.flags with wps := true })
    else (0, setSec sta { sta.sec with wpaIe := ie.take 32 })

def parseAmsdu (conf : ApConf) (sta : ApSta) (sel : SuiteSel) : ApSta :=
  if conf.dot11PrivacyAlgrthm ≠ .noPrivacy && rtwCheckAmsduDisable conf.amsduMode sel.sppOpt then
    setFlags sta { sta.flags with amsduDisable := true }
  else sta

def bothMfp (conf : ApConf) (sel : SuiteSel) : Bool := 2 ≤ conf.mfpOpt && 2 ≤ sel.mfpOpt

def parseMfp (conf : ApConf) (sta : ApSta) (sel : SuiteSel) : ApSta :=
  if bothMfp conf sel then setFlags sta { sta.flags with mfp := true } else sta

def rtwApParseStaSecurityIe (conf : ApConf) (sta : ApSta) (e : Elems) : Nat × ApSta :=
  match parseSuites conf sta e with
  | (status, sta, ie, sel) =>
    if status ≠ 0 then (status, sta)
    else
      let sta := parseAmsdu conf sta sel
      if conf.mfpOpt = 3 && sel.mfpOpt < 2 || sel.mfpOpt = 3 && conf.mfpOpt < 2 then (31, sta)
      else
        let sta := parseMfp conf sta sel
        if sta.flags.mfp && bothMfp conf sel && conf.gmcs ≠ sel.gmcs then (46, sta)
        else if conf.authTypeSae && akmTypeSae &&& sta.sec.akmSuiteType ≠ 0 && sta.authalg = 0
            && !conf.cachedPmkid sta.macAddr then (53, sta)
        else parseWps conf sta e ie

/-! ## `OnAssocReq` -/

def updateBrateTblForSoftAp (rates : List UInt8) : List UInt8 :=
  rates.map fun r => if r &&& 0x7f ∈ [0x02, 0x04, 0x0b, 0x16] then r ||| 0x80 else r

def rtwApParseStaSupportedRates (sta : ApSta) (f : RecvFrame) (off : Nat) : Nat × ApSta :=
  let rates := rtwIesGetSupportedRate (fun i => f.byte (off + i)) (f.len - off)
  if rates.isEmpty then (1, sta)
  else
    let rates := updateBrateTblForSoftAp rates
    (0, { sta with
      bssrateset := rates
      flags := { sta.flags with nonErp := rates.all fun r => (r &&& 0x7f).toNat ≤ 22 } })

def rtwApParseStaCapability (sta : ApSta) (f : RecvFrame) : ApSta :=
  let cap := le16 f wlanHdrA3Len
  { sta with capability := cap, flags := { sta.flags with shortPreamble := cap.testBit 5 } }

/-- the elements of a request start here -/
def asocreqIeOffset (f : RecvFrame) : Nat :=
  wlanHdrA3Len + if getFrameSubType f = 0 then 4 else 10

/-- the fields of a request: status, and the station as far as they were read -/
def assocParse (conf : ApConf) (sta : ApSta) (f : RecvFrame) : Nat × ApSta :=
  if conf.forceAsocFail ≠ 0 then (conf.forceAsocFail, sta)
  else
    match rtwIeee80211ParseElems (f.data.drop (asocreqIeOffset f)) with
    | none => (1, sta)
    | some e =>
      let sta := rtwApParseStaCapability sta f
      if conf.ssid = [] || e.ssid ≠ some conf.ssid then (1, sta)
      else
        match rtwApParseStaSupportedRates sta f (asocreqIeOffset f) with
        | (0, sta) => rtwApParseStaSecurityIe conf sta e
        | (status, sta) => (status, sta)

/-- authenticated, or associated before; `none` for the others -/
def assocStart (st : StaState) : Option StaState :=
  if st.authSuccess then some { st with authSuccess := false, assocState := true }
  else if st.assocSuccess then some { st with assocSuccess := false, assocState := true }
  else none

/-- a station that has none gets an association id -/
def assocAid (s : StaPriv) (p : Nat) : Option StaPriv :=
  if 0 < (s.pool p).aid then some s else s.rtwAidAlloc p

/-- from `auth_list` to `asoc_list` -/
def assocLists (s : StaPriv) (p : Nat) : StaPriv :=
  if (s.pool p).isProtected then s
  else
    let s := { s with authList := s.authList.unlink p }
    if p ∈ s.asocList.nodes then s
    else { s.modSta p fun sta => { sta with expireTo := s.expireTo } with asocList := s.asocList.link p }

def assocDone (s : StaPriv) (p : Nat) (sa : Mac) : StaPriv × List ApOut :=
  let s := s.modSta p fun sta =>
    { sta with state := { sta.state with assocState := false, assocSuccess := true } }
  (assocLists s p,
    if (s.pool p).isProtected then [.asocRsp sa 30, .saQuery sa] else [.asocRsp sa 0, .addSta sa])

def onAssocReq (conf : ApConf) (s : StaPriv) (f : RecvFrame) : StaPriv × List ApOut :=
  let sa := getAddr2 f
  if invalidMac sa then (s, [])
  else if f.len < asocreqIeOffset f then (s, [])
  else
    match s.rtwGetStainfo sa with
    | none => (s, [.deauth sa 6])
    | some p =>
      if (s.pool p).authalg = authAlgSae && (s.pool p).state.authNull then (s, [])
      else
        match assocStart (s.pool p).state with
        | none => (s, [.deauth sa 6])
        | some st =>
          match assocParse conf { s.pool p with state := st } f with
          | (0, sta) =>
            match assocAid (s.modSta p fun _ => sta) p with
            | none => (s.modSta p fun _ => sta, [.asocRsp sa 17])
            | some s => assocDone s p sa
          | (status, sta) => (s.modSta p fun _ => sta, [.asocRsp sa status])

/-! ## leaving, deletion events and expiry -/

/-- the handlers of deauthentication and disassociation have the same body; the address is that of
the station whose deletion event is queued -/
def apLeave (conf : ApConf) (s : StaPriv) (f : RecvFrame) : StaPriv × Option Mac :=
  if getAddr3 f ≠ conf.bssid then (s, none)
  else
    match s.rtwGetStainfo (getAddr2 f) with
    | none => (s, none)
    | some p =>
      if p ∈ s.asocList.nodes then
        -- `ap_free_sta`
        ({ s.modSta p fun sta => { sta with state := { sta.state with asoc := false } } with
            asocList := s.asocList.unlink p }, some (s.pool p).macAddr)
      else (s, none)

def onDeAuthAp (conf : ApConf) (s : StaPriv) (f : RecvFrame) : StaPriv × Option Mac := apLeave conf s f

def onDisassocAp (conf : ApConf) (s : StaPriv) (f : RecvFrame) : StaPriv × Option Mac :=
  apLeave conf s f

def rtwStadelEventCallback (s : StaPriv) (addr : Mac) : StaPriv :=
  match s.rtwGetStainfo addr with
  | none => s
  | some p => s.rtwFreeStainfo p

/-- the first half of `expire_timeout_chk` -/
def authExpire (s : StaPriv) : StaPriv :=
  let flush := s.authList.nodes.filter fun p => (s.pool p).expireTo = 1
  let s := { s with pool := fun p =>
    if p ∈ s.authList.nodes then { s.pool p with expireTo := (s.pool p).expireTo - 1 } else s.pool p }
  flush.foldl StaPriv.rtwFreeStainfo s

/-! ## what a request leaves behind -/

/-- what an association consists of -/
structure AsocInfo where
  aid : Nat
  wpaGroupCipher : Nat
  wpa2GroupCipher : Nat
  wpaPairwiseCipher : Nat
  wpa2PairwiseCipher : Nat
  akmSuiteType : Nat
  deriving DecidableEq, Repr

def ApSta.asocInfo (sta : ApSta) : AsocInfo :=
  ⟨sta.aid, sta.sec.wpaGroupCipher, sta.sec.wpa2GroupCipher, sta.sec.wpaPairwiseCipher,
    sta.sec.wpa2PairwiseCipher, sta.sec.akmSuiteType⟩

/-- a request changes only what it was read for; it cannot take protection away, and does not turn
it on where the access point has it off -/
def ReqOnly (conf : ApConf) (sta sta' : ApSta) : Prop :=
  ∃ flags sec capability rates,
    sta' = { sta with flags := flags, sec := sec, capability := capability, bssrateset := rates }
      ∧ (sta.flags.mfp = true → flags.mfp = true)
      ∧ (conf.mfpOpt < 2 → flags.mfp = true → sta.flags.mfp = true)

theorem ReqOnly.refl (conf : ApConf) (sta : ApSta) : ReqOnly conf sta sta :=
  ⟨_, _, _, _, rfl, id, fun _ => id⟩

theorem ReqOnly.trans {conf : ApConf} {a b c : ApSta} (h : ReqOnly conf a b) (h' : ReqOnly conf b c) :
    ReqOnly conf a c := by
  obtain ⟨_, _, _, _, rfl, h1, h1'⟩ := h
  obtain ⟨_, _, _, _, rfl, h2, h2'⟩ := h'
  exact ⟨_, _, _, _, rfl, fun h => h2 (h1 h), fun ho h => h1' ho (h2' ho h)⟩

theorem reqOnly_setSec (conf : ApConf) (sta : ApSta) (sec : StaSec) :
    ReqOnly conf sta (setSec sta sec) :=
  ⟨_, _, _, _, rfl, id, fun _ => id⟩

theorem reqOnly_setFlags {conf : ApConf} {sta : ApSta} {flags : StaFlags}
    (h : flags.mfp = sta.flags.mfp) : ReqOnly conf sta (setFlags sta flags) :=
  ⟨_, _, _, _, rfl, fun hm => h.trans hm, fun _ hm => h.symm.trans hm⟩

/-- the ciphers and the key management after a request with these elements -/
def askedSuites (conf : ApConf) (e : Elems) (info : AsocInfo) : AsocInfo :=
  match secIe conf e with
  | .rsn ie =>
    match rtwParseWpa2Ie ie with
    | none => ⟨info.aid, 0, 0, 0, 0, info.akmSuiteType⟩
    | some sel =>
      ⟨info.aid, 0, sel.groupCipher &&& conf.wpa2GroupCipher, 0,
        sel.pairwiseCipher &&& conf.wpa2PairwiseCipher, sel.akm⟩
  | .wpa ie =>
    match rtwParseWpaIe ie with
    | none => ⟨info.aid, 0, 0, 0, 0, info.akmSuiteType⟩
    | some sel =>
      ⟨info.aid, sel.groupCipher &&& conf.wpaGroupCipher, 0,
        sel.pairwiseCipher &&& conf.wpaPairwiseCipher, 0, info.akmSuiteType⟩
  | .none => ⟨info.aid, 0, 0, 0, 0, info.akmSuiteType⟩

section

variable (conf : ApConf) (sta : ApSta) (e : Elems)

theorem parseSuites_spec :
    ReqOnly conf sta (parseSuites conf sta e).2.1
      ∧ (parseSuites conf sta e).2.1.asocInfo = askedSuites conf e sta.asocInfo := by
  have hset : ∀ sec, ReqOnly conf sta (setSec (setSec sta { akmSuiteType := sta.sec.akmSuiteType }) sec) :=
    fun _ => (reqOnly_setSec conf _ _).trans (reqOnly_setSec conf _ _)
  unfold parseSuites askedSuites
  cases secIe conf e with
  | rsn ie =>
    dsimp only
    cases rtwParseWpa2Ie ie with
    | none => exact ⟨reqOnly_setSec conf _ _, rfl⟩
    | some sel =>
      dsimp only
      split_ifs <;> exact ⟨hset _, rfl⟩
  | wpa ie =>
    dsimp only
    cases rtwParseWpaIe ie with
    | none => exact ⟨reqOnly_setSec conf _ _, rfl⟩
    | some sel =>
      dsimp only
      split_ifs <;> exact ⟨hset _, rfl⟩
  | none => exact ⟨reqOnly_setSec conf _ _, rfl⟩

theorem parseWps_spec (ie : Option (List UInt8)) :
    ReqOnly conf sta (parseWps conf sta e ie).2 ∧ (parseWps conf sta e ie).2.asocInfo = sta.asocInfo := by
  have h0 : ReqOnly conf sta (setFlags sta { sta.flags with wps := false, maybeWps := false }) :=
    reqOnly_setFlags rfl
  unfold parseWps
  dsimp only
  split
  · exact ⟨h0.trans (reqOnly_setFlags rfl), rfl⟩
  · split_ifs
    · exact ⟨h0, rfl⟩
    · exact ⟨h0.trans (reqOnly_setFlags rfl), rfl⟩
    · exact ⟨h0.trans (reqOnly_setSec conf _ _), rfl⟩

theorem parseAmsdu_spec (sel : SuiteSel) :
    ReqOnly conf sta (parseAmsdu conf sta sel) ∧ (parseAmsdu conf sta sel).asocInfo = sta.asocInfo := by
  unfold parseAmsdu
  split
  · exact ⟨reqOnly_setFlags rfl, rfl⟩
  · exact ⟨ReqOnly.refl conf sta, rfl⟩

theorem parseMfp_spec (sel : SuiteSel) :
    ReqOnly conf sta (parseMfp conf sta sel) ∧ (parseMfp conf sta sel).asocInfo = sta.asocInfo := by
  unfold parseMfp
  split
  · rename_i hb
    refine ⟨⟨_, _, _, _, rfl, fun _ => rfl, fun ho _ => ?_⟩, rfl⟩
    simp [bothMfp] at hb
    omega
  · exact ⟨ReqOnly.refl conf sta, rfl⟩

theorem securityIe_spec :
    ReqOnly conf sta (rtwApParseStaSecurityIe conf sta e).2
      ∧ (rtwApParseStaSecurityIe conf sta e).2.asocInfo = askedSuites conf e sta.asocInfo := by
  obtain ⟨h1, h1'⟩ := parseSuites_spec conf sta e
  unfold rtwApParseStaSecurityIe
  split
  rename_i status sta₁ ie sel heq
  rw [heq] at h1 h1'
  obtain ⟨h2, h2'⟩ := parseAmsdu_spec conf sta₁ sel
  obtain ⟨h3, h3'⟩ := parseMfp_spec conf (parseAmsdu conf sta₁ sel) sel
  obtain ⟨h4, h4'⟩ := parseWps_spec conf (parseMfp conf (parseAmsdu conf sta₁ sel) sel) e ie
  have h12 := h1.trans h2
  have h13 := h12.trans h3
  have e12 := h2'.trans h1'
  have e13 := h3'.trans e12
  dsimp only
  split_ifs
  · exact ⟨h1, h1'⟩
  · exact ⟨h12, e12⟩
  · exact ⟨h13, e13⟩
  · exact ⟨h13, e13⟩
  · exact ⟨h13.trans h4, h4'.trans e13⟩

theorem supportedRates_spec (f : RecvFrame) (off : Nat) :
    ReqOnly conf sta (rtwApParseStaSupportedRates sta f off).2
      ∧ (rtwApParseStaSupportedRates sta f off).2.asocInfo = sta.asocInfo := by
  unfold rtwApParseStaSupportedRates
  dsimp only
  split
  · exact ⟨ReqOnly.refl conf sta, rfl⟩
  · exact ⟨⟨_, _, _, _, rfl, id, fun _ => id⟩, rfl⟩

theorem capability_spec (f : RecvFrame) :
    ReqOnly conf sta (rtwApParseStaCapability sta f)
      ∧ (rtwApParseStaCapability sta f).asocInfo = sta.asocInfo :=
  ⟨⟨_, _, _, _, rfl, id, fun _ => id⟩, rfl⟩

/-- **A request that is read**: the station has the suites it asks for. -/
theorem assocParse_spec (f : RecvFrame) :
    ReqOnly conf sta (assocParse conf sta f).2
      ∧ ((assocParse conf sta f).1 = 0 →
        ∃ e, rtwIeee80211ParseElems (f.data.drop (asocreqIeOffset f)) = some e
          ∧ (assocParse conf sta f).2.asocInfo = askedSuites conf e sta.asocInfo) := by
  unfold assocParse
  split
  · rename_i hforce
    exact ⟨ReqOnly.refl conf sta, fun h => absurd h hforce⟩
  cases rtwIeee80211ParseElems (f.data.drop (asocreqIeOffset f)) with
  | none => exact ⟨ReqOnly.refl conf sta, fun h => absurd h Nat.one_ne_zero⟩
  | some e =>
    obtain ⟨h1, e1⟩ := capability_spec conf sta f
    obtain ⟨h2, e2⟩ :=
      supportedRates_spec conf (rtwApParseStaCapability sta f) f (asocreqIeOffset f)
    dsimp only
    split
    · exact ⟨h1, fun h => absurd h Nat.one_ne_zero⟩
    split
    · rename_i sta₂ hr
      rw [hr] at h2 e2
      obtain ⟨h3, e3⟩ := securityIe_spec conf sta₂ e
      refine ⟨(h1.trans h2).trans h3, fun _ => ⟨e, rfl, ?_⟩⟩
      rw [e3, e2, e1]
    · rename_i status sta₂ hne hr
      rw [hr] at h2
      exact ⟨h1.trans h2, fun h => absurd h hne⟩

end

/-! ## runs -/

structure ApRun where
  priv : StaPriv
  /-- the addresses of the deletion events that are queued -/
  pending : List Mac := []
  out : List ApOut := []
  /-- stations that a deletion event freed while they were in `asoc_list` -/
  freedAsoc : List Nat := []

inductive ApEvent where
  | auth (o : ApOracle) (f : RecvFrame)
  | assocReq (f : RecvFrame)
  | deauth (f : RecvFrame)
  | disassoc (f : RecvFrame)
  /-- the queued deletion event at this place is handled -/
  | stadel (i : Nat)
  | authExpire

namespace ApRun

def leave (r : ApRun) (ret : StaPriv × Option Mac) : ApRun :=
  { r with priv := ret.1, pending := r.pending ++ ret.2.toList }

def stadel (r : ApRun) (i : Nat) : ApRun :=
  match r.pending[i]? with
  | none => r
  | some addr =>
    { r with
      priv := rtwStadelEventCallback r.priv addr
      pending := r.pending.eraseIdx i
      freedAsoc := r.freedAsoc ++ (r.priv.rtwGetStainfo addr).toList.filter (· ∈ r.priv.asocList.nodes) }

def step (conf : ApConf) (r : ApRun) : ApEvent → ApRun
  | .auth o f =>
    { r with priv := (onAuth conf o r.priv f).1, out := r.out ++ (onAuth conf o r.priv f).2 }
  | .assocReq f =>
    { r with priv := (onAssocReq conf r.priv f).1, out := r.out ++ (onAssocReq conf r.priv f).2 }
  | .deauth f => r.leave (onDeAuthAp conf r.priv f)
  | .disassoc f => r.leave (onDisassocAp conf r.priv f)
  | .stadel i => r.stadel i
  | .authExpire => { r with priv := authExpire r.priv }

end ApRun

end Rtl8192eu
