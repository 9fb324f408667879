import Rtl8192eu.Recv.Decache

/-!
# Validation, decryption and port control of a data frame

`validate_recv_data_frame` of `core/rtw_recv.c` with the header checks of the operation modes,
`decryptor` and `portctrl`.  Statistics, power save and the deauthentication frames that a
failed check sends are left out: nothing here reads them.  The software ciphers are a parameter.

* `parseFc`   the attributes `validate_recv_frame` takes from the header;
* `rxDataValidateHdr`   the addresses and the station, by operation mode;
* `dropUnprotected`   the checks on plaintext frames in a protected network;
* `validateRecvDataFrame`   the whole of it, with the caches of `Decache`;
* `decryptor`, `portctrl`   `none` when the frame was freed.
-/

namespace Rtl8192eu

def wlanHdrA3Len : Nat := 24
def wlanHdrA3QosLen : Nat := 26
def ethAlen : Nat := 6
def llcHeaderSize : Nat := 6
def eapolType : Nat := 0x888e

/-! ## the header -/

/-- the attributes that `validate_recv_frame` reads off the header of a data frame -/
def parseFc (f : RecvFrame) : RecvFrame :=
  { f with attrib := { f.attrib with
      toFrDs := getToFrDs f
      fragNum := getFragNum f
      seqNum := getSequence f
      mfrag := getMFrag f
      privacy := getPrivacy f
      order := getOrder f
      qos := fcBit f 7 } }

def a4Shift (att : RxPktAttrib) : Nat := if att.toFrDs = 3 then ethAlen else 0

/-- the addresses of a frame; destination, source and BSSID depend on `to_fr_ds` -/
def setAddrs (f : RecvFrame) (dst src bssid : Mac) : RxPktAttrib :=
  { f.attrib with ra := getAddr1 f, ta := getAddr2 f, dst := dst, src := src, bssid := bssid }

/-- `rtw_sta_rx_data_validate_hdr`, once the addresses are set -/
def rtwStaRxDataChk (a : Adapter) (f : RecvFrame) (att : RxPktAttrib) :
    RxRet × RxPktAttrib × Option StaInfo :=
  -- SA is myself
  if !att.amsdu && a.macAddr = att.src then (.fail, att, none)
  else
    match a.rtwGetStainfo att.ta with
    | none => (.fail, att, none)
    | some sta =>
      -- no data
      if fcBit f 6 then (.handled, att, some sta)
      else if a.useWds && !att.amsdu && isMcast att.dst && a.wdsGptr att.src then
        (.handled, att, some sta)
      else (.success, att, some sta)

def rtwStaRxDataValidateHdr (a : Adapter) (f : RecvFrame) :
    RxRet × RxPktAttrib × Option StaInfo :=
  if f.attrib.toFrDs = 0 then
    let att := setAddrs f (getAddr1 f) (getAddr2 f) (getAddr3 f)
    if getAddr3 f ≠ getAddr2 f then (.fail, att, none)
    else
      match a.rtwGetStainfo (getAddr2 f) with
      | none => (.fail, att, none)
      | some sta => (.success, att, some sta)
  else if !(a.asoc || a.linking) then (.fail, f.attrib, none)
  else if f.attrib.toFrDs = 1 then
    rtwStaRxDataChk a f (setAddrs f (getAddr1 f) (getAddr3 f) (getAddr2 f))
  else if f.attrib.toFrDs = 3 then
    rtwStaRxDataChk a f (setAddrs f (getAddr3 f) (getAddr4 f) (getAddr2 f))
  else (.handled, { f.attrib with ra := getAddr1 f, ta := getAddr2 f }, none)

/-- `rtw_ap_rx_data_validate_hdr`, once the addresses are set -/
def rtwApRxDataChk (a : Adapter) (f : RecvFrame) (att : RxPktAttrib) :
    RxRet × RxPktAttrib × Option StaInfo :=
  match a.rtwGetStainfo att.ta with
  | none => (.handled, att, none)
  | some sta => if fcBit f 6 then (.handled, att, some sta) else (.success, att, some sta)

def rtwApRxDataValidateHdr (a : Adapter) (f : RecvFrame) :
    RxRet × RxPktAttrib × Option StaInfo :=
  if !a.asoc then (.fail, f.attrib, none)
  else if f.attrib.toFrDs = 2 then
    if isMcast (getAddr1 f) then (.fail, f.attrib, none)
    else rtwApRxDataChk a f (setAddrs f (getAddr3 f) (getAddr2 f) (getAddr1 f))
  else if f.attrib.toFrDs = 3 then
    rtwApRxDataChk a f (setAddrs f (getAddr3 f) (getAddr4 f)
      (if isMcast (getAddr1 f) then f.attrib.bssid else getAddr1 f))
  else (.handled, f.attrib, none)

def sta2staDataFrame (a : Adapter) (att : RxPktAttrib) : RxRet × RxPktAttrib × Option StaInfo :=
  let zero : Mac := [0, 0, 0, 0, 0, 0]
  let adhoc : Bool := a.mode = .adhoc ∨ a.mode = .adhocMaster
  if adhoc && a.macAddr = att.src then (.fail, att, none)
  else if adhoc && (a.macAddr ≠ att.dst && !isMcast att.dst) then (.fail, att, none)
  else if adhoc && (att.bssid = zero || a.bssid = zero || att.bssid ≠ a.bssid) then
    (.fail, att, none)
  else
    match a.rtwGetStainfo att.ta with
    | none => (.fail, att, none)
    | some sta => if adhoc then (.success, att, some sta) else (.fail, att, some sta)

/-- the other modes; `ap2sta_data_frame` and `sta2ap_data_frame` take nothing outside of the
manufacturing mode, which is not built -/
def otherRxDataValidateHdr (a : Adapter) (f : RecvFrame) :
    RxRet × RxPktAttrib × Option StaInfo :=
  if f.attrib.toFrDs = 0 then sta2staDataFrame a (setAddrs f (getAddr1 f) (getAddr2 f) (getAddr3 f))
  else if f.attrib.toFrDs = 1 then (.fail, setAddrs f (getAddr1 f) (getAddr3 f) (getAddr2 f), none)
  else if f.attrib.toFrDs = 2 then (.handled, setAddrs f (getAddr3 f) (getAddr2 f) (getAddr1 f), none)
  else (.fail, f.attrib, none)

def rxDataValidateHdr (a : Adapter) (f : RecvFrame) : RxRet × RxPktAttrib × Option StaInfo :=
  match a.mode with
  | .ap => rtwApRxDataValidateHdr a f
  | .station => rtwStaRxDataValidateHdr a f
  | _ => otherRxDataValidateHdr a f

/-! ## QoS control, cipher and plaintext -/

/-- parsing of the QoS control field, and the length of the header -/
def parseQc (f : RecvFrame) (att : RxPktAttrib) : RxPktAttrib :=
  let att :=
    if att.qos then
      { att with priority := getPriority f (wlanHdrA3Len + a4Shift att)
                 hdrlen := wlanHdrA3QosLen + a4Shift att }
    else { att with priority := 0, hdrlen := wlanHdrA3Len + a4Shift att }
  -- HT-CTRL 11n
  if att.order then { att with hdrlen := att.hdrlen + 4 } else att

def setEncrypt (sec : SecurityPriv) (sta : StaInfo) (att : RxPktAttrib) : RxPktAttrib :=
  if att.privacy then
    let encrypt := getEncryAlgo sec sta (isMcast att.ra)
    { att with encrypt := encrypt, ivLen := (setIceIvLen encrypt).1, icvLen := (setIceIvLen encrypt).2 }
  else { att with encrypt := .noPrivacy, ivLen := 0, icvLen := 0 }

def dropUnprotected (a : Adapter) (sta : StaInfo) (f : RecvFrame) : RxRet :=
  let att := f.attrib
  if a.sec.dot11PrivacyAlgrthm = .noPrivacy then .success
  else if isMcast att.ra then
    if !att.privacy then .fail else .success
  else
    let etherType := be16 f (att.hdrlen + att.ivLen + llcHeaderSize)
    if a.sec.dot11AuthAlgrthm = .ieee8021x then
      if !att.privacy && etherType != eapolType then .fail
      else if !att.privacy && att.amsdu then .fail
      else if etherType = eapolType ∧ a.mode = .ap ∧ sta.dot118021XPrivacy = .noPrivacy
          ∧ a.macAddr ≠ att.dst then .fail
      else .success
    else if !att.privacy then .fail
    else .success

/-! ## `validate_recv_data_frame` -/

/-- from the caches on; `sta` is the station of `att.ta`, its duplicate cache already written -/
def validateCached (a : Adapter) (sta : StaInfo) (f : RecvFrame) : RxRet × Adapter × RecvFrame :=
  if isMcast f.attrib.ra then
    match recvBcastPnDecache a.mode a.sec f with
    | none => (.fail, a.setSta f.attrib.ta sta, f)
    | some sec =>
      let f' := { f with attrib := setEncrypt sec sta f.attrib }
      (dropUnprotected { a with sec := sec } sta f', { a with sec := sec }.setSta f.attrib.ta sta, f')
  else
    let sta := recvUcastPnDecache sta f
    let f' := { f with attrib := setEncrypt a.sec sta f.attrib }
    (dropUnprotected a sta f', a.setSta f.attrib.ta sta, f')

def validateRecvDataFrame (a : Adapter) (f : RecvFrame) : RxRet × Adapter × RecvFrame :=
  let f := { f with attrib := { f.attrib with
    amsdu := f.attrib.qos && getAMsdu f (wlanHdrA3Len + a4Shift f.attrib) } }
  match rxDataValidateHdr a f with
  | (.fail, att, _) => (.fail, a, { f with attrib := att })
  | (.handled, att, _) => (.handled, a, { f with attrib := att })
  | (.success, att, none) => (.fail, a, { f with attrib := att })
  | (.success, att, some sta) =>
    if sta.amsduDisable && att.amsdu then (.fail, a, { f with attrib := att })
    else
      let f := { f with attrib := parseQc f att }
      match recvDecache sta f.attrib with
      | none => (.fail, a, f)
      | some sta => validateCached a sta f

/-! ## `decryptor` and `portctrl` -/

/-- the software ciphers of `core/rtw_security.c`: the bytes of the frame after decryption, in
place; `none` for `_FAIL` -/
structure SwDecrypt where
  rtwWepDecrypt : Adapter → RecvFrame → List UInt8
  rtwTkipDecrypt : Adapter → RecvFrame → Option (List UInt8)
  rtwAesDecrypt : Adapter → RecvFrame → Option (List UInt8)
  rtwGcmpDecrypt : Adapter → RecvFrame → Option (List UInt8)

def SwDecrypt.apply (dec : SwDecrypt) (a : Adapter) (f : RecvFrame) : Option (List UInt8) :=
  match f.attrib.encrypt with
  | .wep40 | .wep104 => some (dec.rtwWepDecrypt a f)
  | .tkip => dec.rtwTkipDecrypt a f
  | .aes | .ccmp256 => dec.rtwAesDecrypt a f
  | .gcmp | .gcmp256 => dec.rtwGcmpDecrypt a f
  | .noPrivacy | .tkipWtmic | .sms4 => some f.data

/-- the key index of a protected frame: two bits, so never over `WEP_KEYS` -/
def setKeyIndex (f : RecvFrame) : RecvFrame :=
  if f.attrib.encrypt = .noPrivacy then f
  else { f with attrib := { f.attrib with
    keyIndex := (f.byte (f.attrib.hdrlen + 3)).toNat / 64 % 4 } }

def decryptor (dec : SwDecrypt) (a : Adapter) (f : RecvFrame) : Option RecvFrame :=
  let f := setKeyIndex f
  if f.attrib.encrypt ≠ .noPrivacy ∧ f.attrib.bdecrypted = false then
    (dec.apply a f).map fun bs => { f with data := bs, attrib := { f.attrib with bdecrypted := true } }
  else some { f with attrib := { f.attrib with bdecrypted := true } }

def portctrl (a : Adapter) (f : RecvFrame) : Option RecvFrame :=
  if a.sec.dot11AuthAlgrthm = .ieee8021x then
    match a.rtwGetStainfo f.attrib.ta with
    | none => some f
    | some sta =>
      if sta.ieee8021xBlocked then
        if be16 f (f.attrib.hdrlen + f.attrib.ivLen + llcHeaderSize) = eapolType then some f else none
      else some f
  else some f

/-! ## what an accepted frame went through -/

/-- what the header checks leave when they accept a frame -/
def HdrAccepted (a : Adapter) (f : RecvFrame) (att : RxPktAttrib) (sta : Option StaInfo) : Prop :=
  (∃ dst src bssid, att = setAddrs f dst src bssid)
    ∧ sta = a.rtwGetStainfo (getAddr2 f) ∧ sta.isSome

theorem rtwStaRxDataChk_success {a : Adapter} {f : RecvFrame} {att att' : RxPktAttrib}
    {sta : Option StaInfo} (h : rtwStaRxDataChk a f att = (.success, att', sta)) :
    att' = att ∧ sta = a.rtwGetStainfo att.ta ∧ sta.isSome := by
  unfold rtwStaRxDataChk at h
  split at h
  · cases h
  split at h
  · cases h
  rename_i hs
  split at h
  · cases h
  split at h
  · cases h
  cases h
  exact ⟨rfl, hs.symm, rfl⟩

theorem rtwStaRxDataValidateHdr_success {a : Adapter} {f : RecvFrame} {att : RxPktAttrib}
    {sta : Option StaInfo} (h : rtwStaRxDataValidateHdr a f = (.success, att, sta)) :
    HdrAccepted a f att sta := by
  unfold rtwStaRxDataValidateHdr at h
  split at h
  · simp only at h
    split at h
    · cases h
    split at h
    · cases h
    rename_i hs
    cases h
    exact ⟨⟨_, _, _, rfl⟩, hs.symm, rfl⟩
  split at h
  · cases h
  split at h
  · obtain ⟨rfl, hs⟩ := rtwStaRxDataChk_success h
    exact ⟨⟨_, _, _, rfl⟩, hs⟩
  split at h
  · obtain ⟨rfl, hs⟩ := rtwStaRxDataChk_success h
    exact ⟨⟨_, _, _, rfl⟩, hs⟩
  · cases h

theorem rtwApRxDataChk_success {a : Adapter} {f : RecvFrame} {att att' : RxPktAttrib}
    {sta : Option StaInfo} (h : rtwApRxDataChk a f att = (.success, att', sta)) :
    att' = att ∧ sta = a.rtwGetStainfo att.ta ∧ sta.isSome := by
  unfold rtwApRxDataChk at h
  split at h
  · cases h
  rename_i hs
  split at h
  · cases h
  cases h
  exact ⟨rfl, hs.symm, rfl⟩

theorem rtwApRxDataValidateHdr_success {a : Adapter} {f : RecvFrame} {att : RxPktAttrib}
    {sta : Option StaInfo} (h : rtwApRxDataValidateHdr a f = (.success, att, sta)) :
    HdrAccepted a f att sta := by
  unfold rtwApRxDataValidateHdr at h
  split at h
  · cases h
  split at h
  · split at h
    · cases h
    obtain ⟨rfl, hs⟩ := rtwApRxDataChk_success h
    exact ⟨⟨_, _, _, rfl⟩, hs⟩
  split at h
  · obtain ⟨rfl, hs⟩ := rtwApRxDataChk_success h
    exact ⟨⟨_, _, _, rfl⟩, hs⟩
  · cases h

theorem sta2staDataFrame_success {a : Adapter} {att att' : RxPktAttrib} {sta : Option StaInfo}
    (h : sta2staDataFrame a att = (.success, att', sta)) :
    att' = att ∧ sta = a.rtwGetStainfo att.ta ∧ sta.isSome := by
  simp only [sta2staDataFrame] at h
  split at h
  · cases h
  split at h
  · cases h
  split at h
  · cases h
  split at h
  · cases h
  rename_i hs
  split at h
  · cases h
    exact ⟨rfl, hs.symm, rfl⟩
  · cases h

theorem rxDataValidateHdr_success {a : Adapter} {f : RecvFrame} {att : RxPktAttrib}
    {sta : Option StaInfo} (h : rxDataValidateHdr a f = (.success, att, sta)) :
    HdrAccepted a f att sta := by
  unfold rxDataValidateHdr at h
  split at h
  · exact rtwApRxDataValidateHdr_success h
  · exact rtwStaRxDataValidateHdr_success h
  · unfold otherRxDataValidateHdr at h
    split at h
    · obtain ⟨rfl, hs⟩ := sta2staDataFrame_success h
      exact ⟨⟨_, _, _, rfl⟩, hs⟩
    split at h
    · cases h
    split at h
    · cases h
    · cases h

def dataHdrlen (att : RxPktAttrib) : Nat :=
  (if att.qos then wlanHdrA3QosLen else wlanHdrA3Len) + a4Shift att + if att.order then 4 else 0

theorem parseQc_eq (f : RecvFrame) (att : RxPktAttrib) :
    parseQc f att = { att with
      priority := if att.qos then getPriority f (wlanHdrA3Len + a4Shift att) else 0
      hdrlen := dataHdrlen att } := by
  unfold parseQc dataHdrlen
  cases att.qos <;> cases att.order <;> simp

/-- the attributes of a frame that passed the header checks -/
def dataAttrib (f : RecvFrame) (dst src bssid : Mac) : RxPktAttrib :=
  let f' := { f with attrib := { f.attrib with
    amsdu := f.attrib.qos && getAMsdu f (wlanHdrA3Len + a4Shift f.attrib) } }
  parseQc f' (setAddrs f' dst src bssid)

/-- **Inversion of an accepted data frame**: its station passed the duplicate cache, and the rest
is `validateCached`. -/
theorem validateRecvDataFrame_success {a a' : Adapter} {f f' : RecvFrame}
    (h : validateRecvDataFrame a f = (.success, a', f')) :
    ∃ sta sta₁ dst src bssid, a.rtwGetStainfo (getAddr2 f) = some sta
      ∧ recvDecache sta (dataAttrib f dst src bssid) = some sta₁
      ∧ validateCached a sta₁ { f with attrib := dataAttrib f dst src bssid } = (.success, a', f') := by
  simp only [validateRecvDataFrame] at h
  split at h
  · cases h
  · cases h
  · cases h
  · rename_i att sta hh
    obtain ⟨⟨dst, src, bssid, rfl⟩, hs, -⟩ := rxDataValidateHdr_success hh
    split at h
    · cases h
    split at h
    · cases h
    · rename_i sta₁ hd
      exact ⟨sta, sta₁, dst, src, bssid, hs.symm, hd, h⟩

section dataAttrib

variable (f : RecvFrame) (dst src bssid : Mac)

@[simp] theorem dataAttrib_ra : (dataAttrib f dst src bssid).ra = getAddr1 f := by
  simp only [dataAttrib, parseQc_eq]; rfl

@[simp] theorem dataAttrib_ta : (dataAttrib f dst src bssid).ta = getAddr2 f := by
  simp only [dataAttrib, parseQc_eq]; rfl

@[simp] theorem dataAttrib_encrypt : (dataAttrib f dst src bssid).encrypt = f.attrib.encrypt := by
  simp only [dataAttrib, parseQc_eq]; rfl

@[simp] theorem dataAttrib_fragNum : (dataAttrib f dst src bssid).fragNum = f.attrib.fragNum := by
  simp only [dataAttrib, parseQc_eq]; rfl

@[simp] theorem dataAttrib_privacy : (dataAttrib f dst src bssid).privacy = f.attrib.privacy := by
  simp only [dataAttrib, parseQc_eq]; rfl

@[simp] theorem dataAttrib_hdrlen : (dataAttrib f dst src bssid).hdrlen = dataHdrlen f.attrib := by
  simp only [dataAttrib, parseQc_eq]; rfl

end dataAttrib

/-- the stations differ in the duplicate and replay caches only -/
def StaInfo.CachesOnly (sta sta' : StaInfo) : Prop :=
  ∃ t n bt bn iv, sta' = { sta with
    tidRxseq := t, nonqosRxseq := n, bmcTidRxseq := bt, nonqosBmcRxseq := bn, iv := iv }

theorem recvDecache_cachesOnly {sta sta' : StaInfo} {att : RxPktAttrib}
    (h : recvDecache sta att = some sta') : sta.CachesOnly sta' := by
  simp only [recvDecache] at h
  split at h <;> split at h <;> split at h <;> cases h
  all_goals exact ⟨_, _, _, _, _, rfl⟩

theorem recvUcastPnDecache_cachesOnly (sta : StaInfo) (f : RecvFrame) :
    sta.CachesOnly (recvUcastPnDecache sta f) := by
  unfold recvUcastPnDecache
  split
  · dsimp only
    split <;> exact ⟨_, _, _, _, _, rfl⟩
  · exact ⟨_, _, _, _, _, rfl⟩

theorem StaInfo.CachesOnly.trans {sta sta₁ sta₂ : StaInfo} (h₁ : sta.CachesOnly sta₁)
    (h₂ : sta₁.CachesOnly sta₂) : sta.CachesOnly sta₂ := by
  obtain ⟨_, _, _, _, _, rfl⟩ := h₁
  obtain ⟨_, _, _, _, _, rfl⟩ := h₂
  exact ⟨_, _, _, _, _, rfl⟩

theorem recvBcastPnDecache_ivSeq {mode : FwMode} {sec sec' : SecurityPriv} {f : RecvFrame}
    (h : recvBcastPnDecache mode sec f = some sec') : ∃ v, sec' = { sec with ivSeq := v } := by
  unfold recvBcastPnDecache at h
  split at h
  · dsimp only at h
    split at h
    · cases h
      exact ⟨_, rfl⟩
    · cases h
  · cases h
    exact ⟨_, rfl⟩

def Adapter.CachesOnly (a a' : Adapter) (ta : Mac) : Prop :=
  ∃ sta sta' v, a.rtwGetStainfo ta = some sta ∧ sta.CachesOnly sta'
    ∧ a' = { a with sec := { a.sec with ivSeq := v } }.setSta ta sta'

theorem validateCached_adapter {a : Adapter} {sta sta₁ : StaInfo} {f : RecvFrame}
    (hs : a.rtwGetStainfo f.attrib.ta = some sta) (hc : sta.CachesOnly sta₁) :
    a.CachesOnly (validateCached a sta₁ f).2.1 f.attrib.ta := by
  unfold validateCached
  split
  · split
    · exact ⟨sta, sta₁, a.sec.ivSeq, hs, hc, rfl⟩
    · rename_i sec hb
      obtain ⟨v, rfl⟩ := recvBcastPnDecache_ivSeq hb
      exact ⟨sta, sta₁, v, hs, hc, rfl⟩
  · exact ⟨sta, _, a.sec.ivSeq, hs, hc.trans (recvUcastPnDecache_cachesOnly sta₁ f), rfl⟩

theorem validateCached_id (a : Adapter) (sta : StaInfo) (f : RecvFrame) :
    (validateCached a sta f).2.2.id = f.id := by
  unfold validateCached
  split
  · split <;> rfl
  · rfl

theorem validateRecvDataFrame_id (a : Adapter) (f : RecvFrame) :
    (validateRecvDataFrame a f).2.2.id = f.id := by
  simp only [validateRecvDataFrame]
  split
  · rfl
  · rfl
  · rfl
  split
  · rfl
  split
  · rfl
  · exact validateCached_id _ _ _

/-- whatever becomes of the frame, only the caches move -/
theorem validateRecvDataFrame_adapter (a : Adapter) (f : RecvFrame) :
    (validateRecvDataFrame a f).2.1 = a
      ∨ a.CachesOnly (validateRecvDataFrame a f).2.1 (getAddr2 f) := by
  simp only [validateRecvDataFrame]
  split
  · exact Or.inl rfl
  · exact Or.inl rfl
  · exact Or.inl rfl
  · rename_i att sta hh
    obtain ⟨⟨dst, src, bssid, rfl⟩, hs, -⟩ := rxDataValidateHdr_success hh
    split
    · exact Or.inl rfl
    split
    · exact Or.inl rfl
    · rename_i sta₁ hd
      have hta : (dataAttrib f dst src bssid).ta = getAddr2 f := dataAttrib_ta f dst src bssid
      have h := validateCached_adapter (a := a) (f := { f with attrib := dataAttrib f dst src bssid })
        (by rw [hta]; exact hs.symm) (recvDecache_cachesOnly hd)
      rw [hta] at h
      exact Or.inr h

theorem validateCached_success {a a' : Adapter} {sta sta₁ : StaInfo} {f f' : RecvFrame}
    (hco : sta.CachesOnly sta₁) (h : validateCached a sta₁ f = (.success, a', f')) :
    ∃ sta' v, sta.CachesOnly sta'
      ∧ a' = { a with sec := { a.sec with ivSeq := v } }.setSta f.attrib.ta sta'
      ∧ f' = { f with attrib := setEncrypt a.sec sta f.attrib }
      ∧ dropUnprotected a sta f' = .success := by
  unfold validateCached at h
  split at h
  · split at h
    · cases h
    rename_i sec hb
    obtain ⟨v, rfl⟩ := recvBcastPnDecache_ivSeq hb
    simp only [Prod.mk.injEq] at h
    obtain ⟨hdrop, rfl, rfl⟩ := h
    have hco' := hco
    obtain ⟨_, _, _, _, _, rfl⟩ := hco'
    exact ⟨_, v, hco, rfl, rfl, hdrop⟩
  · simp only [Prod.mk.injEq] at h
    obtain ⟨hdrop, rfl, rfl⟩ := h
    have hco' := hco.trans (recvUcastPnDecache_cachesOnly sta₁ f)
    refine ⟨_, a.sec.ivSeq, hco', rfl, ?_, ?_⟩
    · obtain ⟨_, _, _, _, _, e⟩ := hco'
      rw [e]
      rfl
    · obtain ⟨_, _, _, _, _, e⟩ := hco'
      rw [e] at hdrop ⊢
      exact hdrop

/-- **What an accepted data frame leaves**: only the caches moved, the attributes are those of
the header with the cipher of the station, and the plaintext checks passed. -/
theorem validateRecvDataFrame_accepted {a a' : Adapter} {f f' : RecvFrame}
    (h : validateRecvDataFrame a f = (.success, a', f')) :
    ∃ sta sta' v dst src bssid, a.rtwGetStainfo (getAddr2 f) = some sta ∧ sta.CachesOnly sta'
      ∧ a' = { a with sec := { a.sec with ivSeq := v } }.setSta (getAddr2 f) sta'
      ∧ f' = { f with attrib := setEncrypt a.sec sta (dataAttrib f dst src bssid) }
      ∧ dropUnprotected a sta f' = .success := by
  obtain ⟨sta, sta₁, dst, src, bssid, hs, hd, hc⟩ := validateRecvDataFrame_success h
  obtain ⟨sta', v, hco, ha, hf, hdrop⟩ := validateCached_success (recvDecache_cachesOnly hd) hc
  rw [dataAttrib_ta] at ha
  exact ⟨sta, sta', v, dst, src, bssid, hs, hco, ha, hf, hdrop⟩

theorem setEncrypt_eq (sec : SecurityPriv) (sta : StaInfo) (att : RxPktAttrib) :
    ∃ e i c, setEncrypt sec sta att = { att with encrypt := e, ivLen := i, icvLen := c } := by
  unfold setEncrypt
  split
  · exact ⟨_, _, _, rfl⟩
  · exact ⟨_, _, _, rfl⟩

theorem setKeyIndex_eq (f : RecvFrame) :
    ∃ k, setKeyIndex f = { f with attrib := { f.attrib with keyIndex := k } } := by
  unfold setKeyIndex
  split
  · exact ⟨f.attrib.keyIndex, rfl⟩
  · exact ⟨_, rfl⟩

theorem decryptor_some {dec : SwDecrypt} {a : Adapter} {f g : RecvFrame}
    (h : decryptor dec a f = some g) :
    ∃ bs k, g = { f with data := bs, attrib := { f.attrib with keyIndex := k, bdecrypted := true } } := by
  unfold decryptor at h
  obtain ⟨k, hk⟩ := setKeyIndex_eq f
  rw [hk] at h
  dsimp only at h
  split at h
  · obtain ⟨bs, -, rfl⟩ := Option.map_eq_some_iff.mp h
    exact ⟨bs, k, rfl⟩
  · obtain rfl := Option.some.inj h
    exact ⟨_, k, rfl⟩

theorem decryptor_id {dec : SwDecrypt} {a : Adapter} {f g : RecvFrame}
    (h : decryptor dec a f = some g) : g.id = f.id := by
  obtain ⟨bs, k, rfl⟩ := decryptor_some h
  rfl

theorem portctrl_eq {a : Adapter} {f g : RecvFrame} (h : portctrl a f = some g) : g = f := by
  unfold portctrl at h
  split at h
  · split at h
    · cases h
      rfl
    · split at h
      · split at h
        · cases h
          rfl
        · cases h
      · cases h
        rfl
  · cases h
    rfl

/-! ## the caches and a failed decryption -/

/-- the four sequence controls of a station that `recv_decache` compares with -/
def StaInfo.rxseqs (sta : StaInfo) : (Fin 16 → Nat) × Nat × (Fin 16 → Nat) × Nat :=
  (sta.tidRxseq, sta.nonqosRxseq, sta.bmcTidRxseq, sta.nonqosBmcRxseq)

/-- the group counters, and the caches of the station -/
def Adapter.caches (a : Adapter) (ta : Mac) :
    (Fin 4 → BitVec 64) × Option ((Fin 16 → BitVec 64) × (Fin 16 → Nat) × Nat × (Fin 16 → Nat) × Nat) :=
  (a.sec.ivSeq, (a.rtwGetStainfo ta).map fun sta => (sta.iv, sta.rxseqs))

/-- what is no duplicate is the next frame to be one -/
theorem recvDecache_moves {sta sta₁ : StaInfo} {att : RxPktAttrib} (h : recvDecache sta att = some sta₁) :
    sta₁.rxseqs ≠ sta.rxseqs := by
  simp only [recvDecache] at h
  intro e
  simp only [StaInfo.rxseqs, Prod.mk.injEq] at e
  obtain ⟨htid, hnonqos, hbmcTid, hnonqosBmc⟩ := e
  split at h
  · split at h
    · split at h
      · cases h
      rename_i hne
      cases h
      exact hne ((Function.update_self ..).symm.trans (congrFun hbmcTid att.priority))
    · split at h
      · cases h
      rename_i hne
      cases h
      exact hne ((Function.update_self ..).symm.trans (congrFun htid att.priority))
  · split at h
    · split at h
      · cases h
      rename_i hne
      cases h
      exact hne hnonqosBmc
    · split at h
      · cases h
      rename_i hne
      cases h
      exact hne hnonqos

theorem recvUcastPnDecache_rxseqs (sta : StaInfo) (f : RecvFrame) :
    (recvUcastPnDecache sta f).rxseqs = sta.rxseqs := by
  unfold recvUcastPnDecache
  split
  · dsimp only
    split <;> rfl
  · rfl

/-- the checks behind `recv_decache` leave what it wrote -/
theorem validateCached_rxseqs {a a' : Adapter} {sta : StaInfo} {f f' : RecvFrame}
    (h : validateCached a sta f = (.success, a', f')) :
    ∃ sta', a'.rtwGetStainfo f.attrib.ta = some sta' ∧ sta'.rxseqs = sta.rxseqs := by
  unfold validateCached at h
  split at h
  · split at h
    · cases h
    · simp only [Prod.mk.injEq] at h
      obtain ⟨-, rfl, -⟩ := h
      exact ⟨sta, Adapter.rtwGetStainfo_setSta .., rfl⟩
  · simp only [Prod.mk.injEq] at h
    obtain ⟨-, rfl, -⟩ := h
    exact ⟨_, Adapter.rtwGetStainfo_setSta .., recvUcastPnDecache_rxseqs sta f⟩

/-- **The caches move before decryption**: every frame that gets as far as `decryptor`, whatever becomes of
it there, is the one that the next frame must differ from. -/
theorem decryptor_moves_caches (a a' : Adapter) (f f' : RecvFrame)
    (hv : validateRecvDataFrame a f = (.success, a', f')) :
    a'.caches (getAddr2 f) ≠ a.caches (getAddr2 f) := by
  obtain ⟨sta, sta₁, dst, src, bssid, hs, hd, hc⟩ := validateRecvDataFrame_success hv
  obtain ⟨sta', hs', hseq⟩ := validateCached_rxseqs hc
  dsimp only at hs'
  rw [dataAttrib_ta] at hs'
  intro e
  have hsta := congrArg Prod.snd e
  simp only [Adapter.caches, hs, hs', Option.map_some, Option.some.injEq, Prod.mk.injEq] at hsta
  exact recvDecache_moves hd (hseq.symm.trans hsta.2)

/-! ## a station in a network with 802.1X -/

def myMac : Mac := [2, 0, 0, 0, 0, 1]
def apMac : Mac := [2, 0, 0, 0, 0, 2]

/-- associated to the access point `apMac`, with pairwise cipher `cipher` -/
def staAdapter (cipher : SecurityType) (blocked : Bool) : Adapter where
  macAddr := myMac
  bssid := apMac
  asoc := true
  sec := { dot11AuthAlgrthm := .ieee8021x, dot11PrivacyAlgrthm := .aes, dot118021XGrpPrivacy := .aes }
  stations := fun m =>
    if m = apMac then some { dot118021XPrivacy := cipher, ieee8021xBlocked := blocked } else none

/-- a frame from the access point: the first two bytes, the receiver, the sequence control and
what follows it -/
def apFrame (fc : List UInt8) (ra : Mac) (seq : List UInt8) (body : List UInt8) : RecvFrame :=
  parseFc { id := 0, data := fc ++ [0, 0] ++ ra ++ apMac ++ [2, 0, 0, 0, 0, 9] ++ seq ++ body,
            room := List.replicate 32 0 }

def rejectAll : SwDecrypt := ⟨fun _ f => f.data, fun _ _ => none, fun _ _ => none, fun _ _ => none⟩

def acceptAll : SwDecrypt :=
  ⟨fun _ f => f.data, fun _ f => some f.data, fun _ f => some f.data, fun _ f => some f.data⟩

/-- a protected frame with sequence number 5 and a wrong MIC -/
def forgedFrame : RecvFrame := apFrame [0x08, 0x42] myMac [0x50, 0] (List.replicate 24 0)

/-- the same to a group address -/
def forgedGroup : RecvFrame := apFrame [0x08, 0x42] (List.replicate 6 0xff) [0x50, 0] (List.replicate 24 0)

/-- what `decryptor` is given -/
def validated (f : RecvFrame) : Adapter × RecvFrame := (validateRecvDataFrame (staAdapter .aes false) f).2

theorem decryptor_moves_caches_forged :
    (decryptor rejectAll (validated forgedFrame).1 (validated forgedFrame).2 = none
      ∧ (validated forgedFrame).1.caches apMac ≠ (staAdapter .aes false).caches apMac)
    ∧ decryptor rejectAll (validated forgedGroup).1 (validated forgedGroup).2 = none
      ∧ (validated forgedGroup).1.caches apMac ≠ (staAdapter .aes false).caches apMac := by
  refine ⟨⟨by decide, ?_⟩, by decide, ?_⟩
  · exact decryptor_moves_caches (staAdapter .aes false) _ forgedFrame _ rfl
  · exact decryptor_moves_caches (staAdapter .aes false) _ forgedGroup _ rfl

/-- the forged frame moves the counter that a later frame is compared with -/
theorem decryptor_fail_moves_rxseq :
    ¬ ∀ (dec : SwDecrypt) (a a' : Adapter) (f f' : RecvFrame),
      validateRecvDataFrame a f = (.success, a', f') → decryptor dec a' f' = none →
      a'.caches (getAddr2 f) = a.caches (getAddr2 f) := by
  intro h
  have e := h rejectAll (staAdapter .aes false) _ forgedFrame _ (Prod.ext (by decide) rfl) (by decide)
  exact absurd (congrArg (fun c => c.2.map (·.2.2.1)) e) (by decide)

end Rtl8192eu
