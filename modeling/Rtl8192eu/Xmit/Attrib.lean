import Mathlib.Algebra.Group.Nat.Defs
import Rtl8192eu.Recv.Adapter

/-!
# The attributes of a frame to send

`update_attrib` and `update_attrib_sec_info` of `core/rtw_xmit.c`: which cipher a frame gets, who
encrypts it, its packet number and the lengths of its parts.  Ethernet frames come in as
destination, source, type and payload.

* `wepIv`, `tkipIv`, `aesIv`   the macros of `rtw_xmit.h`: the counter moves first, then its bytes
                               are laid out;
* `updateAttribSecInfo`   cipher, IV and `bswenc`; it is the one place where the counter of a
                               data frame moves;
* `updateAttrib`   the whole attributes, and the station with its new counter.
-/

namespace Rtl8192eu

/-- `enum eap_type`, as far as encryption depends on it -/
inductive EapType where
  | nonEapol | eapol24 | eapol44 | other
  deriving DecidableEq, Repr

structure TxSecurity extends SecurityPriv where
  dot11PrivacyKeyIndex : Nat := 0
  dot118021XGrpKeyid : Nat := 0
  swEncrypt : Bool := false
  hwDecrypted : Bool := true
  /-- `SEC_STATUS_STA_PK_GK_CONFLICT_DIS_BMC_SEARCH` -/
  disBmcSearch : Bool := false

structure TxSta extends StaInfo where
  asoc : Bool := true
  qosOption : Bool := false
  bpairwiseKeyInstalled : Bool := false
  /-- an EAPOL key frame in the clear came within the last 100 ms -/
  respNonencEapol : Bool := false
  dot11txpn : Nat := 0
  txseqTid : Nat → Nat := fun _ => 0
  /-- `dot11tkiptxmickey` is not all zero -/
  micKeySet : Bool := true

structure TxAdapter where
  macAddr : Mac
  bssid : Mac
  macAddr_length : macAddr.length = 6 := by decide
  bssid_length : bssid.length = 6 := by decide
  mode : FwMode
  /-- `qospriv.qos_option` -/
  qosOption : Bool := false
  acmMask : Nat := 0
  /-- `WIFI_MP_STATE` -/
  mpState : Bool := false
  /-- `registrypriv.mp_mode` -/
  mpMode : Bool := false
  fragLen : Nat := 2346
  sec : TxSecurity := {}

structure EthFrame where
  dst : Mac
  src : Mac
  dst_length : dst.length = 6 := by decide
  src_length : src.length = 6 := by decide
  etherType : Nat
  etherType_lt : etherType < 65536 := by decide
  payload : List UInt8
  deriving DecidableEq, Repr

structure SecAttrib where
  encrypt : SecurityType
  ivLen : Nat
  icvLen : Nat
  iv : List UInt8
  bswenc : Bool
  deriving DecidableEq, Repr

structure PktAttrib extends SecAttrib where
  etherType : Nat
  dst : Mac
  src : Mac
  ra : Mac
  ta : Mac
  pktlen : Nat
  hdrlen : Nat
  /-- `subtype` is `WIFI_QOS_DATA_TYPE` -/
  qosData : Bool
  qosEn : Bool
  priority : Nat
  mdata : Bool := false
  eosp : Bool := false
  deriving DecidableEq, Repr

def macZero : Mac := [0, 0, 0, 0, 0, 0]

/-! ## packet numbers -/

def pnByte (pn i : Nat) : UInt8 := UInt8.ofNat (pn / 256 ^ i)

def nextPn (last pn : Nat) : Nat := if pn = last then 0 else pn + 1

def keyIdByte (keyidx : Nat) : UInt8 := UInt8.ofNat (keyidx % 4 * 64)

def wepIv (pn keyidx : Nat) : Nat × List UInt8 :=
  let pn := nextPn 0xffffff pn
  (pn, [pnByte pn 0, pnByte pn 1, pnByte pn 2, keyIdByte keyidx])

def tkipIv (pn keyidx : Nat) : Nat × List UInt8 :=
  let pn := nextPn 0xffffffffffff pn
  (pn, [pnByte pn 1, (pnByte pn 1 ||| 0x20) &&& 0x7f, pnByte pn 0, 0x20 ||| keyIdByte keyidx,
    pnByte pn 2, pnByte pn 3, pnByte pn 4, pnByte pn 5])

/-- `AES_IV`; `GCMP_IV` is the same macro -/
def aesIv (pn keyidx : Nat) : Nat × List UInt8 :=
  let pn := nextPn 0xffffffffffff pn
  (pn, [pnByte pn 0, pnByte pn 1, 0, 0x20 ||| keyIdByte keyidx,
    pnByte pn 2, pnByte pn 3, pnByte pn 4, pnByte pn 5])

/-! ## `update_attrib_sec_info` -/

/-- `iv_len` and `icv_len` of the `switch` -/
def ivIcvLen : SecurityType → Nat × Nat
  | .wep40 | .wep104 => (4, 4)
  | .tkip => (8, 4)
  | .aes => (8, 8)
  | .gcmp | .gcmp256 | .ccmp256 => (8, 16)
  | .noPrivacy | .tkipWtmic | .sms4 => (0, 0)

/-- the counter and the IV of the `switch` -/
def attribIv (encrypt : SecurityType) (pn keyIdx : Nat) (bmcast : Bool) : Nat × List UInt8 :=
  let kid := if bmcast then keyIdx else 0
  match encrypt with
  | .wep40 | .wep104 => wepIv pn keyIdx
  | .tkip => tkipIv pn kid
  | .aes | .gcmp | .gcmp256 | .ccmp256 => aesIv pn kid
  | .noPrivacy | .tkipWtmic | .sms4 => (pn, [])

def txKeyIdx (sec : TxSecurity) (bmcast : Bool) : Nat :=
  match sec.dot11AuthAlgrthm with
  | .openSystem | .shared | .auto => sec.dot11PrivacyKeyIndex
  | .ieee8021x => if bmcast then sec.dot118021XGrpKeyid else 0
  | .wapi => 0

/-- the port is closed, or the frame answers a key frame that came in the clear -/
def sendsPlain (sta : TxSta) (eapol : EapType) : Bool :=
  sta.ieee8021xBlocked || ((eapol = .eapol24 || eapol = .eapol44) && sta.respNonencEapol)

def txEncrypt (sec : TxSecurity) (sta : TxSta) (bmcast : Bool) (etherType : Nat) (eapol : EapType) :
    SecurityType :=
  if sendsPlain sta eapol then .noPrivacy
  else
    let e := getEncryAlgo sec.toSecurityPriv sta.toStaInfo bmcast
    if (e = .wep40 || e = .wep104) && etherType = 0x888e then .noPrivacy else e

def txBswenc (sec : TxSecurity) (encrypt : SecurityType) (bmcast : Bool) (eapol : EapType) : Bool :=
  encrypt ≠ .noPrivacy && (sec.swEncrypt || !sec.hwDecrypted || (bmcast && sec.disBmcSearch)
    || eapol = .eapol44)

def updateAttribSecInfo (ad : TxAdapter) (sta : TxSta) (bmcast : Bool) (etherType : Nat)
    (eapol : EapType) : Option (SecAttrib × TxSta) :=
  if sendsPlain sta eapol && etherType ≠ 0x888e && !ad.mpState then none
  else
    let encrypt := txEncrypt ad.sec sta bmcast etherType eapol
    if encrypt = .tkip && !ad.sec.busetkipkey then none
    else
      let (pn, iv) := attribIv encrypt sta.dot11txpn (txKeyIdx ad.sec bmcast) bmcast
      let (ivLen, icvLen) := ivIcvLen encrypt
      some (⟨encrypt, ivLen, icvLen, iv, txBswenc ad.sec encrypt bmcast eapol⟩,
        { sta with dot11txpn := pn })

/-! ## `update_attrib` -/

/-- `tos_to_up`, with `CONFIG_RTW_UP_MAPPING_RULE` as `tos` -/
def tosToUp (tos : UInt8) : Nat := tos.toNat / 32

/-- the user priority `set_qos` reads from the IP header; a packet of ICMP goes out as voice -/
def setQos (eth : EthFrame) : Nat :=
  if eth.etherType = 0x0800 then
    if eth.payload.getD 9 0 = 0x01 then 7 else tosToUp (eth.payload.getD 1 0)
  else 0

def qosAcm (acmMask priority : Nat) : Nat :=
  match priority with
  | 0 | 3 => if acmMask.testBit 1 then 1 else priority
  | 4 | 5 => if acmMask.testBit 2 then 0 else priority
  | 6 | 7 => if acmMask.testBit 3 then 5 else priority
  | _ => priority

/-- who decides about the QoS header: the adapter of a station, the peer elsewhere -/
def qosHeader (ad : TxAdapter) (sta : TxSta) : Bool :=
  match ad.mode with
  | .station | .other => ad.qosOption
  | .ap | .adhoc | .adhocMaster => sta.qosOption

def txPriority (ad : TxAdapter) (sta : TxSta) (eth : EthFrame) : Nat :=
  if !qosHeader ad sta then 0
  else
    match ad.mode with
    | .station | .other =>
      if ad.acmMask ≠ 0 then qosAcm ad.acmMask (setQos eth) else setQos eth
    | .ap | .adhoc | .adhocMaster => setQos eth

/-- the receiver address -/
def txRa (ad : TxAdapter) (dst : Mac) : Mac :=
  match ad.mode with
  | .station => ad.bssid
  | .ap | .adhoc | .adhocMaster => dst
  | .other => macZero

/-- `sta` is the station of the receiver address -/
def updateAttrib (ad : TxAdapter) (sta : TxSta) (eth : EthFrame) (eapol : EapType) :
    Option (PktAttrib × TxSta) :=
  if !sta.asoc then none
  else
    let ra := txRa ad eth.dst
    (updateAttribSecInfo ad sta (isMcast ra) eth.etherType eapol).map fun (s, sta') =>
      ({ toSecAttrib := s
         etherType := eth.etherType
         dst := eth.dst
         src := eth.src
         ra := ra
         ta := ad.macAddr
         pktlen := eth.payload.length
         hdrlen := if qosHeader ad sta then 26 else 24
         qosData := qosHeader ad sta
         qosEn := sta.qosOption
         priority := txPriority ad sta eth }, sta')

/-- `qos_option` of `rtw_make_wlanhdr` -/
def qosOption (ad : TxAdapter) (att : PktAttrib) : Bool :=
  match ad.mode with
  | .station | .other => ad.qosOption
  | .ap | .adhoc | .adhocMaster => att.qosEn

/-! ## what the attributes satisfy -/

theorem attribIv_length (encrypt : SecurityType) (pn keyIdx : Nat) (bmcast : Bool) :
    (attribIv encrypt pn keyIdx bmcast).2.length = (ivIcvLen encrypt).1 := by
  cases encrypt <;> rfl

/-- what coalescing relies on -/
structure PktAttrib.Ok (ad : TxAdapter) (att : PktAttrib) : Prop where
  lens : (att.ivLen, att.icvLen) = ivIcvLen att.encrypt
  iv_length : att.iv.length = att.ivLen
  hdrlen_eq : att.hdrlen = if att.qosData then 26 else 24
  qosData_eq : att.qosData = qosOption ad att
  addr_length : att.dst.length = 6 ∧ att.src.length = 6 ∧ att.ta.length = 6
  bswenc_of_sw : ad.sec.swEncrypt = true → att.encrypt ≠ .noPrivacy → att.bswenc = true
  encrypt_of_bswenc : att.bswenc = true → att.encrypt ≠ .noPrivacy

theorem updateAttribSecInfo_some {ad : TxAdapter} {sta sta' : TxSta} {bmcast : Bool}
    {etherType : Nat} {eapol : EapType} {s : SecAttrib}
    (h : updateAttribSecInfo ad sta bmcast etherType eapol = some (s, sta')) :
    s.encrypt = txEncrypt ad.sec sta bmcast etherType eapol
      ∧ (s.ivLen, s.icvLen) = ivIcvLen s.encrypt
      ∧ s.bswenc = txBswenc ad.sec s.encrypt bmcast eapol
      ∧ (sta'.dot11txpn, s.iv)
        = attribIv s.encrypt sta.dot11txpn (txKeyIdx ad.sec bmcast) bmcast
      ∧ sta' = { sta with dot11txpn := sta'.dot11txpn } := by
  unfold updateAttribSecInfo at h
  split at h
  · cases h
  · dsimp only at h
    split at h
    · cases h
    · cases h
      exact ⟨rfl, rfl, rfl, rfl, rfl⟩

theorem updateAttrib_some {ad : TxAdapter} {sta sta' : TxSta} {eth : EthFrame} {eapol : EapType}
    {att : PktAttrib} (h : updateAttrib ad sta eth eapol = some (att, sta')) :
    sta.asoc = true
      ∧ updateAttribSecInfo ad sta (isMcast (txRa ad eth.dst)) eth.etherType eapol
        = some (att.toSecAttrib, sta')
      ∧ att = { toSecAttrib := att.toSecAttrib
                etherType := eth.etherType
                dst := eth.dst
                src := eth.src
                ra := txRa ad eth.dst
                ta := ad.macAddr
                pktlen := eth.payload.length
                hdrlen := if qosHeader ad sta then 26 else 24
                qosData := qosHeader ad sta
                qosEn := sta.qosOption
                priority := txPriority ad sta eth } := by
  unfold updateAttrib at h
  split at h
  · cases h
  · rename_i ha
    obtain ⟨⟨s, sta₁⟩, hs, he⟩ := Option.map_eq_some_iff.mp h
    cases he
    exact ⟨by simpa using ha, hs, rfl⟩

theorem updateAttrib_ok {ad : TxAdapter} {sta sta' : TxSta} {eth : EthFrame} {eapol : EapType}
    {att : PktAttrib} (h : updateAttrib ad sta eth eapol = some (att, sta')) : att.Ok ad := by
  obtain ⟨-, hs, he⟩ := updateAttrib_some h
  obtain ⟨henc, hlen, hb, hiv, -⟩ := updateAttribSecInfo_some hs
  refine ⟨hlen, ?_, ?_, ?_, ?_, ?_, ?_⟩
  · have h1 := congrArg (fun p => p.2.length) hiv
    have h2 := congrArg Prod.fst hlen
    exact (h1.trans (attribIv_length ..)).trans h2.symm
  · rw [he]
  · rw [he]
    unfold qosHeader qosOption
    cases ad.mode <;> rfl
  · rw [he]
    exact ⟨eth.dst_length, eth.src_length, ad.macAddr_length⟩
  · intro hsw hne
    rw [hb, txBswenc, hsw]
    simp [hne]
  · intro hbs
    rw [hb, txBswenc, Bool.and_eq_true] at hbs
    simpa using hbs.1

end Rtl8192eu
