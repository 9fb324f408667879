import Rtl8192eu.Recv.Indicate
import Rtl8192eu.Xmit.AggLayout

/-!
# An Ethernet frame over the air

What `rtw_xmitframe_coalesce` leaves in the buffer, read by the driver of the other end: a station
sends to an access point, or an access point to a station.  The two ends choose the LLC form by
tables of their own (`rtw_put_snap`, `rtw_recv_llc_parse`), and the addresses change their places
with the role.

* `airFrame`    the frame on the air; the chip encrypts what software did not;
* `rxHdr`       the attributes the receiver takes from the header (`validateRecvDataFrame_rxHdr`);
* `rxDecrypt`   decryption in place, by the chip or by software;
* `chkmicOk`    the MIC `recvframe_chkmic` computes is the one behind the payload;
* `Opened`      header, IV and text lie as they were sent, with the ICV behind them.
-/

namespace Rtl8192eu

open Mem

/-! ## on the air -/

def airFrame (cr : TxCrypto) (att : PktAttrib) (mpdu : List UInt8) : List UInt8 :=
  if !att.bswenc && swCipher att.encrypt then
    mpdu.take (att.hdrlen + att.ivLen)
      ++ cr.enc att.encrypt (mpdu.take (att.hdrlen + att.ivLen)) (mpdu.drop (att.hdrlen + att.ivLen))
  else mpdu

/-- destination, source and BSSID: ToDS for an access point, FromDS for a station -/
def rxAddrs (mode : FwMode) (f : RecvFrame) : Mac × Mac × Mac :=
  if mode = .ap then (getAddr3 f, getAddr2 f, getAddr1 f) else (getAddr1 f, getAddr3 f, getAddr2 f)

/-- `sta` is the station of the transmitter -/
def rxHdr (a : Adapter) (sta : StaInfo) (f : RecvFrame) : RecvFrame :=
  let (dst, src, bssid) := rxAddrs a.mode f
  { parseFc f with attrib := setEncrypt a.sec sta (dataAttrib (parseFc f) dst src bssid) }

/-- `icv` is what stands in the place of the ICV afterwards -/
def rxDecrypt (cr : TxCrypto) (icv : List UInt8) (f : RecvFrame) : RecvFrame :=
  let n := f.attrib.hdrlen + f.attrib.ivLen
  if swCipher f.attrib.encrypt then
    { f with data := f.data.take n ++ cr.dec f.attrib.encrypt (f.data.take n) (f.data.drop n) ++ icv }
  else f

/-- both ends have the same keys -/
def chkmicOk (cr : TxCrypto) (_ : Adapter) (f : RecvFrame) : Bool :=
  let payload := f.attrib.hdrlen + f.attrib.ivLen
  let datalen := f.len - f.attrib.hdrlen - f.attrib.ivLen - f.attrib.icvLen - 8
  cr.mic (micAddrs f.data ++ [UInt8.ofNat f.attrib.priority, 0, 0, 0] ++ f.bytes payload datalen)
    = f.bytes (payload + datalen) 8

/-! ## LLC -/

theorem rtwPutSnap_oui (t : Nat) :
    ∃ oui, rtwPutSnap t = oui ++ be16Bytes t ∧ oui.length = 6
      ∧ (oui = rtwBridgeTunnelHeader ∨ oui = rtwRfc1042Header ∧ t ≠ ethPAarp ∧ t ≠ ethPIpx) := by
  unfold rtwPutSnap
  split
  · exact ⟨rtwBridgeTunnelHeader, rfl, rfl, Or.inl rfl⟩
  · rename_i h
    exact ⟨rtwRfc1042Header, rfl, rfl, Or.inr ⟨rfl, fun e => h (Or.inr e), fun e => h (Or.inl e)⟩⟩

/-- the two tables agree: what `rtw_put_snap` writes is removed, for every type -/
theorem rtwRecvLlcParse_putSnap {f : RecvFrame} {xs zs : List UInt8} {t off n : Nat}
    (h : f.data = xs ++ rtwPutSnap t ++ zs) (hoff : xs.length = off) (ht : t < 65536) (hn : 8 ≤ n) :
    rtwRecvLlcParse f off n = .remove ∧ be16 f (off + snapSize) = t := by
  obtain ⟨oui, he, hl, ho⟩ := rtwPutSnap_oui t
  rw [he] at h
  have h' : f.data = xs ++ oui ++ be16Bytes t ++ zs := h.trans (by simp only [List.append_assoc])
  have h1 : f.bytes off snapSize = oui := by
    rw [List.append_assoc (xs ++ oui)] at h'
    exact bytes_of_append h' hoff hl
  have h2 : be16 f (off + snapSize) = t := by
    refine be16_of_append h' ?_ ht
    rw [List.length_append, hoff, hl]
    rfl
  refine ⟨?_, h2⟩
  unfold rtwRecvLlcParse
  rw [if_neg (by omega), h1, h2]
  rcases ho with rfl | ⟨rfl, hne⟩
  · exact if_pos (Or.inr rfl)
  · exact if_pos (Or.inl ⟨rfl, hne⟩)

/-- header and IV, then what the sender put in front of the payload, and what is pulled behind it -/
structure Opened (f : RecvFrame) (t : Nat) (payload : List UInt8) : Prop where
  data_eq : ∃ xs icv, f.data = xs ++ rtwPutSnap t ++ payload ++ icv
    ∧ xs.length = f.attrib.hdrlen + f.attrib.ivLen
    ∧ icv.length = if f.attrib.encrypt ≠ .noPrivacy then f.attrib.icvLen else 0
  long : ethHlen ≤ f.attrib.hdrlen
  fits : f.len < 65536

theorem Opened.wlanhdrToEthhdr {f : RecvFrame} {t : Nat} {payload : List UInt8}
    (h : Opened f t payload) (ht : t < 65536) :
    rtwRecvLlcParse f (f.attrib.hdrlen + f.attrib.ivLen) (msduLen f) = .remove
      ∧ wlanhdrToEthhdr f .remove = some ⟨f.attrib.dst, f.attrib.src, t, payload⟩ := by
  obtain ⟨⟨xs, icv, hd, hxs, hicv⟩, hlong, hfits⟩ := h
  have hsnap := length_rtwPutSnap t
  have hlen : f.len = xs.length + 8 + payload.length + icv.length := by
    rw [RecvFrame.len, hd, List.length_append, List.length_append, List.length_append, hsnap]
  have hm : msduLen f = 8 + payload.length := by
    unfold msduLen
    split at hicv <;> rename_i he
    · rw [if_pos he]
      omega
    · rw [if_neg he]
      omega
  have hp := pullIcv_data hd hicv
  rw [List.append_assoc (xs ++ rtwPutSnap t)] at hd
  obtain ⟨hllc, hty⟩ := rtwRecvLlcParse_putSnap hd hxs ht (show 8 ≤ msduLen f by omega)
  refine ⟨hllc, ?_⟩
  have hpull : ¬ (pullIcv f).len < ethPullLen f .remove := by
    rw [RecvFrame.len, hp, List.length_append, List.length_append, hsnap, hxs]
    show ¬ _ < f.attrib.hdrlen + f.attrib.ivLen + 6 - ethHlen + 2
    omega
  unfold Rtl8192eu.wlanhdrToEthhdr
  dsimp only
  rw [recvframePull, if_neg hpull, Option.map_some, hty, hp, ← hxs]
  rw [List.drop_left' (by rw [List.length_append, hsnap]; rfl)]

/-- the MSDU goes up unless the rules of an access point send it elsewhere -/
theorem Opened.recvProcessMpdu {f : RecvFrame} {t : Nat} {payload : List UInt8}
    (h : Opened f t payload) (ht : t < 65536) (hamsdu : f.attrib.amsdu = false) (env : RxEnv)
    (a : Adapter) :
    recvProcessMpdu env a f
      = if (mpduActCheck env a f).indicate && !env.cannotRun then
          [⟨f.attrib.dst, f.attrib.src, t, payload⟩] else [] := by
  obtain ⟨hllc, hw⟩ := h.wlanhdrToEthhdr ht
  unfold Rtl8192eu.recvProcessMpdu
  rw [hamsdu, if_neg Bool.false_ne_true]
  dsimp only
  rw [hllc, hw]
  split
  · rename_i ha
    rw [ha]
    rfl
  · rfl

/-! ## the header -/

/-- the frame control word, by its flags -/
def fcWord (qos mdata privacy : Bool) (ds : UInt8) : Nat :=
  (if qos then 0x88 else 0x08 : UInt8).toNat
    + 256 * (ds ||| (if mdata then 0x20 else 0) ||| (if privacy then 0x40 else 0)).toNat

theorem fcWord_bits (qos mdata privacy : Bool) {ds : UInt8} (hds : ds = 0 ∨ ds = 1 ∨ ds = 2) :
    (fcWord qos mdata privacy ds).testBit 7 = qos
      ∧ (fcWord qos mdata privacy ds).testBit 8 = decide (ds = 1)
      ∧ (fcWord qos mdata privacy ds).testBit 9 = decide (ds = 2)
      ∧ (fcWord qos mdata privacy ds).testBit 14 = privacy
      ∧ (fcWord qos mdata privacy ds).testBit 15 = false := by
  rcases hds with rfl | rfl | rfl <;> revert qos mdata privacy <;> decide

theorem le16_frameControl {f : RecvFrame} {att : PktAttrib} {ds : UInt8} {xs : List UInt8}
    (h : f.data = frameControl att ds ++ xs) :
    le16 f 0 = fcWord att.qosData att.mdata (decide (att.encrypt ≠ .noPrivacy)) ds := by
  have hl : (frameControl att ds).length = 2 := rfl
  have h0 : f.byte 0 = (frameControl att ds).getD 0 0 := byte_of_append h (by omega)
  have h1 : f.byte 1 = (frameControl att ds).getD 1 0 := byte_of_append h (by omega)
  unfold le16 fcWord
  rw [h0, h1]
  simp only [frameControl, List.getD_cons_zero, List.getD_cons_succ, decide_eq_true_eq]

theorem parse_frameControl {f : RecvFrame} {att : PktAttrib} {ds : UInt8} {xs : List UInt8}
    (h : f.data = frameControl att ds ++ xs) (hds : ds = 0 ∨ ds = 1 ∨ ds = 2) :
    fcBit f 7 = att.qosData ∧ getToFrDs f = (if ds = 1 then 2 else if ds = 2 then 1 else 0)
      ∧ getPrivacy f = decide (att.encrypt ≠ .noPrivacy) ∧ getOrder f = false := by
  obtain ⟨h7, h8, h9, h14, h15⟩ :=
    fcWord_bits att.qosData att.mdata (decide (att.encrypt ≠ .noPrivacy)) hds
  unfold getToFrDs getPrivacy getOrder fcBit
  rw [le16_frameControl h, h7, h8, h9, h14, h15]
  rcases hds with rfl | rfl | rfl <;> exact ⟨rfl, rfl, rfl, rfl⟩

/-- the addresses in the order of the header -/
theorem getAddr_wlanhdr {f : RecvFrame} {ad : TxAdapter} {att : PktAttrib} {ds : UInt8}
    {x y z xs : List UInt8} {seqnum : Nat} (h : f.data = wlanhdr ad att ds (x ++ y ++ z) seqnum ++ xs)
    (hx : x.length = 6) (hy : y.length = 6) (hz : z.length = 6) :
    getAddr1 f = x ∧ getAddr2 f = y ∧ getAddr3 f = z := by
  have hfc : (frameControl att ds ++ [0, 0]).length = 4 := rfl
  unfold wlanhdr at h
  simp only [List.append_assoc] at h
  simp only [← List.append_assoc (frameControl att ds)] at h
  refine ⟨?_, ?_, ?_⟩
  · rw [← List.append_assoc _ x] at h
    exact bytes_of_append h hfc hx
  · rw [← List.append_assoc _ x, ← List.append_assoc _ y] at h
    exact bytes_of_append h (by rw [List.length_append, hfc, hx]) hy
  · rw [← List.append_assoc _ x, ← List.append_assoc _ y, ← List.append_assoc _ z] at h
    exact bytes_of_append h (by rw [List.length_append, List.length_append, hfc, hx, hy]) hz

theorem le16_qosControl {f : RecvFrame} {ad : TxAdapter} {att : PktAttrib} {ds : UInt8}
    {addrs xs : List UInt8} {seqnum : Nat} (h : f.data = wlanhdr ad att ds addrs seqnum ++ xs)
    (ha : addrs.length = 18) (hq : qosOption ad att = true) :
    le16 f 24 = att.priority % 16 + if att.eosp then 16 else 0 := by
  unfold wlanhdr at h
  rw [if_pos hq] at h
  have hb : f.bytes 24 2 = qosControl att := bytes_of_append h (by simp [frameControl, ha, le16Bytes]) rfl
  have h0 : f.byte 24 = UInt8.ofNat (att.priority % 16 + if att.eosp then 16 else 0) :=
    (List.cons.inj hb).1
  have h1 : f.byte 25 = 0 := (List.cons.inj (List.cons.inj hb).2).1
  unfold le16
  rw [h0, h1, UInt8.toNat_ofNat']
  split <;> simp <;> omega

/-- no A-MSDU, and the TID of the sender -/
theorem parse_qosControl {f : RecvFrame} {ad : TxAdapter} {att : PktAttrib} {ds : UInt8}
    {addrs xs : List UInt8} {seqnum : Nat} (h : f.data = wlanhdr ad att ds addrs seqnum ++ xs)
    (ha : addrs.length = 18) (hq : qosOption ad att = true) :
    getAMsdu f 24 = false ∧ (getPriority f 24).val = att.priority % 16 := by
  have hw := le16_qosControl h ha hq
  unfold getAMsdu getPriority
  rw [hw]
  constructor
  · apply Nat.testBit_lt_two_pow
    split <;> omega
  · show _ % 16 = _
    split <;> omega

theorem dataAttrib_eq (f : RecvFrame) (dst src bssid : Mac) :
    dataAttrib f dst src bssid = { f.attrib with
      ra := getAddr1 f, ta := getAddr2 f, dst := dst, src := src, bssid := bssid
      amsdu := f.attrib.qos && getAMsdu f (wlanHdrA3Len + a4Shift f.attrib)
      priority := if f.attrib.qos then getPriority f (wlanHdrA3Len + a4Shift f.attrib) else 0
      hdrlen := dataHdrlen f.attrib } := by
  rw [dataAttrib, parseQc_eq]
  rfl

/-- the receiver's attributes are those of the sender -/
structure HdrRead (att : PktAttrib) (dst src : Mac) (r : RxPktAttrib) : Prop where
  hdrlen_eq : r.hdrlen = att.hdrlen
  amsdu_eq : r.amsdu = false
  priority_eq : r.priority.val = if att.qosData then att.priority % 16 else 0
  encrypt_eq : r.encrypt = att.encrypt
  lens : (r.ivLen, r.icvLen) = ivIcvLen att.encrypt
  dst_eq : r.dst = dst
  src_eq : r.src = src

theorem setIceIvLen_eq {t : SecurityType} (h : swCipher t = true) : setIceIvLen t = ivIcvLen t := by
  cases t <;> first | rfl | cases h

/-- the cipher the receiver finds for a protected frame is the sender's -/
def SameCipher (a : Adapter) (sta : StaInfo) (f : RecvFrame) (att : PktAttrib) : Prop :=
  att.encrypt ≠ .noPrivacy →
    swCipher att.encrypt = true ∧ getEncryAlgo a.sec sta (isMcast (getAddr1 f)) = att.encrypt

instance (a : Adapter) (sta : StaInfo) (f : RecvFrame) (att : PktAttrib) :
    Decidable (SameCipher a sta f att) :=
  inferInstanceAs (Decidable (_ → _))

/-- one end is a station, the other an access point -/
def Opposite (ad : TxAdapter) (a : Adapter) : Prop :=
  (ad.mode = .station ∧ a.mode = .ap) ∨ (ad.mode = .ap ∧ a.mode = .station)

instance (ad : TxAdapter) (a : Adapter) : Decidable (Opposite ad a) :=
  inferInstanceAs (Decidable (_ ∨ _))

/-- a frame of three addresses has room for the source only when an access point sends it -/
def airSrc (ad : TxAdapter) (src : Mac) : Mac := if ad.mode = .station then ad.macAddr else src

/-- the addresses come back from their places -/
theorem rxAddrs_sent {ad : TxAdapter} {a : Adapter} {att : PktAttrib} {f : RecvFrame} {ds : UInt8}
    {addrs xs : List UInt8} {seqnum : Nat} (hok : att.Ok ad) (hta : att.ta = ad.macAddr)
    (hrole : Opposite ad a) (ha : hdrAddrs ad att = some (ds, addrs))
    (h : f.data = wlanhdr ad att ds addrs seqnum ++ xs) :
    (rxAddrs a.mode f).1 = att.dst ∧ (rxAddrs a.mode f).2.1 = airSrc ad att.src
      ∧ ds = if a.mode = .ap then 1 else 2 := by
  obtain ⟨hd, hs, ht⟩ := hok.addr_length
  have hb := ad.bssid_length
  unfold hdrAddrs at ha
  rcases hrole with ⟨h1, h2⟩ | ⟨h1, h2⟩
  · rw [h1] at ha
    cases ha
    obtain ⟨-, e2, e3⟩ := getAddr_wlanhdr h hb ht hd
    simp only [rxAddrs, airSrc, h1, h2, if_true]
    exact ⟨e3, e2.trans hta, trivial⟩
  · rw [h1] at ha
    cases ha
    obtain ⟨e1, -, e3⟩ := getAddr_wlanhdr h hd hb hs
    have hne : ¬ FwMode.station = .ap := by decide
    have hne' : ¬ FwMode.ap = .station := by decide
    simp only [rxAddrs, airSrc, h1, h2, if_neg hne, if_neg hne']
    exact ⟨e1, e3, trivial⟩

/-- what the receiver reads off the frame control field -/
theorem parse_wlanhdr {ad : TxAdapter} {att : PktAttrib} {f : RecvFrame} {ds : UInt8}
    {addrs xs : List UInt8} {seqnum : Nat} (hds : ds = 0 ∨ ds = 1 ∨ ds = 2)
    (h : f.data = wlanhdr ad att ds addrs seqnum ++ xs) :
    fcBit f 7 = att.qosData ∧ getToFrDs f = (if ds = 1 then 2 else if ds = 2 then 1 else 0)
      ∧ getPrivacy f = decide (att.encrypt ≠ .noPrivacy) ∧ getOrder f = false := by
  have hfc : f.data = frameControl att ds ++ ([0, 0] ++ addrs ++ le16Bytes (seqnum * 16)
      ++ (if qosOption ad att then qosControl att else []) ++ xs) := by
    rw [h, wlanhdr]
    simp only [List.append_assoc]
  exact parse_frameControl hfc hds

/-- the attributes of any receiver, whatever it makes of the addresses -/
theorem hdrRead_setEncrypt {ad : TxAdapter} {att : PktAttrib} {f : RecvFrame} {ds : UInt8}
    {addrs xs : List UInt8} {seqnum : Nat} (sec : SecurityPriv) (sta : StaInfo) (dst src bssid : Mac)
    (hok : att.Ok ad) (ha : hdrAddrs ad att = some (ds, addrs))
    (h : f.data = wlanhdr ad att ds addrs seqnum ++ xs)
    (hkey : att.encrypt ≠ .noPrivacy →
      swCipher att.encrypt = true ∧ getEncryAlgo sec sta (isMcast (getAddr1 f)) = att.encrypt) :
    HdrRead att dst src (setEncrypt sec sta (dataAttrib (parseFc f) dst src bssid)) := by
  obtain ⟨hlen, hds⟩ := hdrAddrs_some hok ha
  obtain ⟨h7, hto, hpriv, hord⟩ := parse_wlanhdr hds h
  have h4 : a4Shift (parseFc f).attrib = 0 := by
    refine if_neg ?_
    show ¬ getToFrDs f = 3
    rw [hto]
    rcases hds with rfl | rfl | rfl <;> decide
  have hdrlen : dataHdrlen (parseFc f).attrib = att.hdrlen := by
    unfold dataHdrlen
    rw [h4, show (parseFc f).attrib.qos = att.qosData from h7,
      show (parseFc f).attrib.order = false from hord, hok.hdrlen_eq]
    rfl
  have hqc : (att.qosData && getAMsdu f (wlanHdrA3Len + 0)) = false
      ∧ (if att.qosData then getPriority f (wlanHdrA3Len + 0) else 0).val
        = if att.qosData then att.priority % 16 else 0 := by
    cases hq : att.qosData with
    | true =>
      exact parse_qosControl h hlen (hok.qosData_eq.symm.trans hq)
    | false => exact ⟨rfl, rfl⟩
  have hqos : (parseFc f).attrib.qos = att.qosData := h7
  rw [dataAttrib_eq, h4, hqos, hdrlen]
  unfold setEncrypt
  by_cases he : att.encrypt = .noPrivacy
  · rw [if_neg (by show ¬ getPrivacy f = true; rw [hpriv]; simp [he])]
    exact ⟨rfl, hqc.1, hqc.2, he.symm, by rw [he]; rfl, rfl, rfl⟩
  · obtain ⟨hsw, halg⟩ := hkey he
    have halg' : getEncryAlgo sec sta (isMcast (getAddr1 (parseFc f))) = att.encrypt := halg
    rw [if_pos (by show getPrivacy f = true; rw [hpriv]; simp [he])]
    dsimp only
    rw [halg', setIceIvLen_eq hsw]
    exact ⟨rfl, hqc.1, hqc.2, rfl, rfl, rfl, rfl⟩

theorem hdrRead_rxHdr {ad : TxAdapter} {a : Adapter} {rsta : StaInfo} {att : PktAttrib} {f : RecvFrame}
    {ds : UInt8} {addrs xs : List UInt8} {seqnum : Nat} (hok : att.Ok ad) (hta : att.ta = ad.macAddr)
    (hrole : Opposite ad a) (ha : hdrAddrs ad att = some (ds, addrs))
    (h : f.data = wlanhdr ad att ds addrs seqnum ++ xs) (hkey : SameCipher a rsta f att) :
    HdrRead att att.dst (airSrc ad att.src) (rxHdr a rsta f).attrib := by
  obtain ⟨hdst, hsrc, -⟩ := rxAddrs_sent hok hta hrole ha h
  rw [← hdst, ← hsrc]
  exact hdrRead_setEncrypt a.sec rsta _ _ _ hok ha h hkey

theorem rx_toFrDs {ad : TxAdapter} {a : Adapter} {att : PktAttrib} {f : RecvFrame} {ds : UInt8}
    {addrs xs : List UInt8} {seqnum : Nat} (hok : att.Ok ad) (hta : att.ta = ad.macAddr)
    (hrole : Opposite ad a) (ha : hdrAddrs ad att = some (ds, addrs))
    (h : f.data = wlanhdr ad att ds addrs seqnum ++ xs) :
    (a.mode = .ap ∧ getToFrDs f = 2) ∨ (a.mode = .station ∧ getToFrDs f = 1) := by
  have hto := (parse_wlanhdr (hdrAddrs_some hok ha).2 h).2.1
  have hds := (rxAddrs_sent hok hta hrole ha h).2.2
  rcases hrole with ⟨-, hm⟩ | ⟨-, hm⟩
  · rw [hm, if_pos rfl] at hds
    rw [hds] at hto
    exact Or.inl ⟨hm, hto⟩
  · rw [hm, if_neg (by decide)] at hds
    rw [hds] at hto
    exact Or.inr ⟨hm, hto⟩

/-- the addresses an accepted frame gets -/
theorem rxDataValidateHdr_rxAddrs {a : Adapter} {f : RecvFrame} {att : RxPktAttrib}
    {sta : Option StaInfo}
    (hm : (a.mode = .ap ∧ f.attrib.toFrDs = 2) ∨ (a.mode = .station ∧ f.attrib.toFrDs = 1))
    (h : rxDataValidateHdr a f = (.success, att, sta)) :
    att = setAddrs f (rxAddrs a.mode f).1 (rxAddrs a.mode f).2.1 (rxAddrs a.mode f).2.2 := by
  unfold rxDataValidateHdr at h
  rcases hm with ⟨hm, hto⟩ | ⟨hm, hto⟩
  · rw [hm] at h ⊢
    simp only [rtwApRxDataValidateHdr, hto] at h
    split at h
    · cases h
    rw [if_pos trivial] at h
    split at h
    · cases h
    · exact (rtwApRxDataChk_success h).1
  · rw [hm] at h ⊢
    simp only [rtwStaRxDataValidateHdr, hto] at h
    rw [if_neg (by decide)] at h
    split at h
    · cases h
    · rw [if_pos trivial] at h
      exact (rtwStaRxDataChk_success h).1

/-- what `validate_recv_data_frame` hands on has the attributes of `rxHdr` -/
theorem validateRecvDataFrame_rxHdr {a a' : Adapter} {f f' : RecvFrame}
    (hm : (a.mode = .ap ∧ getToFrDs f = 2) ∨ (a.mode = .station ∧ getToFrDs f = 1))
    (h : validateRecvDataFrame a (parseFc f) = (.success, a', f')) :
    ∃ rsta, a.rtwGetStainfo (getAddr2 f) = some rsta ∧ f' = rxHdr a rsta f := by
  simp only [validateRecvDataFrame] at h
  split at h
  · cases h
  · cases h
  · cases h
  · rename_i att sta hh
    have hs := (rxDataValidateHdr_success hh).2.1
    obtain rfl := rxDataValidateHdr_rxAddrs hm hh
    split at h
    · cases h
    split at h
    · cases h
    · rename_i sta₁ hd
      obtain ⟨-, -, -, -, hf, -⟩ := validateCached_success (recvDecache_cachesOnly hd) h
      exact ⟨sta, hs.symm, hf⟩

/-! ## the body -/

/-- who encrypts makes no difference on the air -/
theorem airFrame_eq {cr : TxCrypto} {ad : TxAdapter} {att : PktAttrib} {hdr text : List UInt8}
    (hok : att.Ok ad) (hhdr : HdrOk att hdr) :
    airFrame cr att (hdr ++ att.iv ++ sentText cr att hdr text)
      = hdr ++ att.iv ++ if swCipher att.encrypt then cr.enc att.encrypt (hdr ++ att.iv) text else text := by
  have hl : (hdr ++ att.iv).length = att.hdrlen + att.ivLen := by
    rw [List.length_append, hhdr.length_eq, hok.iv_length]
  unfold airFrame sentText
  rw [List.take_left' hl, List.drop_left' hl]
  cases att.bswenc <;> cases swCipher att.encrypt <;> rfl

theorem HdrRead.length_hdr_iv {ad : TxAdapter} {att : PktAttrib} {dst src : Mac} {r : RxPktAttrib}
    {hdr : List UInt8} (hr : HdrRead att dst src r) (hok : att.Ok ad) (hhdr : HdrOk att hdr) :
    (hdr ++ att.iv).length = r.hdrlen + r.ivLen := by
  have hiv : r.ivLen = att.ivLen := congrArg Prod.fst (hr.lens.trans hok.lens.symm)
  rw [List.length_append, hhdr.length_eq, hok.iv_length, hr.hdrlen_eq, hiv]

/-- the receiver has header, IV and text again, with the ICV behind them -/
theorem rxDecrypt_data {cr : TxCrypto} {ad : TxAdapter} {att : PktAttrib} {dst src : Mac}
    {f : RecvFrame} {hdr text : List UInt8} (icv : List UInt8) (hok : att.Ok ad) (hhdr : HdrOk att hdr)
    (hr : HdrRead att dst src f.attrib)
    (h : f.data = hdr ++ att.iv
      ++ if swCipher att.encrypt then cr.enc att.encrypt (hdr ++ att.iv) text else text) :
    rxDecrypt cr icv f
      = { f with data := hdr ++ att.iv ++ text ++ if swCipher att.encrypt then icv else [] } := by
  have hl := hr.length_hdr_iv hok hhdr
  unfold rxDecrypt
  dsimp only
  rw [hr.encrypt_eq]
  split
  · rename_i hsw
    rw [if_pos hsw] at h
    rw [h, List.take_left' hl, List.drop_left' hl, cr.dec_enc]
  · rename_i hsw
    rw [if_neg hsw] at h
    rw [List.append_nil, ← h]

/-! ## the MIC -/

theorem setQos_lt (eth : EthFrame) : setQos eth < 8 := by
  unfold setQos tosToUp
  split
  · split
    · decide
    · have := (eth.payload.getD 1 0).toNat_lt
      omega
  · decide

theorem qosAcm_lt {acmMask priority : Nat} (h : priority < 8) : qosAcm acmMask priority < 8 := by
  unfold qosAcm
  split <;> first | exact h | (split <;> omega)

theorem txPriority_lt (ad : TxAdapter) (sta : TxSta) (eth : EthFrame) : txPriority ad sta eth < 8 := by
  have h := setQos_lt eth
  unfold txPriority
  split
  · decide
  split
  · split
    · exact qosAcm_lt h
    · exact h
  · split
    · exact qosAcm_lt h
    · exact h
  all_goals exact h

/-- the priority in the MIC is the TID of the header, when the peer of a station with QoS has QoS -/
theorem micPriority_eq {ad : TxAdapter} {sta sta' : TxSta} {eth : EthFrame} {eapol : EapType}
    {att : PktAttrib} (hqos : ad.mode = .station → ad.qosOption = true → sta.qosOption = true)
    (hmode : ad.mode = .station ∨ ad.mode = .ap)
    (h : updateAttrib ad sta eth eapol = some (att, sta')) :
    micPriority att
      = [UInt8.ofNat (if att.qosData then att.priority % 16 else 0), 0, 0, 0] := by
  obtain ⟨-, -, he⟩ := updateAttrib_some h
  have hp := txPriority_lt ad sta eth
  rw [he]
  unfold micPriority
  dsimp only
  cases hq : qosHeader ad sta with
  | true =>
    have hen : sta.qosOption = true := by
      unfold qosHeader at hq
      rcases hmode with hm | hm
      · rw [hm] at hq
        exact hqos hm hq
      · rw [hm] at hq
        exact hq
    rw [if_pos hen, if_pos rfl, Nat.mod_eq_of_lt (by omega)]
  | false =>
    have h0 : txPriority ad sta eth = 0 := by
      unfold txPriority
      rw [hq]
      rfl
    rw [h0]
    cases sta.qosOption <;> rfl

/-- the MIC is found where it was put, and is the one the receiver computes -/
theorem chkmicOk_sent {cr : TxCrypto} {ad : TxAdapter} {att : PktAttrib} {dst src : Mac} {a : Adapter}
    {f : RecvFrame} {hdr msg icv : List UInt8} (hok : att.Ok ad) (hhdr : HdrOk att hdr)
    (hr : HdrRead att dst src f.attrib) (hicv : icv.length = f.attrib.icvLen)
    (hpri : micPriority att = [UInt8.ofNat f.attrib.priority, 0, 0, 0])
    (h : f.data = hdr ++ att.iv ++ (msg ++ cr.mic (micAddrs hdr ++ micPriority att ++ msg)) ++ icv) :
    chkmicOk cr a f = true := by
  have hl := hr.length_hdr_iv hok hhdr
  have hmic := cr.mic_length (micAddrs hdr ++ micPriority att ++ msg)
  generalize hM : cr.mic (micAddrs hdr ++ micPriority att ++ msg) = mic at h hmic
  have hlen : f.len = hdr.length + att.iv.length + (msg.length + mic.length) + icv.length := by
    rw [RecvFrame.len, h]
    simp only [List.length_append]
  have hn : f.len - f.attrib.hdrlen - f.attrib.ivLen - f.attrib.icvLen - 8 = msg.length := by
    rw [List.length_append] at hl
    omega
  have haddr : micAddrs f.data = micAddrs hdr := by
    rw [h, List.append_assoc, List.append_assoc, micAddrs_append hhdr]
  have hmsg : f.bytes (f.attrib.hdrlen + f.attrib.ivLen) msg.length = msg := by
    have h' : f.data = hdr ++ att.iv ++ msg ++ (mic ++ icv) := h.trans (by simp only [List.append_assoc])
    exact bytes_of_append h' hl rfl
  have htail : f.bytes (f.attrib.hdrlen + f.attrib.ivLen + msg.length) 8 = mic := by
    have h' : f.data = hdr ++ att.iv ++ msg ++ mic ++ icv := h.trans (by simp only [List.append_assoc])
    exact bytes_of_append h' (by rw [List.length_append, hl]) hmic
  unfold chkmicOk
  dsimp only
  rw [hn, haddr, ← hpri, hmsg, htail, hM]
  exact decide_eq_true rfl

theorem ivIcvLen_le (t : SecurityType) : (ivIcvLen t).1 ≤ 8 ∧ (ivIcvLen t).2 ≤ 16 := by
  cases t <;> decide

/-- the frame that `recv_process_mpdu` gets; of TKIP the first half of the MIC stands in the place
of the ICV -/
theorem recvframeChkmic_opened {cr : TxCrypto} {ad : TxAdapter} {att : PktAttrib} {dst src : Mac}
    {a : Adapter} {f : RecvFrame} {hdr pkt icv : List UInt8} (hok : att.Ok ad) (hhdr : HdrOk att hdr)
    (hr : HdrRead att dst src f.attrib) (hicv : icv.length = f.attrib.icvLen)
    (hpri : att.encrypt = .tkip → micPriority att = [UInt8.ofNat f.attrib.priority, 0, 0, 0])
    (hfits : pkt.length ≤ maxXmitbufSz)
    (h : f.data = hdr ++ att.iv ++ msduText cr att hdr pkt ++ icv) :
    ∃ g, recvframeChkmic (chkmicOk cr) a f = some g ∧ g.attrib = f.attrib
      ∧ Opened g att.etherType pkt := by
  have hl := hr.length_hdr_iv hok hhdr
  have htext := length_msduText cr att hdr pkt
  have hlong : ethHlen ≤ f.attrib.hdrlen := by
    have := hhdr.long
    rw [hr.hdrlen_eq, ← hhdr.length_eq]
    unfold ethHlen
    omega
  have hlen : f.len = f.attrib.hdrlen + f.attrib.ivLen + (msduText cr att hdr pkt).length + icv.length := by
    rw [RecvFrame.len, h, List.length_append, List.length_append, hl]
  have hbound : f.len < 65536 := by
    have h26 := hok.hdrlen_eq
    have hle := ivIcvLen_le att.encrypt
    rw [← hr.lens] at hle
    rw [hr.hdrlen_eq] at hlen
    unfold maxXmitbufSz at hfits
    split at h26 <;> split at htext <;> omega
  unfold recvframeChkmic
  by_cases ht : att.encrypt = .tkip
  · have h4 : f.attrib.icvLen = 4 := by
      have := congrArg Prod.snd hr.lens
      rw [ht] at this
      exact this
    have hne : f.attrib.encrypt ≠ .noPrivacy := by
      rw [hr.encrypt_eq, ht]
      decide
    rw [msduText, if_pos ht] at h
    have hmic := cr.mic_length (micAddrs hdr ++ micPriority att ++ (rtwPutSnap att.etherType ++ pkt))
    rw [hr.encrypt_eq, if_pos ht, if_pos (chkmicOk_sent hok hhdr hr hicv (hpri ht) h),
      recvframePullTail, if_neg (by omega), Option.getD_some]
    generalize cr.mic (micAddrs hdr ++ micPriority att ++ (rtwPutSnap att.etherType ++ pkt)) = mic at h hmic
    have h' : f.data = (hdr ++ att.iv ++ rtwPutSnap att.etherType ++ pkt) ++ (mic ++ icv) :=
      h.trans (by simp only [List.append_assoc])
    have hn : f.len - 8 = (hdr ++ att.iv ++ rtwPutSnap att.etherType ++ pkt).length + 4 := by
      rw [RecvFrame.len, h']
      simp only [List.length_append]
      omega
    have hcut : f.data.take (f.len - 8)
        = hdr ++ att.iv ++ rtwPutSnap att.etherType ++ pkt ++ mic.take 4 := by
      rw [hn, h', List.take_length_add_append, List.take_append_of_le_length (by omega)]
    refine ⟨_, rfl, rfl, ⟨_, _, hcut, hl, ?_⟩, hlong, ?_⟩
    · rw [if_pos hne, List.length_take, hmic, h4]
      rfl
    · show (f.data.take (f.len - 8)).length < 65536
      rw [List.length_take]
      exact Nat.lt_of_le_of_lt (Nat.min_le_right _ _) hbound
  · rw [hr.encrypt_eq, if_neg ht]
    rw [msduText, if_neg ht, List.append_nil, ← List.append_assoc] at h
    refine ⟨f, rfl, rfl, ⟨_, _, h, hl, ?_⟩, hlong, hbound⟩
    rw [hicv]
    split
    · rfl
    · rename_i he
      have := congrArg Prod.snd hr.lens
      rw [← hr.encrypt_eq, Decidable.not_not.mp he] at this
      exact this

/-! ## the trip -/

theorem rtwMakeWlanhdr_wlanhdr {ad : TxAdapter} {sta sta' : TxSta} {att : PktAttrib} {hdr : List UInt8}
    (h : rtwMakeWlanhdr ad sta att = some (hdr, sta')) :
    ∃ ds addrs seqnum, hdrAddrs ad att = some (ds, addrs) ∧ hdr = wlanhdr ad att ds addrs seqnum := by
  obtain ⟨⟨ds, addrs⟩, ha, h⟩ := Option.bind_eq_some_iff.mp h
  dsimp only at h
  split at h
  · cases h
  · cases h
    exact ⟨ds, addrs, _, ha, rfl⟩

theorem PktAttrib.Ok.of_flags {ad : TxAdapter} {att : PktAttrib} {mdata eosp : Bool}
    (h : PktAttrib.Ok ad { att with mdata := mdata, eosp := eosp }) : att.Ok ad :=
  ⟨h.lens, h.iv_length, h.hdrlen_eq, h.qosData_eq, h.addr_length, h.bswenc_of_sw, h.encrypt_of_bswenc⟩

/-- the receiver up to `recv_process_mpdu`: `none` when the MIC is wrong -/
def rxOpen (cr : TxCrypto) (a : Adapter) (rsta : StaInfo) (icv : List UInt8) (f : RecvFrame) :
    Option RecvFrame :=
  recvframeChkmic (chkmicOk cr) a (rxDecrypt cr icv (rxHdr a rsta f))

theorem rxOpen_sent {cr : TxCrypto} {ad : TxAdapter} {a : Adapter} {rsta : StaInfo} {att : PktAttrib}
    {f : RecvFrame} {ds : UInt8} {addrs pkt icv : List UInt8} {seqnum : Nat} (hok : att.Ok ad)
    (hta : att.ta = ad.macAddr) (hrole : Opposite ad a) (hda : hdrAddrs ad att = some (ds, addrs))
    (hkey : SameCipher a rsta f att) (hicv : icv.length = (rxHdr a rsta f).attrib.icvLen)
    (hpri : att.encrypt = .tkip → micPriority att
      = [UInt8.ofNat (if att.qosData then att.priority % 16 else 0), 0, 0, 0])
    (hfits : pkt.length ≤ maxXmitbufSz)
    (hair : f.data = wlanhdr ad att ds addrs seqnum ++ att.iv
      ++ if swCipher att.encrypt then
          cr.enc att.encrypt (wlanhdr ad att ds addrs seqnum ++ att.iv)
            (msduText cr att (wlanhdr ad att ds addrs seqnum) pkt)
        else msduText cr att (wlanhdr ad att ds addrs seqnum) pkt) :
    ∃ g, rxOpen cr a rsta icv f = some g ∧ Opened g att.etherType pkt
      ∧ HdrRead att att.dst (airSrc ad att.src) g.attrib := by
  have hhdr := wlanhdr_ok hok hda seqnum
  have hdata := hair
  rw [List.append_assoc] at hdata
  have hr := hdrRead_rxHdr hok hta hrole hda hdata hkey
  have hic : (if swCipher att.encrypt then icv else []).length = (rxHdr a rsta f).attrib.icvLen := by
    split
    · exact hicv
    · rename_i hsw
      have hno : att.encrypt = .noPrivacy := by
        by_contra hne
        exact hsw (hkey hne).1
      have h0 := congrArg Prod.snd hr.lens
      rw [hno] at h0
      exact h0.symm
  have hdec := rxDecrypt_data icv hok hhdr hr hair
  have hat : (rxDecrypt cr icv (rxHdr a rsta f)).attrib = (rxHdr a rsta f).attrib := by rw [hdec]
  have hdat := congrArg RecvFrame.data hdec
  rw [← hat] at hr hic
  rw [← hr.priority_eq] at hpri
  obtain ⟨g, hg, hga, ho⟩ := recvframeChkmic_opened (a := a) hok hhdr hr hic hpri hfits hdat
  rw [← hga] at hr
  exact ⟨g, hg, ho, hr⟩

/-- **An Ethernet frame survives the trip** to a peer in the opposite role, sent in the clear or
encrypted by software or by the chip: destination, type and payload are the same, and so is the
source of a frame from an access point; a station sends under its own address.  The station of an
access point that has QoS has it too (`update_sta_info`); the MIC of TKIP depends on that. -/
theorem ethFrame_roundTrip (cr : TxCrypto) (ad : TxAdapter) (sta sta' sta₁ sta₂ : TxSta)
    (eth : EthFrame) (eapol : EapType) (att : PktAttrib) (bufAddr pktOffset : Nat)
    (m : Nat → UInt8) (c : Coalesced) (a : Adapter) (rsta : StaInfo) (f : RecvFrame)
    (icv : List UInt8) (hrole : Opposite ad a)
    (hqos : att.encrypt = .tkip → ad.mode = .station → ad.qosOption = true → sta.qosOption = true)
    (hatt : updateAttrib ad sta eth eapol = some ({ att with mdata := false, eosp := false }, sta'))
    (hone : isMcast att.ra = true ∨ Unfragmented ad att eth.payload.length)
    (hfits : eth.payload.length ≤ maxXmitbufSz) (hs : 4 ∣ bufAddr)
    (hc : rtwXmitframeCoalesce cr ad sta₁ att eth.payload bufAddr pktOffset m = some (c, sta₂))
    (hair : f.data = airFrame cr att (read c.mem (bufAddr + hwHdrOffset pktOffset) c.lastTxcmdsz))
    (hkey : SameCipher a rsta f att) (hicv : icv.length = (rxHdr a rsta f).attrib.icvLen) :
    (∀ a' f', a.rtwGetStainfo (getAddr2 f) = some rsta →
        validateRecvDataFrame a (parseFc f) = (.success, a', f') → f' = rxHdr a rsta f)
      ∧ ∃ g, rxOpen cr a rsta icv f = some g
        ∧ wlanhdrToEthhdr g (rtwRecvLlcParse g (g.attrib.hdrlen + g.attrib.ivLen) (msduLen g))
          = some ⟨eth.dst, airSrc ad eth.src, eth.etherType, eth.payload⟩
        ∧ ∀ env, recvProcessMpdu env a g
          = if (mpduActCheck env a g).indicate && !env.cannotRun then
              [⟨eth.dst, airSrc ad eth.src, eth.etherType, eth.payload⟩] else [] := by
  have hok : att.Ok ad := (updateAttrib_ok hatt).of_flags
  have hmode : ad.mode = .station ∨ ad.mode = .ap := hrole.imp And.left And.left
  obtain ⟨-, -, he⟩ := updateAttrib_some hatt
  have hdst : att.dst = eth.dst := congrArg PktAttrib.dst he
  have hsrc : att.src = eth.src := congrArg PktAttrib.src he
  have hty : att.etherType = eth.etherType := congrArg PktAttrib.etherType he
  have hta : att.ta = ad.macAddr := congrArg PktAttrib.ta he
  have hpl : att.pktlen = eth.payload.length := congrArg PktAttrib.pktlen he
  -- what is on the air
  obtain ⟨hdr, hmk, hhdr, hlaid, -, hlast⟩ := rtwXmitframeCoalesce_single hok hpl hs hone hc
  have hall := hlaid.read_all
  rw [hhdr.length_eq, hok.iv_length, ← hlast] at hall
  rw [hall, airFrame_eq hok hhdr] at hair
  obtain ⟨ds, addrs, seqnum, hda, rfl⟩ := rtwMakeWlanhdr_wlanhdr hmk
  refine ⟨?_, ?_⟩
  · intro a' f' hsta hv
    rw [List.append_assoc] at hair
    obtain ⟨rsta', hs', hf⟩ := validateRecvDataFrame_rxHdr (rx_toFrDs hok hta hrole hda hair) hv
    rw [hsta] at hs'
    rw [hf, Option.some.inj hs']
  · have hpri : att.encrypt = .tkip → micPriority att
        = [UInt8.ofNat (if att.qosData then att.priority % 16 else 0), 0, 0, 0] := by
      intro ht
      have hp := micPriority_eq (hqos ht) hmode hatt
      exact hp
    obtain ⟨g, hg, ho, hr⟩ := rxOpen_sent hok hta hrole hda hkey hicv hpri hfits hair
    rw [hty] at ho
    obtain ⟨hllc, hw⟩ := ho.wlanhdrToEthhdr eth.etherType_lt
    have hmsdu : (⟨g.attrib.dst, g.attrib.src, eth.etherType, eth.payload⟩ : Msdu)
        = ⟨eth.dst, airSrc ad eth.src, eth.etherType, eth.payload⟩ := by
      rw [hr.dst_eq, hr.src_eq, hdst, hsrc]
    refine ⟨g, hg, ?_, ?_⟩
    · rw [hllc, hw, hmsdu]
    · intro env
      rw [ho.recvProcessMpdu eth.etherType_lt hr.amsdu_eq env a, hmsdu]

/-- an access point without encryption -/
def rxAp : Adapter := { macAddr := [2, 0, 0, 0, 0, 2], bssid := [2, 0, 0, 0, 0, 2], mode := .ap }

/-- IPX over QoS, whose type both tables treat apart -/
def ipxEth : EthFrame :=
  { arpEth with etherType := 0x8137, payload := [0xff, 0xff, 0, 34], etherType_lt := by decide }

/-- from a host behind the station -/
def bridgedEth : EthFrame := { ipxEth with src := [2, 0, 0, 0, 0, 9] }

def qosStation : TxAdapter := { txStation with qosOption := true }

def qosPeer : TxSta := { qosOption := true }

def qosAtt (eth : EthFrame) : PktAttrib :=
  ((updateAttrib qosStation qosPeer eth .nonEapol).get rfl).1

theorem qosAtt_coalesce (eth : EthFrame) :
    (rtwXmitframeCoalesce idleCrypto qosStation qosPeer (qosAtt eth) eth.payload 512 1
      fun _ => 0).isSome = true := rfl

def qosSent (eth : EthFrame) : Coalesced :=
  ((rtwXmitframeCoalesce idleCrypto qosStation qosPeer (qosAtt eth) eth.payload 512 1
    fun _ => 0).get (qosAtt_coalesce eth)).1

def qosAir (eth : EthFrame) : RecvFrame where
  id := 0
  data := airFrame idleCrypto (qosAtt eth)
    (read (qosSent eth).mem (512 + hwHdrOffset 1) (qosSent eth).lastTxcmdsz)

theorem ethFrame_roundTrip_ipx :
    ∃ g, rxOpen idleCrypto rxAp {} [] (qosAir ipxEth) = some g
      ∧ recvProcessMpdu {} rxAp g = [⟨ipxEth.dst, ipxEth.src, ipxEth.etherType, ipxEth.payload⟩] := by
  obtain ⟨-, g, hg, -, hp⟩ := ethFrame_roundTrip idleCrypto qosStation qosPeer _ qosPeer _ ipxEth .nonEapol
    (qosAtt ipxEth) 512 1 (fun _ => 0) (qosSent ipxEth) rxAp {} (qosAir ipxEth) [] (by decide) (by decide)
    rfl (by decide) (by decide) (by decide) (Option.some_get (qosAtt_coalesce ipxEth)).symm rfl (by decide)
    (by decide)
  have hact : ∀ g ∈ rxOpen idleCrypto rxAp {} [] (qosAir ipxEth),
      (mpduActCheck {} rxAp g).indicate = true := by decide
  refine ⟨g, hg, ?_⟩
  rw [hp {}, hact g hg]
  decide

/-- the source of a frame that a station forwards is not kept -/
theorem ethFrame_src_replaced :
    ¬ ∀ (cr : TxCrypto) (ad : TxAdapter) (sta sta' sta₁ sta₂ : TxSta) (eth : EthFrame) (eapol : EapType)
        (att : PktAttrib) (bufAddr pktOffset : Nat) (m : Nat → UInt8) (c : Coalesced) (a : Adapter)
        (rsta : StaInfo) (f : RecvFrame) (icv : List UInt8), Opposite ad a →
      (ad.mode = .station → ad.qosOption = true → sta.qosOption = true) →
      updateAttrib ad sta eth eapol = some ({ att with mdata := false, eosp := false }, sta') →
      (isMcast att.ra = true ∨ Unfragmented ad att eth.payload.length) →
      eth.payload.length ≤ maxXmitbufSz → 4 ∣ bufAddr →
      rtwXmitframeCoalesce cr ad sta₁ att eth.payload bufAddr pktOffset m = some (c, sta₂) →
      f.data = airFrame cr att (read c.mem (bufAddr + hwHdrOffset pktOffset) c.lastTxcmdsz) →
      SameCipher a rsta f att → icv.length = (rxHdr a rsta f).attrib.icvLen →
      ∃ g, rxOpen cr a rsta icv f = some g
        ∧ wlanhdrToEthhdr g (rtwRecvLlcParse g (g.attrib.hdrlen + g.attrib.ivLen) (msduLen g))
          = some ⟨eth.dst, eth.src, eth.etherType, eth.payload⟩ := by
  intro h
  obtain ⟨g, hg, hw⟩ := h idleCrypto qosStation qosPeer _ qosPeer _ bridgedEth .nonEapol
    (qosAtt bridgedEth) 512 1 (fun _ => 0) (qosSent bridgedEth) rxAp {} (qosAir bridgedEth) [] (by decide)
    (by decide) rfl (by decide) (by decide) (by decide) (Option.some_get (qosAtt_coalesce bridgedEth)).symm
    rfl (by decide) (by decide)
  have hsrc : ∀ g ∈ rxOpen idleCrypto rxAp {} [] (qosAir bridgedEth),
      wlanhdrToEthhdr g (rtwRecvLlcParse g (g.attrib.hdrlen + g.attrib.ivLen) (msduLen g))
        ≠ some ⟨bridgedEth.dst, bridgedEth.src, bridgedEth.etherType, bridgedEth.payload⟩ := by decide
  exact hsrc g hg hw

end Rtl8192eu
