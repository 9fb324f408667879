import Rtl8192eu.Lib.Mem
import Rtl8192eu.Xmit.Attrib
import Rtl8192eu.Xmit.DataPath

/-!
# Building the frame in the transmit buffer

`rtw_xmitframe_coalesce` of `core/rtw_xmit.c` with `rtw_make_wlanhdr`, `rtw_put_snap`,
`xmitframe_addmic` and `xmitframe_swencrypt`, and the loops of the software ciphers in
`core/rtw_security.c`.  All of them write to the buffer at addresses they compute themselves.

* `rtwMakeWlanhdr`   the 802.11 header, and the station with its new sequence number;
* `coalesceLoop`   the fragments: header, IV, LLC, a piece of the payload, room for the ICV;
* `addmicLoop`, `swencryptLoop`   the walks over the fragments that the MIC and the ciphers make;
* `rtwXmitframeCoalesce`   all together.

The ciphers and the MIC are parameters (`TxCrypto`): a cipher keeps the length of the body and
appends its ICV, and its inverse gives the body back.
-/

namespace Rtl8192eu

open Mem

/-- `RND4` -/
def rnd4 (n : Nat) : Nat := (n + 3) / 4 * 4

/-- `pxmitbuf->pbuf`, allocated with `XMITBUF_ALIGN_SZ` -/
structure XmitBufMem where
  pbuf : Nat
  aligned : 512 ∣ pbuf

/-- the keys are part of the functions -/
structure TxCrypto where
  /-- the MIC of a message -/
  mic : List UInt8 → List UInt8
  /-- header with IV, body: the encrypted body with its ICV -/
  enc : SecurityType → List UInt8 → List UInt8 → List UInt8
  dec : SecurityType → List UInt8 → List UInt8 → List UInt8
  mic_length : ∀ msg, (mic msg).length = 8
  enc_length : ∀ t h p, (enc t h p).length = p.length + (ivIcvLen t).2
  dec_length : ∀ t h c, (dec t h c).length = c.length - (ivIcvLen t).2
  dec_enc : ∀ t h p, dec t h (enc t h p) = p

/-! ## header -/

def rfc1042Oui : List UInt8 := [0x00, 0x00, 0x00]
def p8021hOui : List UInt8 := [0x00, 0x00, 0xf8]

def le16Bytes (n : Nat) : List UInt8 := [UInt8.ofNat n, UInt8.ofNat (n / 256)]

def rtwPutSnap (hProto : Nat) : List UInt8 :=
  [0xaa, 0xaa, 0x03] ++ (if hProto = 0x8137 ∨ hProto = 0x80f3 then p8021hOui else rfc1042Oui)
    ++ be16Bytes hProto

/-- the DS bits and the three addresses -/
def hdrAddrs (ad : TxAdapter) (att : PktAttrib) : Option (UInt8 × List UInt8) :=
  match ad.mode with
  | .station => some (0x01, ad.bssid ++ att.ta ++ att.dst)
  | .ap => some (0x02, att.dst ++ ad.bssid ++ att.src)
  | .adhoc | .adhocMaster => some (0x00, att.dst ++ att.ta ++ ad.bssid)
  | .other => none

def frameControl (att : PktAttrib) (ds : UInt8) : List UInt8 :=
  [if att.qosData then 0x88 else 0x08,
    ds ||| (if att.mdata then 0x20 else 0) ||| (if att.encrypt ≠ .noPrivacy then 0x40 else 0)]

/-- `SetPriority`, `SetEOSP`; the ack policy is 0 -/
def qosControl (att : PktAttrib) : List UInt8 :=
  [UInt8.ofNat (att.priority % 16 + if att.eosp then 16 else 0), 0]

/-- the sequence number is counted and put into the header; the fragment number stays 0 -/
def wlanhdr (ad : TxAdapter) (att : PktAttrib) (ds : UInt8) (addrs : List UInt8) (seqnum : Nat) :
    List UInt8 :=
  frameControl att ds ++ [0, 0] ++ addrs ++ le16Bytes (seqnum * 16)
    ++ if qosOption ad att then qosControl att else []

def rtwMakeWlanhdr (ad : TxAdapter) (sta : TxSta) (att : PktAttrib) :
    Option (List UInt8 × TxSta) :=
  (hdrAddrs ad att).bind fun (ds, addrs) =>
    if !sta.asoc then none
    else
      let seqnum := (sta.txseqTid att.priority + 1) % 4096
      some (wlanhdr ad att ds addrs seqnum,
        { sta with txseqTid := Function.update sta.txseqTid att.priority seqnum })

/-! ## fragments -/

def setMFrag (m : Nat → UInt8) (a : Nat) : Nat → UInt8 := write m (a + 1) [m (a + 1) ||| 0x04]

def clearMFrag (m : Nat → UInt8) (a : Nat) : Nat → UInt8 := write m (a + 1) [m (a + 1) &&& 0xfb]

/-- the room for the ICV, when software encrypts -/
def swIcv (att : PktAttrib) : Nat := if att.bswenc then att.icvLen else 0

/-- the payload a fragment takes, behind `llc` bytes of LLC header -/
def mpduLen (ad : TxAdapter) (att : PktAttrib) (llc : Nat) : Int :=
  (ad.fragLen : Int) - 4 - att.hdrlen - att.ivLen - llc - swIcv att

/-- `_rtw_pktfile_read`; a negative length is a large `uint` -/
def pktfileRead (pkt : List UInt8) (n : Int) : List UInt8 :=
  if n < 0 then pkt else pkt.take n.toNat

/-- one turn of the loop up to the test for the end: memory, length of the piece, end of the
fragment -/
def putFragment (ad : TxAdapter) (att : PktAttrib) (inx memStart : Nat) (m : Nat → UInt8)
    (pkt : List UInt8) : (Nat → UInt8) × List UInt8 × Nat :=
  let llc := if inx = 0 then rtwPutSnap att.etherType else []
  let chunk := if isMcast att.ra then pkt.take att.pktlen
    else pktfileRead pkt (mpduLen ad att llc.length)
  let m := write (setMFrag m memStart) (memStart + att.hdrlen)
    (att.iv ++ llc ++ chunk ++ List.replicate (swIcv att) 0)
  (m, chunk, memStart + att.hdrlen + att.ivLen + llc.length + chunk.length + swIcv att)

/-- `llc_sz`; `SNAP_SIZE + sizeof(u16)` in the first fragment -/
def llcSz (inx : Nat) : Nat := if inx = 0 then 8 else 0

structure Coalesced where
  mem : Nat → UInt8
  nrFrags : Nat
  lastTxcmdsz : Nat

/-- the `while` loop; `start` is the first header, `off` the room in front of each.  A turn that
does not end takes at least one byte when the threshold leaves room for one. -/
def coalesceLoop (ad : TxAdapter) (att : PktAttrib) (start off : Nat) :
    Nat → Nat → Nat → (Nat → UInt8) → List UInt8 → Coalesced
  | 0, _, _, m, _ => ⟨m, 0, 0⟩
  | n + 1, inx, memStart, m, pkt =>
    let (m, chunk, pframe) := putFragment ad att inx memStart m pkt
    let rest := pkt.drop chunk.length
    if isMcast att.ra || rest.isEmpty then
      let nr := (inx + 1) % 256
      ⟨clearMFrag m memStart, nr,
        att.hdrlen + att.ivLen + (if nr = 1 then llcSz inx else 0) + swIcv att + chunk.length⟩
    else
      let next := rnd4 pframe + off
      coalesceLoop ad att start off n (inx + 1) next (write m next (read m start att.hdrlen)) rest

/-! ## MIC -/

/-- the addresses the MIC covers, from the header -/
def micAddrs (h : List UInt8) : List UInt8 :=
  if h.getD 1 0 &&& 1 ≠ 0 then
    (h.drop 16).take 6 ++ if h.getD 1 0 &&& 2 ≠ 0 then (h.drop 24).take 6 else (h.drop 10).take 6
  else
    (h.drop 4).take 6 ++ if h.getD 1 0 &&& 2 ≠ 0 then (h.drop 16).take 6 else (h.drop 10).take 6

def micPriority (att : PktAttrib) : List UInt8 :=
  [if att.qosEn then UInt8.ofNat att.priority else 0, 0, 0, 0]

/-- where the MIC goes, and the bytes it is made from -/
def addmicLoop (ad : TxAdapter) (att : PktAttrib) (last : Nat) (m : Nat → UInt8) :
    Nat → Nat → Nat × List UInt8
  | 0, payload => (payload, [])
  | 1, payload =>
    let payload := rnd4 payload + att.hdrlen + att.ivLen
    let length := last - att.hdrlen - att.ivLen - swIcv att
    (payload + length, read m payload length)
  | n + 2, payload =>
    let payload := rnd4 payload + att.hdrlen + att.ivLen
    let length := ad.fragLen - att.hdrlen - att.ivLen - swIcv att
    let (p, msg) := addmicLoop ad att last m (n + 1) (payload + length + att.icvLen)
    (p, read m payload length ++ msg)

def xmitframeAddmic (cr : TxCrypto) (ad : TxAdapter) (sta : TxSta) (att : PktAttrib) (start : Nat)
    (c : Coalesced) : Option Coalesced :=
  if att.encrypt ≠ .tkip then some c
  else if !sta.micKeySet then none
  else
    let (p, msg) := addmicLoop ad att c.lastTxcmdsz c.mem c.nrFrags start
    let mic := cr.mic (micAddrs (read c.mem start 30) ++ micPriority att ++ msg)
    some { c with mem := write c.mem p mic, lastTxcmdsz := c.lastTxcmdsz + 8 }

/-! ## software encryption -/

/-- the ciphers of the `switch` in `xmitframe_swencrypt` -/
def swCipher : SecurityType → Bool
  | .wep40 | .wep104 | .tkip | .aes | .ccmp256 | .gcmp | .gcmp256 => true
  | .noPrivacy | .tkipWtmic | .sms4 => false

def encryptAt (cr : TxCrypto) (att : PktAttrib) (m : Nat → UInt8) (pframe length : Nat) :
    Nat → UInt8 :=
  let payload := pframe + att.hdrlen + att.ivLen
  write m payload
    (cr.enc att.encrypt (read m pframe (att.hdrlen + att.ivLen)) (read m payload length))

/-- the loop that each of the ciphers has -/
def swencryptLoop (cr : TxCrypto) (ad : TxAdapter) (att : PktAttrib) (last : Nat) :
    Nat → Nat → (Nat → UInt8) → (Nat → UInt8)
  | 0, _, m => m
  | 1, pframe, m => encryptAt cr att m pframe (last - att.hdrlen - att.ivLen - att.icvLen)
  | n + 2, pframe, m =>
    swencryptLoop cr ad att last (n + 1) (rnd4 (pframe + ad.fragLen))
      (encryptAt cr att m pframe (ad.fragLen - att.hdrlen - att.ivLen - att.icvLen))

def xmitframeSwencrypt (cr : TxCrypto) (ad : TxAdapter) (att : PktAttrib) (start : Nat)
    (c : Coalesced) : Coalesced :=
  if att.bswenc && swCipher att.encrypt then
    { c with mem := swencryptLoop cr ad att c.lastTxcmdsz c.nrFrags start c.mem }
  else c

/-! ## `rtw_xmitframe_coalesce` -/

def hwHdrOffset (pktOffset : Nat) : Nat := txdescSize + pktOffset * packetOffsetSz

/-- `WLANHDR_OFFSET` -/
def wlanhdrOffset : Nat := 64

/-- the header in a cleared area -/
def putWlanhdr (m : Nat → UInt8) (start : Nat) (hdr : List UInt8) : Nat → UInt8 :=
  write (write m start (List.replicate wlanhdrOffset 0)) start hdr

def rtwXmitframeCoalesce (cr : TxCrypto) (ad : TxAdapter) (sta : TxSta) (att : PktAttrib)
    (pkt : List UInt8) (bufAddr pktOffset : Nat) (m : Nat → UInt8) :
    Option (Coalesced × TxSta) :=
  (rtwMakeWlanhdr ad sta att).bind fun (hdr, sta) =>
    let off := hwHdrOffset pktOffset
    let start := bufAddr + off
    let c := coalesceLoop ad att start off (pkt.length + 1) 0 start (putWlanhdr m start hdr) pkt
    (xmitframeAddmic cr ad sta att start c).map fun c =>
      (xmitframeSwencrypt cr ad att start c, sta)

/-! ## the header that was made -/

theorem length_rtwPutSnap (hProto : Nat) : (rtwPutSnap hProto).length = 8 := by
  unfold rtwPutSnap
  split <;> rfl

/-- what `rtw_make_wlanhdr` leaves, with the facts its readers use -/
structure HdrOk (att : PktAttrib) (hdr : List UInt8) : Prop where
  length_eq : hdr.length = att.hdrlen
  long : 24 ≤ hdr.length
  /-- the More Fragments bit is clear -/
  mfrag : (hdr.getD 1 0 ||| 0x04) &&& 0xfb = hdr.getD 1 0
  /-- the fragment number is 0 -/
  fragnum : (hdr.getD 22 0).toNat % 16 = 0
  /-- not from one DS to another -/
  three : ¬ (hdr.getD 1 0 &&& 1 ≠ 0 ∧ hdr.getD 1 0 &&& 2 ≠ 0)

theorem hdrAddrs_some {ad : TxAdapter} {att : PktAttrib} {ds : UInt8} {addrs : List UInt8}
    (hok : att.Ok ad) (h : hdrAddrs ad att = some (ds, addrs)) :
    addrs.length = 18 ∧ (ds = 0 ∨ ds = 1 ∨ ds = 2) := by
  obtain ⟨hd, hs, ht⟩ := hok.addr_length
  have hb := ad.bssid_length
  unfold hdrAddrs at h
  split at h
  · cases h
    simp [hd, ht, hb]
  · cases h
    simp [hd, hs, hb]
  · cases h
    simp [hd, ht, hb]
  · cases h
    simp [hd, ht, hb]
  · cases h

theorem seqctl_fragnum (seqnum : Nat) : (UInt8.ofNat (seqnum * 16)).toNat % 16 = 0 := by
  rw [UInt8.toNat_ofNat']
  omega

theorem frameControl_bits (att : PktAttrib) {ds : UInt8} (hds : ds = 0 ∨ ds = 1 ∨ ds = 2) :
    ((frameControl att ds).getD 1 0 ||| 0x04) &&& 0xfb = (frameControl att ds).getD 1 0
      ∧ ¬ ((frameControl att ds).getD 1 0 &&& 1 ≠ 0 ∧ (frameControl att ds).getD 1 0 &&& 2 ≠ 0) := by
  rw [show (frameControl att ds).getD 1 0 = ds ||| (if att.mdata then 0x20 else 0)
    ||| (if att.encrypt ≠ .noPrivacy then 0x40 else 0) from rfl]
  split <;> split <;> rcases hds with rfl | rfl | rfl <;> decide

theorem wlanhdr_ok {ad : TxAdapter} {att : PktAttrib} {ds : UInt8} {addrs : List UInt8}
    (hok : att.Ok ad) (h : hdrAddrs ad att = some (ds, addrs)) (seqnum : Nat) :
    HdrOk att (wlanhdr ad att ds addrs seqnum) := by
  obtain ⟨hlen, hds⟩ := hdrAddrs_some hok h
  have hbits := frameControl_bits att hds
  have h1 : (wlanhdr ad att ds addrs seqnum).getD 1 0 = (frameControl att ds).getD 1 0 := rfl
  have h22 : (wlanhdr ad att ds addrs seqnum).getD 22 0 = UInt8.ofNat (seqnum * 16) := by
    unfold wlanhdr
    rw [List.getD_eq_getElem?_getD, List.append_assoc _ (le16Bytes _),
      List.getElem?_append_right (by simp [frameControl, hlen])]
    simp [frameControl, hlen, le16Bytes]
  have hl : (wlanhdr ad att ds addrs seqnum).length = att.hdrlen := by
    rw [hok.hdrlen_eq, hok.qosData_eq]
    unfold wlanhdr
    cases qosOption ad att <;> simp [frameControl, hlen, le16Bytes, qosControl]
  refine ⟨hl, ?_, ?_, ?_, ?_⟩
  · rw [hl, hok.hdrlen_eq]
    split <;> omega
  · rw [h1]
    exact hbits.1
  · rw [h22]
    exact seqctl_fragnum seqnum
  · rw [h1]
    exact hbits.2

theorem rtwMakeWlanhdr_some {ad : TxAdapter} {sta sta' : TxSta} {att : PktAttrib}
    {hdr : List UInt8} (hok : att.Ok ad) (h : rtwMakeWlanhdr ad sta att = some (hdr, sta')) :
    HdrOk att hdr ∧ sta'.micKeySet = sta.micKeySet := by
  obtain ⟨⟨ds, addrs⟩, ha, h⟩ := Option.bind_eq_some_iff.mp h
  dsimp only at h
  split at h
  · cases h
  · cases h
    exact ⟨wlanhdr_ok hok ha _, rfl⟩

/-- a frame is built unless the role or the station forbids it, or TKIP has no MIC key -/
theorem rtwXmitframeCoalesce_isSome_iff (cr : TxCrypto) (ad : TxAdapter) (sta : TxSta) (att : PktAttrib)
    (pkt : List UInt8) (bufAddr pktOffset : Nat) (m : Nat → UInt8) :
    (rtwXmitframeCoalesce cr ad sta att pkt bufAddr pktOffset m).isSome
      ↔ (hdrAddrs ad att).isSome ∧ sta.asoc = true ∧ (att.encrypt = .tkip → sta.micKeySet = true) := by
  unfold rtwXmitframeCoalesce rtwMakeWlanhdr
  cases hdrAddrs ad att with
  | none => exact iff_of_false Bool.false_ne_true fun h => Bool.false_ne_true h.1
  | some p =>
    obtain ⟨ds, addrs⟩ := p
    cases ha : sta.asoc with
    | false =>
      rw [Option.bind_some]
      exact iff_of_false Bool.false_ne_true fun h => Bool.false_ne_true h.2.1
    | true =>
      rw [Option.bind_some]
      dsimp only
      rw [Bool.not_true, if_neg Bool.false_ne_true, Option.bind_some]
      dsimp only
      rw [Option.isSome_map]
      unfold xmitframeAddmic
      by_cases ht : att.encrypt = .tkip
      · rw [if_neg (fun h => h ht)]
        cases hk : sta.micKeySet with
        | false => exact iff_of_false Bool.false_ne_true fun h => Bool.false_ne_true (h.2.2 ht)
        | true => exact iff_of_true rfl ⟨rfl, rfl, fun _ => rfl⟩
      · rw [if_pos ht]
        exact iff_of_true rfl ⟨rfl, rfl, fun e => absurd e ht⟩

/-! ## one fragment -/

/-- the frame is sent in one piece -/
def Unfragmented (ad : TxAdapter) (att : PktAttrib) (n : Nat) : Prop :=
  att.hdrlen + att.ivLen + 8 + n + swIcv att + 4 ≤ ad.fragLen

instance (ad : TxAdapter) (att : PktAttrib) (n : Nat) : Decidable (Unfragmented ad att n) :=
  inferInstanceAs (Decidable (_ ≤ _))

theorem putFragment_all {ad : TxAdapter} {att : PktAttrib} {s : Nat} {m : Nat → UInt8}
    {pkt : List UInt8} (hpl : att.pktlen = pkt.length)
    (hfit : isMcast att.ra = true ∨ Unfragmented ad att pkt.length) :
    putFragment ad att 0 s m pkt
      = (write (setMFrag m s) (s + att.hdrlen)
          (att.iv ++ rtwPutSnap att.etherType ++ pkt ++ List.replicate (swIcv att) 0), pkt,
        s + att.hdrlen + att.ivLen + 8 + pkt.length + swIcv att) := by
  have hchunk : (if isMcast att.ra then pkt.take att.pktlen
      else pktfileRead pkt (mpduLen ad att 8)) = pkt := by
    by_cases hm : isMcast att.ra = true
    · rw [if_pos hm, hpl, List.take_length]
    · have hu := hfit.resolve_left hm
      unfold Unfragmented at hu
      rw [if_neg hm, pktfileRead, mpduLen, if_neg (by omega), List.take_of_length_le (by omega)]
  unfold putFragment
  simp only [if_true, length_rtwPutSnap, hchunk]

/-- the More Fragments bit is set and cleared again -/
theorem clear_write_set {m : Nat → UInt8} {s h : Nat} {bs : List UInt8} (hh : 2 ≤ h)
    (hbit : (m (s + 1) ||| 0x04) &&& 0xfb = m (s + 1)) :
    clearMFrag (write (setMFrag m s) (s + h) bs) s = write m (s + h) bs := by
  have hset : setMFrag m s (s + 1) = m (s + 1) ||| 0x04 := write_one_self _
  funext i
  by_cases hi : i = s + 1
  · subst hi
    have hlt : s + 1 < s + h := by omega
    unfold clearMFrag
    rw [write_one_self, write_of_lt hlt, hset, write_of_lt hlt, hbit]
  · unfold clearMFrag
    rw [write_one_of_ne _ hi]
    unfold write
    rw [show setMFrag m s i = m i from write_one_of_ne _ hi]

theorem coalesceLoop_single {ad : TxAdapter} {att : PktAttrib} {s off n : Nat} {m : Nat → UInt8}
    {pkt : List UInt8} (hpl : att.pktlen = pkt.length)
    (hfit : isMcast att.ra = true ∨ Unfragmented ad att pkt.length) (hh : 2 ≤ att.hdrlen)
    (hbit : (m (s + 1) ||| 0x04) &&& 0xfb = m (s + 1)) :
    coalesceLoop ad att s off (n + 1) 0 s m pkt
      = ⟨write m (s + att.hdrlen)
          (att.iv ++ rtwPutSnap att.etherType ++ pkt ++ List.replicate (swIcv att) 0), 1,
        att.hdrlen + att.ivLen + 8 + swIcv att + pkt.length⟩ := by
  rw [coalesceLoop, putFragment_all hpl hfit]
  simp only [List.drop_length, List.isEmpty_nil, Bool.or_true, if_true, clear_write_set hh hbit]
  rfl

theorem putWlanhdr_byte {hdr : List UInt8} (m : Nat → UInt8) (s : Nat) {i : Nat} (hi : i < hdr.length) :
    putWlanhdr m s hdr (s + i) = hdr.getD i 0 := by
  unfold putWlanhdr
  rw [write_add hi, List.getD_eq_getElem?_getD, List.getElem?_eq_getElem hi, Option.getD_some]

/-- the text of the MSDU: LLC header, payload, and the MIC of TKIP -/
def msduText (cr : TxCrypto) (att : PktAttrib) (hdr pkt : List UInt8) : List UInt8 :=
  rtwPutSnap att.etherType ++ pkt ++
    if att.encrypt = .tkip then
      cr.mic (micAddrs hdr ++ micPriority att ++ (rtwPutSnap att.etherType ++ pkt))
    else []

/-- the encrypted text as software leaves it, or the text for the hardware -/
def sentText (cr : TxCrypto) (att : PktAttrib) (hdr text : List UInt8) : List UInt8 :=
  if att.bswenc && swCipher att.encrypt then cr.enc att.encrypt (hdr ++ att.iv) text else text

theorem length_msduText (cr : TxCrypto) (att : PktAttrib) (hdr pkt : List UInt8) :
    (msduText cr att hdr pkt).length
      = 8 + pkt.length + if att.encrypt = .tkip then 8 else 0 := by
  unfold msduText
  rw [List.length_append, List.length_append, length_rtwPutSnap]
  split
  · rw [cr.mic_length]
  · rfl

theorem PktAttrib.Ok.swIcv_eq {ad : TxAdapter} {att : PktAttrib} (hok : att.Ok ad) :
    swIcv att = if att.bswenc && swCipher att.encrypt then (ivIcvLen att.encrypt).2 else 0 := by
  have h : att.icvLen = (ivIcvLen att.encrypt).2 := congrArg Prod.snd hok.lens
  unfold swIcv
  rw [h]
  cases att.bswenc <;> cases att.encrypt <;> rfl

theorem length_sentText {ad : TxAdapter} {att : PktAttrib} (hok : att.Ok ad) (cr : TxCrypto)
    (hdr text : List UInt8) :
    (sentText cr att hdr text).length = text.length + swIcv att := by
  rw [hok.swIcv_eq]
  unfold sentText
  split
  · exact cr.enc_length ..
  · rfl

/-- header, IV and text at `s`, and nothing changed in front of them -/
structure Laid (m m' : Nat → UInt8) (s : Nat) (hdr iv text : List UInt8) : Prop where
  below : ∀ i, i < s → m' i = m i
  hdr_eq : read m' s hdr.length = hdr
  iv_eq : read m' (s + hdr.length) iv.length = iv
  text_eq : read m' (s + hdr.length + iv.length) text.length = text

theorem Laid.read_all {m m' : Nat → UInt8} {s : Nat} {hdr iv text : List UInt8}
    (h : Laid m m' s hdr iv text) :
    read m' s (hdr.length + iv.length + text.length) = hdr ++ iv ++ text := by
  rw [read_add, read_add, h.hdr_eq, h.iv_eq, ← Nat.add_assoc, h.text_eq]

/-- a write behind header and IV -/
theorem Laid.write {m m' : Nat → UInt8} {s a : Nat} {hdr iv text bs text' : List UInt8}
    (h : Laid m m' s hdr iv text) (ha : s + hdr.length + iv.length ≤ a)
    (ht : read (Mem.write m' a bs) (s + hdr.length + iv.length) text'.length = text') :
    Laid m (Mem.write m' a bs) s hdr iv text' where
  below i hi := (write_of_lt (by omega)).trans (h.below i hi)
  hdr_eq := (read_write_of_disjoint (Or.inl (by omega))).trans h.hdr_eq
  iv_eq := (read_write_of_disjoint (Or.inl (by omega))).trans h.iv_eq
  text_eq := ht

theorem Laid.append {m m' : Nat → UInt8} {s : Nat} {hdr iv text : List UInt8}
    (h : Laid m m' s hdr iv text) (bs : List UInt8) :
    Laid m (Mem.write m' (s + hdr.length + iv.length + text.length) bs) s hdr iv (text ++ bs) := by
  apply h.write (Nat.le_add_right _ _)
  rw [List.length_append, read_add, read_write_of_disjoint (Or.inl (Nat.le_refl _)),
    read_write_self rfl, h.text_eq]

theorem putWlanhdr_below {m : Nat → UInt8} {s i : Nat} {hdr : List UInt8} (hi : i < s) :
    putWlanhdr m s hdr i = m i :=
  (write_of_lt hi).trans (write_of_lt hi)

/-- the loop, when it makes one turn -/
theorem laid_loop (m : Nat → UInt8) (s : Nat) (hdr iv text rest : List UInt8) :
    Laid m (Mem.write (putWlanhdr m s hdr) (s + hdr.length) (iv ++ text ++ rest)) s hdr iv text where
  below i hi := (write_of_lt (by omega)).trans (putWlanhdr_below hi)
  hdr_eq := by
    rw [read_write_of_disjoint (Or.inl (Nat.le_refl _))]
    exact read_write_self rfl
  iv_eq := by
    show read _ (s + hdr.length + 0) _ = _
    rw [read_write_inside (by simp), List.drop_zero, List.append_assoc, List.take_left' rfl]
  text_eq := by
    rw [read_write_inside (by simp), List.append_assoc, List.drop_left' rfl, List.take_left' rfl]

theorem micAddrs_append {att : PktAttrib} {hdr : List UInt8} (h : HdrOk att hdr) (xs : List UInt8) :
    micAddrs (hdr ++ xs) = micAddrs hdr := by
  have hl := h.long
  have h1 : (hdr ++ xs).getD 1 0 = hdr.getD 1 0 := by
    rw [List.getD_eq_getElem?_getD, List.getD_eq_getElem?_getD, List.getElem?_append_left (by omega)]
  have hsub : ∀ k, k ≤ 16 → ((hdr ++ xs).drop k).take 6 = (hdr.drop k).take 6 := by
    intro k hk
    rw [List.drop_append_of_le_length (by omega), List.take_append_of_le_length]
    rw [List.length_drop]
    omega
  have h3 := h.three
  unfold micAddrs
  rw [h1, hsub 16 (by omega), hsub 10 (by omega), hsub 4 (by omega)]
  by_cases ht : hdr.getD 1 0 &&& 1 ≠ 0
  · have hf : ¬ (hdr.getD 1 0 &&& 2 ≠ 0) := fun hf => h3 ⟨ht, hf⟩
    rw [if_pos ht, if_pos ht, if_neg hf, if_neg hf]
  · rw [if_neg ht, if_neg ht]

theorem rnd4_of_dvd {n : Nat} (h : 4 ∣ n) : rnd4 n = n := by
  unfold rnd4
  omega

/-- the MIC goes behind the payload -/
theorem laid_addmic {cr : TxCrypto} {ad : TxAdapter} {sta : TxSta} {att : PktAttrib} {s : Nat}
    {hdr pkt : List UInt8} {m : Nat → UInt8} {c c' : Coalesced} (hok : att.Ok ad)
    (hhdr : HdrOk att hdr) (hs : 4 ∣ s) (hnr : c.nrFrags = 1)
    (hlast : c.lastTxcmdsz = att.hdrlen + att.ivLen + 8 + swIcv att + pkt.length)
    (hl : Laid m c.mem s hdr att.iv (rtwPutSnap att.etherType ++ pkt))
    (h : xmitframeAddmic cr ad sta att s c = some c') :
    Laid m c'.mem s hdr att.iv (msduText cr att hdr pkt) ∧ c'.nrFrags = 1
      ∧ c'.lastTxcmdsz
        = att.hdrlen + att.ivLen + (msduText cr att hdr pkt).length + swIcv att := by
  have hlen := length_msduText cr att hdr pkt
  unfold xmitframeAddmic at h
  by_cases ht : att.encrypt = .tkip
  · rw [if_neg (by simpa using ht)] at h
    split at h
    · cases h
    · rw [hnr, addmicLoop, rnd4_of_dvd hs] at h
      cases h
      have hh : hdr.length = att.hdrlen := hhdr.length_eq
      have hi : att.iv.length = att.ivLen := hok.iv_length
      have htext : (rtwPutSnap att.etherType ++ pkt).length = 8 + pkt.length := by
        rw [List.length_append, length_rtwPutSnap]
      have hn : c.lastTxcmdsz - att.hdrlen - att.ivLen - swIcv att
          = (rtwPutSnap att.etherType ++ pkt).length := by omega
      have hmsg : read c.mem (s + att.hdrlen + att.ivLen)
          (c.lastTxcmdsz - att.hdrlen - att.ivLen - swIcv att)
          = rtwPutSnap att.etherType ++ pkt := by
        rw [hn, ← hh, ← hi]
        exact hl.text_eq
      have hmic : micAddrs (read c.mem s 30) = micAddrs hdr := by
        have h30 : 30 = hdr.length + (30 - hdr.length) := by
          have := hok.hdrlen_eq
          split at this <;> omega
        rw [h30, read_add, hl.hdr_eq, micAddrs_append hhdr]
      rw [if_pos ht] at hlen
      refine ⟨?_, rfl, ?_⟩
      · dsimp only
        rw [hmsg, hmic, hn, msduText, if_pos ht, ← hh, ← hi]
        exact hl.append _
      · show c.lastTxcmdsz + 8 = _
        rw [hlen]
        omega
  · rw [if_pos ht] at h
    cases h
    rw [msduText, if_neg ht, List.append_nil, List.length_append, length_rtwPutSnap]
    exact ⟨hl, hnr, by omega⟩

theorem laid_swencrypt {cr : TxCrypto} {ad : TxAdapter} {att : PktAttrib} {s : Nat}
    {hdr text : List UInt8} {m : Nat → UInt8} {c : Coalesced} (hok : att.Ok ad)
    (hhdr : HdrOk att hdr) (hnr : c.nrFrags = 1)
    (hlast : c.lastTxcmdsz = att.hdrlen + att.ivLen + text.length + swIcv att)
    (hl : Laid m c.mem s hdr att.iv text) :
    Laid m (xmitframeSwencrypt cr ad att s c).mem s hdr att.iv (sentText cr att hdr text)
      ∧ (xmitframeSwencrypt cr ad att s c).nrFrags = 1
      ∧ (xmitframeSwencrypt cr ad att s c).lastTxcmdsz
        = att.hdrlen + att.ivLen + (sentText cr att hdr text).length := by
  have hh : hdr.length = att.hdrlen := hhdr.length_eq
  have hi : att.iv.length = att.ivLen := hok.iv_length
  rw [length_sentText hok, ← Nat.add_assoc]
  unfold xmitframeSwencrypt sentText
  by_cases hb : (att.bswenc && swCipher att.encrypt) = true
  · rw [if_pos hb, if_pos hb]
    have hicv : swIcv att = att.icvLen := by
      rw [Bool.and_eq_true] at hb
      exact if_pos hb.1
    have hn : c.lastTxcmdsz - att.hdrlen - att.ivLen - att.icvLen = text.length := by omega
    have hhi : read c.mem s (att.hdrlen + att.ivLen) = hdr ++ att.iv := by
      rw [← hh, ← hi, read_add, hl.hdr_eq, hl.iv_eq]
    have htx : read c.mem (s + att.hdrlen + att.ivLen) text.length = text := by
      rw [← hh, ← hi]
      exact hl.text_eq
    refine ⟨?_, hnr, hlast⟩
    show Laid m (swencryptLoop cr ad att c.lastTxcmdsz c.nrFrags s c.mem) _ _ _ _
    rw [hnr, swencryptLoop, encryptAt, hn, hhi, htx]
    apply hl.write (by omega)
    rw [hh, hi]
    exact read_write_self rfl
  · rw [if_neg hb, if_neg hb]
    exact ⟨hl, hnr, hlast⟩

/-- **A frame in one piece**: header, IV and text lie one behind the other, and the size is theirs. -/
theorem rtwXmitframeCoalesce_single {cr : TxCrypto} {ad : TxAdapter} {sta sta' : TxSta}
    {att : PktAttrib} {pkt : List UInt8} {bufAddr pktOffset : Nat} {m : Nat → UInt8} {c : Coalesced}
    (hok : att.Ok ad) (hpl : att.pktlen = pkt.length) (hs : 4 ∣ bufAddr)
    (hfit : isMcast att.ra = true ∨ Unfragmented ad att pkt.length)
    (h : rtwXmitframeCoalesce cr ad sta att pkt bufAddr pktOffset m = some (c, sta')) :
    ∃ hdr, rtwMakeWlanhdr ad sta att = some (hdr, sta') ∧ HdrOk att hdr
      ∧ Laid m c.mem (bufAddr + hwHdrOffset pktOffset) hdr att.iv
        (sentText cr att hdr (msduText cr att hdr pkt))
      ∧ c.nrFrags = 1
      ∧ c.lastTxcmdsz
        = att.hdrlen + att.ivLen + (sentText cr att hdr (msduText cr att hdr pkt)).length := by
  obtain ⟨⟨hdr, sta₁⟩, hmk, h⟩ := Option.bind_eq_some_iff.mp h
  obtain ⟨c₁, hmic, h⟩ := Option.map_eq_some_iff.mp h
  cases h
  have hhdr := (rtwMakeWlanhdr_some hok hmk).1
  have hlong := hhdr.long
  have hh : hdr.length = att.hdrlen := hhdr.length_eq
  have hs' : 4 ∣ bufAddr + hwHdrOffset pktOffset := by
    unfold hwHdrOffset txdescSize packetOffsetSz
    omega
  have hbyte : putWlanhdr m (bufAddr + hwHdrOffset pktOffset) hdr (bufAddr + hwHdrOffset pktOffset + 1)
      = hdr.getD 1 0 := putWlanhdr_byte m _ (by omega)
  rw [coalesceLoop_single hpl hfit (by omega) (by rw [hbyte]; exact hhdr.mfrag)] at hmic
  have hl := laid_loop m (bufAddr + hwHdrOffset pktOffset) hdr att.iv
    (rtwPutSnap att.etherType ++ pkt) (List.replicate (swIcv att) 0)
  rw [← List.append_assoc att.iv, hh] at hl
  obtain ⟨hl₁, hnr₁, hlast₁⟩ := laid_addmic (c := ⟨_, 1, _⟩) hok hhdr hs' rfl rfl hl hmic
  exact ⟨hdr, hmk, hhdr, laid_swencrypt hok hhdr hnr₁ hlast₁ hl₁⟩

end Rtl8192eu
