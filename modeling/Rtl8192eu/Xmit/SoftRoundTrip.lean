import Rtl8192eu.Recv.SwDecrypt
import Rtl8192eu.Xmit.RoundTrip

/-!
# WEP and TKIP by software, there and back

`rtw_wep_encrypt` and `rtw_tkip_encrypt` of `core/rtw_security.c` as the ciphers of
`rtw_xmitframe_coalesce`, and the frame they leave in the receiver's `decryptor` and
`recvframe_chkmic`.

* `TxKeys.crypto`   the two ciphers and the MIC of `xmitframe_addmic`;
* `rxParsed`   the frame with the attributes that the receiver takes from it;
* `SameKeys`   what the receiver finds under the key index of the IV are the sender's keys;
* `soft_roundTrip`   both checks pass, and LLC header and payload lie where they did.
-/

namespace Rtl8192eu

open Mem

/-- the keys of the transmit path -/
structure TxKeys extends WepKeys where
  dot118021XGrpKey : Nat → List UInt8 := fun _ => []
  dot118021XGrptxmickey : Nat → List UInt8 := fun _ => []
  /-- `dot118021x_UncstKey` and `dot11tkiptxmickey` of the attributes -/
  dot118021xUncstKey : List UInt8 := []
  dot11tkiptxmickey : List UInt8 := []

/-! ## encryption -/

def rc4Cipher : SecurityType → Bool
  | .wep40 | .wep104 | .tkip => true
  | _ => false

/-- `prwskey` -/
def TxKeys.prwskey (k : TxKeys) (ad : TxAdapter) (att : PktAttrib) : List UInt8 :=
  if isMcast att.ra then k.dot118021XGrpKey ad.sec.dot118021XGrpKeyid else k.dot118021xUncstKey

/-- the key of `xmitframe_addmic` -/
def TxKeys.mickey (k : TxKeys) (ad : TxAdapter) (att : PktAttrib) : List UInt8 :=
  if isMcast att.ra then k.dot118021XGrptxmickey ad.sec.dot118021XGrpKeyid else k.dot11tkiptxmickey

/-- the key for `arcfour_init` -/
def TxKeys.rc4key (k : TxKeys) (ad : TxAdapter) (att : PktAttrib) (t : SecurityType) (iv : List UInt8) :
    List UInt8 :=
  if t = .tkip then tkipRc4key (k.prwskey ad att) att.ta iv
  else k.wepkey (iv.take 3) ad.sec.dot11PrivacyKeyIndex

/-- `rtw_wep_encrypt`, `rtw_tkip_encrypt` and the MIC; the other ciphers are those of `cr` -/
def TxKeys.crypto (k : TxKeys) (cr : TxCrypto) (ad : TxAdapter) (att : PktAttrib) : TxCrypto where
  mic := secMic (k.mickey ad att)
  enc t h p :=
    if rc4Cipher t then arcfourSeal (arcfourInit (k.rc4key ad att t (h.drop att.hdrlen))) p
    else cr.enc t h p
  dec t h c :=
    if rc4Cipher t then
      (arcfourEncrypt (arcfourInit (k.rc4key ad att t (h.drop att.hdrlen))) c).take (c.length - 4)
    else cr.dec t h c
  mic_length := length_secMic _
  enc_length t h p := by
    by_cases ht : rc4Cipher t = true
    · rw [if_pos ht, length_arcfourSeal]
      cases t <;> first | rfl | cases ht
    · rw [if_neg ht, cr.enc_length]
  dec_length t h c := by
    by_cases ht : rc4Cipher t = true
    · have h4 : (ivIcvLen t).2 = 4 := by cases t <;> first | rfl | cases ht
      rw [if_pos ht, List.length_take, length_arcfourEncrypt, h4]
      exact Nat.min_eq_left (Nat.sub_le _ _)
    · rw [if_neg ht, cr.dec_length]
  dec_enc t h p := by
    by_cases ht : rc4Cipher t = true
    · rw [if_pos ht, if_pos ht, arcfourEncrypt_seal, length_arcfourSeal, Nat.add_sub_cancel, List.take_left]
    · rw [if_neg ht, if_neg ht, cr.dec_enc]

/-! ## the MIC -/

theorem rtwSeccalctkipmic_eq (key header data : List UInt8) (pri : UInt8) :
    rtwSeccalctkipmic key header data pri = secMic key (micAddrs header ++ [pri, 0, 0, 0] ++ data) := by
  unfold rtwSeccalctkipmic secMic micAddrs
  rw [rtwSecmicappend_append, rtwSecmicappend_append]
  split
  · rw [rtwSecmicappend_append]
    split <;> rfl
  · rw [rtwSecmicappend_append]
    split <;> rfl

/-- the addresses of a header that is cut behind them -/
theorem micAddrs_take (hdr : List UInt8) :
    micAddrs (hdr.take (micHdrLen (hdr.getD 1 0))) = micAddrs hdr := by
  have h16 := (micHdrLen_le (hdr.getD 1 0)).1
  have hbyte : (hdr.take (micHdrLen (hdr.getD 1 0))).getD 1 0 = hdr.getD 1 0 := by
    rw [List.getD_eq_getElem?_getD, List.getElem?_take_of_lt (by omega), ← List.getD_eq_getElem?_getD]
  have hsub : ∀ i, i + 6 ≤ micHdrLen (hdr.getD 1 0) →
      ((hdr.take (micHdrLen (hdr.getD 1 0))).drop i).take 6 = (hdr.drop i).take 6 := by
    intro i hi
    rw [List.drop_take, List.take_take, Nat.min_eq_left (by omega)]
  unfold micAddrs
  rw [hbyte]
  unfold micHdrLen at hsub ⊢
  by_cases h1 : hdr.getD 1 0 &&& 1 ≠ 0
  · by_cases h2 : hdr.getD 1 0 &&& 2 ≠ 0
    · simp only [if_pos h1, if_pos h2] at hsub ⊢
      rw [hsub 16 (by omega), hsub 24 (by omega)]
    · simp only [if_pos h1, if_neg h2] at hsub ⊢
      rw [hsub 16 (by omega), hsub 10 (by omega)]
  · by_cases h2 : hdr.getD 1 0 &&& 2 ≠ 0
    · simp only [if_neg h1, if_pos h2] at hsub ⊢
      rw [hsub 4 (by omega), hsub 16 (by omega)]
    · simp only [if_neg h1, if_neg h2] at hsub ⊢
      rw [hsub 4 (by omega), hsub 10 (by omega)]

/-! ## what the receiver parses -/

/-- the attributes of the header, and the cipher of the network; `validate_recv_data_frame` leaves them so
(`validateRecvDataFrame_accepted`) -/
def rxParsed (sec : SecurityPriv) (sta : StaInfo) (dst src bssid : Mac) (f : RecvFrame) : RecvFrame :=
  { parseFc f with attrib := setEncrypt sec sta (dataAttrib (parseFc f) dst src bssid) }

theorem rxParsed_same (sec : SecurityPriv) (sta : StaInfo) (dst src bssid : Mac) (f : RecvFrame) :
    (rxParsed sec sta dst src bssid f).attrib.ta = getAddr2 f
      ∧ (rxParsed sec sta dst src bssid f).attrib.ra = getAddr1 f
      ∧ (rxParsed sec sta dst src bssid f).attrib.bdecrypted = f.attrib.bdecrypted
      ∧ micHdrLen ((rxParsed sec sta dst src bssid f).byte 1)
        ≤ (rxParsed sec sta dst src bssid f).attrib.hdrlen := by
  obtain ⟨e, i, c, he⟩ := setEncrypt_eq sec sta (dataAttrib (parseFc f) dst src bssid)
  unfold rxParsed
  dsimp only
  rw [he]
  refine ⟨dataAttrib_ta .., dataAttrib_ra .., ?_, ?_⟩
  · rw [dataAttrib_eq]
    rfl
  · show micHdrLen (f.byte 1) ≤ (dataAttrib (parseFc f) dst src bssid).hdrlen
    rw [dataAttrib_hdrlen]
    exact micHdrLen_le_dataHdrlen f

theorem rc4Cipher_cases {t : SecurityType} (h : rc4Cipher t = true) :
    (t = .wep40 ∨ t = .wep104) ∨ t = .tkip := by
  cases t with
  | wep40 => exact Or.inl (Or.inl rfl)
  | wep104 => exact Or.inl (Or.inr rfl)
  | tkip => exact Or.inr rfl
  | _ => cases h

/-- the key index in the IV -/
theorem attribIv_keyid {t : SecurityType} {pn keyIdx : Nat} {bmcast : Bool} (ht : rc4Cipher t = true)
    (hb : t = .tkip → bmcast = true) :
    ((attribIv t pn keyIdx bmcast).2.getD 3 0).toNat / 64 % 4 = keyIdx % 4 := by
  have hwep : ∀ n, n < 4 → (UInt8.ofNat (n * 64)).toNat / 64 % 4 = n := by decide
  have htkip : ∀ n, n < 4 → (0x20 ||| UInt8.ofNat (n * 64)).toNat / 64 % 4 = n := by decide
  have hlt : keyIdx % 4 < 4 := Nat.mod_lt _ (by decide)
  cases t with
  | wep40 => exact hwep _ hlt
  | wep104 => exact hwep _ hlt
  | tkip =>
    rw [hb rfl]
    exact htkip _ hlt
  | _ => cases ht

/-- the receiver has the sender's keys: those of the transmitter for itself, and under the key index of
the IV those of a group and of WEP -/
def SameKeys (k : TxKeys) (rk : RxKeys) (ad : TxAdapter) (att : PktAttrib) : Prop :=
  let kid := txKeyIdx ad.sec (isMcast att.ra) % 4
  if att.encrypt = .tkip then
    if isMcast att.ra then
      rk.binstallGrpkey = true
        ∧ rk.dot118021XGrpKey kid = k.dot118021XGrpKey ad.sec.dot118021XGrpKeyid
        ∧ rk.dot118021XGrprxmickey kid = k.dot118021XGrptxmickey ad.sec.dot118021XGrpKeyid
    else
      rk.dot118021xUncstKey att.ta = k.dot118021xUncstKey ∧ rk.dot11tkiprxmickey att.ta = k.dot11tkiptxmickey
  else
    (rk.dot11DefKey kid).take (rk.dot11DefKeylen kid)
      = (k.dot11DefKey ad.sec.dot11PrivacyKeyIndex).take (k.dot11DefKeylen ad.sec.dot11PrivacyKeyIndex)

/-- the same tables on both ends give the same keys, as the IV of a group frame holds the index of the
group key, and that of WEP the index of the default key -/
theorem sameKeys_of_tables {k : TxKeys} {rk : RxKeys} {ad : TxAdapter} {att : PktAttrib}
    (hidx : ad.sec.dot118021XGrpKeyid < 4 ∧ ad.sec.dot11PrivacyKeyIndex < 4)
    (hauth : if att.encrypt = .tkip then ad.sec.dot11AuthAlgrthm = .ieee8021x
      else ad.sec.dot11AuthAlgrthm = .openSystem ∨ ad.sec.dot11AuthAlgrthm = .shared
        ∨ ad.sec.dot11AuthAlgrthm = .auto)
    (hgrp : rk.binstallGrpkey = true ∧ rk.dot118021XGrpKey = k.dot118021XGrpKey
      ∧ rk.dot118021XGrprxmickey = k.dot118021XGrptxmickey)
    (huc : rk.dot118021xUncstKey att.ta = k.dot118021xUncstKey
      ∧ rk.dot11tkiprxmickey att.ta = k.dot11tkiptxmickey)
    (hwep : rk.toWepKeys = k.toWepKeys) : SameKeys k rk ad att := by
  unfold SameKeys txKeyIdx
  dsimp only
  by_cases ht : att.encrypt = .tkip
  · rw [if_pos ht] at hauth ⊢
    rw [hauth]
    by_cases hm : isMcast att.ra = true
    · rw [if_pos hm]
      simp only [hm, if_true, Nat.mod_eq_of_lt hidx.1]
      exact ⟨hgrp.1, by rw [hgrp.2.1], by rw [hgrp.2.2]⟩
    · rw [if_neg hm]
      exact huc
  · rw [if_neg ht] at hauth ⊢
    rcases hauth with h | h | h <;> rw [h] <;> simp only [Nat.mod_eq_of_lt hidx.2, hwep]

section

variable {k : TxKeys} {rk : RxKeys} {ad : TxAdapter} {att : PktAttrib} {g : RecvFrame} {hdr text : List UInt8}
  {dst src : Mac}

/-- header, IV and the sealed text, with the attributes parsed -/
structure Sent (k : TxKeys) (ad : TxAdapter) (att : PktAttrib) (g : RecvFrame) (hdr text : List UInt8) :
    Prop where
  data_eq : g.data
    = hdr ++ att.iv ++ arcfourSeal (arcfourInit (k.rc4key ad att att.encrypt att.iv)) text
  length_eq : (hdr ++ att.iv).length = g.payloadOff
  hdr_length : hdr.length = g.attrib.hdrlen
  encrypt_eq : g.attrib.encrypt = att.encrypt
  ta_eq : g.attrib.ta = att.ta
  ra_eq : g.attrib.ra = att.ra
  cipher : rc4Cipher att.encrypt = true
  iv_eq : ∃ pn, att.iv
    = (attribIv att.encrypt pn (txKeyIdx ad.sec (isMcast att.ra)) (isMcast att.ra)).2

theorem Sent.len (h : Sent k ad att g hdr text) : g.len = g.payloadOff + text.length + 4 := by
  rw [RecvFrame.len, h.data_eq, List.length_append, length_arcfourSeal, h.length_eq, Nat.add_assoc]

theorem Sent.iv (h : Sent k ad att g hdr text) : g.bytes g.attrib.hdrlen att.iv.length = att.iv :=
  bytes_of_append h.data_eq h.hdr_length rfl

theorem Sent.arcfour (h : Sent k ad att g hdr text) :
    (g.arcfour (k.rc4key ad att att.encrypt att.iv)).data = hdr ++ att.iv ++ (text ++ icvBytes text) := by
  unfold RecvFrame.arcfour
  dsimp only
  rw [h.data_eq, List.take_left' h.length_eq, List.drop_left' h.length_eq, arcfourEncrypt_seal]

theorem Sent.byte_iv (h : Sent k ad att g hdr text) {i : Nat} (hi : i < att.iv.length) :
    g.byte (g.attrib.hdrlen + i) = att.iv.getD i 0 := by
  have hlt : g.attrib.hdrlen + i < (hdr ++ att.iv).length := by
    rw [List.length_append, h.hdr_length]
    omega
  rw [byte_of_append h.data_eq hlt, ← h.hdr_length, List.getD_eq_getElem?_getD,
    List.getElem?_append_right (Nat.le_add_right _ _), Nat.add_sub_cancel_left, ← List.getD_eq_getElem?_getD]

theorem Sent.iv_length (h : Sent k ad att g hdr text) :
    att.iv.length = if att.encrypt = .tkip then 8 else 4 := by
  obtain ⟨pn, hiv⟩ := h.iv_eq
  have hc := h.cipher
  rw [hiv, attribIv_length]
  cases he : att.encrypt <;> first | rfl | (rw [he] at hc; cases hc)

theorem Sent.protected (h : Sent k ad att g hdr text) : g.attrib.encrypt ≠ .noPrivacy := by
  have hc := h.cipher
  rw [h.encrypt_eq]
  intro he
  rw [he] at hc
  cases hc

/-- the key index is read off the IV -/
theorem Sent.keyIndex (h : Sent k ad att g hdr text) (hb : att.encrypt = .tkip → isMcast att.ra = true) :
    (setKeyIndex g).attrib.keyIndex = txKeyIdx ad.sec (isMcast att.ra) % 4 := by
  have h3 : 3 < att.iv.length := by
    rw [h.iv_length]
    split <;> decide
  have hk : (setKeyIndex g).attrib.keyIndex = (g.byte (g.attrib.hdrlen + 3)).toNat / 64 % 4 := by
    unfold setKeyIndex
    rw [if_neg h.protected]
  obtain ⟨pn, hiv⟩ := h.iv_eq
  rw [hk, h.byte_iv h3, hiv]
  exact attribIv_keyid h.cipher hb

theorem setKeyIndex_bytes (g : RecvFrame) (i n : Nat) : (setKeyIndex g).bytes i n = g.bytes i n := by
  obtain ⟨j, hj⟩ := setKeyIndex_eq g
  rw [hj]
  rfl

/-- what the keys depend on -/
theorem setKeyIndex_addrs (g : RecvFrame) :
    (setKeyIndex g).attrib.ta = g.attrib.ta ∧ (setKeyIndex g).attrib.ra = g.attrib.ra
      ∧ (setKeyIndex g).attrib.hdrlen = g.attrib.hdrlen := by
  obtain ⟨j, hj⟩ := setKeyIndex_eq g
  rw [hj]
  exact ⟨rfl, rfl, rfl⟩

/-- **The receiver mixes the sender's key.** -/
theorem Sent.rc4key (h : Sent k ad att g hdr text) (hkeys : SameKeys k rk ad att)
    (ht : att.encrypt = .tkip) :
    rk.rc4key (setKeyIndex g) = k.rc4key ad att att.encrypt att.iv := by
  obtain ⟨hta', hra', hhdr'⟩ := setKeyIndex_addrs g
  have h8 : att.iv.length = 8 := h.iv_length.trans (if_pos ht)
  have hbytes : (setKeyIndex g).bytes (setKeyIndex g).attrib.hdrlen 8 = att.iv := by
    rw [hhdr', setKeyIndex_bytes, ← h8]
    exact h.iv
  have hprw : rk.prwskey (setKeyIndex g) = k.prwskey ad att := by
    unfold SameKeys at hkeys
    dsimp only at hkeys
    rw [if_pos ht] at hkeys
    unfold RxKeys.prwskey TxKeys.prwskey
    rw [hra', h.ra_eq, hta', h.ta_eq]
    by_cases hm : isMcast att.ra = true
    · rw [if_pos hm] at hkeys
      rw [if_pos hm, if_pos hm, h.keyIndex (fun _ => hm)]
      exact hkeys.2.1
    · rw [if_neg hm] at hkeys
      rw [if_neg hm, if_neg hm]
      exact hkeys.1
  unfold RxKeys.rc4key TxKeys.rc4key
  rw [if_pos ht, hprw, hta', h.ta_eq, hbytes]

theorem Sent.wepkey (h : Sent k ad att g hdr text) (hkeys : SameKeys k rk ad att)
    (ht : att.encrypt ≠ .tkip) :
    rk.wepkeyOf (setKeyIndex g) = k.rc4key ad att att.encrypt att.iv := by
  obtain ⟨-, -, hhdr'⟩ := setKeyIndex_addrs g
  have h4 : att.iv.length = 4 := h.iv_length.trans (if_neg ht)
  have hbytes : (setKeyIndex g).bytes (setKeyIndex g).attrib.hdrlen 3 = att.iv.take 3 := by
    have hall := h.iv
    rw [hhdr', setKeyIndex_bytes, ← hall, h4]
    rfl
  unfold SameKeys at hkeys
  dsimp only at hkeys
  rw [if_neg ht] at hkeys
  unfold RxKeys.wepkeyOf TxKeys.rc4key WepKeys.wepkey
  rw [if_neg ht, hbytes, h.keyIndex (fun e => absurd e ht), hkeys]

/-- the MIC key is the sender's, too -/
theorem Sent.mickey (h : Sent k ad att g hdr text) (hkeys : SameKeys k rk ad att)
    (ht : att.encrypt = .tkip) :
    rk.mickey (setKeyIndex g) = k.mickey ad att ∧ rk.noGrpkey g = false := by
  obtain ⟨hta', hra', -⟩ := setKeyIndex_addrs g
  unfold SameKeys at hkeys
  dsimp only at hkeys
  rw [if_pos ht] at hkeys
  unfold RxKeys.mickey TxKeys.mickey RxKeys.noGrpkey
  rw [hra', h.ra_eq, hta', h.ta_eq]
  by_cases hm : isMcast att.ra = true
  · rw [if_pos hm] at hkeys
    rw [if_pos hm, if_pos hm, h.keyIndex (fun _ => hm), hkeys.1, Bool.not_true, Bool.and_false]
    exact ⟨hkeys.2.2, rfl⟩
  · rw [if_neg hm] at hkeys
    rw [if_neg hm, if_neg hm, (Bool.not_eq_true _).mp hm, Bool.false_and]
    exact ⟨hkeys.2, rfl⟩

/-- the frame that decryption leaves -/
structure Decrypted (k : TxKeys) (rk : RxKeys) (ad : TxAdapter) (att : PktAttrib) (a : Adapter)
    (d : RecvFrame) (hdr text : List UInt8) : Prop where
  data_eq : d.data = hdr ++ att.iv ++ (text ++ icvBytes text)
  length_eq : (hdr ++ att.iv).length = d.payloadOff
  hdr_length : micHdrLen (hdr.getD 1 0) ≤ hdr.length
  icvLen_eq : d.attrib.icvLen = 4
  encrypt_eq : d.attrib.encrypt = att.encrypt
  icv_ok : wepIcvOk d = true
  checks : att.encrypt = .tkip → ChecksMic rk a d ∧ rk.mickey d = k.mickey ad att

theorem Sent.decrypted {a : Adapter} (h : Sent k ad att g hdr text) (hkeys : SameKeys k rk ad att)
    (hg : SwFrame a g) :
    Decrypted k rk ad att a ((setKeyIndex g).opened (k.rc4key ad att att.encrypt att.iv)) hdr text := by
  have hlen := h.len
  have hoff : g.payloadOff ≤ g.len := by omega
  have hbyte : g.byte 1 = hdr.getD 1 0 := by
    have h16 := (micHdrLen_le (g.byte 1)).1
    have hhdr := hg.hdr
    have hh := h.hdr_length
    have hd := h.data_eq
    rw [List.append_assoc] at hd
    exact byte_of_append hd (by omega)
  refine ⟨?_, ?_, ?_, ?_, ?_, ?_, ?_⟩
  · rw [setKeyIndex_opened]
    exact h.arcfour
  · exact h.length_eq.trans (opened_lens hg hoff _).2.1.symm
  · rw [← hbyte, h.hdr_length]
    exact hg.hdr
  · rw [setKeyIndex_opened]
    have hi := congrArg Prod.snd hg.lens
    rcases hg.cipher with (he | he) | he <;> rw [he] at hi <;> exact hi
  · rw [setKeyIndex_opened]
    exact h.encrypt_eq
  · rw [setKeyIndex_opened]
    refine (wepIcvOk_arcfour_iff hoff).mpr ⟨text, ?_⟩
    rw [h.data_eq]
    exact List.drop_left' h.length_eq
  · intro ht
    obtain ⟨hmk, hgrp⟩ := h.mickey hkeys ht
    exact ⟨checksMic_opened hg (h.encrypt_eq.trans ht) hgrp _, hmk⟩

/-- **Decryption gives the text back**, with its integrity value. -/
theorem Sent.opens {dec : SwDecrypt} {a : Adapter} (h : Sent k ad att g hdr text)
    (hkeys : SameKeys k rk ad att) (hg : SwFrame a g) :
    decryptorIn dec rk a g = some (some ((setKeyIndex g).opened (k.rc4key ad att att.encrypt att.iv))) := by
  have hlen : g.payloadOff + 4 ≤ g.len := by
    rw [h.len]
    omega
  by_cases ht : att.encrypt = .tkip
  · have hseal : SealedBy (rk.rc4key (setKeyIndex g)) g := by
      refine ⟨text, ?_⟩
      rw [h.rc4key hkeys ht, h.data_eq]
      exact List.drop_left' h.length_eq
    obtain ⟨r, hr, hmem⟩ : ∃ r, decryptorIn dec rk a g = some r ∧ _ :=
      decryptorIn_tkip hg (h.encrypt_eq.trans ht) (h.mickey hkeys ht).2 hlen
    rw [hr, ← h.rc4key hkeys ht, (hmem _).mpr ⟨hseal, rfl⟩]
  · have hw := hg.cipher.resolve_right fun e => ht (h.encrypt_eq.symm.trans e)
    rw [decryptorIn_wep hg hw hlen, h.wepkey hkeys ht]

/-! ## MIC and payload of the decrypted frame -/

variable {cr : TxCrypto} {a : Adapter} {d : RecvFrame} {pkt : List UInt8}

theorem Decrypted.len (h : Decrypted k rk ad att a d hdr text) : d.len = d.payloadOff + text.length + 4 := by
  rw [RecvFrame.len, h.data_eq, List.length_append, h.length_eq, List.length_append, Nat.add_assoc]
  rfl

/-- what lies between the IV and the MIC or the integrity value -/
def RecvFrame.msduBytes (f : RecvFrame) : List UInt8 :=
  f.bytes f.payloadOff
    (f.len - f.payloadOff - f.attrib.icvLen - if f.attrib.encrypt = .tkip then 8 else 0)

theorem Decrypted.msdu (h : Decrypted k rk ad att a d hdr (msduText cr att hdr pkt)) :
    d.msduBytes = rtwPutSnap att.etherType ++ pkt := by
  have hlen := h.len
  have hicv := h.icvLen_eq
  have htext := length_msduText cr att hdr pkt
  have hsplit := h.data_eq
  unfold msduText at hsplit
  rw [List.append_assoc (rtwPutSnap att.etherType ++ pkt), ← List.append_assoc (hdr ++ att.iv)] at hsplit
  refine bytes_of_append hsplit h.length_eq ?_
  rw [List.length_append, length_rtwPutSnap, h.encrypt_eq]
  split at htext
  · rename_i ht
    rw [if_pos ht]
    omega
  · rename_i ht
    rw [if_neg ht]
    omega

/-- the MIC is found behind the message, and covers the same bytes -/
theorem Decrypted.miccode {msg : List UInt8}
    (h : Decrypted k rk ad att a d hdr
      (msg ++ secMic (k.mickey ad att) (micAddrs hdr ++ micPriority att ++ msg)))
    (ht : att.encrypt = .tkip) (hpri : micPriority att = [UInt8.ofNat d.attrib.priority, 0, 0, 0]) :
    rk.miccode d = d.bytes (d.len - d.attrib.icvLen - 8) 8 := by
  have hl := h.length_eq
  have hhdr := h.hdr_length
  have hicv := h.icvLen_eq
  have hd := h.data_eq
  have hlen := h.len
  have h16 := (micHdrLen_le (hdr.getD 1 0)).1
  have hmic := length_secMic (k.mickey ad att) (micAddrs hdr ++ micPriority att ++ msg)
  have hle := Nat.le_of_eq hl
  rw [List.length_append] at hlen hle
  generalize hM : secMic (k.mickey ad att) (micAddrs hdr ++ micPriority att ++ msg) = mic at hd hmic hlen
  generalize icvBytes (msg ++ mic) = icv at hd
  have hbyte : d.byte 1 = hdr.getD 1 0 := byte_of_append (hd.trans (List.append_assoc ..)) (by omega)
  have hheader : d.bytes 0 (micHdrLen (hdr.getD 1 0)) = hdr.take (micHdrLen (hdr.getD 1 0)) := by
    rw [bytes_eq_take (by omega), List.drop_zero, hd, List.append_assoc, List.take_append_of_le_length hhdr]
  have hmsg : d.bytes d.payloadOff (d.len - d.payloadOff - d.attrib.icvLen - 8) = msg := by
    have hsplit : d.data = hdr ++ att.iv ++ msg ++ (mic ++ icv) := hd.trans (by simp only [List.append_assoc])
    exact bytes_of_append hsplit hl (by omega)
  have htail : d.bytes (d.len - d.attrib.icvLen - 8) 8 = mic := by
    have hsplit : d.data = hdr ++ att.iv ++ msg ++ mic ++ icv := hd.trans (by simp only [List.append_assoc])
    exact bytes_of_append hsplit (by rw [List.length_append, hl]; omega) hmic
  unfold RxKeys.miccode
  rw [hbyte, hheader, hmsg, htail, (h.checks ht).2, rtwSeccalctkipmic_eq, micAddrs_take, ← hpri, hM]

/-- **The MIC is accepted.** -/
theorem Decrypted.chkmic (h : Decrypted k rk ad att a d hdr (msduText (k.crypto cr ad att) att hdr pkt))
    (hpri : micPriority att = [UInt8.ofNat d.attrib.priority, 0, 0, 0]) :
    ∃ e, chkmicIn rk a d = some (some e) := by
  by_cases ht : att.encrypt = .tkip
  · have hlen := h.len
    have hicv := h.icvLen_eq
    have hl := Nat.le_of_eq h.length_eq
    have hhdr := h.hdr_length
    have h16 := (micHdrLen_le (hdr.getD 1 0)).1
    have hbyte : d.byte 1 = hdr.getD 1 0 :=
      byte_of_append (h.data_eq.trans (List.append_assoc ..)) (by omega)
    rw [length_msduText, if_pos ht] at hlen
    rw [List.length_append] at hl
    have hfit : MicFits d := by
      unfold MicFits
      rw [hbyte]
      omega
    rw [msduText, if_pos ht] at h
    rw [chkmicIn_of_checks (h.checks ht).1 hfit, if_pos (h.miccode ht hpri)]
    exact ⟨_, rfl⟩
  · unfold chkmicIn
    exact ⟨d, if_neg fun e => ht (h.encrypt_eq.symm.trans e)⟩

end

/-! ## the trip -/

/-- receiver and transmitter address of the header -/
theorem addrs_sent {ad : TxAdapter} {att : PktAttrib} {f : RecvFrame} {ds : UInt8} {addrs xs : List UInt8}
    {seqnum : Nat} (hok : att.Ok ad) (hta : att.ta = ad.macAddr) (hra : att.ra = txRa ad att.dst)
    (hbssid : ad.mode = .ap → ad.bssid = ad.macAddr) (ha : hdrAddrs ad att = some (ds, addrs))
    (h : f.data = wlanhdr ad att ds addrs seqnum ++ xs) :
    getAddr1 f = att.ra ∧ getAddr2 f = att.ta := by
  obtain ⟨hd, hs, ht⟩ := hok.addr_length
  have hb := ad.bssid_length
  rw [hra]
  unfold hdrAddrs at ha
  unfold txRa
  cases hm : ad.mode with
  | station =>
    rw [hm] at ha
    cases ha
    obtain ⟨h1, h2, -⟩ := getAddr_wlanhdr h hb ht hd
    exact ⟨h1, h2⟩
  | ap =>
    rw [hm] at ha
    cases ha
    obtain ⟨h1, h2, -⟩ := getAddr_wlanhdr h hd hb hs
    exact ⟨h1, h2.trans ((hbssid hm).trans hta.symm)⟩
  | adhoc =>
    rw [hm] at ha
    cases ha
    obtain ⟨h1, h2, -⟩ := getAddr_wlanhdr h hd ht hb
    exact ⟨h1, h2⟩
  | adhocMaster =>
    rw [hm] at ha
    cases ha
    obtain ⟨h1, h2, -⟩ := getAddr_wlanhdr h hd ht hb
    exact ⟨h1, h2⟩
  | other =>
    rw [hm] at ha
    cases ha

theorem micPriority_qos {ad : TxAdapter} {sta sta' : TxSta} {eth : EthFrame} {eapol : EapType}
    {att : PktAttrib} (hqos : att.qosData = att.qosEn)
    (h : updateAttrib ad sta eth eapol = some ({ att with mdata := false, eosp := false }, sta')) :
    micPriority att = [UInt8.ofNat (if att.qosData then att.priority % 16 else 0), 0, 0, 0] := by
  obtain ⟨-, -, he⟩ := updateAttrib_some h
  have hp := txPriority_lt ad sta eth
  have hpri : att.priority = txPriority ad sta eth := congrArg PktAttrib.priority he
  unfold micPriority
  rw [← hqos, Nat.mod_eq_of_lt (by omega)]
  cases att.qosData <;> rfl

/-- the frame on the air, and what the receiver takes from its header -/
structure Received (cr : TxCrypto) (ad : TxAdapter) (eth : EthFrame) (att : PktAttrib) (dst src : Mac) (g : RecvFrame)
    (hdr : List UInt8) : Prop where
  ok : att.Ok ad
  etherType_eq : att.etherType = eth.etherType
  hdr_ok : HdrOk att hdr
  data_eq : g.data = hdr ++ att.iv ++ sentText cr att hdr (msduText cr att hdr eth.payload)
  read : HdrRead att dst src g.attrib
  ta_eq : g.attrib.ta = att.ta
  ra_eq : g.attrib.ra = att.ra
  iv_eq : ∃ pn, att.iv = (attribIv att.encrypt pn (txKeyIdx ad.sec (isMcast att.ra)) (isMcast att.ra)).2

theorem received {cr : TxCrypto} {ad : TxAdapter} {sta sta' sta₁ sta₂ : TxSta} {eth : EthFrame} {eapol : EapType}
    {att : PktAttrib} {bufAddr pktOffset : Nat} {m : Nat → UInt8} {c : Coalesced} {f : RecvFrame} {sec : SecurityPriv}
    {rsta : StaInfo} (dst src bssid : Mac)
    (hatt : updateAttrib ad sta eth eapol = some ({ att with mdata := false, eosp := false }, sta'))
    (hsc : swCipher att.encrypt = true) (hone : isMcast att.ra = true ∨ Unfragmented ad att eth.payload.length)
    (hs : 4 ∣ bufAddr) (hbssid : ad.mode = .ap → ad.bssid = ad.macAddr)
    (hc : rtwXmitframeCoalesce cr ad sta₁ att eth.payload bufAddr pktOffset m = some (c, sta₂))
    (hair : f.data = read c.mem (bufAddr + hwHdrOffset pktOffset) c.lastTxcmdsz)
    (hnet : getEncryAlgo sec rsta (isMcast att.ra) = att.encrypt) :
    ∃ hdr, Received cr ad eth att dst src (rxParsed sec rsta dst src bssid f) hdr := by
  have hok : att.Ok ad := (updateAttrib_ok hatt).of_flags
  obtain ⟨-, hsec, he⟩ := updateAttrib_some hatt
  have hty : att.etherType = eth.etherType := congrArg PktAttrib.etherType he
  have hdst : att.dst = eth.dst := congrArg PktAttrib.dst he
  have hta : att.ta = ad.macAddr := congrArg PktAttrib.ta he
  have hra : att.ra = txRa ad att.dst := by
    rw [hdst]
    exact congrArg PktAttrib.ra he
  have hpl : att.pktlen = eth.payload.length := congrArg PktAttrib.pktlen he
  have hiv : att.iv = (attribIv att.encrypt sta.dot11txpn (txKeyIdx ad.sec (isMcast att.ra)) (isMcast att.ra)).2 := by
    rw [← hdst, ← hra] at hsec
    exact congrArg Prod.snd (updateAttribSecInfo_some hsec).2.2.2.1
  -- what is in the buffer
  obtain ⟨hdr, hmk, hhdr, hlaid, -, hlast⟩ := rtwXmitframeCoalesce_single hok hpl hs hone hc
  have hall := hlaid.read_all
  rw [hhdr.length_eq, hok.iv_length, ← hlast, ← hair] at hall
  -- what the receiver takes from it
  obtain ⟨ds, addrs, seqnum, hda, rfl⟩ := rtwMakeWlanhdr_wlanhdr hmk
  have hhead := hall
  rw [List.append_assoc] at hhead
  obtain ⟨h1, h2⟩ := addrs_sent hok hta hra hbssid hda hhead
  obtain ⟨hpta, hpra, -⟩ := rxParsed_same sec rsta dst src bssid f
  exact ⟨_, hok, hty, hhdr, hall,
    hdrRead_setEncrypt sec rsta dst src bssid hok hda hhead fun _ => ⟨hsc, by rw [h1]; exact hnet⟩,
    hpta.trans h2, hpra.trans h1, _, hiv⟩

/-- **What software encrypted, software opens**: the integrity value is right, the MIC is accepted, and
between IV and MIC lie LLC header and payload again.  The QoS header follows `qos_en`, and an access point
has its own address as BSSID (`rtw_check_beacon_data`). -/
theorem soft_roundTrip (cr : TxCrypto) (k : TxKeys) (rk : RxKeys) (dec : SwDecrypt) (ad : TxAdapter)
    (sta sta' sta₁ sta₂ : TxSta) (eth : EthFrame) (eapol : EapType) (att : PktAttrib)
    (bufAddr pktOffset : Nat) (m : Nat → UInt8) (c : Coalesced) (a : Adapter) (f : RecvFrame)
    (sec : SecurityPriv) (rsta : StaInfo) (dst src bssid : Mac)
    (hatt : updateAttrib ad sta eth eapol = some ({ att with mdata := false, eosp := false }, sta'))
    (hqos : att.qosData = att.qosEn) (hsw : att.bswenc = true) (hcipher : rc4Cipher att.encrypt = true)
    (hone : isMcast att.ra = true ∨ Unfragmented ad att eth.payload.length) (hs : 4 ∣ bufAddr)
    (hbssid : ad.mode = .ap → ad.bssid = ad.macAddr)
    (hc : rtwXmitframeCoalesce (k.crypto cr ad att) ad sta₁ att eth.payload bufAddr pktOffset m
      = some (c, sta₂))
    (hair : f.data = read c.mem (bufAddr + hwHdrOffset pktOffset) c.lastTxcmdsz)
    (hbdec : f.attrib.bdecrypted = false) (hnet : getEncryAlgo sec rsta (isMcast att.ra) = att.encrypt)
    (hsta : (a.rtwGetStainfo att.ta).isSome) (hkeys : SameKeys k rk ad att) :
    ∃ d e, decryptorIn dec rk a (rxParsed sec rsta dst src bssid f) = some (some d) ∧ wepIcvOk d = true
      ∧ chkmicIn rk a d = some (some e) ∧ d.msduBytes = rtwPutSnap eth.etherType ++ eth.payload := by
  have hsc : swCipher att.encrypt = true := by
    cases h : att.encrypt <;> first | rfl | (rw [h] at hcipher; cases hcipher)
  obtain ⟨hdr, h⟩ := received dst src bssid hatt hsc hone hs hbssid hc hair hnet
  have hr := h.read
  have htext : sentText (k.crypto cr ad att) att hdr (msduText (k.crypto cr ad att) att hdr eth.payload)
      = arcfourSeal (arcfourInit (k.rc4key ad att att.encrypt att.iv))
        (msduText (k.crypto cr ad att) att hdr eth.payload) := by
    unfold sentText
    rw [hsw, hsc, Bool.true_and, if_pos rfl]
    refine (if_pos hcipher).trans ?_
    rw [List.drop_left' h.hdr_ok.length_eq]
  have hall := h.data_eq
  rw [htext] at hall
  obtain ⟨-, -, hpb, hph⟩ := rxParsed_same sec rsta dst src bssid f
  have hg : SwFrame a (rxParsed sec rsta dst src bssid f) := by
    refine ⟨by rw [h.ta_eq]; exact hsta, ?_, hph, ?_, hpb.trans hbdec⟩
    · rw [hr.lens, hr.encrypt_eq, setIceIvLen_eq hsc]
    · rw [hr.encrypt_eq]
      exact rc4Cipher_cases hcipher
  have hsent : Sent k ad att (rxParsed sec rsta dst src bssid f) hdr (msduText (k.crypto cr ad att) att hdr eth.payload) :=
    ⟨hall, hr.length_hdr_iv h.ok h.hdr_ok, h.hdr_ok.length_eq.trans hr.hdrlen_eq.symm, hr.encrypt_eq,
      h.ta_eq, h.ra_eq, hcipher, h.iv_eq⟩
  have hd := hsent.decrypted hkeys hg
  have hpri : micPriority att = [UInt8.ofNat ((setKeyIndex (rxParsed sec rsta dst src bssid f)).opened
      (k.rc4key ad att att.encrypt att.iv)).attrib.priority, 0, 0, 0] := by
    rw [micPriority_qos hqos hatt, setKeyIndex_opened, ← hr.priority_eq]
  obtain ⟨e, hchk⟩ := hd.chkmic hpri
  have hmsdu := hd.msdu
  rw [h.etherType_eq] at hmsdu
  exact ⟨_, e, hsent.opens hkeys hg, hd.icv_ok, hchk, hmsdu⟩

/-- a station whose frames software encrypts with TKIP -/
def tkipStation : TxAdapter :=
  { txStation with
    sec := { dot11AuthAlgrthm := .ieee8021x, dot11PrivacyAlgrthm := .tkip, busetkipkey := true, swEncrypt := true } }

def tkipPeer : TxSta := { dot118021XPrivacy := .tkip }

def softTxKeys : TxKeys :=
  { dot118021xUncstKey := List.replicate 16 1, dot11tkiptxmickey := List.replicate 16 2 }

def softRxKeys : RxKeys :=
  { dot118021xUncstKey := fun _ => List.replicate 16 1, dot11tkiprxmickey := fun _ => List.replicate 16 2 }

/-- an access point that knows the station -/
def softAp : Adapter :=
  { mode := .ap, sec := tkipStation.sec.toSecurityPriv
    stations := fun m => if m = txStation.macAddr then some tkipPeer.toStaInfo else none }

def tkipAtt : PktAttrib := ((updateAttrib tkipStation tkipPeer arpEth .nonEapol).get rfl).1

theorem tkipAtt_coalesce :
    (rtwXmitframeCoalesce (softTxKeys.crypto idleCrypto tkipStation tkipAtt) tkipStation tkipPeer tkipAtt
      arpEth.payload 512 1 fun _ => 0).isSome = true := rfl

def tkipSent : Coalesced :=
  ((rtwXmitframeCoalesce (softTxKeys.crypto idleCrypto tkipStation tkipAtt) tkipStation tkipPeer tkipAtt
    arpEth.payload 512 1 fun _ => 0).get tkipAtt_coalesce).1

def tkipAir : RecvFrame := { id := 0, data := read tkipSent.mem (512 + hwHdrOffset 1) tkipSent.lastTxcmdsz }

theorem soft_roundTrip_arp :
    ∃ d e, decryptorIn rejectAll softRxKeys softAp
        (rxParsed softAp.sec tkipPeer.toStaInfo arpEth.dst arpEth.src arpEth.dst tkipAir) = some (some d)
      ∧ wepIcvOk d = true ∧ chkmicIn softRxKeys softAp d = some (some e)
      ∧ d.msduBytes = rtwPutSnap arpEth.etherType ++ arpEth.payload :=
  soft_roundTrip idleCrypto softTxKeys softRxKeys rejectAll tkipStation tkipPeer _ tkipPeer _ arpEth .nonEapol
    tkipAtt 512 1 (fun _ => 0) tkipSent softAp tkipAir softAp.sec tkipPeer.toStaInfo arpEth.dst arpEth.src
    arpEth.dst rfl (by decide) (by decide) (by decide) (by decide) (by decide) (by decide)
    (Option.some_get tkipAtt_coalesce).symm rfl rfl (by decide) (by decide) ⟨rfl, rfl⟩

end Rtl8192eu
