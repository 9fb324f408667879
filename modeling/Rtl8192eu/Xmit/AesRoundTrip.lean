import Rtl8192eu.Recv.AesDecrypt
import Rtl8192eu.Xmit.SoftRoundTrip

/-!
# CCMP and GCMP by software, there and back

`rtw_aes_encrypt` and `rtw_gcmp_encrypt` of `core/rtw_security.c` as the ciphers of `rtw_xmitframe_coalesce`, and
the frame they leave in the receiver's `decryptor`.

* `TxKeys.aesCrypto`   the two ciphers (`mpduEncrypt_eq`: what they write over the frame);
* `SameAesKeys`   the receiver has the sender's key, a group key under the index of the packet number;
* `aes_roundTrip`   the MIC is right, and LLC header and payload lie where they did.
-/

namespace Rtl8192eu

open Mem Mpdu

/-! ## encryption -/

/-- as the functions of `rtw_swcrypto.c` leave the frame -/
def mpduEncrypt (spp : Bool) (t : SecurityType) (key : List UInt8) (hdrlen : Nat) (frame : List UInt8) (plen : Nat) :
    Option (List UInt8) :=
  if ccmpFamily t then rtwCcmpEncrypt spp key (prwskeylen t) hdrlen frame plen
  else rtwGcmpEncrypt spp key (prwskeylen t) hdrlen frame plen

theorem setIswep_of_bit {hdr : List UInt8} (h : hdr.getD 1 0 ||| 0x40 = hdr.getD 1 0) : setIswep hdr = hdr := by
  unfold setIswep
  rw [h]
  match hdr with
  | [] => rfl
  | [_] => rfl
  | _ :: _ :: _ => rfl

/-- a protected header stays as it is -/
theorem mpduEncrypt_eq {spp : Bool} {t : SecurityType} {key hdr iv plain : List UInt8}
    (h24 : 24 ≤ hdr.length) (hiv : iv.length = 8) (hbit : hdr.getD 1 0 ||| 0x40 = hdr.getD 1 0) :
    mpduEncrypt spp t key hdr.length (hdr ++ iv ++ plain) plain.length
      = (mpduSeal spp t key hdr.length (hdr ++ iv) plain).map fun r => hdr ++ iv ++ r.1 ++ r.2 := by
  unfold mpduEncrypt mpduSeal
  rw [shift_at0 rfl]
  cases hc : ccmpFamily t with
  | true =>
    have henc := @rtwCcmpEncrypt_eq spp key (prwskeylen t) hdr iv plain (prwskeylen_ok t) h24 hiv
    rw [setIswep_of_bit hbit] at henc
    exact henc
  | false => exact rtwGcmpEncrypt_eq h24 hiv

/-- the sealed body, as it stands in the frame -/
def aesSealed (spp : Bool) (t : SecurityType) (key : List UInt8) (hdrlen : Nat) (h p : List UInt8) : List UInt8 :=
  ((mpduSeal spp t key hdrlen h p).get mpduSeal_isSome).1 ++ ((mpduSeal spp t key hdrlen h p).get mpduSeal_isSome).2

/-- `n` is the length of the MIC -/
def aesOpened (spp : Bool) (t : SecurityType) (key : List UInt8) (hdrlen n : Nat) (h c : List UInt8) : List UInt8 :=
  (mpduOpen spp t key hdrlen h (c.take (c.length - n)) (c.drop (c.length - n))).getD (c.take (c.length - n))

section
variable {spp : Bool} {t : SecurityType} {key : List UInt8} {hdrlen : Nat}

theorem recvLens (ht : aesFamily t = true) : setIceIvLen t = ivIcvLen t := by
  cases t <;> first | rfl | cases ht

theorem aesSealed_eq (spp : Bool) (t : SecurityType) (key : List UInt8) (hdrlen : Nat) (h p : List UInt8) :
    ∃ crypt mic, mpduSeal spp t key hdrlen h p = some (crypt, mic) ∧ aesSealed spp t key hdrlen h p = crypt ++ mic := by
  obtain ⟨⟨crypt, mic⟩, hr⟩ : ∃ r, mpduSeal spp t key hdrlen h p = some r :=
    Option.isSome_iff_exists.mp mpduSeal_isSome
  refine ⟨crypt, mic, hr, ?_⟩
  unfold aesSealed
  simp only [hr, Option.get_some]

theorem length_aesSealed (ht : aesFamily t = true) (h p : List UInt8) :
    (aesSealed spp t key hdrlen h p).length = p.length + (ivIcvLen t).2 := by
  obtain ⟨crypt, mic, hr, he⟩ := aesSealed_eq spp t key hdrlen h p
  obtain ⟨h1, h2⟩ := mpduSeal_length ht hr
  rw [recvLens ht] at h2
  rw [he, List.length_append, h1, h2]

theorem length_aesOpened (n : Nat) (h c : List UInt8) :
    (aesOpened spp t key hdrlen n h c).length = c.length - n := by
  have htake : (c.take (c.length - n)).length = c.length - n := List.length_take_of_le (Nat.sub_le _ _)
  unfold aesOpened
  cases ho : mpduOpen spp t key hdrlen h (c.take (c.length - n)) (c.drop (c.length - n)) with
  | none => exact htake
  | some plain => exact (mpduOpen_length ho).trans htake

theorem aesOpened_sealed (ht : aesFamily t = true) (h p : List UInt8) :
    aesOpened spp t key hdrlen (ivIcvLen t).2 h (aesSealed spp t key hdrlen h p) = p := by
  obtain ⟨crypt, mic, hr, he⟩ := aesSealed_eq spp t key hdrlen h p
  obtain ⟨-, h2⟩ := mpduSeal_length ht hr
  have hn : (crypt ++ mic).length - (ivIcvLen t).2 = crypt.length := by
    rw [recvLens ht] at h2
    rw [List.length_append, h2, Nat.add_sub_cancel]
  unfold aesOpened
  rw [he, hn, List.take_left, List.drop_left, (mpduOpen_eq_some_iff ht h2).mpr hr]
  rfl

end

/-- `enc` of the two functions, for a key -/
def aesEnc (spp : Bool) (key : List UInt8) (cr : TxCrypto) (hdrlen : Nat) (t : SecurityType) (h p : List UInt8) :
    List UInt8 := if aesFamily t then aesSealed spp t key hdrlen h p else cr.enc t h p

def aesDec (spp : Bool) (key : List UInt8) (cr : TxCrypto) (hdrlen : Nat) (t : SecurityType) (h c : List UInt8) :
    List UInt8 := if aesFamily t then aesOpened spp t key hdrlen (ivIcvLen t).2 h c else cr.dec t h c

section
variable (spp : Bool) (key : List UInt8) (cr : TxCrypto) (hdrlen : Nat) (t : SecurityType)

theorem length_aesEnc (h p : List UInt8) : (aesEnc spp key cr hdrlen t h p).length = p.length + (ivIcvLen t).2 := by
  unfold aesEnc
  split
  · rename_i ht
    exact length_aesSealed ht h p
  · exact cr.enc_length t h p

theorem length_aesDec (h c : List UInt8) : (aesDec spp key cr hdrlen t h c).length = c.length - (ivIcvLen t).2 := by
  unfold aesDec
  split
  · exact length_aesOpened _ h c
  · exact cr.dec_length t h c

theorem aesDec_aesEnc (h p : List UInt8) : aesDec spp key cr hdrlen t h (aesEnc spp key cr hdrlen t h p) = p := by
  unfold aesDec aesEnc
  by_cases ht : aesFamily t = true
  · rw [if_pos ht, if_pos ht]
    exact aesOpened_sealed ht h p
  · rw [if_neg ht, if_neg ht]
    exact cr.dec_enc t h p

end

/-- `rtw_aes_encrypt` and `rtw_gcmp_encrypt`; the other ciphers are those of `cr` -/
def TxKeys.aesCrypto (k : TxKeys) (spp : Bool) (cr : TxCrypto) (ad : TxAdapter) (att : PktAttrib) : TxCrypto where
  mic := cr.mic
  enc := aesEnc spp (k.prwskey ad att) cr att.hdrlen
  dec := aesDec spp (k.prwskey ad att) cr att.hdrlen
  mic_length := cr.mic_length
  enc_length := length_aesEnc spp (k.prwskey ad att) cr att.hdrlen
  dec_length := length_aesDec spp (k.prwskey ad att) cr att.hdrlen
  dec_enc := aesDec_aesEnc spp (k.prwskey ad att) cr att.hdrlen

/-- the header of a protected frame -/
theorem wlanhdr_protected {ad : TxAdapter} {att : PktAttrib} {ds : UInt8} {addrs : List UInt8} {seqnum : Nat}
    (h : att.encrypt ≠ .noPrivacy) :
    (wlanhdr ad att ds addrs seqnum).getD 1 0 ||| 0x40 = (wlanhdr ad att ds addrs seqnum).getD 1 0 := by
  show (ds ||| (if att.mdata then 0x20 else 0) ||| if att.encrypt ≠ .noPrivacy then 0x40 else 0) ||| 0x40
    = ds ||| (if att.mdata then 0x20 else 0) ||| if att.encrypt ≠ .noPrivacy then 0x40 else 0
  rw [if_pos h, UInt8.or_assoc, UInt8.or_self]

/-- what `enc` stands for: the functions of `rtw_swcrypto.c` leave header and packet number, and it behind them -/
theorem mpduEncrypt_sent {spp : Bool} {k : TxKeys} {cr : TxCrypto} {ad : TxAdapter} {att : PktAttrib} {ds : UInt8}
    {addrs text : List UInt8} {seqnum : Nat} (ht : aesFamily att.encrypt = true) (hiv : att.iv.length = 8)
    (hhdr : HdrOk att (wlanhdr ad att ds addrs seqnum)) :
    mpduEncrypt spp att.encrypt (k.prwskey ad att) att.hdrlen (wlanhdr ad att ds addrs seqnum ++ att.iv ++ text)
        text.length
      = some (wlanhdr ad att ds addrs seqnum ++ att.iv
          ++ (k.aesCrypto spp cr ad att).enc att.encrypt (wlanhdr ad att ds addrs seqnum ++ att.iv) text) := by
  have hne : att.encrypt ≠ .noPrivacy := by
    intro he
    rw [he] at ht
    cases ht
  obtain ⟨crypt, mic, hr, he⟩ := aesSealed_eq spp att.encrypt (k.prwskey ad att) att.hdrlen
    (wlanhdr ad att ds addrs seqnum ++ att.iv) text
  have henc : (k.aesCrypto spp cr ad att).enc att.encrypt (wlanhdr ad att ds addrs seqnum ++ att.iv) text
      = crypt ++ mic := (if_pos ht).trans he
  rw [henc, ← hhdr.length_eq, mpduEncrypt_eq hhdr.long hiv (wlanhdr_protected hne), hhdr.length_eq, hr, Option.map_some,
    List.append_assoc]

/-! ## the trip -/

/-- the receiver has the sender's key: that of the transmitter for itself, and the group key under the key index of
the packet number, where it also expects it -/
def SameAesKeys (k : TxKeys) (rk : AesRxKeys) (ad : TxAdapter) (att : PktAttrib) : Prop :=
  let kid := txKeyIdx ad.sec true % 4
  if isMcast att.ra then
    rk.binstallGrpkey = true ∧ rk.dot118021XGrpKeyid = kid
      ∧ rk.dot118021XGrpKey kid = k.dot118021XGrpKey ad.sec.dot118021XGrpKeyid
  else rk.dot118021xUncstKey att.ta = k.dot118021xUncstKey

section
variable {k : TxKeys} {rk : AesRxKeys} {ad : TxAdapter} {att : PktAttrib} {a : Adapter} {g : RecvFrame}
  {hdr crypt mic : List UInt8}

/-- the key index in the packet number -/
theorem aesIv_keyid {t : SecurityType} {pn keyIdx : Nat} (ht : aesFamily t = true) :
    ((attribIv t pn keyIdx true).2.getD 3 0).toNat / 64 % 4 = keyIdx % 4 := by
  have hkid : ∀ n, n < 4 → (0x20 ||| UInt8.ofNat (n * 64)).toNat / 64 % 4 = n := by decide
  have hlt : keyIdx % 4 < 4 := Nat.mod_lt _ (by decide)
  cases t <;> first | exact hkid _ hlt | cases ht

/-- **The receiver takes the sender's key.** -/
theorem prwskey_of_parts (hp : Parts g hdr att.iv crypt mic) (hkeys : SameAesKeys k rk ad att)
    (hsta : (a.rtwGetStainfo att.ta).isSome) (ht : aesFamily att.encrypt = true)
    (henc : g.attrib.encrypt = att.encrypt) (hta : g.attrib.ta = att.ta) (hra : g.attrib.ra = att.ra)
    (hiv : ∃ pn, att.iv = (attribIv att.encrypt pn (txKeyIdx ad.sec (isMcast att.ra)) (isMcast att.ra)).2) :
    rk.prwskey a (setKeyIndex g) = some (k.prwskey ad att) := by
  obtain ⟨hta', hra', -⟩ := setKeyIndex_addrs g
  have hne : g.attrib.encrypt ≠ .noPrivacy := by
    rw [henc]
    intro he
    rw [he] at ht
    cases ht
  have hidx : isMcast att.ra = true → (setKeyIndex g).attrib.keyIndex = txKeyIdx ad.sec true % 4 := by
    intro hm
    obtain ⟨pn, hiv⟩ := hiv
    have hbyte : g.byte (g.attrib.hdrlen + 3) = att.iv.getD 3 0 := by
      have hlt : g.attrib.hdrlen + 3 < (hdr ++ att.iv).length := by
        rw [List.length_append, hp.hdr_length, hp.iv_length]
        omega
      rw [byte_of_append (hp.data_eq.trans (List.append_assoc (hdr ++ att.iv) crypt mic)) hlt, ← hp.hdr_length,
        List.getD_append_right _ _ _ _ (Nat.le_add_right _ _), Nat.add_sub_cancel_left]
    have hk : (setKeyIndex g).attrib.keyIndex = (g.byte (g.attrib.hdrlen + 3)).toNat / 64 % 4 := by
      unfold setKeyIndex
      rw [if_neg hne]
    rw [hk, hbyte, hiv, hm]
    exact aesIv_keyid ht
  unfold SameAesKeys at hkeys
  unfold AesRxKeys.prwskey TxKeys.prwskey
  rw [hta', hta, hra', hra, Option.isNone_eq_false_iff.mpr hsta, if_neg Bool.false_ne_true]
  by_cases hm : isMcast att.ra = true
  · rw [if_pos hm] at hkeys
    rw [if_pos hm, if_pos hm, hidx hm, hkeys.1, if_neg (by decide), hkeys.2.1, if_neg (fun h => h rfl), hkeys.2.2]
  · rw [if_neg hm] at hkeys
    rw [if_neg hm, if_neg hm, hkeys]

end

/-- the text of the frame that `decryptor` leaves -/
theorem msdu_of_parts {g : RecvFrame} {a : Adapter} {hdr iv crypt mic : List UInt8} (hp : Parts g hdr iv crypt mic)
    (hg : AesFrame a g) (plain : List UInt8) :
    RecvFrame.msduBytes { setKeyIndex g with
      data := hdr ++ iv ++ plain ++ mic
      attrib := { (setKeyIndex g).attrib with bdecrypted := true } } = plain := by
  obtain ⟨i, hi⟩ := setKeyIndex_eq g
  have hivLen : g.attrib.ivLen = 8 := (congrArg Prod.fst hg.lens).trans (ivLen_aes hg.cipher)
  have hoff : (hdr ++ iv).length = g.attrib.hdrlen + g.attrib.ivLen := by
    rw [List.length_append, hp.hdr_length, hp.iv_length, hivLen]
  have hmic : mic.length = g.attrib.icvLen := hp.mic_length.trans (congrArg Prod.snd hg.lens).symm
  have hne : g.attrib.encrypt ≠ .tkip := by
    intro h
    have hc := hg.cipher
    rw [h] at hc
    cases hc
  rw [hi]
  refine bytes_of_append rfl hoff ?_
  rw [if_neg hne]
  show plain.length = (hdr ++ iv ++ plain ++ mic).length - (g.attrib.hdrlen + g.attrib.ivLen) - g.attrib.icvLen - 0
  rw [List.length_append, List.length_append, hoff, hmic]
  omega

/-- **What software encrypted, software opens**, with CCMP and GCMP under keys of either length: the MIC is right, and
between packet number and MIC lie LLC header and payload again. -/
theorem aes_roundTrip (spp : Bool) (cr : TxCrypto) (k : TxKeys) (rk : AesRxKeys) (dec : SwDecrypt) (ad : TxAdapter)
    (sta sta' sta₁ sta₂ : TxSta) (eth : EthFrame) (eapol : EapType) (att : PktAttrib)
    (bufAddr pktOffset : Nat) (m : Nat → UInt8) (c : Coalesced) (a : Adapter) (f : RecvFrame)
    (sec : SecurityPriv) (rsta : StaInfo) (dst src bssid : Mac)
    (hatt : updateAttrib ad sta eth eapol = some ({ att with mdata := false, eosp := false }, sta'))
    (hsw : att.bswenc = true) (hcipher : aesFamily att.encrypt = true)
    (hone : isMcast att.ra = true ∨ Unfragmented ad att eth.payload.length) (hs : 4 ∣ bufAddr)
    (hbssid : ad.mode = .ap → ad.bssid = ad.macAddr)
    (hc : rtwXmitframeCoalesce (k.aesCrypto spp cr ad att) ad sta₁ att eth.payload bufAddr pktOffset m
      = some (c, sta₂))
    (hair : f.data = read c.mem (bufAddr + hwHdrOffset pktOffset) c.lastTxcmdsz)
    (hbdec : f.attrib.bdecrypted = false) (hnet : getEncryAlgo sec rsta (isMcast att.ra) = att.encrypt)
    (hsta : (a.rtwGetStainfo att.ta).isSome) (hkeys : SameAesKeys k rk ad att) :
    ∃ d, decryptorIn (rk.swDecrypt spp dec) rk.toRxKeys a (rxParsed sec rsta dst src bssid f) = some (some d)
      ∧ d.msduBytes = rtwPutSnap eth.etherType ++ eth.payload := by
  have hsc : swCipher att.encrypt = true := by
    cases h : att.encrypt <;> first | rfl | (rw [h] at hcipher; cases hcipher)
  have hne : att.encrypt ≠ .tkip := by
    intro h
    rw [h] at hcipher
    cases hcipher
  obtain ⟨hdr, h⟩ := received dst src bssid hatt hsc hone hs hbssid hc hair hnet
  have hr := h.read
  have hhdr := h.hdr_ok
  have hmsdu : msduText (k.aesCrypto spp cr ad att) att hdr eth.payload = rtwPutSnap eth.etherType ++ eth.payload := by
    unfold msduText
    rw [if_neg hne, List.append_nil, h.etherType_eq]
  obtain ⟨crypt, mic, hseal, hsealed⟩ := aesSealed_eq spp att.encrypt (k.prwskey ad att) att.hdrlen
    (hdr ++ att.iv) (rtwPutSnap eth.etherType ++ eth.payload)
  have htext : sentText (k.aesCrypto spp cr ad att) att hdr (msduText (k.aesCrypto spp cr ad att) att hdr eth.payload)
      = crypt ++ mic := by
    unfold sentText
    rw [hsw, hsc, Bool.true_and, if_pos rfl, hmsdu]
    exact (if_pos hcipher).trans hsealed
  obtain ⟨hcrypt, hmic⟩ := mpduSeal_length hcipher hseal
  have hall := h.data_eq
  rw [htext, ← List.append_assoc] at hall
  obtain ⟨-, -, hpb, -⟩ := rxParsed_same sec rsta dst src bssid f
  have hg : AesFrame a (rxParsed sec rsta dst src bssid f) := by
    refine ⟨?_, ?_, ?_, hpb.trans hbdec⟩
    · rw [hr.lens, hr.encrypt_eq, recvLens hcipher]
    · rw [hr.hdrlen_eq, ← hhdr.length_eq]
      exact hhdr.long
    · rw [hr.encrypt_eq]
      exact hcipher
  have hiv8 : att.iv.length = 8 := by
    obtain ⟨pn, hiv⟩ := h.iv_eq
    rw [hiv, attribIv_length, ← recvLens hcipher, ivLen_aes hcipher]
  have hp : Parts (rxParsed sec rsta dst src bssid f) hdr att.iv crypt mic := by
    refine ⟨hall, hhdr.length_eq.trans hr.hdrlen_eq.symm, hiv8, ?_⟩
    rw [hr.encrypt_eq]
    exact hmic
  have hkey := prwskey_of_parts hp hkeys hsta hcipher hr.encrypt_eq h.ta_eq h.ra_eq h.iv_eq
  rw [← hr.encrypt_eq, ← hr.hdrlen_eq] at hseal
  exact ⟨_, (decryptorIn_aes_iff hg).mpr ⟨_, _, _, _, _, _, hp, hkey, hseal, rfl⟩, msdu_of_parts hp hg _⟩

/-- a station whose frames software encrypts with CCMP -/
def ccmpStation : TxAdapter :=
  { txStation with
    sec := { dot11AuthAlgrthm := .ieee8021x, dot11PrivacyAlgrthm := .aes, swEncrypt := true } }

def ccmpPeer : TxSta := { dot118021XPrivacy := .aes }

def ccmpRxKeys : AesRxKeys := { softRxKeys with }

/-- an access point that knows the station -/
def ccmpAp : Adapter :=
  { mode := .ap, sec := ccmpStation.sec.toSecurityPriv
    stations := fun m => if m = txStation.macAddr then some ccmpPeer.toStaInfo else none }

def ccmpAtt : PktAttrib := ((updateAttrib ccmpStation ccmpPeer arpEth .nonEapol).get rfl).1

theorem ccmpAtt_coalesce :
    (rtwXmitframeCoalesce (softTxKeys.aesCrypto false idleCrypto ccmpStation ccmpAtt) ccmpStation ccmpPeer ccmpAtt
      arpEth.payload 512 1 fun _ => 0).isSome = true := rfl

def ccmpSent : Coalesced :=
  ((rtwXmitframeCoalesce (softTxKeys.aesCrypto false idleCrypto ccmpStation ccmpAtt) ccmpStation ccmpPeer ccmpAtt
    arpEth.payload 512 1 fun _ => 0).get ccmpAtt_coalesce).1

def ccmpAir : RecvFrame := { id := 0, data := read ccmpSent.mem (512 + hwHdrOffset 1) ccmpSent.lastTxcmdsz }

theorem aes_roundTrip_arp :
    ∃ d, decryptorIn (ccmpRxKeys.swDecrypt false rejectAll) ccmpRxKeys.toRxKeys ccmpAp
        (rxParsed ccmpAp.sec ccmpPeer.toStaInfo arpEth.dst arpEth.src arpEth.dst ccmpAir) = some (some d)
      ∧ d.msduBytes = rtwPutSnap arpEth.etherType ++ arpEth.payload :=
  aes_roundTrip false idleCrypto softTxKeys ccmpRxKeys rejectAll ccmpStation ccmpPeer _ ccmpPeer _ arpEth .nonEapol
    ccmpAtt 512 1 (fun _ => 0) ccmpSent ccmpAp ccmpAir ccmpAp.sec ccmpPeer.toStaInfo arpEth.dst arpEth.src
    arpEth.dst rfl (by decide) (by decide) (by decide) (by decide) (by decide)
    (Option.some_get ccmpAtt_coalesce).symm rfl rfl (by decide) (by decide) rfl

end Rtl8192eu
