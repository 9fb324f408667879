import Rtl8192eu.Crypto.Gcmp
import Rtl8192eu.Recv.SwDecrypt

/-!
# CCMP and GCMP by software

`rtw_aes_decrypt` and `rtw_gcmp_decrypt` of `core/rtw_security.c`: which key, and what is made of the frame.

* `mpduSeal`, `mpduOpen`   a body under the cipher of the frame, with what is authenticated of the header;
* `AesRxKeys.prwskey`   the key, `none` where the driver gives up;
* `AesRxKeys.decrypt`   the ciphers `decryptor` calls;
* `decryptorIn_aes_iff`   what is opened is what a holder of the key sealed.
-/

namespace Rtl8192eu

open Mem Mpdu

/-! ## ciphers -/

def aesFamily : SecurityType → Bool
  | .aes | .ccmp256 | .gcmp | .gcmp256 => true
  | _ => false

def ccmpFamily : SecurityType → Bool
  | .aes | .ccmp256 => true
  | _ => false

/-- `prwskeylen` -/
def prwskeylen (t : SecurityType) : Nat := if t = .ccmp256 ∨ t = .gcmp256 then 32 else 16

/-- body and MIC; `h` is the header with the packet number -/
def mpduSeal (spp : Bool) (t : SecurityType) (key : List UInt8) (hdrlen : Nat) (h plain : List UInt8) :
    Option (List UInt8 × List UInt8) :=
  if ccmpFamily t then
    let an := ccmpAadNonce spp (at0 h) (shift (at0 h) hdrlen)
    aesCcmAe key (prwskeylen t) an.2 (ccmpMicLen (prwskeylen t)) plain an.1
  else
    let an := gcmpAadNonce spp (at0 h) (shift (at0 h) hdrlen)
    aesGcmAe key (prwskeylen t) an.2 plain an.1

/-- the body, if the MIC is right -/
def mpduOpen (spp : Bool) (t : SecurityType) (key : List UInt8) (hdrlen : Nat) (h crypt mic : List UInt8) :
    Option (List UInt8) :=
  if ccmpFamily t then
    let an := ccmpAadNonce spp (at0 h) (shift (at0 h) hdrlen)
    aesCcmAd key (prwskeylen t) an.2 (ccmpMicLen (prwskeylen t)) crypt an.1 mic
  else
    let an := gcmpAadNonce spp (at0 h) (shift (at0 h) hdrlen)
    aesGcmAd key (prwskeylen t) an.2 crypt an.1 mic

section
variable {spp : Bool} {t : SecurityType} {key h plain crypt mic : List UInt8} {hdrlen : Nat}

theorem icvLen_ccmp (ht : ccmpFamily t = true) : (setIceIvLen t).2 = ccmpMicLen (prwskeylen t) := by
  cases t <;> first | rfl | cases ht

theorem icvLen_gcmp (ht : aesFamily t = true) (hc : ccmpFamily t = false) : (setIceIvLen t).2 = 16 := by
  cases t <;> first | rfl | exact absurd ht (by decide) | exact absurd hc (by decide)

theorem ivLen_aes (ht : aesFamily t = true) : (setIceIvLen t).1 = 8 := by
  cases t <;> first | rfl | cases ht

theorem prwskeylen_ok (t : SecurityType) : prwskeylen t = 16 ∨ prwskeylen t = 32 := by
  unfold prwskeylen
  split
  · exact Or.inr rfl
  · exact Or.inl rfl

theorem keyLen_prwskeylen (t : SecurityType) : Aes.KeyLen (prwskeylen t) := by
  rcases prwskeylen_ok t with h | h <;> rw [h]
  exacts [Or.inl rfl, Or.inr (Or.inr rfl)]

theorem mpduOpen_eq_some_iff (ht : aesFamily t = true) (hmic : mic.length = (setIceIvLen t).2) :
    mpduOpen spp t key hdrlen h crypt mic = some plain ↔ mpduSeal spp t key hdrlen h plain = some (crypt, mic) := by
  unfold mpduOpen mpduSeal
  cases hc : ccmpFamily t with
  | true => exact aesCcmAd_eq_some_iff _ _ _ _ _ (hmic.trans (icvLen_ccmp hc)) plain
  | false => exact aesGcmAd_eq_some_iff _ _ _ _ _ (hmic.trans (icvLen_gcmp ht hc)) plain

theorem mpduSeal_length (ht : aesFamily t = true) {r : List UInt8 × List UInt8}
    (hr : mpduSeal spp t key hdrlen h plain = some r) :
    r.1.length = plain.length ∧ r.2.length = (setIceIvLen t).2 := by
  unfold mpduSeal at hr
  cases hc : ccmpFamily t with
  | true =>
    rw [hc, if_pos rfl] at hr
    obtain ⟨h1, h2⟩ := length_of_aesCcmAe hr
    exact ⟨h1, h2.trans (icvLen_ccmp hc).symm⟩
  | false =>
    rw [hc, if_neg Bool.false_ne_true] at hr
    obtain ⟨h1, h2⟩ := length_of_aesGcmAe hr
    exact ⟨h1, h2.trans (icvLen_gcmp ht hc).symm⟩

theorem mpduOpen_length (ho : mpduOpen spp t key hdrlen h crypt mic = some plain) :
    plain.length = crypt.length := by
  unfold mpduOpen at ho
  split at ho
  · exact length_of_aesCcmAd ho
  · exact length_of_aesGcmAd ho

theorem mpduSeal_isSome : (mpduSeal spp t key hdrlen h plain).isSome = true := by
  unfold mpduSeal
  split
  · exact aesCcmAe_isSome (keyLen_prwskeylen t) (ccmpMicLen_le _) (length_aadHdr spp false _).2
  · exact aesGcmAe_isSome (keyLen_prwskeylen t)

/-- as the functions of `rtw_swcrypto.c` leave the frame -/
def mpduDecrypt (spp : Bool) (t : SecurityType) (key : List UInt8) (hdrlen : Nat) (frame : List UInt8) (plen : Nat) :
    Option (List UInt8) :=
  if ccmpFamily t then rtwCcmpDecrypt spp key (prwskeylen t) hdrlen frame plen
  else rtwGcmpDecrypt spp key (prwskeylen t) hdrlen frame plen

theorem mpduDecrypt_eq (ht : aesFamily t = true) {hdr iv : List UInt8} (h24 : 24 ≤ hdr.length) (hiv : iv.length = 8)
    (hmic : mic.length = (setIceIvLen t).2) :
    mpduDecrypt spp t key hdr.length (hdr ++ iv ++ crypt ++ mic) (hdr ++ iv ++ crypt ++ mic).length
      = (mpduOpen spp t key hdr.length (hdr ++ iv) crypt mic).map fun plain =>
          hdr ++ iv ++ plain ++ (crypt ++ mic).drop plain.length := by
  unfold mpduDecrypt mpduOpen
  rw [shift_at0 rfl]
  cases hc : ccmpFamily t with
  | true => exact rtwCcmpDecrypt_eq (prwskeylen_ok t) h24 hiv (hmic.trans (icvLen_ccmp hc))
  | false => exact rtwGcmpDecrypt_eq h24 hiv (hmic.trans (icvLen_gcmp ht hc))

/-- a frame without room for packet number and MIC -/
theorem mpduDecrypt_short (ht : aesFamily t = true) (frame : List UInt8) (hdrlen : Nat)
    (hlen : frame.length < hdrlen + 8 + (setIceIvLen t).2) :
    mpduDecrypt spp t key hdrlen frame frame.length = none := by
  unfold mpduDecrypt
  cases hc : ccmpFamily t with
  | true =>
    rw [icvLen_ccmp hc] at hlen
    rw [if_pos rfl]
    unfold rtwCcmpDecrypt ccmpDecrypt
    split
    · rename_i hk
      dsimp only
      rw [if_pos (by omega)]
      rfl
    · rfl
  | false =>
    rw [icvLen_gcmp ht hc] at hlen
    rw [if_neg Bool.false_ne_true]
    unfold rtwGcmpDecrypt gcmpDecrypt
    split
    · rw [if_pos (by omega)]
      rfl
    · rfl

end

/-! ## keys -/

structure AesRxKeys extends RxKeys where
  dot118021XGrpKeyid : Nat := 0

/-- `prwskey`; `none` is `_FAIL` -/
def AesRxKeys.prwskey (k : AesRxKeys) (a : Adapter) (f : RecvFrame) : Option (List UInt8) :=
  if (a.rtwGetStainfo f.attrib.ta).isNone then none
  else if isMcast f.attrib.ra then
    if k.binstallGrpkey = false then none
    else if k.dot118021XGrpKeyid ≠ f.attrib.keyIndex then none
    else some (k.dot118021XGrpKey f.attrib.keyIndex)
  else some (k.dot118021xUncstKey f.attrib.ta)

/-- `rtw_aes_decrypt` and `rtw_gcmp_decrypt`, for a frame of their ciphers -/
def AesRxKeys.decrypt (k : AesRxKeys) (spp : Bool) (a : Adapter) (f : RecvFrame) : Option (List UInt8) :=
  (k.prwskey a f).bind fun key => mpduDecrypt spp f.attrib.encrypt key f.attrib.hdrlen f.data f.len

def AesRxKeys.rtwAesDecrypt (k : AesRxKeys) (spp : Bool) (a : Adapter) (f : RecvFrame) : Option (List UInt8) :=
  if f.attrib.encrypt = .aes ∨ f.attrib.encrypt = .ccmp256 then k.decrypt spp a f else some f.data

def AesRxKeys.rtwGcmpDecrypt (k : AesRxKeys) (spp : Bool) (a : Adapter) (f : RecvFrame) : Option (List UInt8) :=
  if f.attrib.encrypt = .gcmp ∨ f.attrib.encrypt = .gcmp256 then k.decrypt spp a f else some f.data

/-- the ciphers of `decryptor`; the others are those of `dec` -/
def AesRxKeys.swDecrypt (k : AesRxKeys) (spp : Bool) (dec : SwDecrypt) : SwDecrypt :=
  { dec with rtwAesDecrypt := k.rtwAesDecrypt spp, rtwGcmpDecrypt := k.rtwGcmpDecrypt spp }

/-! ## frames -/

/-- what `validate_recv_data_frame` leaves of a frame for these ciphers -/
structure AesFrame (a : Adapter) (f : RecvFrame) : Prop where
  lens : (f.attrib.ivLen, f.attrib.icvLen) = setIceIvLen f.attrib.encrypt
  hdr : 24 ≤ f.attrib.hdrlen
  cipher : aesFamily f.attrib.encrypt = true
  bdecrypted : f.attrib.bdecrypted = false

/-- the frame is `hdr`, `iv`, `crypt` and `mic` -/
structure Parts (f : RecvFrame) (hdr iv crypt mic : List UInt8) : Prop where
  data_eq : f.data = hdr ++ iv ++ crypt ++ mic
  hdr_length : hdr.length = f.attrib.hdrlen
  iv_length : iv.length = 8
  mic_length : mic.length = (setIceIvLen f.attrib.encrypt).2

section
variable {dec : SwDecrypt} {k : AesRxKeys} {spp : Bool} {a : Adapter} {f d : RecvFrame}
  {hdr iv crypt mic : List UInt8}

theorem exists_parts (hlen : f.attrib.hdrlen + 8 + (setIceIvLen f.attrib.encrypt).2 ≤ f.len) :
    ∃ hdr iv crypt mic, Parts f hdr iv crypt mic := by
  unfold RecvFrame.len at hlen
  refine ⟨f.data.take f.attrib.hdrlen, (f.data.drop f.attrib.hdrlen).take 8,
    (f.data.drop (f.attrib.hdrlen + 8)).take (f.len - (f.attrib.hdrlen + 8) - (setIceIvLen f.attrib.encrypt).2),
    (f.data.drop (f.attrib.hdrlen + 8)).drop (f.len - (f.attrib.hdrlen + 8) - (setIceIvLen f.attrib.encrypt).2),
    ?_, ?_, ?_, ?_⟩
  · rw [List.append_assoc, List.take_append_drop, List.append_assoc, ← List.drop_drop, List.take_append_drop,
      List.take_append_drop]
  · rw [List.length_take]
    omega
  · rw [List.length_take, List.length_drop]
    omega
  · rw [List.length_drop, List.length_drop]
    unfold RecvFrame.len
    omega

theorem swDecrypt_applyIn (hc : aesFamily f.attrib.encrypt = true) :
    (k.swDecrypt spp dec).applyIn k.toRxKeys a f
      = some (match k.decrypt spp a f with
          | some bs => ({ f with data := bs }, true)
          | none => (f, false)) := by
  have happly : (k.swDecrypt spp dec).apply a f = k.decrypt spp a f := by
    unfold SwDecrypt.apply
    cases he : f.attrib.encrypt <;> rw [he] at hc <;> cases hc
    · exact if_pos (Or.inl he)
    · exact if_pos (Or.inl he)
    · exact if_pos (Or.inr he)
    · exact if_pos (Or.inr he)
  unfold SwDecrypt.applyIn
  cases he : f.attrib.encrypt <;> rw [he] at hc <;> cases hc
  all_goals
    dsimp only
    rw [happly]
    cases k.decrypt spp a f <;> rfl

/-- the frames `validate_recv_data_frame` lets through -/
theorem aesFrame_of_accepted {a a' : Adapter} {f f' : RecvFrame}
    (hv : validateRecvDataFrame a (parseFc f) = (.success, a', f')) (hc : aesFamily f'.attrib.encrypt = true)
    (hb : f'.attrib.bdecrypted = false) : AesFrame a' f' := by
  obtain ⟨sta, sta', v, dst, src, bssid, -, -, rfl, hf, -⟩ := validateRecvDataFrame_accepted hv
  obtain ⟨e, i, c, he⟩ := setEncrypt_eq a.sec sta (dataAttrib (parseFc f) dst src bssid)
  have hatt := congrArg RecvFrame.attrib hf
  dsimp only at hatt
  refine ⟨?_, ?_, hc, hb⟩
  · rw [hatt]
    unfold setEncrypt
    split
    · rfl
    · rfl
  · have hhdr : f'.attrib.hdrlen = dataHdrlen (parseFc f).attrib := by
      rw [hatt, he]
      exact dataAttrib_hdrlen ..
    have hqos : 24 ≤ if (parseFc f).attrib.qos then wlanHdrA3QosLen else wlanHdrA3Len := by
      split <;> decide
    rw [hhdr]
    unfold dataHdrlen
    omega

theorem AesFrame.setKeyIndex (h : AesFrame a f) : AesFrame a (setKeyIndex f) := by
  obtain ⟨i, hi⟩ := setKeyIndex_eq f
  rw [hi]
  exact ⟨h.lens, h.hdr, h.cipher, h.bdecrypted⟩

theorem AesFrame.protected (h : AesFrame a f) : f.attrib.encrypt ≠ .noPrivacy := by
  intro he
  have hc := h.cipher
  rw [he] at hc
  cases hc

/-- the frame goes to its cipher -/
theorem decryptorIn_aes (h : AesFrame a f) (hlen : f.attrib.hdrlen + 4 ≤ f.len) :
    decryptorIn (k.swDecrypt spp dec) k.toRxKeys a f
      = some ((k.decrypt spp a (Rtl8192eu.setKeyIndex f)).map fun bs =>
          { Rtl8192eu.setKeyIndex f with
            data := bs, attrib := { (Rtl8192eu.setKeyIndex f).attrib with bdecrypted := true } }) := by
  have hcond : (Rtl8192eu.setKeyIndex f).attrib.encrypt ≠ .noPrivacy
      ∧ (Rtl8192eu.setKeyIndex f).attrib.bdecrypted = false := ⟨h.setKeyIndex.protected, h.setKeyIndex.bdecrypted⟩
  unfold decryptorIn
  dsimp only
  rw [if_neg (by omega), if_pos hcond, swDecrypt_applyIn h.setKeyIndex.cipher]
  cases k.decrypt spp a (Rtl8192eu.setKeyIndex f) <;> rfl

/-- the only access outside is to the key index -/
theorem decryptorIn_aes_none_iff (h : AesFrame a f) :
    decryptorIn (k.swDecrypt spp dec) k.toRxKeys a f = none ↔ f.len < f.attrib.hdrlen + 4 := by
  constructor
  · intro hnone
    by_contra hlen
    rw [decryptorIn_aes h (by omega)] at hnone
    cases hnone
  · exact fun hlen => if_pos ⟨h.protected, hlen⟩

theorem Parts.setKeyIndex (h : Parts f hdr iv crypt mic) : Parts (setKeyIndex f) hdr iv crypt mic := by
  obtain ⟨i, hi⟩ := setKeyIndex_eq f
  rw [hi]
  exact ⟨h.data_eq, h.hdr_length, h.iv_length, h.mic_length⟩

theorem Parts.len (h : Parts f hdr iv crypt mic) :
    f.len = f.attrib.hdrlen + 8 + crypt.length + (setIceIvLen f.attrib.encrypt).2 := by
  rw [RecvFrame.len, h.data_eq, List.length_append, List.length_append, List.length_append, h.hdr_length, h.iv_length,
    h.mic_length]

theorem Parts.decrypt_eq_some_iff (hp : Parts f hdr iv crypt mic) (h : AesFrame a f) {bs : List UInt8} :
    k.decrypt spp a f = some bs ↔ ∃ key plain, k.prwskey a f = some key
      ∧ mpduSeal spp f.attrib.encrypt key f.attrib.hdrlen (hdr ++ iv) plain = some (crypt, mic)
      ∧ bs = hdr ++ iv ++ plain ++ mic := by
  have hlen : f.len = (hdr ++ iv ++ crypt ++ mic).length := congrArg List.length hp.data_eq
  have hdec : ∀ key, mpduDecrypt spp f.attrib.encrypt key f.attrib.hdrlen f.data f.len
      = (mpduOpen spp f.attrib.encrypt key f.attrib.hdrlen (hdr ++ iv) crypt mic).map fun plain =>
          hdr ++ iv ++ plain ++ (crypt ++ mic).drop plain.length := by
    intro key
    rw [hlen, hp.data_eq, ← hp.hdr_length]
    exact mpduDecrypt_eq h.cipher (by rw [hp.hdr_length]; exact h.hdr) hp.iv_length hp.mic_length
  have hopen : ∀ key plain, mpduOpen spp f.attrib.encrypt key f.attrib.hdrlen (hdr ++ iv) crypt mic = some plain
      ↔ mpduSeal spp f.attrib.encrypt key f.attrib.hdrlen (hdr ++ iv) plain = some (crypt, mic) :=
    fun key plain => mpduOpen_eq_some_iff h.cipher hp.mic_length
  unfold AesRxKeys.decrypt
  rw [Option.bind_eq_some_iff]
  simp only [hdec, Option.map_eq_some_iff]
  constructor
  · rintro ⟨key, hkey, plain, ho, rfl⟩
    have hseal := (hopen key plain).mp ho
    refine ⟨key, plain, hkey, hseal, ?_⟩
    rw [← (mpduSeal_length h.cipher hseal).1, List.drop_left]
  · rintro ⟨key, plain, hkey, hseal, rfl⟩
    refine ⟨key, hkey, plain, (hopen key plain).mpr hseal, ?_⟩
    rw [← (mpduSeal_length h.cipher hseal).1, List.drop_left]

/-- body and MIC of `f` are what the cipher makes of the text of `d`, under the key of the transmitter or the group -/
def SealedAs (k : AesRxKeys) (spp : Bool) (a : Adapter) (f d : RecvFrame) : Prop :=
  ∃ hdr iv crypt mic plain key, Parts f hdr iv crypt mic ∧ k.prwskey a (setKeyIndex f) = some key
    ∧ mpduSeal spp f.attrib.encrypt key f.attrib.hdrlen (hdr ++ iv) plain = some (crypt, mic)
    ∧ d = { setKeyIndex f with
            data := hdr ++ iv ++ plain ++ mic
            attrib := { (setKeyIndex f).attrib with bdecrypted := true } }

/-- **What is opened is what a holder of the key sealed.** -/
theorem decryptorIn_aes_iff (h : AesFrame a f) :
    decryptorIn (k.swDecrypt spp dec) k.toRxKeys a f = some (some d) ↔ SealedAs k spp a f d := by
  obtain ⟨-, hl, henc, -, -⟩ := setKeyIndex_same (k := k.toRxKeys) f
  obtain ⟨i, hi⟩ := setKeyIndex_eq f
  have hhdr : (setKeyIndex f).attrib.hdrlen = f.attrib.hdrlen := by rw [hi]
  constructor
  · intro hd
    have h4 : f.attrib.hdrlen + 4 ≤ f.len := by
      by_contra hlt
      rw [(decryptorIn_aes_none_iff h).mpr (by omega)] at hd
      cases hd
    rw [decryptorIn_aes h h4] at hd
    obtain ⟨bs, hbs, rfl⟩ := Option.map_eq_some_iff.mp (Option.some.inj hd)
    have hroom : f.attrib.hdrlen + 8 + (setIceIvLen f.attrib.encrypt).2 ≤ f.len := by
      by_contra hlt
      obtain ⟨key, -, hkey⟩ := Option.bind_eq_some_iff.mp hbs
      rw [henc, hhdr, hl] at hkey
      have hshort : mpduDecrypt spp f.attrib.encrypt key f.attrib.hdrlen (setKeyIndex f).data
          (setKeyIndex f).data.length = none :=
        mpduDecrypt_short h.cipher _ _ (by rw [hi]; exact Nat.lt_of_not_le hlt)
      have hdata : (setKeyIndex f).data.length = f.len := hl
      rw [hdata, hkey] at hshort
      cases hshort
    obtain ⟨hdr, iv, crypt, mic, hp⟩ := exists_parts hroom
    obtain ⟨key, plain, hkey, hseal, rfl⟩ := (hp.setKeyIndex.decrypt_eq_some_iff h.setKeyIndex).mp hbs
    rw [henc, hhdr] at hseal
    exact ⟨hdr, iv, crypt, mic, plain, key, hp, hkey, hseal, rfl⟩
  · rintro ⟨hdr, iv, crypt, mic, plain, key, hp, hkey, hseal, rfl⟩
    have hlen := hp.len
    rw [← henc, ← hhdr] at hseal
    rw [decryptorIn_aes h (by omega),
      (hp.setKeyIndex.decrypt_eq_some_iff h.setKeyIndex).mpr ⟨key, plain, hkey, hseal, rfl⟩]
    rfl

end

/-- the access point 02:00:00:00:00:01 with the station 02:00:00:00:00:02 -/
def oneStation : Adapter := ({ mode := .ap, macAddr := [2, 0, 0, 0, 0, 1] } : Adapter).setSta [2, 0, 0, 0, 0, 2] {}

def staKeys : AesRxKeys := { dot118021xUncstKey := fun _ => List.replicate 16 7 }

/-- a frame of CCMP from the station -/
def ccmpMpdu (body : List UInt8) : RecvFrame where
  id := 0
  attrib :=
    { hdrlen := 26, ivLen := 8, icvLen := 8, encrypt := .aes
      ra := [2, 0, 0, 0, 0, 1], ta := [2, 0, 0, 0, 0, 2] }
  data := qosMpdu ++ qosMpduIv ++ body

/-- the frame that the station seals is opened -/
theorem decryptorIn_aes_iff_sealed : ∃ crypt mic, crypt.length = 2 ∧ mic.length = 8 ∧
    decryptorIn (staKeys.swDecrypt false rejectAll) staKeys.toRxKeys oneStation (ccmpMpdu (crypt ++ mic))
      = some (some { setKeyIndex (ccmpMpdu ([5, 6] ++ mic)) with
          attrib := { (setKeyIndex (ccmpMpdu ([5, 6] ++ mic))).attrib with bdecrypted := true } }) := by
  obtain ⟨⟨crypt, mic⟩, hseal⟩ := Option.isSome_iff_exists.mp
    (@mpduSeal_isSome false .aes (List.replicate 16 7) (qosMpdu ++ qosMpduIv) [5, 6] 26)
  obtain ⟨hcrypt, hmic⟩ := mpduSeal_length rfl hseal
  have hkey : staKeys.prwskey oneStation (setKeyIndex (ccmpMpdu (crypt ++ mic))) = some (List.replicate 16 7) := by
    have hta : (setKeyIndex (ccmpMpdu (crypt ++ mic))).attrib.ta = [2, 0, 0, 0, 0, 2] := rfl
    have hsta : oneStation.rtwGetStainfo [2, 0, 0, 0, 0, 2] = some {} := Adapter.rtwGetStainfo_setSta ..
    unfold AesRxKeys.prwskey
    have hra : (setKeyIndex (ccmpMpdu (crypt ++ mic))).attrib.ra = [2, 0, 0, 0, 0, 1] := rfl
    rw [hta, hra, hsta, if_neg (by decide), if_neg (by decide)]
    rfl
  refine ⟨crypt, mic, hcrypt, hmic, (decryptorIn_aes_iff ⟨rfl, (by decide : 24 ≤ 26), rfl, rfl⟩).mpr
    ⟨qosMpdu, qosMpduIv, crypt, mic, [5, 6], _, ⟨(List.append_assoc ..).symm, rfl, rfl, hmic⟩, hkey, hseal, ?_⟩⟩
  rfl

end Rtl8192eu
