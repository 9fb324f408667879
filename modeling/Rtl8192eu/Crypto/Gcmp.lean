import Rtl8192eu.Crypto.Ccmp
import Rtl8192eu.Crypto.Gcm

/-!
# GCMP

`core/crypto/gcmp.c`, and `_rtw_gcmp_encrypt` and `_rtw_gcmp_decrypt` of `core/rtw_swcrypto.c`: the frames
of CCMP, under another mode. Here the bit for a protected frame is authenticated as it is.

* `gcmpAadNonce`   additional data and nonce (`gcmpAadNonce_eq_iff`);
* `rtwGcmpEncrypt`, `rtwGcmpDecrypt`   a frame in its buffer;
* `rtwGcmpDecrypt_iff`   a frame is opened just when the sender makes it of the same text;
* `rtwGcmpDecrypt_changed`   a frame that was changed on the way is opened for few hash keys.
-/

namespace Rtl8192eu

open BlockMode Gcm Mem Mpdu

def gcmpAadNonce (spp : Bool) (hdr data : Nat → UInt8) : List UInt8 × List UInt8 :=
  (aadHdr spp true hdr, read hdr 10 6 ++ pnOf data)

/-- `gcmp_encrypt`, with the packet number in the frame (`pn` is `NULL`) -/
def gcmpEncrypt (spp : Bool) (tk : List UInt8) (keyLen : Nat) (frame : List UInt8) (len hdrlen : Nat) :
    Option (List UInt8) :=
  if len < hdrlen ∨ hdrlen < 24 then none
  else
    let plen := len - hdrlen
    let crypt := frame.take (hdrlen + 8)
    let pdata := (frame.drop (hdrlen + 8)).take plen
    let an := gcmpAadNonce spp (at0 crypt) (shift (at0 crypt) hdrlen)
    (aesGcmAe tk keyLen an.2 pdata an.1).map fun r => crypt ++ r.1 ++ r.2

/-- `gcmp_decrypt`; `data` is what follows the header -/
def gcmpDecrypt (spp : Bool) (tk : List UInt8) (keyLen : Nat) (hdr data : Nat → UInt8) (dataLen : Nat) :
    Option (List UInt8) :=
  if dataLen < 8 + 16 then none
  else
    let mlen := dataLen - 8 - 16
    let an := gcmpAadNonce spp hdr data
    aesGcmAd tk keyLen an.2 (read data 8 mlen) an.1 (read data (8 + mlen) 16)

/-- `_rtw_gcmp_encrypt`; the result is copied back over the frame -/
def rtwGcmpEncrypt (spp : Bool) (key : List UInt8) (keyLen hdrlen : Nat) (frame : List UInt8) (plen : Nat) :
    Option (List UInt8) :=
  gcmpEncrypt spp key keyLen frame (hdrlen + plen) hdrlen

/-- `_rtw_gcmp_decrypt`, with the length of the frame; for a length below `hdrlen` the difference wraps,
and as much cannot be allocated -/
def rtwGcmpDecrypt (spp : Bool) (key : List UInt8) (keyLen hdrlen : Nat) (frame : List UInt8) (plen : Nat) :
    Option (List UInt8) :=
  if hdrlen ≤ plen then
    (gcmpDecrypt spp key keyLen (at0 frame) (shift (at0 frame) hdrlen) (plen - hdrlen)).map fun plain =>
      frame.take (hdrlen + 8) ++ plain ++ frame.drop (hdrlen + 8 + plain.length)
  else none

/-- additional data and nonce of two frames -/
theorem gcmpAadNonce_eq_iff {spp : Bool} {h h' d d' : Nat → UInt8} :
    gcmpAadNonce spp h d = gcmpAadNonce spp h' d' ↔ SameProtected spp true h h' ∧ pnOf d = pnOf d' := by
  unfold gcmpAadNonce
  rw [Prod.mk.injEq, aadHdr_eq_iff]
  refine and_congr_right fun hs => ?_
  rw [hs.a2, List.append_cancel_left_eq]

section
variable {spp : Bool} {key : List UInt8} {keyLen : Nat} {hdr hdr0 iv crypt mic plain : List UInt8}

/-- the sender, part by part -/
theorem rtwGcmpEncrypt_eq (h24 : 24 ≤ hdr.length) (hiv : iv.length = 8) :
    rtwGcmpEncrypt spp key keyLen hdr.length (hdr ++ iv ++ plain) plain.length
      = let an := gcmpAadNonce spp (at0 (hdr ++ iv)) (at0 iv)
        (aesGcmAe key keyLen an.2 plain an.1).map fun r => hdr ++ iv ++ r.1 ++ r.2 := by
  have hl : (hdr ++ iv).length = hdr.length + 8 := by rw [List.length_append, hiv]
  unfold rtwGcmpEncrypt gcmpEncrypt
  rw [if_neg (by omega)]
  dsimp only
  rw [Nat.add_sub_cancel_left, List.take_left' hl, List.drop_left' hl, List.take_length, shift_at0 rfl]

/-- the receiver, part by part -/
theorem rtwGcmpDecrypt_eq (h24 : 24 ≤ hdr.length) (hiv : iv.length = 8) (hmic : mic.length = 16) :
    rtwGcmpDecrypt spp key keyLen hdr.length (hdr ++ iv ++ crypt ++ mic) (hdr ++ iv ++ crypt ++ mic).length
      = let an := gcmpAadNonce spp (at0 (hdr ++ iv)) (at0 iv)
        (aesGcmAd key keyLen an.2 crypt an.1 mic).map fun plain =>
          hdr ++ iv ++ plain ++ (crypt ++ mic).drop plain.length := by
  have hl : (hdr ++ iv).length = hdr.length + 8 := by rw [List.length_append, hiv]
  have hlen : (hdr ++ iv ++ crypt ++ mic).length = hdr.length + (8 + crypt.length + 16) := by
    rw [List.length_append, List.length_append, hl, hmic]
    omega
  have han : gcmpAadNonce spp (at0 (hdr ++ iv ++ crypt ++ mic)) (at0 (iv ++ crypt ++ mic))
      = gcmpAadNonce spp (at0 (hdr ++ iv)) (at0 iv) :=
    gcmpAadNonce_eq_iff.mpr ⟨sameProtected_parts spp true h24 hiv, pnOf_parts hiv⟩
  unfold rtwGcmpDecrypt gcmpDecrypt
  rw [if_pos (by omega), hlen, Nat.add_sub_cancel_left, shift_parts, han]
  dsimp only
  rw [if_neg (by omega), show 8 + crypt.length + 16 - 8 - 16 = crypt.length by omega, read_body hiv, ← hmic,
    read_mic hiv]
  congr 1
  funext p
  rw [List.append_assoc (hdr ++ iv) crypt mic, List.take_left' hl, ← List.drop_drop, List.drop_left' hl]

/-- **What the receiver opens is what the sender made**, for every key, and for every header that differs
from the sender's in nothing that is authenticated. -/
theorem rtwGcmpDecrypt_iff (h24 : 24 ≤ hdr.length) (hlen : hdr0.length = hdr.length) (hiv : iv.length = 8)
    (hmic : mic.length = 16) (hsame : SameProtected spp true (at0 (hdr0 ++ iv)) (at0 (hdr ++ iv))) :
    rtwGcmpDecrypt spp key keyLen hdr.length (hdr ++ iv ++ crypt ++ mic) (hdr ++ iv ++ crypt ++ mic).length
        = some (hdr ++ iv ++ plain ++ mic)
      ↔ rtwGcmpEncrypt spp key keyLen hdr0.length (hdr0 ++ iv ++ plain) plain.length
        = some (hdr0 ++ iv ++ crypt ++ mic) := by
  rw [rtwGcmpDecrypt_eq h24 hiv hmic, rtwGcmpEncrypt_eq (by omega) hiv]
  have han : gcmpAadNonce spp (at0 (hdr0 ++ iv)) (at0 iv) = gcmpAadNonce spp (at0 (hdr ++ iv)) (at0 iv) :=
    gcmpAadNonce_eq_iff.mpr ⟨hsame, rfl⟩
  rw [han]
  dsimp only
  generalize gcmpAadNonce spp (at0 (hdr ++ iv)) (at0 iv) = an
  have hiff := aesGcmAd_eq_some_iff key keyLen an.2 crypt an.1 hmic
  rw [opened_iff fun p hp => (length_of_aesGcmAe ((hiff p).mp hp)).1.symm,
    sealed_iff fun r hr => (length_of_aesGcmAe hr).2.trans hmic.symm]
  exact hiff plain

/-- the sender succeeds, and any receiver with its key has the text -/
theorem rtwGcmpEncrypt_opens (spp : Bool) (key plain : List UInt8) (hkey : Aes.KeyLen keyLen)
    (h24 : 24 ≤ hdr0.length) (hiv : iv.length = 8) :
    ∃ crypt mic, crypt.length = plain.length ∧ mic.length = 16
      ∧ rtwGcmpEncrypt spp key keyLen hdr0.length (hdr0 ++ iv ++ plain) plain.length
        = some (hdr0 ++ iv ++ crypt ++ mic)
      ∧ ∀ hdr, hdr.length = hdr0.length → SameProtected spp true (at0 (hdr0 ++ iv)) (at0 (hdr ++ iv)) →
        rtwGcmpDecrypt spp key keyLen hdr.length (hdr ++ iv ++ crypt ++ mic)
          (hdr ++ iv ++ crypt ++ mic).length = some (hdr ++ iv ++ plain ++ mic) := by
  have hsome : (let an := gcmpAadNonce spp (at0 (hdr0 ++ iv)) (at0 iv)
      aesGcmAe key keyLen an.2 plain an.1).isSome = true := aesGcmAe_isSome hkey
  obtain ⟨⟨crypt, mic⟩, hr⟩ := Option.isSome_iff_exists.mp hsome
  obtain ⟨hcrypt, hmic⟩ := length_of_aesGcmAe hr
  have henc : rtwGcmpEncrypt spp key keyLen hdr0.length (hdr0 ++ iv ++ plain) plain.length
      = some (hdr0 ++ iv ++ crypt ++ mic) := by
    rw [rtwGcmpEncrypt_eq h24 hiv]
    exact congrArg (Option.map _) hr
  refine ⟨crypt, mic, hcrypt, hmic, henc, fun hdr hlen hsame => ?_⟩
  exact (rtwGcmpDecrypt_iff (by omega) hlen.symm hiv hmic hsame).mpr henc

end

/-! ## changed on the way -/

/-- the additional data fills two blocks -/
theorem length_hashed_aadHdr (spp prot : Bool) (h : Nat → UInt8) (crypt : List UInt8) :
    (hashed (aadHdr spp prot h) crypt).length = numBlocks 16 crypt.length + 3 := by
  have haad := length_aadHdr spp prot h
  have hnum : numBlocks 16 (aadHdr spp prot h).length = 2 := by
    unfold numBlocks
    omega
  unfold hashed
  rw [List.length_append, List.length_append, length_filled, length_filled, hnum, List.length_singleton]
  omega

/-- **A frame that was changed on the way**, in its text or in what is authenticated of its header, with any MIC,
under the sender's address and packet number: the receiver opens it for at most as many values of the hash key
as the longer frame has blocks, out of 2^128, and which these are does not depend on the key. -/
theorem rtwGcmpDecrypt_changed (spp : Bool) {hdr iv crypt mic hdr' iv' crypt' mic' : List UInt8}
    (h24 : 24 ≤ hdr.length) (h24' : 24 ≤ hdr'.length) (hiv : iv.length = 8) (hiv' : iv'.length = 8)
    (hmic : mic.length = 16) (hmic' : mic'.length = 16) (hc : crypt.length < 2 ^ 61) (hc' : crypt'.length < 2 ^ 61)
    (ha2 : read (at0 (hdr' ++ iv')) 10 6 = read (at0 (hdr ++ iv)) 10 6) (hpn : pnOf (at0 iv') = pnOf (at0 iv))
    (hne : ¬(SameProtected spp true (at0 (hdr' ++ iv')) (at0 (hdr ++ iv)) ∧ crypt' = crypt)) :
    ∃ S : Set (List UInt8), S.encard ≤ (numBlocks 16 (max crypt'.length crypt.length) + 3 : Nat)
      ∧ ∀ key keyLen plain aes, aesEncryptInit key keyLen = some aes →
        rtwGcmpEncrypt spp key keyLen hdr.length (hdr ++ iv ++ plain) plain.length
          = some (hdr ++ iv ++ crypt ++ mic) →
        ((rtwGcmpDecrypt spp key keyLen hdr'.length (hdr' ++ iv' ++ crypt' ++ mic')
            (hdr' ++ iv' ++ crypt' ++ mic').length).isSome = true
          ↔ aes.aesEncrypt (List.replicate 16 0) ∈ S) := by
  have haad := length_aadHdr spp true (at0 (hdr ++ iv))
  have haad' := length_aadHdr spp true (at0 (hdr' ++ iv'))
  have hnonce : (gcmpAadNonce spp (at0 (hdr' ++ iv')) (at0 iv')).2 = (gcmpAadNonce spp (at0 (hdr ++ iv)) (at0 iv)).2 := by
    unfold gcmpAadNonce
    rw [ha2, hpn]
  have hparts : ¬(aadHdr spp true (at0 (hdr' ++ iv')) = aadHdr spp true (at0 (hdr ++ iv)) ∧ crypt' = crypt) :=
    fun h => hne ⟨aadHdr_eq_iff.mp h.1, h.2⟩
  obtain ⟨S, hS, hmem⟩ := aesGcmAd_changed (by omega) hc (by omega) hc' hmic hmic' hparts
  refine ⟨S, hS.trans ?_, fun key keyLen plain aes haes henc => ?_⟩
  · rw [length_hashed_aadHdr, length_hashed_aadHdr, Nat.cast_le]
    unfold numBlocks
    omega
  · rw [rtwGcmpEncrypt_eq h24 hiv] at henc
    have hr := (sealed_iff fun r hr => (length_of_aesGcmAe hr).2.trans hmic.symm).mp henc
    rw [rtwGcmpDecrypt_eq h24' hiv' hmic', Option.isSome_map, hnonce]
    exact hmem key keyLen _ plain aes haes hr

/-! ## a frame that is sent again, and one that is not the same -/

theorem qosMpdu_sameProtected :
    SameProtected false true (at0 (qosMpdu ++ qosMpduIv)) (at0 (qosMpduAgain ++ qosMpduIv)) :=
  aadHdr_eq_iff.mp (by decide)

theorem rtwGcmpDecrypt_iff_again :
    ∃ crypt mic, crypt.length = 2 ∧ mic.length = 16 ∧
      rtwGcmpEncrypt false (List.replicate 32 7) 32 qosMpdu.length (qosMpdu ++ qosMpduIv ++ [5, 6]) 2
        = some (qosMpdu ++ qosMpduIv ++ crypt ++ mic)
      ∧ rtwGcmpDecrypt false (List.replicate 32 7) 32 qosMpduAgain.length
          (qosMpduAgain ++ qosMpduIv ++ crypt ++ mic) (qosMpduAgain ++ qosMpduIv ++ crypt ++ mic).length
        = some (qosMpduAgain ++ qosMpduIv ++ [5, 6] ++ mic) := by
  obtain ⟨crypt, mic, hcrypt, hmic, henc, -⟩ := rtwGcmpEncrypt_opens false (List.replicate 32 7) [5, 6]
    (show Aes.KeyLen 32 by decide) (show 24 ≤ qosMpdu.length by decide) (show qosMpduIv.length = 8 from rfl)
  exact ⟨crypt, mic, hcrypt, hmic, henc,
    (rtwGcmpDecrypt_iff (by decide) (by decide) (by decide) hmic qosMpdu_sameProtected).mpr henc⟩

theorem rtwGcmpDecrypt_changed_text :
    ∃ S : Set (List UInt8), S.encard ≤ (numBlocks 16 (max ([1, 3] : List UInt8).length ([1, 2] : List UInt8).length) + 3 : Nat)
      ∧ ∀ key keyLen plain aes, aesEncryptInit key keyLen = some aes →
        rtwGcmpEncrypt false key keyLen qosMpdu.length (qosMpdu ++ qosMpduIv ++ plain) plain.length
          = some (qosMpdu ++ qosMpduIv ++ [1, 2] ++ List.replicate 16 9) →
        ((rtwGcmpDecrypt false key keyLen qosMpduAgain.length
            (qosMpduAgain ++ qosMpduIv ++ [1, 3] ++ List.replicate 16 8)
            (qosMpduAgain ++ qosMpduIv ++ [1, 3] ++ List.replicate 16 8).length).isSome = true
          ↔ aes.aesEncrypt (List.replicate 16 0) ∈ S) :=
  rtwGcmpDecrypt_changed false (by decide) (by decide) (by decide) (by decide) (by decide) (by decide) (by decide)
    (by decide) (by decide) (by decide) fun h => absurd h.2 (by decide)

end Rtl8192eu
