import Rtl8192eu.Crypto.AesInternal
import Rtl8192eu.Crypto.Wrap
import Rtl8192eu.Lib.BlockMode

/-!
# CCM

`core/crypto/aes-ccm.c`: a MIC by chaining, and a counter for the text and for the MIC.

* `aesCcmAe`, `aesCcmAd`   encryption and decryption;
* `aesCcmAd_eq_some_iff`   the second accepts what the first makes of its own result, and nothing else;
* `ccmBlocks`   the blocks that are chained for the MIC (`ccmTag_eq`);
* `ccmBlocks_inj`   no two messages have the same.
-/

namespace Rtl8192eu

open BlockMode

namespace Ccm

/-! ## the blocks -/

/-- `L` -/
def lenSize : Nat := 2

/-- flags, nonce and length -/
def b0 (m : Nat) (nonce : List UInt8) (aadLen plainLen : Nat) : List UInt8 :=
  let flags := (if aadLen ≠ 0 then 0x40 else 0) ||| UInt8.ofNat ((m - 2) / 2) <<< (3 : UInt8)
    ||| UInt8.ofNat (lenSize - 1)
  flags :: (nonce.take (15 - lenSize) ++ wpaPutBe16 plainLen)

/-- `aad_buf` -/
def aadBuf (aad : List UInt8) : List UInt8 :=
  wpaPutBe16 aad.length ++ aad ++ List.replicate (2 * 16 - 2 - aad.length) 0

/-- `A_i` -/
def counterBlock (nonce : List UInt8) (i : Nat) : List UInt8 :=
  UInt8.ofNat (lenSize - 1) :: (nonce.take (15 - lenSize) ++ wpaPutBe16 i)

section
variable (E : List UInt8 → List UInt8) (m : Nat) (nonce : List UInt8)

/-- `aes_ccm_auth_start` -/
def authStart (aad : List UInt8) (plainLen : Nat) : List UInt8 :=
  let x := E (b0 m nonce aad.length plainLen)
  if aad.length = 0 then x
  else
    let x := E (xor ((aadBuf aad).take 16) x)
    if 16 - 2 < aad.length then E (xor ((aadBuf aad).drop 16) x) else x

/-- `aes_ccm_auth` -/
def auth (data x : List UInt8) : List UInt8 := chain 16 E (data.length / 16) x data

/-- `aes_ccm_encr` -/
def encr (data : List UInt8) : List UInt8 :=
  stream 16 (fun i => E (counterBlock nonce i)) (· + 1) (data.length / 16) 1 data

/-- `aes_ccm_encr_auth`, and `aes_ccm_decr_auth` -/
def encrAuth (x : List UInt8) : List UInt8 := xor (x.take m) (E (counterBlock nonce 0))

/-- the MIC before it is encrypted -/
def tag (plain aad : List UInt8) : List UInt8 := auth E plain (authStart E m nonce aad plain.length)

end

end Ccm

open Ccm Aes

/-- `none` is `-1` -/
def aesCcmAe (key : List UInt8) (keyLen : Nat) (nonce : List UInt8) (m : Nat) (plain aad : List UInt8) :
    Option (List UInt8 × List UInt8) :=
  if 30 < aad.length ∨ 16 < m then none
  else
    (aesEncryptInit key keyLen).map fun aes =>
      let E := aes.aesEncrypt
      let x := tag E m nonce plain aad
      (encr E nonce plain, encrAuth E m nonce x)

def aesCcmAd (key : List UInt8) (keyLen : Nat) (nonce : List UInt8) (m : Nat) (crypt aad auth : List UInt8) :
    Option (List UInt8) :=
  if 30 < aad.length ∨ 16 < m then none
  else
    (aesEncryptInit key keyLen).bind fun aes =>
      let E := aes.aesEncrypt
      let t := encrAuth E m nonce auth
      let plain := encr E nonce crypt
      let x := tag E m nonce plain aad
      if osMemcmpConst x t m ≠ 0 then none else some plain

/-! ## there and back -/

section
variable {E : List UInt8 → List UInt8} (hE : ∀ b, (E b).length = 16) {m : Nat} {nonce : List UInt8}

include hE

theorem length_encr (data : List UInt8) : (encr E nonce data).length = data.length :=
  length_stream (fun _ => hE _) _ _ _ (by omega)

theorem encr_encr (data : List UInt8) : encr E nonce (encr E nonce data) = data := by
  unfold encr
  have hlen : (encr E nonce data).length = data.length := length_encr hE data
  unfold encr at hlen
  rw [hlen]
  exact stream_stream (fun _ => hE _) _ _ _ (by omega) (by omega)

theorem length_authStart (aad : List UInt8) (plainLen : Nat) : (authStart E m nonce aad plainLen).length = 16 := by
  unfold authStart
  dsimp only
  split
  · exact hE _
  · split <;> exact hE _

theorem length_tag (plain aad : List UInt8) : (tag E m nonce plain aad).length = 16 :=
  length_chain hE _ _ _ (length_authStart hE aad plain.length)

theorem length_encrAuth (hm : m ≤ 16) {x : List UInt8} (hx : m ≤ x.length) :
    (encrAuth E m nonce x).length = m := by
  unfold encrAuth
  rw [length_xor, hE, List.length_take]
  omega

omit hE in
theorem encrAuth_take (x : List UInt8) : encrAuth E m nonce (x.take m) = encrAuth E m nonce x := by
  unfold encrAuth
  rw [List.take_take, Nat.min_self]

theorem encrAuth_encrAuth (hm : m ≤ 16) {x : List UInt8} (hx : m ≤ x.length) :
    encrAuth E m nonce (encrAuth E m nonce x) = x.take m := by
  have hlen : (encrAuth E m nonce x).length = m := length_encrAuth hE hm hx
  show xor ((encrAuth E m nonce x).take m) (E (counterBlock nonce 0)) = x.take m
  rw [List.take_of_length_le (Nat.le_of_eq hlen)]
  exact xor_xor (by rw [hE, List.length_take]; omega)

/-- a MIC and the one that is encrypted -/
theorem encrAuth_eq_iff (hm : m ≤ 16) {x a : List UInt8} (hx : m ≤ x.length) (ha : a.length = m) :
    encrAuth E m nonce x = a ↔ x.take m = encrAuth E m nonce a := by
  constructor
  · rintro rfl
    rw [encrAuth_encrAuth hE hm hx]
  · intro h
    rw [← encrAuth_take, h, encrAuth_encrAuth hE hm (Nat.le_of_eq ha.symm),
      List.take_of_length_le (Nat.le_of_eq ha)]

end

/-- what is accepted is what was made, and of that text only -/
theorem aesCcmAd_eq_some_iff (key : List UInt8) (keyLen : Nat) (nonce : List UInt8) {m : Nat}
    (crypt aad : List UInt8) {auth : List UInt8} (hauth : auth.length = m) (plain : List UInt8) :
    aesCcmAd key keyLen nonce m crypt aad auth = some plain
      ↔ aesCcmAe key keyLen nonce m plain aad = some (crypt, auth) := by
  unfold aesCcmAd aesCcmAe
  by_cases hbad : 30 < aad.length ∨ 16 < m
  · rw [if_pos hbad, if_pos hbad]
    simp
  · rw [if_neg hbad, if_neg hbad]
    have hm : m ≤ 16 := by omega
    cases aesEncryptInit key keyLen with
    | none => simp
    | some aes =>
      have hE := aes.length_aesEncrypt
      have hcmp : ∀ p,
          osMemcmpConst (tag aes.aesEncrypt m nonce p aad) (encrAuth aes.aesEncrypt m nonce auth) m = 0
            ↔ encrAuth aes.aesEncrypt m nonce (tag aes.aesEncrypt m nonce p aad) = auth := by
        intro p
        have htag : m ≤ (tag aes.aesEncrypt m nonce p aad).length := by
          rw [length_tag hE]
          exact hm
        rw [osMemcmpConst_take htag (length_encrAuth hE hm (Nat.le_of_eq hauth.symm)),
          encrAuth_eq_iff hE hm htag hauth]
      simp only [Option.bind_some, Option.map_some, Option.some.injEq, Prod.mk.injEq]
      constructor
      · intro h
        split at h
        · cases h
        · rename_i hz
          obtain rfl := Option.some.inj h
          exact ⟨encr_encr hE crypt, (hcmp _).mp (Decidable.not_not.mp hz)⟩
      · rintro ⟨rfl, hmic⟩
        rw [encr_encr hE plain, if_neg]
        exact not_not.mpr ((hcmp plain).mpr hmic)

theorem length_of_aesCcmAe {key : List UInt8} {keyLen : Nat} {nonce : List UInt8} {m : Nat}
    {plain aad : List UInt8} {r : List UInt8 × List UInt8}
    (h : aesCcmAe key keyLen nonce m plain aad = some r) : r.1.length = plain.length ∧ r.2.length = m := by
  unfold aesCcmAe at h
  split at h
  · cases h
  · rename_i hbad
    obtain ⟨aes, -, rfl⟩ := Option.map_eq_some_iff.mp h
    have hE := aes.length_aesEncrypt
    have hm : m ≤ 16 := by omega
    exact ⟨length_encr hE plain, length_encrAuth hE hm (by rw [length_tag hE]; exact hm)⟩

theorem length_of_aesCcmAd {key : List UInt8} {keyLen : Nat} {nonce : List UInt8} {m : Nat}
    {crypt aad auth plain : List UInt8} (h : aesCcmAd key keyLen nonce m crypt aad auth = some plain) :
    plain.length = crypt.length := by
  unfold aesCcmAd at h
  split at h
  · cases h
  · obtain ⟨aes, -, ha⟩ := Option.bind_eq_some_iff.mp h
    dsimp only at ha
    split at ha
    · cases ha
    · rw [← Option.some.inj ha]
      exact length_encr aes.length_aesEncrypt crypt

theorem aesCcmAe_isSome {key : List UInt8} {keyLen : Nat} {nonce : List UInt8} {m : Nat}
    {plain aad : List UInt8} (hkey : KeyLen keyLen) (hm : m ≤ 16) (haad : aad.length ≤ 30) :
    (aesCcmAe key keyLen nonce m plain aad).isSome = true := by
  unfold aesCcmAe
  rw [if_neg (by omega), Option.isSome_map]
  exact (aesEncryptInit_isSome key keyLen).mpr hkey

/-! ## what the MIC is made of -/

/-- the additional data, with its length -/
def aadEncoded (aad : List UInt8) : List UInt8 := if aad.length = 0 then [] else wpaPutBe16 aad.length ++ aad

/-- the blocks of a message -/
def ccmBlocks (m : Nat) (nonce plain aad : List UInt8) : List (List UInt8) :=
  b0 m nonce aad.length plain.length :: (filled 16 (aadEncoded aad) ++ filled 16 plain)

theorem length_b0 (m : Nat) {nonce : List UInt8} (hn : nonce.length = 13) (aadLen plainLen : Nat) :
    (b0 m nonce aadLen plainLen).length = 16 := by
  show (nonce.take 13 ++ wpaPutBe16 plainLen).length + 1 = 16
  rw [List.length_append, List.length_take, hn]
  rfl

/-- the blocks of the additional data -/
theorem take_aadBuf {aad : List UInt8} {k : Nat} (h : numBlocks 16 (wpaPutBe16 aad.length ++ aad).length = k)
    (hk : k ≤ 2) : (aadBuf aad).take (k * 16) = fill 16 (wpaPutBe16 aad.length ++ aad) := by
  have hlen : (wpaPutBe16 aad.length ++ aad).length = aad.length + 2 := by
    rw [List.length_append]
    exact Nat.add_comm 2 _
  have hle : aad.length + 2 ≤ k * 16 := by
    rw [hlen] at h
    unfold numBlocks at h
    omega
  unfold aadBuf
  rw [fill_of_blocks h, List.take_append, List.take_of_length_le (by omega), List.take_replicate, hlen]
  congr 2
  omega

theorem authStart_eq (E : List UInt8 → List UInt8) (m : Nat) (nonce : List UInt8) {aad : List UInt8}
    (haad : aad.length ≤ 30) (plainLen : Nat) : authStart E m nonce aad plainLen
      = cbc E (E (b0 m nonce aad.length plainLen)) (filled 16 (aadEncoded aad)) := by
  have hlen : (wpaPutBe16 aad.length ++ aad).length = aad.length + 2 := by
    rw [List.length_append]
    exact Nat.add_comm 2 _
  unfold authStart aadEncoded filled
  dsimp only
  by_cases h0 : aad.length = 0
  · rw [if_pos h0, if_pos h0]
    rfl
  · rw [if_neg h0, if_neg h0]
    by_cases h14 : 16 - 2 < aad.length
    · have hnum : numBlocks 16 (wpaPutBe16 aad.length ++ aad).length = 2 := by
        rw [hlen]
        unfold numBlocks
        omega
      have hbuf := take_aadBuf hnum (le_refl 2)
      have hall : (aadBuf aad).length = 32 := by
        unfold aadBuf
        rw [List.length_append, hlen, List.length_replicate]
        omega
      rw [List.take_of_length_le (by omega)] at hbuf
      rw [if_pos h14, hnum, ← hbuf, blocks_succ, blocks_succ, cbc_cons, cbc_cons,
        List.take_of_length_le (i := 16) (l := (aadBuf aad).drop 16) (by rw [List.length_drop]; omega),
        BlockMode.xor_comm (a := (aadBuf aad).drop 16), BlockMode.xor_comm (a := (aadBuf aad).take 16)]
      rfl
    · have hnum : numBlocks 16 (wpaPutBe16 aad.length ++ aad).length = 1 := by
        rw [hlen]
        unfold numBlocks
        omega
      have hbuf := take_aadBuf hnum (by omega)
      rw [if_neg h14, hnum, ← hbuf, blocks_succ, cbc_cons, List.take_take, BlockMode.xor_comm]
      rfl

/-- the MIC is the chain over them -/
theorem ccmTag_eq {E : List UInt8 → List UInt8} (hE : ∀ b, (E b).length = 16) (m : Nat)
    {nonce : List UInt8} (plain : List UInt8) {aad : List UInt8} (hn : nonce.length = 13)
    (haad : aad.length ≤ 30) :
    tag E m nonce plain aad = cbc E (List.replicate 16 0) (ccmBlocks m nonce plain aad) := by
  unfold tag auth ccmBlocks
  rw [chain_eq (by omega) hE _ _ (length_authStart hE aad plain.length), authStart_eq E m nonce haad, cbc_cons,
    cbc_append, zeros_xor (length_b0 m hn _ _)]
  rfl

/-- the length stands in front of the additional data -/
theorem aadEncoded_inj {aad aad' : List UInt8} (ha : 0 < aad.length ∧ aad.length < 65536)
    (ha' : 0 < aad'.length ∧ aad'.length < 65536)
    (h : filled 16 (aadEncoded aad) = filled 16 (aadEncoded aad')) : aad = aad' := by
  unfold aadEncoded at h
  rw [if_neg (Nat.ne_of_gt ha.1), if_neg (Nat.ne_of_gt ha'.1)] at h
  have hflat := congrArg List.flatten h
  rw [flatten_filled (by omega), flatten_filled (by omega)] at hflat
  unfold fill at hflat
  rw [List.append_assoc, List.append_assoc] at hflat
  have hlen := wpaPutBe16_inj ha.2 ha'.2 (List.append_inj hflat rfl).1
  have henc : (wpaPutBe16 aad.length ++ aad).length = (wpaPutBe16 aad'.length ++ aad').length := by
    rw [List.length_append, List.length_append, hlen]
  exact (List.append_inj (filled_inj (by omega) henc h) rfl).2

/-- no other message has the same blocks -/
theorem ccmBlocks_inj {m : Nat} {nonce nonce' plain plain' aad aad' : List UInt8}
    (hn : nonce.length = 13) (hn' : nonce'.length = 13)
    (hp : plain.length < 65536) (hp' : plain'.length < 65536)
    (ha : 0 < aad.length ∧ aad.length < 65536) (ha' : 0 < aad'.length ∧ aad'.length < 65536) :
    ccmBlocks m nonce plain aad = ccmBlocks m nonce' plain' aad'
      ↔ nonce = nonce' ∧ plain = plain' ∧ aad = aad' := by
  constructor
  · intro h
    unfold ccmBlocks at h
    obtain ⟨hb0, hrest⟩ := List.cons.inj h
    obtain ⟨-, htail⟩ := List.cons.inj hb0
    have htake : nonce.take (15 - lenSize) = nonce ∧ nonce'.take (15 - lenSize) = nonce' :=
      ⟨List.take_of_length_le (Nat.le_of_eq hn), List.take_of_length_le (Nat.le_of_eq hn')⟩
    rw [htake.1, htake.2] at htail
    obtain ⟨hnonce, hlen⟩ := List.append_inj htail (hn.trans hn'.symm)
    have hplen : plain.length = plain'.length := wpaPutBe16_inj hp hp' hlen
    have hnum : (filled 16 plain).length = (filled 16 plain').length := by
      rw [length_filled, length_filled, hplen]
    obtain ⟨haad, hplain⟩ := List.append_inj' hrest hnum
    exact ⟨hnonce, filled_inj (by omega) hplen hplain, aadEncoded_inj ha ha' haad⟩
  · rintro ⟨rfl, rfl, rfl⟩
    rfl

end Rtl8192eu
