import Mathlib.Tactic.IntervalCases
import Rtl8192eu.Crypto.Ccm
import Rtl8192eu.Lib.Mem

/-!
# CCMP

`core/crypto/ccmp.c`, and `_rtw_ccmp_encrypt` and `_rtw_ccmp_decrypt` of `core/rtw_swcrypto.c`: a data
frame or a management frame, with its packet number in the eight bytes behind the header.

* `aadHdr`, `ccmpAadNonce`   what is authenticated of the header;
* `SameProtected`   two headers that agree in that (`ccmpAadNonce_eq_iff`);
* `rtwCcmpEncrypt`, `rtwCcmpDecrypt`   a frame in its buffer, for both lengths of a key;
* `rtwCcmpDecrypt_iff`   a frame is opened just when the sender makes it of the same text.
-/

namespace Rtl8192eu

open BlockMode Ccm Mem

/-! ## the header -/

namespace Mpdu

/-- the bytes at a pointer to the front of `l` -/
def at0 (l : List UInt8) : Nat → UInt8 := fun i => l.getD i 0

/-- `frame_control`, as `le_to_host16` gives it -/
def fcOf (hdr : Nat → UInt8) : UInt16 := (hdr 0).toUInt16 ||| (hdr 1).toUInt16 <<< (8 : UInt16)

/-- `WPA_PUT_LE16` -/
def wpaPutLe16 (val : UInt16) : List UInt8 := [val.toUInt8, (val >>> (8 : UInt16)).toUInt8]

/-- `addr4` -/
def fcAddr4 (fc : UInt16) : Bool := fc &&& 0x0300 = 0x0300

def fcData (fc : UInt16) : Bool := fc &&& 0x000c = 0x0008

def fcMgmt (fc : UInt16) : Bool := fc &&& 0x000c = 0x0000

/-- `qos` -/
def fcQos (fc : UInt16) : Bool := fcData fc && fc &&& 0x00f0 &&& 0x0080 ≠ 0

/-- the bits that a station on the way may change are muted -/
def fcMasked (fc : UInt16) : UInt16 :=
  let masked := if fcData fc then fc &&& ~~~0x0070 else fc
  let masked := if fcQos fc then masked &&& ~~~0x8000 else masked
  masked &&& ~~~0x3800

/-- the field as the MIC has it; `prot` is whether the bit for a protected frame counts -/
def fcAad (prot : Bool) (fc : UInt16) : UInt16 := if prot then fcMasked fc else fcMasked fc ||| 0x4000

/-- where the QoS control field is -/
def qcOff (fc : UInt16) : Nat := if fcAddr4 fc then 30 else 24

/-- `spp` is `RTW_AMSDU_MODE_SPP` -/
def qosMasked (spp : Bool) (qc : UInt8) : UInt8 :=
  let masked := qc &&& ~~~0x70
  if spp then masked else masked &&& ~~~0x80

/-- the additional data -/
def aadHdr (spp prot : Bool) (hdr : Nat → UInt8) : List UInt8 :=
  wpaPutLe16 (fcAad prot (fcOf hdr)) ++ read hdr 4 18 ++ [hdr 22 &&& 0x0f, 0]
    ++ (if fcAddr4 (fcOf hdr) then read hdr 24 6 else [])
    ++ if fcQos (fcOf hdr) then [qosMasked spp (hdr (qcOff (fcOf hdr))), 0] else []

/-- the packet number, its last byte first -/
def pnOf (data : Nat → UInt8) : List UInt8 := [data 7, data 6, data 5, data 4, data 1, data 0]

end Mpdu

open Mpdu

/-- additional data and nonce -/
def ccmpAadNonce (spp : Bool) (hdr data : Nat → UInt8) : List UInt8 × List UInt8 :=
  let fc := fcOf hdr
  let n0 := if fcQos fc then hdr (qcOff fc) &&& 0x0f else if fcMgmt fc then 0x10 else 0
  (aadHdr spp false hdr, n0 :: (read hdr 10 6 ++ pnOf data))

/-! ## frames -/

/-- `hdr->frame_control |= host_to_le16(WLAN_FC_ISWEP)` -/
def setIswep (hdr : List UInt8) : List UInt8 := hdr.set 1 (hdr.getD 1 0 ||| 0x40)

/-- the length of a MIC for a key of `keyLen` bytes -/
def ccmpMicLen (keyLen : Nat) : Nat := if keyLen = 16 then 8 else 16

/-- `ccmp_encrypt` and `ccmp_256_encrypt`, with the packet number in the frame (`pn` is `NULL`) -/
def ccmpEncrypt (spp : Bool) (tk : List UInt8) (keyLen : Nat) (frame : List UInt8) (len hdrlen : Nat) :
    Option (List UInt8) :=
  if len < hdrlen ∨ hdrlen < 24 then none
  else
    let plen := len - hdrlen
    let crypt := setIswep (frame.take (hdrlen + 8))
    let pdata := (frame.drop (hdrlen + 8)).take plen
    let an := ccmpAadNonce spp (at0 crypt) (shift (at0 crypt) hdrlen)
    (aesCcmAe tk keyLen an.2 (ccmpMicLen keyLen) pdata an.1).map fun r => crypt ++ r.1 ++ r.2

/-- `ccmp_decrypt` and `ccmp_256_decrypt`; `data` is what follows the header -/
def ccmpDecrypt (spp : Bool) (tk : List UInt8) (keyLen : Nat) (hdr data : Nat → UInt8) (dataLen : Nat) :
    Option (List UInt8) :=
  let micLen := ccmpMicLen keyLen
  if dataLen < 8 + micLen then none
  else
    let mlen := dataLen - 8 - micLen
    let an := ccmpAadNonce spp hdr data
    aesCcmAd tk keyLen an.2 micLen (read data 8 mlen) an.1 (read data (8 + mlen) micLen)

/-- `_rtw_ccmp_encrypt`; the result is copied back over the frame -/
def rtwCcmpEncrypt (spp : Bool) (key : List UInt8) (keyLen hdrlen : Nat) (frame : List UInt8) (plen : Nat) :
    Option (List UInt8) :=
  if keyLen = 16 ∨ keyLen = 32 then ccmpEncrypt spp key keyLen frame (hdrlen + plen) hdrlen else none

/-- `_rtw_ccmp_decrypt`, with the length of the frame; for a length below `hdrlen` the difference wraps,
and as much cannot be allocated -/
def rtwCcmpDecrypt (spp : Bool) (key : List UInt8) (keyLen hdrlen : Nat) (frame : List UInt8) (plen : Nat) :
    Option (List UInt8) :=
  if (keyLen = 16 ∨ keyLen = 32) ∧ hdrlen ≤ plen then
    (ccmpDecrypt spp key keyLen (at0 frame) (shift (at0 frame) hdrlen) (plen - hdrlen)).map fun plain =>
      frame.take (hdrlen + 8) ++ plain ++ frame.drop (hdrlen + 8 + plain.length)
  else none

namespace Mpdu

/-! ## what is authenticated of the header -/

/-- the bits of `frame_control` -/
def fcBit (fc : UInt16) (i : Nat) : Bool := fc.toBitVec.getLsbD i

/-- what two headers have in common that are authenticated as the same -/
structure SameProtected (spp prot : Bool) (h h' : Nat → UInt8) : Prop where
  /-- version, type, the QoS bit, the DS bits and the fragment bit -/
  bits : ∀ i ∈ [0, 1, 2, 3, 7, 8, 9, 10], fcBit (fcOf h) i = fcBit (fcOf h') i
  bit14 : prot = true → fcBit (fcOf h) 14 = fcBit (fcOf h') 14
  subtype : fcData (fcOf h) = false → ∀ i ∈ [4, 5, 6], fcBit (fcOf h) i = fcBit (fcOf h') i
  order : fcQos (fcOf h) = false → fcBit (fcOf h) 15 = fcBit (fcOf h') 15
  addrs : read h 4 18 = read h' 4 18
  fragnum : h 22 &&& 0x0f = h' 22 &&& 0x0f
  a4 : fcAddr4 (fcOf h) = true → read h 24 6 = read h' 24 6
  qos : fcQos (fcOf h) = true → qosMasked spp (h (qcOff (fcOf h))) = qosMasked spp (h' (qcOff (fcOf h')))

section
variable {fc fc' : UInt16}

theorem uint16_ext (h : ∀ i < 16, fcBit fc i = fcBit fc' i) : fc = fc' :=
  UInt16.toBitVec_inj.mp (BitVec.eq_of_getLsbD_eq h)

/-- the two bits of the type -/
theorem fcType_iff (b3 b2 : Bool) :
    fc &&& 0x000c = (if b3 then 8 else 0) ||| (if b2 then 4 else 0) ↔ fcBit fc 3 = b3 ∧ fcBit fc 2 = b2 := by
  constructor
  · intro h
    have h3 := congrArg (fcBit · 3) h
    have h2 := congrArg (fcBit · 2) h
    cases b3 <;> cases b2 <;> exact ⟨by simpa [fcBit] using h3, by simpa [fcBit] using h2⟩
  · rintro ⟨rfl, rfl⟩
    apply uint16_ext
    intro i hi
    unfold fcBit
    cases h3 : fc.toBitVec.getLsbD 3 <;> cases h2 : fc.toBitVec.getLsbD 2 <;> interval_cases i <;> simp_all

theorem fcData_eq : fcData fc = (fcBit fc 3 && !fcBit fc 2) := by
  rw [Bool.eq_iff_iff, fcData, decide_eq_true_iff, Bool.and_eq_true, Bool.not_eq_true']
  exact fcType_iff true false

theorem fcAddr4_eq : fcAddr4 fc = (fcBit fc 8 && fcBit fc 9) := by
  rw [Bool.eq_iff_iff, fcAddr4, decide_eq_true_iff, Bool.and_eq_true]
  constructor
  · intro h
    have h8 := congrArg (fcBit · 8) h
    have h9 := congrArg (fcBit · 9) h
    exact ⟨by simpa [fcBit] using h8, by simpa [fcBit] using h9⟩
  · rintro ⟨h8, h9⟩
    have h8' : fc.toBitVec[8] = true := by simpa [fcBit] using h8
    have h9' : fc.toBitVec[9] = true := by simpa [fcBit] using h9
    apply uint16_ext
    intro i hi
    unfold fcBit
    interval_cases i <;> simp [h8', h9']

theorem fcQos_eq : fcQos fc = (fcData fc && fcBit fc 7) := by
  have h7 : decide (fc &&& 0x00f0 &&& 0x0080 ≠ 0) = fcBit fc 7 := by
    rw [Bool.eq_iff_iff, decide_eq_true_iff]
    constructor
    · intro h
      by_contra hb
      have hb' : fc.toBitVec[7] = false := by simpa [fcBit] using hb
      refine h (uint16_ext fun i hi => ?_)
      unfold fcBit
      interval_cases i <;> simp [hb']
    · intro h hz
      have hb : fcBit (fc &&& 0x00f0 &&& 0x0080) 7 = fcBit 0 7 := congrArg (fcBit · 7) hz
      have hb' : fcBit (fc &&& 0x00f0 &&& 0x0080) 7 = fcBit fc 7 := by simp [fcBit]
      rw [hb', h] at hb
      cases hb
  unfold fcQos
  rw [h7]

theorem length_wpaPutLe16 (val : UInt16) : (wpaPutLe16 val).length = 2 := rfl

theorem wpaPutLe16_inj (h : wpaPutLe16 fc = wpaPutLe16 fc') : fc = fc' := by
  obtain ⟨hlo, hrest⟩ := List.cons.inj h
  have hhi := (List.cons.inj hrest).1
  apply uint16_ext
  intro i hi
  unfold fcBit
  by_cases h8 : i < 8
  · have := congrArg (fun c : UInt8 => c.toBitVec.getLsbD i) hlo
    simpa [h8] using this
  · have := congrArg (fun c : UInt8 => c.toBitVec.getLsbD (i - 8)) hhi
    have h8' : i - 8 < 8 := by omega
    have hadd : 8 + (i - 8) = i := by omega
    simpa [h8', hadd] using this

/-- every bit of the masked field -/
theorem fcBit_masked {i : Nat} (hi : i < 16) : fcBit (fcMasked fc) i
    = (fcBit fc i && !((11 ≤ i && i ≤ 13) || (fcData fc && (4 ≤ i && i ≤ 6)) || (fcQos fc && i = 15))) := by
  unfold fcMasked fcBit
  dsimp only
  cases fcData fc <;> cases fcQos fc <;> interval_cases i <;> simp

/-- the bits that decide how the header is read are not muted -/
theorem kinds_of_bits (h : ∀ i ∈ [0, 1, 2, 3, 7, 8, 9, 10], fcBit fc i = fcBit fc' i) :
    fcData fc = fcData fc' ∧ fcQos fc = fcQos fc' ∧ fcAddr4 fc = fcAddr4 fc' := by
  have hdata : fcData fc = fcData fc' := by
    rw [fcData_eq, fcData_eq, h 2 (by decide), h 3 (by decide)]
  refine ⟨hdata, ?_, ?_⟩
  · rw [fcQos_eq, fcQos_eq, hdata, h 7 (by decide)]
  · rw [fcAddr4_eq, fcAddr4_eq, h 8 (by decide), h 9 (by decide)]

theorem fcBit_aad {prot : Bool} {i : Nat} (hi : i < 16) (h : prot = true ∨ i ≠ 14) :
    fcBit (fcAad prot fc) i = fcBit (fcMasked fc) i := by
  cases prot with
  | true => rfl
  | false =>
    have h14 : i ≠ 14 := h.resolve_left Bool.false_ne_true
    show fcBit (fcMasked fc ||| 0x4000) i = fcBit (fcMasked fc) i
    generalize fcMasked fc = g
    unfold fcBit
    interval_cases i <;> first | exact absurd rfl h14 | simp

theorem fcAad_bits {prot : Bool} (h : fcAad prot fc = fcAad prot fc') :
    (∀ i ∈ [0, 1, 2, 3, 7, 8, 9, 10], fcBit fc i = fcBit fc' i)
      ∧ (prot = true → fcBit fc 14 = fcBit fc' 14)
      ∧ (fcData fc = false → ∀ i ∈ [4, 5, 6], fcBit fc i = fcBit fc' i)
      ∧ (fcQos fc = false → fcBit fc 15 = fcBit fc' 15) := by
  have hm : ∀ i < 16, prot = true ∨ i ≠ 14 → fcBit (fcMasked fc) i = fcBit (fcMasked fc') i := by
    intro i hi hp
    rw [← fcBit_aad hi hp, ← fcBit_aad hi hp, h]
  have hbits : ∀ i ∈ [0, 1, 2, 3, 7, 8, 9, 10], fcBit fc i = fcBit fc' i := by
    intro i hi
    have hlt : i < 16 ∧ i ≠ 14 := by
      simp only [List.mem_cons, List.not_mem_nil, or_false] at hi
      omega
    have := hm i hlt.1 (Or.inr hlt.2)
    rw [fcBit_masked hlt.1, fcBit_masked hlt.1] at this
    simp only [List.mem_cons, List.not_mem_nil, or_false] at hi
    rcases hi with rfl | rfl | rfl | rfl | rfl | rfl | rfl | rfl <;> simpa using this
  obtain ⟨hd, hq, -⟩ := kinds_of_bits hbits
  refine ⟨hbits, ?_, ?_, ?_⟩
  · intro hp
    have := hm 14 (by omega) (Or.inl hp)
    rw [fcBit_masked (by omega), fcBit_masked (by omega)] at this
    simpa using this
  · intro hdata i hi
    have hlt : i < 16 ∧ i ≠ 14 := by
      simp only [List.mem_cons, List.not_mem_nil, or_false] at hi
      omega
    have := hm i hlt.1 (Or.inr hlt.2)
    rw [fcBit_masked hlt.1, fcBit_masked hlt.1, ← hd, hdata] at this
    simp only [List.mem_cons, List.not_mem_nil, or_false] at hi
    rcases hi with rfl | rfl | rfl <;> simpa using this
  · intro hqos
    have := hm 15 (by omega) (Or.inr (by omega))
    rw [fcBit_masked (by omega), fcBit_masked (by omega), ← hq, hqos] at this
    simpa using this

end

section
variable {spp prot : Bool} {h h' : Nat → UInt8}

theorem SameProtected.fcAad_eq (hs : SameProtected spp prot h h') :
    fcAad prot (fcOf h) = fcAad prot (fcOf h') := by
  obtain ⟨hd, hq, -⟩ := kinds_of_bits hs.bits
  have hm : ∀ i < 16, prot = true ∨ i ≠ 14 → fcBit (fcMasked (fcOf h)) i = fcBit (fcMasked (fcOf h')) i := by
    intro i hi hp
    rw [fcBit_masked hi, fcBit_masked hi, ← hd, ← hq]
    rcases Nat.lt_or_ge i 4 with h4 | h4
    · rw [hs.bits i (by interval_cases i <;> decide)]
    · rcases Nat.lt_or_ge i 7 with h7 | h7
      · cases hdata : fcData (fcOf h) with
        | true => simp [show 4 ≤ i from h4, show i ≤ 6 by omega]
        | false => rw [hs.subtype hdata i (by interval_cases i <;> decide)]
      · rcases Nat.lt_or_ge i 11 with h11 | h11
        · rw [hs.bits i (by interval_cases i <;> decide)]
        · rcases Nat.lt_or_ge i 14 with h14 | h14
          · simp [h11, show i ≤ 13 by omega]
          · rcases Nat.lt_or_ge i 15 with h15 | h15
            · obtain rfl : i = 14 := by omega
              rw [hs.bit14 (hp.resolve_right fun hc => hc rfl)]
            · obtain rfl : i = 15 := by omega
              cases hqos : fcQos (fcOf h) with
              | true => simp
              | false => rw [hs.order hqos]
  cases prot with
  | true => exact uint16_ext fun i hi => hm i hi (Or.inl rfl)
  | false =>
    apply uint16_ext
    intro i hi
    by_cases h14 : i = 14
    · subst h14
      simp [fcAad, fcBit]
    · rw [fcBit_aad hi (Or.inr h14), fcBit_aad hi (Or.inr h14)]
      exact hm i hi (Or.inr h14)

/-- **What the additional data covers.** -/
theorem aadHdr_eq_iff : aadHdr spp prot h = aadHdr spp prot h' ↔ SameProtected spp prot h h' := by
  constructor
  · intro he
    unfold aadHdr at he
    rw [List.append_assoc, List.append_assoc, List.append_assoc, List.append_assoc, List.append_assoc,
      List.append_assoc] at he
    obtain ⟨hfc, he⟩ := List.append_inj he (by rw [length_wpaPutLe16, length_wpaPutLe16])
    obtain ⟨haddr, he⟩ := List.append_inj he (by rw [length_read, length_read])
    obtain ⟨hfrag, he⟩ := List.append_inj he (by rw [List.length_cons, List.length_cons]; rfl)
    obtain ⟨hbits, hprot, hsub, hord⟩ := fcAad_bits (wpaPutLe16_inj hfc)
    obtain ⟨-, hq, ha⟩ := kinds_of_bits hbits
    rw [← ha, ← hq] at he
    have hlen : (if fcAddr4 (fcOf h) then read h 24 6 else []).length
        = (if fcAddr4 (fcOf h) then read h' 24 6 else []).length := by
      split
      · rw [length_read, length_read]
      · rfl
    obtain ⟨ha4, hqos⟩ := List.append_inj he hlen
    refine ⟨hbits, hprot, hsub, hord, haddr, (List.cons.inj hfrag).1, ?_, ?_⟩
    · intro h4
      rw [if_pos h4, if_pos h4] at ha4
      exact ha4
    · intro hqe
      rw [if_pos hqe, if_pos hqe] at hqos
      exact (List.cons.inj hqos).1
  · intro hs
    obtain ⟨-, hq, ha⟩ := kinds_of_bits hs.bits
    unfold aadHdr
    rw [hs.fcAad_eq, hs.addrs, hs.fragnum, ← ha, ← hq]
    congr 1
    · cases ha4 : fcAddr4 (fcOf h) with
      | true => rw [if_pos rfl, if_pos rfl, hs.a4 ha4]
      | false => rfl
    · cases hqos : fcQos (fcOf h) with
      | true => rw [if_pos rfl, if_pos rfl, hs.qos hqos]
      | false => rfl

/-- the traffic class is part of the QoS control field -/
theorem tid_of_qosMasked {a b : UInt8} (h : qosMasked spp a = qosMasked spp b) : a &&& 0x0f = b &&& 0x0f := by
  have hlow : ∀ c : UInt8, qosMasked spp c &&& 0x0f = c &&& 0x0f := by
    intro c
    unfold qosMasked
    cases spp
    · show c &&& ~~~0x70 &&& ~~~0x80 &&& 0x0f = c &&& 0x0f
      rw [UInt8.and_assoc, UInt8.and_assoc]
      rfl
    · show c &&& ~~~0x70 &&& 0x0f = c &&& 0x0f
      rw [UInt8.and_assoc]
      rfl
  rw [← hlow a, h, hlow b]

theorem fcMgmt_eq {fc : UInt16} : fcMgmt fc = (!fcBit fc 3 && !fcBit fc 2) := by
  rw [Bool.eq_iff_iff, fcMgmt, decide_eq_true_iff, Bool.and_eq_true, Bool.not_eq_true', Bool.not_eq_true']
  exact fcType_iff false false

theorem SameProtected.a2 (hs : SameProtected spp prot h h') : read h 10 6 = read h' 10 6 := by
  have hsub : ∀ g : Nat → UInt8, read g 10 6 = ((read g 4 18).drop 6).take 6 :=
    fun g => read_sub (m := g) (a := 4) (k := 6) (i := 6) (n := 18) (by omega)
  rw [hsub, hsub, hs.addrs]

end

theorem length_aadHdr (spp prot : Bool) (h : Nat → UInt8) :
    22 ≤ (aadHdr spp prot h).length ∧ (aadHdr spp prot h).length ≤ 30 := by
  unfold aadHdr
  simp only [List.length_append, length_wpaPutLe16, length_read, List.length_cons, List.length_nil]
  split <;> split <;> simp

end Mpdu

/-- additional data and nonce of two frames -/
theorem ccmpAadNonce_eq_iff {spp : Bool} {h h' d d' : Nat → UInt8} :
    ccmpAadNonce spp h d = ccmpAadNonce spp h' d' ↔ SameProtected spp false h h' ∧ pnOf d = pnOf d' := by
  unfold ccmpAadNonce
  dsimp only
  rw [Prod.mk.injEq, aadHdr_eq_iff]
  refine and_congr_right fun hs => ?_
  obtain ⟨-, hq, -⟩ := kinds_of_bits hs.bits
  have hmgmt : fcMgmt (fcOf h) = fcMgmt (fcOf h') := by
    rw [fcMgmt_eq, fcMgmt_eq, hs.bits 2 (by decide), hs.bits 3 (by decide)]
  have hn0 : (if fcQos (fcOf h) then h (qcOff (fcOf h)) &&& 0x0f else if fcMgmt (fcOf h) then 0x10 else 0)
      = if fcQos (fcOf h') then h' (qcOff (fcOf h')) &&& 0x0f else if fcMgmt (fcOf h') then 0x10 else 0 := by
    rw [← hq, ← hmgmt]
    cases hqos : fcQos (fcOf h) with
    | true => exact tid_of_qosMasked (hs.qos hqos)
    | false => rfl
  rw [hn0, hs.a2, List.cons.injEq, eq_self, true_and, List.append_cancel_left_eq]

namespace Mpdu

theorem at0_append {l l' : List UInt8} {i : Nat} (h : i < l.length) : at0 (l ++ l') i = at0 l i :=
  List.getD_append _ _ _ _ h

theorem shift_at0 {l l' : List UInt8} {n : Nat} (h : l.length = n) : shift (at0 (l ++ l')) n = at0 l' := by
  funext i
  unfold shift at0
  rw [List.getD_append_right _ _ _ _ (by omega), ← h, Nat.add_sub_cancel_left]

theorem read_at0_middle (xs l zs : List UInt8) :
    read (at0 (xs ++ l ++ zs)) xs.length l.length = l := by
  rw [List.append_assoc, ← Nat.add_zero xs.length, ← read_shift, shift_at0 rfl]
  apply List.ext_getElem length_read
  intro i _ hi
  rw [getElem_read, Nat.zero_add, at0_append hi]
  exact List.getD_eq_getElem _ _ hi

/-- no more than 32 bytes are looked at -/
theorem sameProtected_of_eq {spp prot : Bool} {h h' : Nat → UInt8} (he : ∀ i < 32, h i = h' i) :
    SameProtected spp prot h h' := by
  have hfc : fcOf h = fcOf h' := by
    unfold fcOf
    rw [he 0 (by omega), he 1 (by omega)]
  have hread : ∀ a n, a + n ≤ 32 → read h a n = read h' a n :=
    fun a n ha => read_congr fun i _ hi => he i (by omega)
  have hqc : qcOff (fcOf h) < 32 := by
    unfold qcOff
    split <;> omega
  refine ⟨fun i _ => by rw [hfc], fun _ => by rw [hfc], fun _ i _ => by rw [hfc], fun _ => by rw [hfc],
    hread 4 18 (by omega), by rw [he 22 (by omega)], fun _ => hread 24 6 (by omega), fun _ => ?_⟩
  rw [he _ hqc, hfc]

theorem at0_setIswep (l : List UInt8) (h : 1 < l.length) (i : Nat) :
    at0 (setIswep l) i = if i = 1 then at0 l 1 ||| 0x40 else at0 l i := by
  unfold at0 setIswep
  rw [List.getD_eq_getElem?_getD, List.getElem?_set]
  by_cases hi : i = 1
  · subst hi
    rw [if_pos rfl, if_pos rfl, if_pos h]
    rfl
  · rw [if_neg (Ne.symm hi), if_neg hi, List.getD_eq_getElem?_getD]

/-- the bit that the sender sets is in the additional data anyway -/
theorem sameProtected_setIswep (spp : Bool) {l : List UInt8} (h : 1 < l.length) :
    SameProtected spp false (at0 (setIswep l)) (at0 l) := by
  have hat := at0_setIswep l h
  have hother : ∀ i, i ≠ 1 → at0 (setIswep l) i = at0 l i := fun i hi => (hat i).trans (if_neg hi)
  have hfc : fcOf (at0 (setIswep l)) = fcOf (at0 l) ||| 0x4000 := by
    unfold fcOf
    rw [hother 0 (by omega), hat 1, if_pos rfl]
    apply uint16_ext
    intro i hi
    unfold fcBit
    interval_cases i <;> simp
  have hbit : ∀ i < 16, i ≠ 14 → fcBit (fcOf (at0 (setIswep l))) i = fcBit (fcOf (at0 l)) i := by
    intro i hi h14
    rw [hfc]
    generalize fcOf (at0 l) = fc
    unfold fcBit
    interval_cases i <;> first | exact absurd rfl h14 | simp
  have hread : ∀ a n, 1 < a → read (at0 (setIswep l)) a n = read (at0 l) a n :=
    fun a n ha => read_congr fun i hi _ => hother i (by omega)
  have hbits : ∀ i ∈ [0, 1, 2, 3, 7, 8, 9, 10], fcBit (fcOf (at0 (setIswep l))) i = fcBit (fcOf (at0 l)) i := by
    intro i hi
    simp only [List.mem_cons, List.not_mem_nil, or_false] at hi
    exact hbit i (by omega) (by omega)
  obtain ⟨-, -, ha4⟩ := kinds_of_bits hbits
  have hqc : qcOff (fcOf (at0 (setIswep l))) = qcOff (fcOf (at0 l)) := by
    unfold qcOff
    rw [ha4]
  refine ⟨hbits, fun hc => absurd hc Bool.false_ne_true, fun _ i hi => ?_, fun _ => hbit 15 (by omega) (by omega),
    hread 4 18 (by omega), by rw [hother 22 (by omega)], fun _ => hread 24 6 (by omega), fun _ => ?_⟩
  · simp only [List.mem_cons, List.not_mem_nil, or_false] at hi
    exact hbit i (by omega) (by omega)
  · rw [hqc, hother]
    unfold qcOff
    split <;> omega

/-! ## a frame, part by part -/

section
variable {hdr iv crypt mic : List UInt8}

theorem shift_parts : shift (at0 (hdr ++ iv ++ crypt ++ mic)) hdr.length = at0 (iv ++ crypt ++ mic) := by
  rw [List.append_assoc, List.append_assoc, shift_at0 rfl, List.append_assoc]

theorem sameProtected_parts (spp prot : Bool) (h24 : 24 ≤ hdr.length) (hiv : iv.length = 8) :
    SameProtected spp prot (at0 (hdr ++ iv ++ crypt ++ mic)) (at0 (hdr ++ iv)) := by
  apply sameProtected_of_eq
  intro i hi
  rw [List.append_assoc (hdr ++ iv), at0_append]
  rw [List.length_append]
  omega

theorem pnOf_parts (hiv : iv.length = 8) : pnOf (at0 (iv ++ crypt ++ mic)) = pnOf (at0 iv) := by
  unfold pnOf
  rw [List.append_assoc iv, at0_append (by omega), at0_append (by omega), at0_append (by omega),
    at0_append (by omega), at0_append (by omega), at0_append (by omega)]

theorem read_body (hiv : iv.length = 8) : read (at0 (iv ++ crypt ++ mic)) 8 crypt.length = crypt := by
  rw [← hiv]
  exact read_at0_middle iv crypt mic

theorem read_mic (hiv : iv.length = 8) : read (at0 (iv ++ crypt ++ mic)) (8 + crypt.length) mic.length = mic := by
  have := read_at0_middle (iv ++ crypt) mic []
  rw [List.append_nil, List.length_append, hiv] at this
  exact this

/-- behind the head there are the text and the MIC that came out -/
theorem sealed_iff {pre : List UInt8} {ae : Option (List UInt8 × List UInt8)}
    (hmic : ∀ r, ae = some r → r.2.length = mic.length) :
    (ae.map fun r => pre ++ r.1 ++ r.2) = some (pre ++ crypt ++ mic) ↔ ae = some (crypt, mic) := by
  constructor
  · intro h
    obtain ⟨r, hr, hr'⟩ := Option.map_eq_some_iff.mp h
    obtain ⟨hbody, hmac⟩ := List.append_inj' hr' (hmic r hr)
    exact hr.trans (congrArg some (Prod.ext (List.append_cancel_left hbody) hmac))
  · rintro rfl
    rfl

/-- the text goes over the encrypted one, and the MIC stays -/
theorem opened_iff {pre plain : List UInt8} {ad : Option (List UInt8)}
    (hlen : ∀ p, ad = some p → p.length = crypt.length) :
    (ad.map fun p => pre ++ p ++ (crypt ++ mic).drop p.length) = some (pre ++ plain ++ mic) ↔ ad = some plain := by
  constructor
  · intro h
    obtain ⟨p, hp, hp'⟩ := Option.map_eq_some_iff.mp h
    rw [hlen p hp, List.drop_left] at hp'
    rw [hp, List.append_cancel_left (List.append_cancel_right hp')]
  · intro h
    rw [h, Option.map_some, hlen plain h, List.drop_left]

end

end Mpdu

theorem ccmpMicLen_le (keyLen : Nat) : ccmpMicLen keyLen ≤ 16 := by
  unfold ccmpMicLen
  split <;> omega

theorem setIswep_append {hdr iv : List UInt8} (h : 1 < hdr.length) :
    setIswep (hdr ++ iv) = setIswep hdr ++ iv := by
  unfold setIswep
  rw [List.set_append_left _ _ h, List.getD_append _ _ _ _ h]

theorem length_setIswep (hdr : List UInt8) : (setIswep hdr).length = hdr.length := List.length_set

section
variable {spp : Bool} {key : List UInt8} {keyLen : Nat} {hdr hdr0 iv crypt mic plain : List UInt8}

/-- the sender, part by part -/
theorem rtwCcmpEncrypt_eq (hkey : keyLen = 16 ∨ keyLen = 32) (h24 : 24 ≤ hdr.length) (hiv : iv.length = 8) :
    rtwCcmpEncrypt spp key keyLen hdr.length (hdr ++ iv ++ plain) plain.length
      = let an := ccmpAadNonce spp (at0 (hdr ++ iv)) (at0 iv)
        (aesCcmAe key keyLen an.2 (ccmpMicLen keyLen) plain an.1).map fun r =>
          setIswep hdr ++ iv ++ r.1 ++ r.2 := by
  have hl : (hdr ++ iv).length = hdr.length + 8 := by rw [List.length_append, hiv]
  have han : ccmpAadNonce spp (at0 (setIswep hdr ++ iv)) (at0 iv)
      = ccmpAadNonce spp (at0 (hdr ++ iv)) (at0 iv) := by
    rw [← setIswep_append (by omega)]
    exact ccmpAadNonce_eq_iff.mpr ⟨sameProtected_setIswep spp (by omega), rfl⟩
  unfold rtwCcmpEncrypt ccmpEncrypt
  rw [if_pos hkey, if_neg (by omega)]
  dsimp only
  rw [Nat.add_sub_cancel_left, List.take_left' hl, List.drop_left' hl, List.take_length,
    setIswep_append (by omega), shift_at0 (length_setIswep hdr), han]

/-- the receiver, part by part -/
theorem rtwCcmpDecrypt_eq (hkey : keyLen = 16 ∨ keyLen = 32) (h24 : 24 ≤ hdr.length) (hiv : iv.length = 8)
    (hmic : mic.length = ccmpMicLen keyLen) :
    rtwCcmpDecrypt spp key keyLen hdr.length (hdr ++ iv ++ crypt ++ mic) (hdr ++ iv ++ crypt ++ mic).length
      = let an := ccmpAadNonce spp (at0 (hdr ++ iv)) (at0 iv)
        (aesCcmAd key keyLen an.2 (ccmpMicLen keyLen) crypt an.1 mic).map fun plain =>
          hdr ++ iv ++ plain ++ (crypt ++ mic).drop plain.length := by
  have hl : (hdr ++ iv).length = hdr.length + 8 := by rw [List.length_append, hiv]
  have hlen : (hdr ++ iv ++ crypt ++ mic).length = hdr.length + (8 + crypt.length + ccmpMicLen keyLen) := by
    rw [List.length_append, List.length_append, hl, hmic]
    omega
  have han : ccmpAadNonce spp (at0 (hdr ++ iv ++ crypt ++ mic)) (at0 (iv ++ crypt ++ mic))
      = ccmpAadNonce spp (at0 (hdr ++ iv)) (at0 iv) :=
    ccmpAadNonce_eq_iff.mpr ⟨sameProtected_parts spp false h24 hiv, pnOf_parts hiv⟩
  unfold rtwCcmpDecrypt ccmpDecrypt
  rw [if_pos ⟨hkey, by omega⟩, hlen, Nat.add_sub_cancel_left, shift_parts, han]
  dsimp only
  rw [if_neg (by omega), show 8 + crypt.length + ccmpMicLen keyLen - 8 - ccmpMicLen keyLen = crypt.length by omega,
    read_body hiv, ← hmic, read_mic hiv]
  congr 1
  funext p
  rw [List.append_assoc (hdr ++ iv) crypt mic, List.take_left' hl, ← List.drop_drop, List.drop_left' hl]

/-- **What the receiver opens is what the sender made**, for every key, and for every header that differs
from the sender's in nothing that is authenticated. -/
theorem rtwCcmpDecrypt_iff (h24 : 24 ≤ hdr.length) (hlen : hdr0.length = hdr.length) (hiv : iv.length = 8)
    (hmic : mic.length = ccmpMicLen keyLen)
    (hsame : SameProtected spp false (at0 (hdr0 ++ iv)) (at0 (hdr ++ iv))) :
    rtwCcmpDecrypt spp key keyLen hdr.length (hdr ++ iv ++ crypt ++ mic) (hdr ++ iv ++ crypt ++ mic).length
        = some (hdr ++ iv ++ plain ++ mic)
      ↔ rtwCcmpEncrypt spp key keyLen hdr0.length (hdr0 ++ iv ++ plain) plain.length
        = some (setIswep hdr0 ++ iv ++ crypt ++ mic) := by
  by_cases hkey : keyLen = 16 ∨ keyLen = 32
  · rw [rtwCcmpDecrypt_eq hkey h24 hiv hmic, rtwCcmpEncrypt_eq hkey (by omega) hiv]
    have han : ccmpAadNonce spp (at0 (hdr0 ++ iv)) (at0 iv) = ccmpAadNonce spp (at0 (hdr ++ iv)) (at0 iv) :=
      ccmpAadNonce_eq_iff.mpr ⟨hsame, rfl⟩
    rw [han]
    dsimp only
    generalize ccmpAadNonce spp (at0 (hdr ++ iv)) (at0 iv) = an
    have hiff := aesCcmAd_eq_some_iff key keyLen an.2 crypt an.1 hmic
    rw [opened_iff fun p hp => (length_of_aesCcmAe ((hiff p).mp hp)).1.symm,
      sealed_iff fun r hr => (length_of_aesCcmAe hr).2.trans hmic.symm]
    exact hiff plain
  · unfold rtwCcmpDecrypt rtwCcmpEncrypt
    rw [if_neg fun h => hkey h.1, if_neg hkey]
    exact ⟨fun h => absurd h.symm (Option.some_ne_none _), fun h => absurd h.symm (Option.some_ne_none _)⟩

/-- the sender succeeds, and any receiver with its key has the text -/
theorem rtwCcmpEncrypt_opens (spp : Bool) (key plain : List UInt8) (hkey : keyLen = 16 ∨ keyLen = 32)
    (h24 : 24 ≤ hdr0.length) (hiv : iv.length = 8) :
    ∃ crypt mic, crypt.length = plain.length ∧ mic.length = ccmpMicLen keyLen
      ∧ rtwCcmpEncrypt spp key keyLen hdr0.length (hdr0 ++ iv ++ plain) plain.length
        = some (setIswep hdr0 ++ iv ++ crypt ++ mic)
      ∧ ∀ hdr, hdr.length = hdr0.length → SameProtected spp false (at0 (hdr0 ++ iv)) (at0 (hdr ++ iv)) →
        rtwCcmpDecrypt spp key keyLen hdr.length (hdr ++ iv ++ crypt ++ mic)
          (hdr ++ iv ++ crypt ++ mic).length = some (hdr ++ iv ++ plain ++ mic) := by
  have hklen : Aes.KeyLen keyLen := by
    rcases hkey with rfl | rfl
    exacts [Or.inl rfl, Or.inr (Or.inr rfl)]
  have hsome : (let an := ccmpAadNonce spp (at0 (hdr0 ++ iv)) (at0 iv)
      aesCcmAe key keyLen an.2 (ccmpMicLen keyLen) plain an.1).isSome = true :=
    aesCcmAe_isSome hklen (ccmpMicLen_le keyLen) (length_aadHdr spp false _).2
  obtain ⟨⟨crypt, mic⟩, hr⟩ := Option.isSome_iff_exists.mp hsome
  obtain ⟨hcrypt, hmic⟩ := length_of_aesCcmAe hr
  have henc : rtwCcmpEncrypt spp key keyLen hdr0.length (hdr0 ++ iv ++ plain) plain.length
      = some (setIswep hdr0 ++ iv ++ crypt ++ mic) := by
    rw [rtwCcmpEncrypt_eq hkey h24 hiv]
    exact congrArg (Option.map _) hr
  refine ⟨crypt, mic, hcrypt, hmic, henc, fun hdr hlen hsame => ?_⟩
  exact (rtwCcmpDecrypt_iff (by omega) hlen.symm hiv hmic hsame).mpr henc

end

/-- the blocks of a frame -/
def ccmpBlocks (spp : Bool) (m : Nat) (hdr data : Nat → UInt8) (plain : List UInt8) : List (List UInt8) :=
  let an := ccmpAadNonce spp hdr data
  ccmBlocks m an.2 plain an.1

/-- **What the MIC covers**: it is the chain over blocks that no two messages share which differ in the
text, in the packet number or in what is authenticated of the header. -/
theorem ccmpMic_covers (spp : Bool) (m : Nat) {h h' d d' : Nat → UInt8} {plain plain' : List UInt8}
    (hp : plain.length < 65536) (hp' : plain'.length < 65536) :
    (∀ E : List UInt8 → List UInt8, (∀ b, (E b).length = 16) →
        tag E m (ccmpAadNonce spp h d).2 plain (ccmpAadNonce spp h d).1
          = cbc E (List.replicate 16 0) (ccmpBlocks spp m h d plain))
      ∧ (ccmpBlocks spp m h d plain = ccmpBlocks spp m h' d' plain'
        ↔ SameProtected spp false h h' ∧ pnOf d = pnOf d' ∧ plain = plain') := by
  have hnonce : ∀ h d : Nat → UInt8, (ccmpAadNonce spp h d).2.length = 13 := by
    intro h d
    show (read h 10 6 ++ pnOf d).length + 1 = 13
    rw [List.length_append, length_read]
    rfl
  have haad : ∀ h d : Nat → UInt8,
      22 ≤ (ccmpAadNonce spp h d).1.length ∧ (ccmpAadNonce spp h d).1.length ≤ 30 :=
    fun h d => length_aadHdr spp false h
  refine ⟨fun E hE => ccmTag_eq hE m plain (hnonce h d) (haad h d).2, ?_⟩
  have h1 := haad h d
  have h2 := haad h' d'
  unfold ccmpBlocks
  dsimp only
  rw [ccmBlocks_inj (hnonce h d) (hnonce h' d') hp hp' ⟨by omega, by omega⟩ ⟨by omega, by omega⟩]
  constructor
  · rintro ⟨hn, hpl, ha⟩
    obtain ⟨hs, hpn⟩ := ccmpAadNonce_eq_iff.mp (Prod.ext ha hn)
    exact ⟨hs, hpn, hpl⟩
  · rintro ⟨hs, hpn, hpl⟩
    have he := ccmpAadNonce_eq_iff.mpr ⟨hs, hpn⟩
    exact ⟨congrArg Prod.snd he, hpl, congrArg Prod.fst he⟩

/-! ## a frame that is sent again -/

/-- a QoS data frame to an access point -/
def qosMpdu : List UInt8 :=
  [0x88, 0x41, 0x2c, 0x00, 2, 0, 0, 0, 0, 1, 2, 0, 0, 0, 0, 2, 2, 0, 0, 0, 0, 3, 0x50, 0x01, 0x05, 0x00]

/-- the packet number 3, in the IV -/
def qosMpduIv : List UInt8 := [3, 0, 0, 0x20, 0, 0, 0, 0]

/-- the same with the retry bit and another duration -/
def qosMpduAgain : List UInt8 := (qosMpdu.set 1 0x49).set 2 0x30

theorem qosMpdu_same : SameProtected false false (at0 (qosMpdu ++ qosMpduIv)) (at0 (qosMpduAgain ++ qosMpduIv)) :=
  aadHdr_eq_iff.mp (by decide)

/-- what was sealed under the first header is opened under the second -/
theorem rtwCcmpDecrypt_iff_again :
    ∃ crypt mic, crypt.length = 2 ∧ mic.length = 8 ∧
      rtwCcmpEncrypt false (List.replicate 16 7) 16 qosMpdu.length (qosMpdu ++ qosMpduIv ++ [5, 6]) 2
        = some (setIswep qosMpdu ++ qosMpduIv ++ crypt ++ mic)
      ∧ rtwCcmpDecrypt false (List.replicate 16 7) 16 qosMpduAgain.length
          (qosMpduAgain ++ qosMpduIv ++ crypt ++ mic) (qosMpduAgain ++ qosMpduIv ++ crypt ++ mic).length
        = some (qosMpduAgain ++ qosMpduIv ++ [5, 6] ++ mic) := by
  obtain ⟨crypt, mic, hcrypt, hmic, henc, -⟩ := rtwCcmpEncrypt_opens false (List.replicate 16 7) [5, 6]
    (Or.inl rfl) (show 24 ≤ qosMpdu.length by decide) (show qosMpduIv.length = 8 from rfl)
  exact ⟨crypt, mic, hcrypt, hmic, henc,
    (rtwCcmpDecrypt_iff (by decide) (by decide) (by decide) hmic qosMpdu_same).mpr henc⟩

theorem ccmpMic_covers_again :
    ccmpBlocks false 8 (at0 (qosMpdu ++ qosMpduIv)) (at0 qosMpduIv) [5, 6]
      = ccmpBlocks false 8 (at0 (qosMpduAgain ++ qosMpduIv)) (at0 qosMpduIv) [5, 6] :=
  (ccmpMic_covers false 8 (by decide) (by decide)).2.mpr ⟨qosMpdu_same, rfl, rfl⟩

end Rtl8192eu
