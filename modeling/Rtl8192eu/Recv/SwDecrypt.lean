import Mathlib.Data.Nat.Bitwise
import Rtl8192eu.Recv.Defrag
import Rtl8192eu.Security.Tkip

/-!
# Decryption by software

`rtw_wep_decrypt` and `rtw_tkip_decrypt` of `core/rtw_security.c`, `decryptor` and
`recvframe_chkmic` of `core/rtw_recv.c`, with every access to the frame checked: `none` is an access
that leaves the frame, or a length that is below 0.  The driver computes the lengths in `uint` and
`sint` and does not compare them with anything; a frame is far shorter than the 2^31 bytes of a `sint`,
so a length has wrapped when the integer is negative.

* `uintOf`, `RecvFrame.within`   the checks;
* `wepDecryptIn`, `tkipDecryptIn`   the ciphers;
* `decryptorIn`, `chkmicIn`   their caller, and the MIC.
-/

namespace Rtl8192eu

/-- the keys of the receive path -/
structure RxKeys extends WepKeys where
  binstallGrpkey : Bool := false
  dot118021XGrpKey : Nat → List UInt8 := fun _ => []
  dot118021XGrprxmickey : Nat → List UInt8 := fun _ => []
  /-- `dot118021x_UncstKey` and `dot11tkiprxmickey` of the station of an address -/
  dot118021xUncstKey : Mac → List UInt8 := fun _ => []
  dot11tkiprxmickey : Mac → List UInt8 := fun _ => []

/-! ## accesses -/

/-- a length as a loop counts it -/
def uintOf (length : Int) : Option Nat := if 0 ≤ length then some length.toNat else none

/-- `n` bytes of the frame -/
def RecvFrame.within (f : RecvFrame) (i n : Nat) : Option (List UInt8) :=
  if i + n ≤ f.len then some (f.bytes i n) else none

/-- `length` of the two ciphers -/
def RecvFrame.payloadLen (f : RecvFrame) : Int := f.len - f.attrib.hdrlen - f.attrib.ivLen

/-- `arcfour_init` and `arcfour_encrypt` over the payload -/
def arcfourPayload (key : List UInt8) (f : RecvFrame) : Option RecvFrame := do
  let length ← uintOf f.payloadLen
  let payload ← f.within f.payloadOff length
  some { f with data := f.data.take f.payloadOff ++ arcfourEncrypt (arcfourInit key) payload
    ++ f.data.drop (f.payloadOff + length) }

/-- `crc`, over all but the last four bytes of the payload -/
def crcPayload (f : RecvFrame) : Option (List UInt8) := do
  let length ← uintOf (f.payloadLen - 4)
  let payload ← f.within f.payloadOff length
  some (icvBytes payload)

/-! ## ciphers -/

/-- `rtw_wep_decrypt` -/
def wepDecryptIn (k : WepKeys) (f : RecvFrame) : Option RecvFrame :=
  if f.attrib.encrypt = .wep40 ∨ f.attrib.encrypt = .wep104 then do
    let iv ← f.within f.attrib.hdrlen 3
    let f ← arcfourPayload (k.wepkey iv f.attrib.keyIndex) f
    let _ ← crcPayload f
    some f
  else some f

/-- `prwskey` -/
def RxKeys.prwskey (k : RxKeys) (f : RecvFrame) : List UInt8 :=
  if isMcast f.attrib.ra then k.dot118021XGrpKey f.attrib.keyIndex else k.dot118021xUncstKey f.attrib.ta

/-- no group key for a group frame -/
def RxKeys.noGrpkey (k : RxKeys) (f : RecvFrame) : Bool := isMcast f.attrib.ra && !k.binstallGrpkey

/-- `rtw_tkip_decrypt`, with `_SUCCESS` or `_FAIL` -/
def tkipDecryptIn (k : RxKeys) (a : Adapter) (f : RecvFrame) : Option (RecvFrame × Bool) :=
  if f.attrib.encrypt = .tkip then
    if (a.rtwGetStainfo f.attrib.ta).isNone then some (f, false)
    else if k.noGrpkey f then some (f, false)
    else do
      let iv ← f.within f.attrib.hdrlen 8
      let f ← arcfourPayload (tkipRc4key (k.prwskey f) f.attrib.ta iv) f
      let crc ← crcPayload f
      let icv ← f.within (f.payloadOff + (f.payloadLen - 4).toNat) 4
      some (f, crc = icv)
  else some (f, true)

/-- the `switch` of `decryptor`; the other ciphers are those of `dec` -/
def SwDecrypt.applyIn (dec : SwDecrypt) (k : RxKeys) (a : Adapter) (f : RecvFrame) :
    Option (RecvFrame × Bool) :=
  match f.attrib.encrypt with
  | .wep40 | .wep104 => (wepDecryptIn k.toWepKeys f).map fun f => (f, true)
  | .tkip => tkipDecryptIn k a f
  | _ =>
    match dec.apply a f with
    | some bs => some ({ f with data := bs }, true)
    | none => some (f, false)

theorem applyIn_wep {dec : SwDecrypt} {k : RxKeys} {a : Adapter} {f : RecvFrame}
    (he : f.attrib.encrypt = .wep40 ∨ f.attrib.encrypt = .wep104) :
    dec.applyIn k a f = (wepDecryptIn k.toWepKeys f).map fun f => (f, true) := by
  unfold SwDecrypt.applyIn
  rcases he with he | he <;> rw [he]

theorem applyIn_tkip {dec : SwDecrypt} {k : RxKeys} {a : Adapter} {f : RecvFrame}
    (he : f.attrib.encrypt = .tkip) : dec.applyIn k a f = tkipDecryptIn k a f := by
  unfold SwDecrypt.applyIn
  rw [he]

/-- `decryptor` -/
def decryptorIn (dec : SwDecrypt) (k : RxKeys) (a : Adapter) (f : RecvFrame) : Option (Option RecvFrame) :=
  if f.attrib.encrypt ≠ .noPrivacy ∧ f.len < f.attrib.hdrlen + 4 then none
  else
    let f := setKeyIndex f
    if f.attrib.encrypt ≠ .noPrivacy ∧ f.attrib.bdecrypted = false then
      (dec.applyIn k a f).map fun r =>
        if r.2 then some { r.1 with attrib := { r.1.attrib with bdecrypted := true } } else none
    else some (some { f with attrib := { f.attrib with bdecrypted := true } })

/-! ## the MIC -/

/-- `mickey` -/
def RxKeys.mickey (k : RxKeys) (f : RecvFrame) : List UInt8 :=
  if isMcast f.attrib.ra then k.dot118021XGrprxmickey f.attrib.keyIndex
  else k.dot11tkiprxmickey f.attrib.ta

/-- how much of the header `rtw_seccalctkipmic` reads; `b` is its second byte -/
def micHdrLen (b : UInt8) : Nat :=
  if b &&& 1 ≠ 0 then if b &&& 2 ≠ 0 then 30 else 22 else if b &&& 2 ≠ 0 then 22 else 16

/-- `recvframe_chkmic`; the inner `none` is `_FAIL` -/
def chkmicIn (k : RxKeys) (a : Adapter) (f : RecvFrame) : Option (Option RecvFrame) :=
  if f.attrib.encrypt = .tkip then
    if (a.rtwGetStainfo f.attrib.ta).isNone then some (some ((recvframePullTail f 8).getD f))
    else if k.noGrpkey f then some none
    else do
      let datalen ← uintOf (f.payloadLen - f.attrib.icvLen - 8)
      let fc ← f.within 0 2
      let header ← f.within 0 (micHdrLen (fc.getD 1 0))
      let payload ← f.within f.payloadOff datalen
      let mic ← f.within (f.payloadOff + datalen) 8
      let miccode := rtwSeccalctkipmic (k.mickey f) header payload (UInt8.ofNat f.attrib.priority)
      some (if miccode = mic then some ((recvframePullTail f 8).getD f) else none)
  else some (some f)

/-! ## inside the frame -/

theorem uintOf_of_nonneg {x : Int} {n : Nat} (h : x = n) : uintOf x = some n := by
  unfold uintOf
  rw [if_pos (by omega), h, Int.toNat_natCast]

theorem uintOf_of_neg {x : Int} (h : x < 0) : uintOf x = none := if_neg (by omega)

theorem within_of_le {f : RecvFrame} {i n : Nat} (h : i + n ≤ f.len) : f.within i n = some (f.bytes i n) :=
  if_pos h

theorem within_of_lt {f : RecvFrame} {i n : Nat} (h : f.len < i + n) : f.within i n = none :=
  if_neg (by omega)

/-- the frame under the key stream, from the payload on -/
def RecvFrame.arcfour (f : RecvFrame) (key : List UInt8) : RecvFrame :=
  { f with data := f.data.take f.payloadOff ++ arcfourEncrypt (arcfourInit key) (f.data.drop f.payloadOff) }

section

variable {f : RecvFrame} {key : List UInt8}

theorem RecvFrame.arcfour_len : (f.arcfour key).len = f.len := by
  unfold RecvFrame.arcfour RecvFrame.len
  dsimp only
  rw [List.length_append, length_arcfourEncrypt, ← List.length_append, List.take_append_drop]

theorem payloadLen_eq (h : f.payloadOff ≤ f.len) : f.payloadLen = (f.len - f.payloadOff : Nat) := by
  unfold RecvFrame.payloadLen
  unfold RecvFrame.payloadOff at h ⊢
  omega

theorem payload_bytes (h : f.payloadOff ≤ f.len) :
    f.bytes f.payloadOff (f.len - f.payloadOff) = f.data.drop f.payloadOff := by
  rw [bytes_eq_take (by omega)]
  apply List.take_of_length_le
  rw [List.length_drop]
  exact Nat.le_refl _

theorem arcfourPayload_of_le (h : f.payloadOff ≤ f.len) : arcfourPayload key f = some (f.arcfour key) := by
  have hend : f.data.drop (f.payloadOff + (f.len - f.payloadOff)) = [] := by
    rw [Nat.add_sub_cancel' h]
    exact List.drop_length
  unfold arcfourPayload
  rw [uintOf_of_nonneg (payloadLen_eq h), Option.bind_eq_bind, Option.bind_some,
    within_of_le (Nat.add_sub_cancel' h).le, Option.bind_eq_bind, Option.bind_some, payload_bytes h, hend,
    List.append_nil]
  rfl

theorem arcfourPayload_of_lt (h : f.len < f.payloadOff) : arcfourPayload key f = none := by
  unfold arcfourPayload
  rw [uintOf_of_neg]
  · rfl
  · unfold RecvFrame.payloadLen
    unfold RecvFrame.payloadOff at h
    omega

theorem crcPayload_of_le (h : f.payloadOff + 4 ≤ f.len) :
    crcPayload f = some (icvBytes ((f.data.drop f.payloadOff).take (f.len - f.payloadOff - 4))) := by
  have hlen : f.payloadLen - 4 = (f.len - f.payloadOff - 4 : Nat) := by
    rw [payloadLen_eq (by omega)]
    omega
  unfold crcPayload
  rw [uintOf_of_nonneg hlen, Option.bind_eq_bind, Option.bind_some, within_of_le (by omega),
    Option.bind_eq_bind, Option.bind_some, bytes_eq_take (by omega)]

theorem crcPayload_of_lt (h : f.len < f.payloadOff + 4) : crcPayload f = none := by
  unfold crcPayload
  rw [uintOf_of_neg]
  · rfl
  · unfold RecvFrame.payloadLen
    unfold RecvFrame.payloadOff at h
    omega

theorem crcPayload_arcfour (h : f.payloadOff + 4 ≤ f.len) :
    crcPayload (f.arcfour key)
      = some (icvBytes (((f.arcfour key).data.drop f.payloadOff).take (f.len - f.payloadOff - 4))) := by
  have hlen : (f.arcfour key).len = f.len := RecvFrame.arcfour_len
  have hoff : (f.arcfour key).payloadOff = f.payloadOff := rfl
  rw [crcPayload_of_le (by omega), hlen, hoff]

/-- a payload without room for the integrity value sends one of the walks astray, whatever follows -/
theorem arcfour_crc_of_lt {β : Type} (next : RecvFrame → List UInt8 → Option β)
    (h : f.len < f.payloadOff + 4) :
    ((arcfourPayload key f).bind fun g => (crcPayload g).bind (next g)) = none := by
  by_cases hp : f.payloadOff ≤ f.len
  · have hlen : (f.arcfour key).len = f.len := RecvFrame.arcfour_len
    have hoff : (f.arcfour key).payloadOff = f.payloadOff := rfl
    rw [arcfourPayload_of_le hp, Option.bind_some, crcPayload_of_lt (by omega), Option.bind_none]
  · rw [arcfourPayload_of_lt (by omega), Option.bind_none]

variable {k : WepKeys}

/-- **WEP inside the frame** is the cipher as it should be. -/
theorem wepDecryptIn_of_le (he : f.attrib.encrypt = .wep40 ∨ f.attrib.encrypt = .wep104)
    (hi : f.attrib.ivLen = 4) (h : f.payloadOff + 4 ≤ f.len) :
    wepDecryptIn k f = some (rtwWepDecrypt k f) := by
  have hiv : f.attrib.hdrlen + 3 ≤ f.len := by
    unfold RecvFrame.payloadOff at h
    omega
  unfold wepDecryptIn rtwWepDecrypt
  rw [if_pos he, if_pos he, within_of_le hiv, Option.bind_eq_bind, Option.bind_some,
    arcfourPayload_of_le (by omega), Option.bind_eq_bind, Option.bind_some, crcPayload_arcfour h]
  rfl

theorem wepDecryptIn_of_lt (he : f.attrib.encrypt = .wep40 ∨ f.attrib.encrypt = .wep104)
    (h : f.len < f.payloadOff + 4) : wepDecryptIn k f = none := by
  unfold wepDecryptIn
  rw [if_pos he]
  by_cases hiv : f.attrib.hdrlen + 3 ≤ f.len
  · rw [within_of_le hiv]
    exact arcfour_crc_of_lt (fun g _ => some g) h
  · rw [within_of_lt (by omega)]
    rfl

/-- `rc4key` -/
def RxKeys.rc4key (k : RxKeys) (f : RecvFrame) : List UInt8 :=
  tkipRc4key (k.prwskey f) f.attrib.ta (f.bytes f.attrib.hdrlen 8)

variable {rk : RxKeys} {a : Adapter}

theorem tkipDecryptIn_of_le (he : f.attrib.encrypt = .tkip) (hs : (a.rtwGetStainfo f.attrib.ta).isSome)
    (hg : rk.noGrpkey f = false) (hi : f.attrib.ivLen = 8) (h : f.payloadOff + 4 ≤ f.len) :
    tkipDecryptIn rk a f = some (f.arcfour (rk.rc4key f), wepIcvOk (f.arcfour (rk.rc4key f))) := by
  have hiv : f.attrib.hdrlen + 8 ≤ f.len := by
    unfold RecvFrame.payloadOff at h
    omega
  have hlen : (f.arcfour (rk.rc4key f)).len = f.len := RecvFrame.arcfour_len
  have hoff : (f.arcfour (rk.rc4key f)).payloadOff = f.payloadOff := rfl
  have hpl : ((f.arcfour (rk.rc4key f)).payloadLen - 4).toNat = f.len - f.payloadOff - 4 := by
    rw [payloadLen_eq (by omega), hlen, hoff]
    omega
  have hicv : (f.arcfour (rk.rc4key f)).within (f.payloadOff + (f.len - f.payloadOff - 4)) 4
      = some (((f.arcfour (rk.rc4key f)).data.drop f.payloadOff).drop (f.len - f.payloadOff - 4)) := by
    rw [within_of_le (by omega), bytes_eq_take (by omega), List.drop_drop, List.take_of_length_le]
    rw [List.length_drop]
    show (f.arcfour (rk.rc4key f)).len - _ ≤ _
    omega
  have hok : wepIcvOk (f.arcfour (rk.rc4key f))
      = decide (icvBytes (((f.arcfour (rk.rc4key f)).data.drop f.payloadOff).take (f.len - f.payloadOff - 4))
        = ((f.arcfour (rk.rc4key f)).data.drop f.payloadOff).drop (f.len - f.payloadOff - 4)) := by
    have hn : ((f.arcfour (rk.rc4key f)).data.drop f.payloadOff).length = f.len - f.payloadOff := by
      rw [List.length_drop]
      show (f.arcfour (rk.rc4key f)).len - _ = _
      rw [hlen]
    have h4 : 4 ≤ f.len - f.payloadOff := by omega
    unfold wepIcvOk
    simp only [hoff, hn, h4, decide_true, Bool.true_and]
    exact decide_eq_decide.mpr eq_comm
  unfold tkipDecryptIn
  rw [if_pos he, Option.isNone_eq_false_iff.mpr hs, if_neg Bool.false_ne_true, hg, if_neg Bool.false_ne_true,
    within_of_le hiv, Option.bind_eq_bind, Option.bind_some]
  change (arcfourPayload (rk.rc4key f) f).bind _ = _
  rw [arcfourPayload_of_le (by omega), Option.bind_some, crcPayload_arcfour h]
  change ((f.arcfour (rk.rc4key f)).within _ 4).bind _ = _
  rw [hoff, hpl, hicv, Option.bind_some, hok]

theorem tkipDecryptIn_of_lt (he : f.attrib.encrypt = .tkip) (hs : (a.rtwGetStainfo f.attrib.ta).isSome)
    (hg : rk.noGrpkey f = false) (h : f.len < f.payloadOff + 4) : tkipDecryptIn rk a f = none := by
  unfold tkipDecryptIn
  rw [if_pos he, Option.isNone_eq_false_iff.mpr hs, if_neg Bool.false_ne_true, hg, if_neg Bool.false_ne_true]
  by_cases hiv : f.attrib.hdrlen + 8 ≤ f.len
  · rw [within_of_le hiv]
    change (arcfourPayload (rk.rc4key f) f).bind _ = none
    exact arcfour_crc_of_lt (fun g crc =>
      (g.within (g.payloadOff + (g.payloadLen - 4).toNat) 4).bind fun icv => some (g, decide (crc = icv))) h
  · rw [within_of_lt (by omega)]
    rfl

theorem tkipDecryptIn_noGrpkey (he : f.attrib.encrypt = .tkip) (hs : (a.rtwGetStainfo f.attrib.ta).isSome)
    (hg : rk.noGrpkey f = true) : tkipDecryptIn rk a f = some (f, false) := by
  unfold tkipDecryptIn
  rw [if_pos he, Option.isNone_eq_false_iff.mpr hs, if_neg Bool.false_ne_true, if_pos hg]

/-- the payload of a frame as a holder of the key sends it -/
def SealedBy (key : List UInt8) (f : RecvFrame) : Prop :=
  ∃ body, f.data.drop f.payloadOff = arcfourSeal (arcfourInit key) body

theorem arcfour_payload (h : f.payloadOff ≤ f.len) :
    (f.arcfour key).data.drop f.payloadOff = arcfourEncrypt (arcfourInit key) (f.data.drop f.payloadOff) := by
  apply List.drop_left'
  rw [List.length_take]
  exact Nat.min_eq_left h

/-- the comparison tells the sealed frames -/
theorem wepIcvOk_arcfour_iff (h : f.payloadOff ≤ f.len) :
    wepIcvOk (f.arcfour key) = true ↔ SealedBy key f := by
  unfold wepIcvOk
  rw [show (f.arcfour key).payloadOff = f.payloadOff from rfl, arcfour_payload h]
  dsimp only
  rw [Bool.and_eq_true, decide_eq_true_eq, decide_eq_true_eq]
  constructor
  · rintro ⟨-, hicv⟩
    generalize hn : (arcfourEncrypt (arcfourInit key) (f.data.drop f.payloadOff)).length - 4 = n at hicv
    refine ⟨(arcfourEncrypt (arcfourInit key) (f.data.drop f.payloadOff)).take n, ?_⟩
    rw [arcfourSeal_eq, ← hicv, List.take_append_drop, arcfourEncrypt_twice]
  · rintro ⟨body, hbody⟩
    have hlen : (body ++ icvBytes body).length - 4 = body.length := by
      rw [List.length_append]
      rfl
    rw [hbody, arcfourEncrypt_seal, hlen, List.drop_left, List.take_left]
    refine ⟨?_, rfl⟩
    rw [List.length_append]
    exact Nat.le_add_left 4 _

end

/-! ## the MIC inside the frame -/

theorem micHdrLen_le (b : UInt8) : 16 ≤ micHdrLen b ∧ micHdrLen b ≤ 30 := by
  unfold micHdrLen
  split <;> split <;> decide

/-- header, payload and MIC lie in the frame -/
def MicFits (f : RecvFrame) : Prop :=
  f.payloadOff + f.attrib.icvLen + 8 ≤ f.len ∧ micHdrLen (f.byte 1) ≤ f.len

instance (f : RecvFrame) : Decidable (MicFits f) := inferInstanceAs (Decidable (_ ∧ _))

/-- the MIC of the frame is computed -/
def ChecksMic (k : RxKeys) (a : Adapter) (f : RecvFrame) : Prop :=
  f.attrib.encrypt = .tkip ∧ (a.rtwGetStainfo f.attrib.ta).isSome ∧ k.noGrpkey f = false

section

variable {k : RxKeys} {a : Adapter} {f : RecvFrame}

/-- `miccode` of a frame that is long enough -/
def RxKeys.miccode (k : RxKeys) (f : RecvFrame) : List UInt8 :=
  rtwSeccalctkipmic (k.mickey f) (f.bytes 0 (micHdrLen (f.byte 1)))
    (f.bytes f.payloadOff (f.len - f.payloadOff - f.attrib.icvLen - 8)) (UInt8.ofNat f.attrib.priority)

theorem datalen_eq (h : f.payloadOff + f.attrib.icvLen + 8 ≤ f.len) :
    f.payloadLen - f.attrib.icvLen - 8 = (f.len - f.payloadOff - f.attrib.icvLen - 8 : Nat) := by
  rw [payloadLen_eq (by omega)]
  omega

theorem chkmicIn_of_checks (h : ChecksMic k a f) (hfit : MicFits f) :
    chkmicIn k a f
      = some (if k.miccode f = f.bytes (f.len - f.attrib.icvLen - 8) 8 then
          some ((recvframePullTail f 8).getD f) else none) := by
  obtain ⟨he, hs, hg⟩ := h
  obtain ⟨hlen, hhdr⟩ := hfit
  have h16 := (micHdrLen_le (f.byte 1)).1
  have hmic : f.payloadOff + (f.len - f.payloadOff - f.attrib.icvLen - 8) = f.len - f.attrib.icvLen - 8 := by
    omega
  unfold chkmicIn
  rw [if_pos he, Option.isNone_eq_false_iff.mpr hs, if_neg Bool.false_ne_true, hg, if_neg Bool.false_ne_true,
    uintOf_of_nonneg (datalen_eq hlen), Option.bind_eq_bind, Option.bind_some, within_of_le (by omega),
    Option.bind_eq_bind, Option.bind_some]
  change (f.within 0 (micHdrLen (f.byte 1))).bind _ = _
  rw [within_of_le (by omega), Option.bind_some, within_of_le (by omega)]
  change (f.within (f.payloadOff + (f.len - f.payloadOff - f.attrib.icvLen - 8)) 8).bind _ = _
  rw [hmic, within_of_le (by omega), Option.bind_some]
  rfl

theorem chkmicIn_of_short (h : ChecksMic k a f) (hfit : ¬ MicFits f) : chkmicIn k a f = none := by
  obtain ⟨he, hs, hg⟩ := h
  unfold chkmicIn
  rw [if_pos he, Option.isNone_eq_false_iff.mpr hs, if_neg Bool.false_ne_true, hg, if_neg Bool.false_ne_true]
  by_cases hlen : f.payloadOff + f.attrib.icvLen + 8 ≤ f.len
  · have hhdr : f.len < micHdrLen (f.byte 1) := Nat.lt_of_not_le fun h => hfit ⟨hlen, h⟩
    rw [uintOf_of_nonneg (datalen_eq hlen), Option.bind_eq_bind, Option.bind_some, within_of_le (by omega),
      Option.bind_eq_bind, Option.bind_some]
    change (f.within 0 (micHdrLen (f.byte 1))).bind _ = _
    rw [within_of_lt (by omega), Option.bind_none]
  · rw [uintOf_of_neg]
    · rfl
    · unfold RecvFrame.payloadLen
      unfold RecvFrame.payloadOff at hlen
      omega

theorem chkmicIn_of_not_checks (h : ¬ ChecksMic k a f) : (chkmicIn k a f).isSome := by
  unfold chkmicIn
  split
  · rename_i he
    split
    · rfl
    · rename_i hs
      rw [Option.isNone_iff_eq_none] at hs
      have hg : k.noGrpkey f = true := by
        rw [← Bool.not_eq_false]
        exact fun hg => h ⟨he, Option.isSome_iff_ne_none.mpr hs, hg⟩
      rw [hg]
      rfl
  · rfl

/-- **The MIC is read inside the frame** just when it lies there. -/
theorem chkmicIn_isSome_iff : (chkmicIn k a f).isSome ↔ (ChecksMic k a f → MicFits f) := by
  by_cases h : ChecksMic k a f
  · by_cases hfit : MicFits f
    · rw [chkmicIn_of_checks h hfit]
      exact iff_of_true rfl fun _ => hfit
    · rw [chkmicIn_of_short h hfit]
      exact iff_of_false Bool.false_ne_true fun hc => hfit (hc h)
  · exact iff_of_true (chkmicIn_of_not_checks h) fun hc => absurd hc h

end

/-! ## an accepted frame -/

/-- what `validate_recv_data_frame` leaves of a frame for the software -/
structure SwFrame (a : Adapter) (f : RecvFrame) : Prop where
  sta : (a.rtwGetStainfo f.attrib.ta).isSome
  lens : (f.attrib.ivLen, f.attrib.icvLen) = setIceIvLen f.attrib.encrypt
  hdr : micHdrLen (f.byte 1) ≤ f.attrib.hdrlen
  cipher : (f.attrib.encrypt = .wep40 ∨ f.attrib.encrypt = .wep104) ∨ f.attrib.encrypt = .tkip
  bdecrypted : f.attrib.bdecrypted = false

theorem byte_bit {b m : UInt8} {i : Nat} (hm : m.toNat = 2 ^ i) (h : b &&& m ≠ 0) :
    b.toNat / 2 ^ i % 2 = 1 := by
  have hand : (b &&& m).toNat = (b.toNat.testBit i).toNat * 2 ^ i := by
    rw [UInt8.toNat_and, hm]
    exact Nat.and_two_pow ..
  have hbit : b.toNat.testBit i = true := by
    by_contra hn
    rw [Bool.not_eq_true] at hn
    rw [hn] at hand
    exact h (UInt8.toNat_inj.mp (hand.trans (Nat.zero_mul _)))
  rwa [Nat.testBit_eq_decide_div_mod_eq, decide_eq_true_eq] at hbit

/-- a frame between two distribution systems has four addresses -/
theorem getToFrDs_three {f : RecvFrame} (h1 : f.byte 1 &&& 1 ≠ 0) (h2 : f.byte 1 &&& 2 ≠ 0) :
    getToFrDs f = 3 := by
  have hw : le16 f 0 = (f.byte 0).toNat + 256 * (f.byte 1).toNat := rfl
  have h0 := (f.byte 0).toNat_lt
  have hb1 : _ / 2 ^ 0 % 2 = 1 := byte_bit rfl h1
  have hb2 : _ / 2 ^ 1 % 2 = 1 := byte_bit rfl h2
  have h8 : fcBit f 8 = true := by
    rw [fcBit, Nat.testBit_eq_decide_div_mod_eq, decide_eq_true_eq]
    omega
  have h9 : fcBit f 9 = true := by
    rw [fcBit, Nat.testBit_eq_decide_div_mod_eq, decide_eq_true_eq]
    omega
  unfold getToFrDs
  rw [h8, h9]

theorem micHdrLen_le_dataHdrlen (f : RecvFrame) : micHdrLen (f.byte 1) ≤ dataHdrlen (parseFc f).attrib := by
  have hqos : 24 ≤ if (parseFc f).attrib.qos then wlanHdrA3QosLen else wlanHdrA3Len := by
    split <;> decide
  unfold dataHdrlen micHdrLen
  by_cases h1 : f.byte 1 &&& 1 ≠ 0
  · rw [if_pos h1]
    by_cases h2 : f.byte 1 &&& 2 ≠ 0
    · have h4 : a4Shift (parseFc f).attrib = 6 := if_pos (getToFrDs_three h1 h2)
      rw [if_pos h2, h4]
      omega
    · rw [if_neg h2]
      omega
  · rw [if_neg h1]
    split <;> omega

theorem swFrame_of_accepted {a a' : Adapter} {f f' : RecvFrame}
    (hv : validateRecvDataFrame a (parseFc f) = (.success, a', f'))
    (hc : (f'.attrib.encrypt = .wep40 ∨ f'.attrib.encrypt = .wep104) ∨ f'.attrib.encrypt = .tkip)
    (hb : f'.attrib.bdecrypted = false) : SwFrame a' f' := by
  obtain ⟨sta, sta', v, dst, src, bssid, -, -, rfl, hf, -⟩ := validateRecvDataFrame_accepted hv
  obtain ⟨e, i, c, he⟩ := setEncrypt_eq a.sec sta (dataAttrib (parseFc f) dst src bssid)
  have hatt := congrArg RecvFrame.attrib hf
  dsimp only at hatt
  refine ⟨?_, ?_, ?_, hc, hb⟩
  · have hta : f'.attrib.ta = getAddr2 (parseFc f) := by
      rw [hatt, he]
      exact dataAttrib_ta ..
    rw [hta, Adapter.rtwGetStainfo_setSta]
    rfl
  · rw [hatt]
    unfold setEncrypt
    split
    · rfl
    · rfl
  · have hhdr : f'.attrib.hdrlen = dataHdrlen (parseFc f).attrib := by
      rw [hatt, he]
      exact dataAttrib_hdrlen ..
    have hbyte : f'.byte 1 = f.byte 1 := by rw [hf]; rfl
    rw [hhdr, hbyte]
    exact micHdrLen_le_dataHdrlen f

/-! ## the whole way -/

/-- `decryptor` stays inside the frame, and so does `recvframe_chkmic` when the frame is no fragment -/
def StaysInside (dec : SwDecrypt) (k : RxKeys) (a : Adapter) (f : RecvFrame) : Prop :=
  ∃ r, decryptorIn dec k a f = some r
    ∧ ∀ g ∈ r, g.attrib.mfrag = false → g.attrib.fragNum = 0 → (chkmicIn k a g).isSome

/-- a whole frame of TKIP whose integrity value is right -/
def WholeSealed (k : RxKeys) (f : RecvFrame) : Prop :=
  f.attrib.encrypt = .tkip ∧ f.attrib.mfrag = false ∧ f.attrib.fragNum = 0
    ∧ SealedBy (k.rc4key (setKeyIndex f)) f

/-- room for the integrity value, and for the MIC when it will be compared; without the group key only
the key index is read -/
def LongEnough (k : RxKeys) (f : RecvFrame) : Prop :=
  if f.attrib.encrypt = .tkip ∧ k.noGrpkey f = true then f.attrib.hdrlen + 4 ≤ f.len
  else f.payloadOff + 4 ≤ f.len ∧ (WholeSealed k f → f.payloadOff + 12 ≤ f.len)

section

variable {dec : SwDecrypt} {k : RxKeys} {a : Adapter} {f : RecvFrame}

theorem arcfour_byte {key : List UInt8} {i : Nat} (hi : i < f.payloadOff) (h : f.payloadOff ≤ f.len) :
    (f.arcfour key).byte i = f.byte i := by
  have htake : i < (f.data.take f.payloadOff).length := by
    rw [List.length_take]
    exact Nat.lt_of_lt_of_eq hi (Nat.min_eq_left h).symm
  rw [byte_of_append rfl htake, byte_of_append (List.take_append_drop _ _).symm htake]

/-- the key index is all that `decryptor` sets before it decrypts -/
theorem setKeyIndex_same (f : RecvFrame) :
    (setKeyIndex f).data = f.data ∧ (setKeyIndex f).len = f.len ∧ (setKeyIndex f).attrib.encrypt = f.attrib.encrypt
      ∧ (setKeyIndex f).payloadOff = f.payloadOff ∧ k.noGrpkey (setKeyIndex f) = k.noGrpkey f := by
  obtain ⟨i, hi⟩ := setKeyIndex_eq f
  rw [hi]
  exact ⟨rfl, rfl, rfl, rfl, rfl⟩

theorem SwFrame.setKeyIndex (h : SwFrame a f) : SwFrame a (setKeyIndex f) := by
  obtain ⟨i, hi⟩ := setKeyIndex_eq f
  rw [hi]
  exact ⟨h.sta, h.lens, h.hdr, h.cipher, h.bdecrypted⟩

theorem SwFrame.protected (h : SwFrame a f) : f.attrib.encrypt ≠ .noPrivacy := by
  rcases h.cipher with (he | he) | he <;> rw [he] <;> decide

theorem SwFrame.wepLen (h : SwFrame a f) (he : f.attrib.encrypt = .wep40 ∨ f.attrib.encrypt = .wep104) :
    f.attrib.ivLen = 4 := by
  have hl := congrArg Prod.fst h.lens
  rcases he with he | he <;> rw [he] at hl <;> exact hl

theorem SwFrame.tkipLen (h : SwFrame a f) (he : f.attrib.encrypt = .tkip) :
    f.attrib.ivLen = 8 ∧ f.attrib.icvLen = 4 := by
  have hl := h.lens
  rw [he, Prod.ext_iff] at hl
  exact hl

theorem SwFrame.ivLen (h : SwFrame a f) : f.attrib.hdrlen + 4 ≤ f.payloadOff := by
  unfold RecvFrame.payloadOff
  rcases h.cipher with he | he
  · rw [h.wepLen he]
  · rw [(h.tkipLen he).1]
    omega

theorem decryptorIn_sw (h : SwFrame a f) (hlen : f.attrib.hdrlen + 4 ≤ f.len) :
    decryptorIn dec k a f
      = (dec.applyIn k a (Rtl8192eu.setKeyIndex f)).map fun r =>
          if r.2 then some { r.1 with attrib := { r.1.attrib with bdecrypted := true } } else none := by
  unfold decryptorIn
  rw [if_neg (by omega)]
  exact if_pos ⟨h.setKeyIndex.protected, h.setKeyIndex.bdecrypted⟩

theorem decryptorIn_short (h : SwFrame a f) (hlen : f.len < f.attrib.hdrlen + 4) :
    decryptorIn dec k a f = none :=
  if_pos ⟨h.protected, hlen⟩

theorem not_staysInside (h : decryptorIn dec k a f = none) : ¬ StaysInside dec k a f := by
  rintro ⟨r, hr, -⟩
  rw [h] at hr
  cases hr

/-- without the group key nothing but the key index is read -/
theorem staysInside_noGrpkey (h : SwFrame a f) (he : f.attrib.encrypt = .tkip)
    (hg : k.noGrpkey f = true) : StaysInside dec k a f ↔ f.attrib.hdrlen + 4 ≤ f.len := by
  obtain ⟨-, -, henc, -, hgrp⟩ := setKeyIndex_same (k := k) f
  by_cases hlen : f.attrib.hdrlen + 4 ≤ f.len
  · refine iff_of_true ⟨none, ?_, fun _ hn => absurd hn (Option.not_mem_none _)⟩ hlen
    rw [decryptorIn_sw h hlen, applyIn_tkip (henc.trans he),
      tkipDecryptIn_noGrpkey (henc.trans he) h.setKeyIndex.sta (hgrp.trans hg)]
    rfl
  · exact iff_of_false (not_staysInside (decryptorIn_short h (by omega))) hlen

/-- the ciphers need room for the integrity value -/
theorem decryptorIn_none (h : SwFrame a f) (hg : f.attrib.encrypt = .tkip → k.noGrpkey f = false)
    (hlen : f.len < f.payloadOff + 4) : decryptorIn dec k a f = none := by
  obtain ⟨-, hl, henc, hoff, hgrp⟩ := setKeyIndex_same (k := k) f
  have hlen' : (setKeyIndex f).len < (setKeyIndex f).payloadOff + 4 := by rwa [hl, hoff]
  by_cases h4 : f.attrib.hdrlen + 4 ≤ f.len
  · rw [decryptorIn_sw h h4]
    rcases h.setKeyIndex.cipher with hw | he
    · rw [applyIn_wep hw, wepDecryptIn_of_lt hw hlen']
      rfl
    · rw [applyIn_tkip he, tkipDecryptIn_of_lt he h.setKeyIndex.sta (hgrp.trans (hg (henc.symm.trans he))) hlen']
      rfl
  · exact decryptorIn_short h (by omega)

/-- a decrypted frame, as `decryptor` hands it on -/
def RecvFrame.opened (f : RecvFrame) (key : List UInt8) : RecvFrame :=
  { f.arcfour key with attrib := { f.attrib with bdecrypted := true } }

theorem setKeyIndex_opened (f : RecvFrame) (key : List UInt8) :
    (setKeyIndex f).opened key
      = { f.arcfour key with
          attrib := { f.attrib with keyIndex := (setKeyIndex f).attrib.keyIndex, bdecrypted := true } } := by
  obtain ⟨i, hi⟩ := setKeyIndex_eq f
  rw [hi]
  rfl

/-- the key of a frame of WEP -/
def RxKeys.wepkeyOf (k : RxKeys) (f : RecvFrame) : List UInt8 :=
  k.wepkey (f.bytes f.attrib.hdrlen 3) f.attrib.keyIndex

theorem decryptorIn_wep (h : SwFrame a f) (he : f.attrib.encrypt = .wep40 ∨ f.attrib.encrypt = .wep104)
    (hlen : f.payloadOff + 4 ≤ f.len) :
    decryptorIn dec k a f = some (some ((setKeyIndex f).opened (k.wepkeyOf (setKeyIndex f)))) := by
  obtain ⟨-, hl, henc, hoff, -⟩ := setKeyIndex_same (k := k) f
  rw [← henc] at he
  have hlen' : (setKeyIndex f).payloadOff + 4 ≤ (setKeyIndex f).len := by rwa [hl, hoff]
  have hwep : rtwWepDecrypt k.toWepKeys (setKeyIndex f) = (setKeyIndex f).arcfour (k.wepkeyOf (setKeyIndex f)) :=
    if_pos he
  have hiv := h.ivLen
  rw [decryptorIn_sw h (by omega), applyIn_wep he, wepDecryptIn_of_le he (h.setKeyIndex.wepLen he) hlen', hwep]
  rfl

theorem staysInside_wep (h : SwFrame a f) (he : f.attrib.encrypt = .wep40 ∨ f.attrib.encrypt = .wep104) :
    StaysInside dec k a f ↔ f.payloadOff + 4 ≤ f.len := by
  have hne : f.attrib.encrypt ≠ .tkip := by
    rcases he with he | he <;> rw [he] <;> decide
  by_cases hlen : f.payloadOff + 4 ≤ f.len
  · refine iff_of_true ⟨_, decryptorIn_wep h he hlen, ?_⟩ hlen
    rintro g hg - -
    apply chkmicIn_of_not_checks
    rintro ⟨htkip, -⟩
    rw [← Option.some.inj hg, setKeyIndex_opened] at htkip
    exact hne htkip
  · have hnone : decryptorIn dec k a f = none := decryptorIn_none h (fun e => absurd e hne) (by omega)
    exact iff_of_false (not_staysInside hnone) hlen

theorem decryptorIn_tkip (h : SwFrame a f) (he : f.attrib.encrypt = .tkip) (hg : k.noGrpkey f = false)
    (hlen : f.payloadOff + 4 ≤ f.len) :
    ∃ r, decryptorIn dec k a f = some r ∧ ∀ g, g ∈ r ↔
      SealedBy (k.rc4key (setKeyIndex f)) f ∧ g = (setKeyIndex f).opened (k.rc4key (setKeyIndex f)) := by
  obtain ⟨hdata, hl, henc, hoff, hgrp⟩ := setKeyIndex_same (k := k) f
  have hlen' : (setKeyIndex f).payloadOff + 4 ≤ (setKeyIndex f).len := by rwa [hl, hoff]
  have hseal : SealedBy (k.rc4key (setKeyIndex f)) (setKeyIndex f)
      ↔ SealedBy (k.rc4key (setKeyIndex f)) f := by
    unfold SealedBy
    rw [hdata, hoff]
  have hiv := h.ivLen
  refine ⟨_, by rw [decryptorIn_sw h (by omega), applyIn_tkip (henc.trans he),
    tkipDecryptIn_of_le (henc.trans he) h.setKeyIndex.sta (hgrp.trans hg)
      (h.setKeyIndex.tkipLen (henc.trans he)).1 hlen']; rfl, ?_⟩
  intro g
  dsimp only
  rw [← hseal, ← wepIcvOk_arcfour_iff (Nat.le_of_add_right_le hlen')]
  split
  · rename_i hok
    rw [Option.mem_some_iff, and_iff_right hok]
    exact eq_comm
  · rename_i hok
    exact iff_of_false nofun fun e => hok e.1

theorem checksMic_opened (h : SwFrame a f) (he : f.attrib.encrypt = .tkip) (hg : k.noGrpkey f = false)
    (key : List UInt8) : ChecksMic k a ((setKeyIndex f).opened key) := by
  rw [setKeyIndex_opened]
  exact ⟨he, h.sta, hg⟩

/-- header and lengths of a decrypted frame -/
theorem opened_lens (h : SwFrame a f) (hlen : f.payloadOff ≤ f.len) (key : List UInt8) :
    ((setKeyIndex f).opened key).len = f.len ∧ ((setKeyIndex f).opened key).payloadOff = f.payloadOff
      ∧ ((setKeyIndex f).opened key).byte 1 = f.byte 1 := by
  have h16 := (micHdrLen_le (f.byte 1)).1
  have hhdr := h.hdr
  have hiv := h.ivLen
  have ha : (f.arcfour key).len = f.len := RecvFrame.arcfour_len
  have hb : (f.arcfour key).byte 1 = f.byte 1 := arcfour_byte (by omega) hlen
  rw [setKeyIndex_opened]
  exact ⟨ha, rfl, hb⟩

theorem micFits_opened (h : SwFrame a f) (he : f.attrib.encrypt = .tkip) (hlen : f.payloadOff ≤ f.len)
    (key : List UInt8) : MicFits ((setKeyIndex f).opened key) ↔ f.payloadOff + 12 ≤ f.len := by
  obtain ⟨hl, hoff, hbyte⟩ := opened_lens h hlen key
  have hicv : ((setKeyIndex f).opened key).attrib.icvLen = 4 := by
    rw [setKeyIndex_opened]
    exact (h.tkipLen he).2
  have hhdr := h.hdr
  have hiv := h.ivLen
  unfold MicFits
  rw [hbyte, hl, hoff, hicv]
  omega

/-- **A whole frame of TKIP** needs room for the MIC when its integrity value is right. -/
theorem staysInside_tkip (h : SwFrame a f) (he : f.attrib.encrypt = .tkip) (hg : k.noGrpkey f = false) :
    StaysInside dec k a f
      ↔ f.payloadOff + 4 ≤ f.len ∧ (WholeSealed k f → f.payloadOff + 12 ≤ f.len) := by
  by_cases hlen : f.payloadOff + 4 ≤ f.len
  · obtain ⟨r, hr, hmem⟩ : ∃ r, decryptorIn dec k a f = some r ∧ _ := decryptorIn_tkip h he hg hlen
    have hchk := checksMic_opened h he hg (k.rc4key (setKeyIndex f))
    have hfit := micFits_opened h he (by omega) (k.rc4key (setKeyIndex f))
    constructor
    · rintro ⟨r', hr', hmic⟩
      obtain rfl := Option.some.inj (hr.symm.trans hr')
      refine ⟨hlen, fun hw => ?_⟩
      obtain ⟨-, hmf, hfn, hs⟩ := hw
      have hg' := hmic _ ((hmem _).mpr ⟨hs, rfl⟩) (by rw [setKeyIndex_opened]; exact hmf)
        (by rw [setKeyIndex_opened]; exact hfn)
      exact hfit.mp (chkmicIn_isSome_iff.mp hg' hchk)
    · rintro ⟨-, hw⟩
      refine ⟨r, hr, fun g hg' hmf hfn => ?_⟩
      obtain ⟨hs, rfl⟩ := (hmem g).mp hg'
      rw [setKeyIndex_opened] at hmf hfn
      exact chkmicIn_isSome_iff.mpr fun _ => hfit.mpr (hw ⟨he, hmf, hfn, hs⟩)
  · have hnone : decryptorIn dec k a f = none := decryptorIn_none h (fun _ => hg) (by omega)
    exact iff_of_false (not_staysInside hnone) fun e => hlen e.1

end

/-! ## the unchecked functions -/

/-- the ciphers by software, for `decryptor` -/
def RxKeys.swDecrypt (k : RxKeys) (dec : SwDecrypt) : SwDecrypt :=
  { dec with
    rtwWepDecrypt := fun _ f => (rtwWepDecrypt k.toWepKeys f).data
    rtwTkipDecrypt := fun a f =>
      match tkipDecryptIn k a f with
      | some (g, true) => some g.data
      | _ => none }

/-- the MIC by software, for `recvframe_chkmic` -/
def RxKeys.micOk (k : RxKeys) (a : Adapter) (f : RecvFrame) : Bool :=
  (a.rtwGetStainfo f.attrib.ta).isNone
    || !k.noGrpkey f && k.miccode f = f.bytes (f.len - f.attrib.icvLen - 8) 8

section

variable {dec : SwDecrypt} {k : RxKeys} {a : Adapter} {f : RecvFrame} {r : Option RecvFrame}

/-- a frame that comes back is the one that went in, with other bytes -/
theorem tkipDecryptIn_data {g : RecvFrame} {ok : Bool} (h : tkipDecryptIn k a f = some (g, ok)) :
    g = { f with data := g.data } := by
  unfold tkipDecryptIn at h
  split at h
  · split at h
    · cases h
      rfl
    split at h
    · cases h
      rfl
    · obtain ⟨iv, -, h⟩ := Option.bind_eq_some_iff.mp h
      obtain ⟨g', hg', h⟩ := Option.bind_eq_some_iff.mp h
      obtain ⟨crc, -, h⟩ := Option.bind_eq_some_iff.mp h
      obtain ⟨icv, -, h⟩ := Option.bind_eq_some_iff.mp h
      cases h
      obtain ⟨n, -, hg'⟩ := Option.bind_eq_some_iff.mp hg'
      obtain ⟨bs, -, hg'⟩ := Option.bind_eq_some_iff.mp hg'
      cases hg'
      rfl
  · cases h
    rfl

theorem rtwWepDecrypt_data (k : WepKeys) (f : RecvFrame) :
    rtwWepDecrypt k f = { f with data := (rtwWepDecrypt k f).data } := by
  unfold rtwWepDecrypt
  split
  · rfl
  · rfl

theorem applyIn_eq {g : RecvFrame} {ok : Bool} (h : SwFrame a f) (happ : dec.applyIn k a f = some (g, ok)) :
    g = { f with data := g.data }
      ∧ (k.swDecrypt dec).apply a f = if ok then some g.data else none := by
  rcases h.cipher with hw | he
  · rw [applyIn_wep hw] at happ
    obtain ⟨g', hg', he⟩ := Option.map_eq_some_iff.mp happ
    cases he
    by_cases h4 : f.payloadOff + 4 ≤ f.len
    · rw [wepDecryptIn_of_le hw (h.wepLen hw) h4] at hg'
      cases hg'
      refine ⟨rtwWepDecrypt_data .., ?_⟩
      unfold SwDecrypt.apply
      rcases hw with he | he <;> rw [he] <;> rfl
    · rw [wepDecryptIn_of_lt hw (by omega)] at hg'
      cases hg'
  · rw [applyIn_tkip he] at happ
    refine ⟨tkipDecryptIn_data happ, ?_⟩
    unfold SwDecrypt.apply RxKeys.swDecrypt
    rw [he]
    dsimp only
    rw [happ]
    cases ok <;> rfl

/-- **Inside the frame** the checked `decryptor` is the other one. -/
theorem decryptorIn_eq (h : SwFrame a f) (hr : decryptorIn dec k a f = some r) :
    r = decryptor (k.swDecrypt dec) a f := by
  have hlen : f.attrib.hdrlen + 4 ≤ f.len := by
    by_contra hlt
    rw [decryptorIn_short h (by omega)] at hr
    cases hr
  rw [decryptorIn_sw h hlen] at hr
  obtain ⟨⟨g, ok⟩, happ, rfl⟩ := Option.map_eq_some_iff.mp hr
  obtain ⟨hdata, hres⟩ := applyIn_eq h.setKeyIndex happ
  have hsw := And.intro h.setKeyIndex.protected h.setKeyIndex.bdecrypted
  unfold decryptor
  dsimp only
  rw [if_pos hsw, hres]
  cases ok with
  | false => rfl
  | true =>
    rw [if_pos rfl, hdata]
    rfl

theorem chkmicIn_eq (hr : chkmicIn k a f = some r) : r = recvframeChkmic k.micOk a f := by
  unfold recvframeChkmic RxKeys.micOk
  by_cases h : ChecksMic k a f
  · by_cases hfit : MicFits f
    · rw [chkmicIn_of_checks h hfit] at hr
      obtain ⟨he, hs, hg⟩ := h
      rw [if_pos he, ← Option.some.inj hr, hg, Option.isNone_eq_false_iff.mpr hs, Bool.not_false, Bool.true_and,
        Bool.false_or]
      simp only [decide_eq_true_eq]
    · rw [chkmicIn_of_short h hfit] at hr
      cases hr
  · unfold chkmicIn at hr
    split at hr
    · rename_i he
      rw [if_pos he]
      split at hr
      · rename_i hs
        rw [hs, Bool.true_or, if_pos rfl]
        exact (Option.some.inj hr).symm
      · rename_i hs
        rw [Bool.not_eq_true] at hs
        have hg : k.noGrpkey f = true := by
          rw [← Bool.not_eq_false]
          exact fun hg => h ⟨he, Option.isNone_eq_false_iff.mp hs, hg⟩
        rw [if_pos hg] at hr
        rw [hs, hg, Bool.not_true, Bool.false_and, Bool.false_or, if_neg Bool.false_ne_true]
        exact (Option.some.inj hr).symm
    · rename_i he
      rw [if_neg he]
      exact (Option.some.inj hr).symm

end

/-- **Decryption by software stays inside the frame** just when the frame is long enough; and the MIC of
a frame that was put together from fragments just when header and MIC lie in it. -/
theorem swDecrypt_inside_iff (dec : SwDecrypt) (k : RxKeys) (a a' : Adapter) (f f' : RecvFrame)
    (hv : validateRecvDataFrame a (parseFc f) = (.success, a', f'))
    (hc : (f'.attrib.encrypt = .wep40 ∨ f'.attrib.encrypt = .wep104) ∨ f'.attrib.encrypt = .tkip)
    (hb : f'.attrib.bdecrypted = false) :
    (StaysInside dec k a' f' ↔ LongEnough k f')
      ∧ ∀ l r, recvframeDefrag l = some r →
        ((chkmicIn k a' r).isSome ↔ (ChecksMic k a' r → MicFits r)) := by
  have h := swFrame_of_accepted hv hc hb
  refine ⟨?_, fun _ _ _ => chkmicIn_isSome_iff⟩
  unfold LongEnough
  rcases h.cipher with hw | ht
  · have hne : f'.attrib.encrypt ≠ .tkip := by
      rcases hw with he | he <;> rw [he] <;> decide
    rw [if_neg (fun e => hne e.1), staysInside_wep h hw]
    exact (and_iff_left fun e => absurd e.1 hne).symm
  · by_cases hg : k.noGrpkey f' = true
    · rw [if_pos ⟨ht, hg⟩, staysInside_noGrpkey h ht hg]
    · rw [if_neg (fun e => hg e.2), staysInside_tkip h ht ((Bool.not_eq_true _).mp hg)]

/-- a protected frame of TKIP from the access point, with `body` behind its header -/
def tkipFrame (body : List UInt8) : RecvFrame := apFrame [0x08, 0x42] myMac [0x50, 0] body

theorem swDecrypt_inside_iff_forged :
    StaysInside rejectAll {} (validateRecvDataFrame (staAdapter .tkip false) (tkipFrame (List.replicate 24 0))).2.1
      (validateRecvDataFrame (staAdapter .tkip false) (tkipFrame (List.replicate 24 0))).2.2 := by
  have h := swDecrypt_inside_iff rejectAll {} (staAdapter .tkip false) _ (tkipFrame (List.replicate 24 0)) _
    (Prod.ext (by decide) rfl) (by decide) (by decide)
  apply h.1.mpr
  unfold LongEnough
  rw [if_neg (by decide)]
  exact ⟨by decide, fun _ => by decide⟩

/-- a frame that ends with its header -/
theorem short_frame_decrypted :
    ¬ ∀ (dec : SwDecrypt) (k : RxKeys) (a a' : Adapter) (f f' : RecvFrame),
      validateRecvDataFrame a (parseFc f) = (.success, a', f') →
      ((f'.attrib.encrypt = .wep40 ∨ f'.attrib.encrypt = .wep104) ∨ f'.attrib.encrypt = .tkip) →
      f'.attrib.bdecrypted = false → StaysInside dec k a' f' := by
  intro h
  obtain ⟨r, hr, -⟩ := h rejectAll {} (staAdapter .tkip false) _ (tkipFrame []) _
    (Prod.ext (by decide) rfl) (by decide) (by decide)
  have hnone : decryptorIn rejectAll {}
      (validateRecvDataFrame (staAdapter .tkip false) (parseFc (tkipFrame []))).2.1
      (validateRecvDataFrame (staAdapter .tkip false) (parseFc (tkipFrame []))).2.2 = none := by decide
  cases hr.symm.trans hnone

end Rtl8192eu
