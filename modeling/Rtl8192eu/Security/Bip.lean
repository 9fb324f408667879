import Rtl8192eu.Lib.Mem
import Rtl8192eu.Lib.Run
import Rtl8192eu.Xmit.PacketNumber

/-!
# Protection of group addressed management frames

The management MIC element: `rtw_mgmt_xmitframe_coalesce` appends it, `rtw_bip_verify` checks it.

* `rtwCalculateBipMic`   the MIC, over a header without its retry, power and more data bits, and
                              the body with a MIC of zeros;
* `rtwMgmtXmitframeCoalesceBmc`   the sender;
* `rtwBipVerify`   the verifier, with the packet number it stores;
* `rtwBipVerify_coalesce`   what the first completes the second accepts;
* `Verifier.step`   one frame more is presented.
-/

namespace Rtl8192eu

open Mem Run

namespace Bip

/-! ## the MIC -/

/-- `dot11wCipher` -/
inductive Cipher where
  | cmac128 | gmac128 | gmac256 | cmac256 | other
  deriving DecidableEq, Repr

abbrev Mic := { l : List UInt8 // l.length = 16 }

/-- `core/crypto`; `none` is a failure -/
structure Crypto where
  omac1Aes128 : List UInt8 → List UInt8 → Option Mic
  omac1Aes256 : List UInt8 → List UInt8 → Option Mic
  /-- key, nonce, data -/
  aesGmac : List UInt8 → List UInt8 → List UInt8 → Option Mic

def micLen (gmcs : Cipher) : Nat := if gmcs = .cmac128 then 8 else 16

/-- A2 and the packet number, the most significant byte first -/
def gmacNonce (m : Nat → UInt8) (whdr len : Nat) : List UInt8 :=
  read m (whdr + 10) 6 ++ (read m (whdr + len - 16 - 6) 6).reverse

/-- `skey` is 32 bytes long -/
def rtwCalculateBipMic (P : Crypto) (gmcs : Cipher) (m : Nat → UInt8) (whdr len : Nat)
    (key data : List UInt8) : Option Mic :=
  match gmcs with
  | .cmac128 => P.omac1Aes128 (key.take 16) data
  | .cmac256 => P.omac1Aes256 (key.take 32) data
  | .gmac128 => P.aesGmac (key.take 16) (gmacNonce m whdr len) data
  | .gmac256 => P.aesGmac (key.take 32) (gmacNonce m whdr len) data
  | .other => none

/-- the second byte of the frame control field, after `ClearRetry`, `ClearPwrMgt` and `ClearMData` -/
def clearFc (b : UInt8) : UInt8 := b &&& ~~~0x08 &&& ~~~0x10 &&& ~~~0x20

/-- the first 20 bytes of `BIP_AAD` -/
def aad (m : Nat → UInt8) (whdr : Nat) : List UInt8 :=
  m whdr :: clearFc (m (whdr + 1)) :: read m (whdr + 4) 18

/-! ## the sender -/

/-- the fields of `struct security_priv`; the key id is an index of `dot11wBIPKey[6]` -/
structure BipPriv where
  binstallBIPkey : Bool
  dot11wCipher : Cipher
  dot11wBIPKeyid : Fin 6
  dot11wBIPKey : Fin 6 → List UInt8
  dot11wBIPtxpn : Nat

/-- a management frame in its buffer -/
structure MgmtXmitFrame where
  m : Nat → UInt8
  memStart : Nat
  pktlen : Nat
  hdr_le : 24 ≤ pktlen
  lastTxcmdsz : Nat

def MgmtXmitFrame.bytes (f : MgmtXmitFrame) : List UInt8 := read f.m f.memStart f.pktlen

def getFrameSubType (m : Nat → UInt8) (pframe : Nat) : MgmtSubtype :=
  if m pframe &&& 0xfc = 0xc0 then .deauth
  else if m pframe &&& 0xfc = 0xa0 then .disassoc
  else if m pframe &&& 0xfc = 0xd0 then .action (m (pframe + 24)).toNat
  else .other

def categoryIsGroupPrivacy (c : Nat) : Bool := c = 13 || c = 14

def groupPrivacy : MgmtSubtype → Bool
  | .action c => categoryIsGroupPrivacy c
  | _ => false

/-- `mme_cont`, of `_MME_IE_LENGTH_ - 2` bytes; the number is written with eight bytes -/
def mmeCont (keyid pn : Nat) : List UInt8 :=
  UInt8.ofNat keyid :: 0 :: ((List.range 8).map (pnByte pn) ++ List.replicate 14 0)

/-- the content of the element: its length is the same for all ciphers but one -/
def mmeClen (gmcs : Cipher) : Nat := if gmcs = .cmac128 then 16 else 24

inductive CoalesceRes where
  /-- `_SUCCESS`, and the frame is sent as it is -/
  | plain
  /-- `_SUCCESS`, with a MIC -/
  | withMic
  /-- the frame goes on to the cipher of the group -/
  | encrypt
  | fail
  deriving DecidableEq, Repr

/-- the frame with the element, its MIC still zero -/
def putMme (gmcs : Cipher) (keyid pn : Nat) (f : MgmtXmitFrame) : MgmtXmitFrame :=
  let clen := mmeClen gmcs
  { f with
    m := write f.m (f.memStart + f.pktlen)
      (76 :: UInt8.ofNat clen :: (mmeCont keyid pn).take clen)
    pktlen := f.pktlen + (clen + 2)
    hdr_le := Nat.le_add_right_of_le f.hdr_le
    lastTxcmdsz := f.pktlen + (clen + 2) }

/-- `pframe` is behind the frame -/
def putMic (gmcs : Cipher) (mic : Mic) (f : MgmtXmitFrame) : MgmtXmitFrame :=
  { f with
    m := write f.m (f.memStart + f.pktlen - micLen gmcs) (mic.val.take (micLen gmcs)) }

/-- `BIP_AAD` -/
def micData (f : MgmtXmitFrame) : List UInt8 :=
  aad f.m f.memStart ++ read f.m (f.memStart + 24) (f.pktlen - 24)

/-- `rtw_mgmt_xmitframe_coalesce` of a frame to a group; `alloc` is the answer of `rtw_zmalloc` -/
def rtwMgmtXmitframeCoalesceBmc (P : Crypto) (alloc : Bool) (sec : BipPriv) (f : MgmtXmitFrame) :
    CoalesceRes × BipPriv × MgmtXmitFrame :=
  let subtype := getFrameSubType f.m f.memStart
  if !subtype.robust then (.plain, sec, f)
  else if !alloc then (.fail, sec, f)
  else if groupPrivacy subtype then (.encrypt, sec, f)
  else if !sec.binstallBIPkey then (.plain, sec, f)
  else
    let sec := { sec with dot11wBIPtxpn := (sec.dot11wBIPtxpn + 1) % 2 ^ 64 }
    let f := putMme sec.dot11wCipher sec.dot11wBIPKeyid sec.dot11wBIPtxpn f
    match rtwCalculateBipMic P sec.dot11wCipher f.m f.memStart f.pktlen
        (sec.dot11wBIPKey sec.dot11wBIPKeyid) (micData f) with
    | none => (.fail, sec, f)
    | some mic => (.withMic, sec, putMic sec.dot11wCipher mic f)

/-! ## the verifier -/

inductive VerifyRes where
  | handled
  | fail
  | success
  deriving DecidableEq, Repr

/-- a little-endian number -/
def leNat (l : List UInt8) : Nat := l.foldr (fun b n => n * 256 + b.toNat) 0

def mmeOffset (gmcs : Cipher) : Nat := if micLen gmcs = 8 then 18 else 26

/-- `rtw_bip_verify`, and the number in `ipn` afterwards -/
def rtwBipVerify (P : Crypto) (alloc : Bool) (gmcs : Cipher) (pktLen : UInt16) (m : Nat → UInt8)
    (whdr : Nat) (flen : Int) (key : List UInt8) (keyid : UInt16) (ipn : Nat) : VerifyRes × Nat :=
  if flen < 24 ∨ flen - 24 < micLen gmcs then (.handled, ipn)
  else
    let len := flen.toNat
    let mme := whdr + (len - mmeOffset gmcs)
    if m mme ≠ 76 then (.handled, ipn)
    else if leNat (read m (mme + 2) 2) ≠ keyid.toNat then (.fail, ipn)
    else
      let pktIpn := leNat (read m (mme + 4) 6)
      if pktIpn ≤ ipn then (.fail, ipn)
      else if !alloc then (.fail, ipn)
      else
        let body := read m (whdr + 24) (len - 24 - micLen gmcs)
        let data := aad m whdr ++ (body ++ List.replicate (micLen gmcs) 0)
        match rtwCalculateBipMic P gmcs m whdr pktLen.toNat key data with
        | none => (.fail, ipn)
        | some mic =>
          if mic.val.take (micLen gmcs) = read m (whdr + (len - micLen gmcs)) (micLen gmcs) then
            (.success, pktIpn)
          else (.fail, ipn)

variable {P : Crypto} {alloc : Bool} {gmcs : Cipher} {sec sec' : BipPriv} {f f' : MgmtXmitFrame}
  {m m' : Nat → UInt8} {a b n pn : Nat}

/-! ## one number, two byte orders -/

theorem leNat_cons (x : UInt8) (l : List UInt8) : leNat (x :: l) = leNat l * 256 + x.toNat := rfl

/-- six of the eight bytes are enough -/
theorem leNat_pn (h : pn < 2 ^ 48) : leNat ((List.range 6).map (pnByte pn)) = pn := by
  show leNat [pnByte pn 0, pnByte pn 1, pnByte pn 2, pnByte pn 3, pnByte pn 4, pnByte pn 5] = pn
  simp only [leNat, List.foldr_cons, List.foldr_nil, pnByte_toNat]
  omega

/-- the last two are where the MIC begins, and zero -/
theorem pnByte_eq_zero {i : Nat} (h : pn < 256 ^ i) : pnByte pn i = 0 := by
  rw [pnByte, Nat.div_eq_of_lt h]
  rfl

theorem mmeClen_eq (gmcs : Cipher) : mmeClen gmcs = micLen gmcs + 8 := by
  cases gmcs <;> rfl

theorem mmeOffset_eq (gmcs : Cipher) : mmeOffset gmcs = micLen gmcs + 10 := by
  cases gmcs <;> rfl

theorem micLen_le (gmcs : Cipher) : 8 ≤ micLen gmcs ∧ micLen gmcs ≤ 16 := by
  cases gmcs <;> decide

/-- the element in front of its MIC -/
def mmeHead (gmcs : Cipher) (keyid pn : Nat) : List UInt8 :=
  76 :: UInt8.ofNat (mmeClen gmcs) :: UInt8.ofNat keyid :: 0 :: (List.range 6).map (pnByte pn)

theorem length_mmeHead (gmcs : Cipher) (keyid pn : Nat) : (mmeHead gmcs keyid pn).length = 10 := rfl

/-- the element as it is appended: its MIC is zero -/
theorem mmeCont_take (gmcs : Cipher) (keyid : Nat) (h : pn < 2 ^ 48) :
    76 :: UInt8.ofNat (mmeClen gmcs) :: (mmeCont keyid pn).take (mmeClen gmcs)
      = mmeHead gmcs keyid pn ++ List.replicate (micLen gmcs) 0 := by
  have h6 : pnByte pn 6 = 0 := pnByte_eq_zero h
  have h7 : pnByte pn 7 = 0 := pnByte_eq_zero (Nat.lt_of_lt_of_le h (by decide))
  have hcont : mmeCont keyid pn
      = UInt8.ofNat keyid :: 0 :: ((List.range 6).map (pnByte pn) ++ List.replicate 16 0) := by
    show _ :: _ :: ([pnByte pn 0, pnByte pn 1, pnByte pn 2, pnByte pn 3, pnByte pn 4, pnByte pn 5,
      pnByte pn 6, pnByte pn 7] ++ List.replicate 14 0) = _
    rw [h6, h7]
    rfl
  rw [hcont]
  cases gmcs <;> rfl

/-! ## the verifier reads the frame only -/

theorem aad_congr (he : read m a n = read m' b n) (hn : 22 ≤ n) : aad m a = aad m' b := by
  have h0 : m a = m' b := cell_congr he (i := 0) (by omega)
  have h1 : m (a + 1) = m' (b + 1) := cell_congr he (by omega)
  rw [aad, aad, h0, h1, read_sub_congr he (by omega)]

/-- the MIC does not depend on where it is written -/
theorem rtwCalculateBipMic_of_prefix (P : Crypto) (gmcs : Cipher) (key data : List UInt8)
    (hn : 24 ≤ n) (he : read m a (n + 10) = read m' b (n + 10)) :
    rtwCalculateBipMic P gmcs m a (n + 10 + micLen gmcs) key data
      = rtwCalculateBipMic P gmcs m' b (n + 10 + micLen gmcs) key data := by
  have hnonce : micLen gmcs = 16 →
      gmacNonce m a (n + 10 + micLen gmcs) = gmacNonce m' b (n + 10 + micLen gmcs) := by
    intro h16
    have hpos : ∀ c, c + (n + 10 + micLen gmcs) - 16 - 6 = c + (n + 4) := by omega
    rw [gmacNonce, gmacNonce, hpos, hpos, read_sub_congr he (by omega), read_sub_congr he (by omega)]
  unfold rtwCalculateBipMic
  cases gmcs with
  | cmac128 => rfl
  | cmac256 => rfl
  | other => rfl
  | gmac128 => dsimp only; rw [hnonce rfl]
  | gmac256 => dsimp only; rw [hnonce rfl]

/-- the frame at `a`, of `n` bytes and an element, is protected -/
structure Protected (P : Crypto) (gmcs : Cipher) (key : List UInt8) (keyid pn : Nat) (m : Nat → UInt8)
    (a n : Nat) : Prop where
  hdr_le : 24 ≤ n
  head : read m (a + n) 10 = mmeHead gmcs keyid pn
  mic : ∃ mic, rtwCalculateBipMic P gmcs m a (n + 10 + micLen gmcs) key
      (aad m a ++ (read m (a + 24) (n + 10 - 24) ++ List.replicate (micLen gmcs) 0)) = some mic
    ∧ read m (a + (n + 10)) (micLen gmcs) = mic.val.take (micLen gmcs)

/-- it is when its bytes are -/
theorem Protected.congr {key : List UInt8} {keyid : Nat} (h : Protected P gmcs key keyid pn m a n)
    (he : read m a (n + 10 + micLen gmcs) = read m' b (n + 10 + micLen gmcs)) :
    Protected P gmcs key keyid pn m' b n := by
  have hdr := h.hdr_le
  refine ⟨hdr, ?_, ?_⟩
  · rw [← h.head]
    exact (read_sub_congr he (by omega)).symm
  · obtain ⟨mic, hmic, htail⟩ := h.mic
    refine ⟨mic, ?_, ?_⟩
    · have hfront : read m a (n + 10) = read m' b (n + 10) :=
        read_sub_congr (k := 0) he (by omega)
      rw [← hmic, rtwCalculateBipMic_of_prefix P gmcs key _ hdr hfront, aad_congr he (by omega),
        read_sub_congr he (by omega)]
    · rw [← htail]
      exact (read_sub_congr he (by omega)).symm

/-- **A protected frame is accepted**, and its number stored. -/
theorem Protected.verify {key : List UInt8} {keyid pktLen : UInt16} {ipn : Nat}
    (h : Protected P gmcs key keyid.toNat pn m a n) (hkey : keyid.toNat < 256) (hpn : pn < 2 ^ 48)
    (hlen : pktLen.toNat = n + 10 + micLen gmcs) (hipn : ipn < pn) :
    rtwBipVerify P true gmcs pktLen m a ((n + 10 + micLen gmcs : Nat) : Int) key keyid ipn
      = (.success, pn) := by
  obtain ⟨hdr, hhead, mic, hmic, htail⟩ := h
  have hk := micLen_le gmcs
  have hmme : n + 10 + micLen gmcs - mmeOffset gmcs = n := by
    rw [mmeOffset_eq]
    omega
  have h76 : m (a + n) = 76 := List.head_eq_of_cons_eq hhead
  have hid : read m (a + n + 2) 2 = [UInt8.ofNat keyid.toNat, 0] := by
    rw [read_sub (k := 2) (n := 10) (by omega), hhead]
    rfl
  have hnum : read m (a + n + 4) 6 = (List.range 6).map (pnByte pn) := by
    rw [read_sub (k := 4) (n := 10) (by omega), hhead]
    rfl
  have hidNat : leNat [UInt8.ofNat keyid.toNat, 0] = keyid.toNat := by
    rw [leNat_cons, leNat_cons, UInt8.toNat_ofNat_of_lt' hkey]
    show (0 * 256 + 0) * 256 + _ = _
    omega
  unfold rtwBipVerify
  dsimp only
  rw [if_neg (by omega), Int.toNat_natCast, hmme, if_neg (not_not.mpr h76), hid, hidNat,
    if_neg (not_not.mpr rfl), hnum, leNat_pn hpn, if_neg (by omega), Bool.not_true,
    if_neg Bool.false_ne_true, hlen, show n + 10 + micLen gmcs - 24 - micLen gmcs = n + 10 - 24 by omega,
    hmic]
  dsimp only
  rw [Nat.add_sub_cancel, htail, if_pos rfl]

/-! ## the sender protects -/

/-- a robust frame to the group is completed, or `core/crypto` fails -/
theorem coalesce_robust (P : Crypto) (sec : BipPriv) (f : MgmtXmitFrame)
    (hrob : (getFrameSubType f.m f.memStart).robust = true)
    (hgp : groupPrivacy (getFrameSubType f.m f.memStart) = false)
    (hkey : sec.binstallBIPkey = true) :
    (rtwMgmtXmitframeCoalesceBmc P true sec f).1 = .withMic
      ∨ (rtwMgmtXmitframeCoalesceBmc P true sec f).1 = .fail := by
  unfold rtwMgmtXmitframeCoalesceBmc
  simp only [hrob, hgp, hkey, Bool.not_true, Bool.false_eq_true, if_false]
  split
  · exact Or.inr rfl
  · exact Or.inl rfl

theorem coalesce_withMic
    (h : rtwMgmtXmitframeCoalesceBmc P alloc sec f = (.withMic, sec', f')) :
    ∃ mic, sec' = { sec with dot11wBIPtxpn := (sec.dot11wBIPtxpn + 1) % 2 ^ 64 }
      ∧ rtwCalculateBipMic P sec.dot11wCipher
          (putMme sec.dot11wCipher sec.dot11wBIPKeyid sec'.dot11wBIPtxpn f).m f.memStart
          (putMme sec.dot11wCipher sec.dot11wBIPKeyid sec'.dot11wBIPtxpn f).pktlen
          (sec.dot11wBIPKey sec.dot11wBIPKeyid)
          (micData (putMme sec.dot11wCipher sec.dot11wBIPKeyid sec'.dot11wBIPtxpn f)) = some mic
      ∧ f' = putMic sec.dot11wCipher mic
          (putMme sec.dot11wCipher sec.dot11wBIPKeyid sec'.dot11wBIPtxpn f) := by
  unfold rtwMgmtXmitframeCoalesceBmc at h
  dsimp only at h
  split at h
  · cases h
  split at h
  · cases h
  split at h
  · cases h
  split at h
  · cases h
  split at h
  · cases h
  · rename_i mic hmic
    cases h
    exact ⟨mic, rfl, hmic, rfl⟩

/-- the frame with its element in memory -/
theorem read_putMme (f : MgmtXmitFrame) (gmcs : Cipher) (keyid : Nat) (hpn : pn < 2 ^ 48) :
    read (putMme gmcs keyid pn f).m f.memStart (f.pktlen + (10 + micLen gmcs))
      = f.bytes ++ (mmeHead gmcs keyid pn ++ List.replicate (micLen gmcs) 0) := by
  have hlen : (mmeHead gmcs keyid pn ++ List.replicate (micLen gmcs) (0 : UInt8)).length
      = 10 + micLen gmcs := by
    rw [List.length_append, length_mmeHead, List.length_replicate]
  show read (write f.m (f.memStart + f.pktlen) (76 :: UInt8.ofNat (mmeClen gmcs)
    :: (mmeCont keyid pn).take (mmeClen gmcs))) _ _ = _
  rw [mmeCont_take gmcs keyid hpn, ← hlen, read_write_append]
  rfl

theorem putMic_protected {keyid : Nat} {key : List UInt8} {mic : Mic} (hpn : pn < 2 ^ 48)
    (hmic : rtwCalculateBipMic P gmcs (putMme gmcs keyid pn f).m f.memStart
      (putMme gmcs keyid pn f).pktlen key (micData (putMme gmcs keyid pn f)) = some mic) :
    Protected P gmcs key keyid pn (putMic gmcs mic (putMme gmcs keyid pn f)).m f.memStart
      f.pktlen := by
  have hdr := f.hdr_le
  have hk := micLen_le gmcs
  have hmlen : (mic.val.take (micLen gmcs)).length = micLen gmcs := by
    rw [List.length_take, mic.property]
    omega
  have hlen : (putMme gmcs keyid pn f).pktlen = f.pktlen + 10 + micLen gmcs := by
    show f.pktlen + (mmeClen gmcs + 2) = _
    rw [mmeClen_eq]
    omega
  have hread := read_putMme f gmcs keyid hpn
  have hstart : (putMme gmcs keyid pn f).memStart = f.memStart := rfl
  generalize putMme gmcs keyid pn f = F at hmic hlen hread hstart ⊢
  have hpos : F.memStart + F.pktlen - micLen gmcs = f.memStart + (f.pktlen + 10) := by
    rw [hstart, hlen]
    omega
  rw [read_add] at hread
  have hmme := List.append_inj_right hread (by rw [length_read]; exact length_read.symm)
  rw [read_add] at hmme
  have hhead := List.append_inj_left hmme length_read
  have hzero := List.append_inj_right hmme length_read
  -- the MIC is written behind everything that it covers
  have hout : ∀ off j, off + j ≤ f.pktlen + 10 →
      read (putMic gmcs mic F).m (f.memStart + off) j = read F.m (f.memStart + off) j := by
    intro off j hj
    refine read_write_of_disjoint (Or.inl ?_)
    rw [hpos]
    omega
  have hall : read (putMic gmcs mic F).m f.memStart (f.pktlen + 10)
      = read F.m f.memStart (f.pktlen + 10) := hout 0 _ (by omega)
  refine ⟨hdr, ?_, mic, ?_, ?_⟩
  · rw [hout _ _ (Nat.le_refl _), hhead]
  · have hdata : aad (putMic gmcs mic F).m f.memStart
          ++ (read (putMic gmcs mic F).m (f.memStart + 24) (f.pktlen + 10 - 24)
            ++ List.replicate (micLen gmcs) 0) = micData F := by
      rw [micData, aad_congr hall (by omega), hout _ _ (by omega), ← hzero, hstart, hlen,
        show f.pktlen + 10 + micLen gmcs - 24 = f.pktlen + 10 - 24 + micLen gmcs by omega, read_add]
      congr 3
      omega
    rw [hdata, ← hmic, hlen]
    exact rtwCalculateBipMic_of_prefix P gmcs key _ hdr hall
  · rw [putMic, hpos]
    exact read_write_self hmlen.symm

/-- **What is completed is protected.** -/
theorem coalesce_protected
    (h : rtwMgmtXmitframeCoalesceBmc P alloc sec f = (.withMic, sec', f'))
    (hpn : sec.dot11wBIPtxpn < 2 ^ 48 - 1) :
    f'.pktlen = f.pktlen + 10 + micLen sec.dot11wCipher
      ∧ Protected P sec.dot11wCipher (sec.dot11wBIPKey sec.dot11wBIPKeyid) sec.dot11wBIPKeyid
        (sec.dot11wBIPtxpn + 1) f'.m f'.memStart f.pktlen := by
  obtain ⟨mic, hsec, hmic, rfl⟩ := coalesce_withMic h
  have htx : sec'.dot11wBIPtxpn = sec.dot11wBIPtxpn + 1 := by
    rw [hsec]
    exact Nat.mod_eq_of_lt (by omega)
  rw [htx] at hmic ⊢
  constructor
  · show f.pktlen + (mmeClen sec.dot11wCipher + 2) = _
    rw [mmeClen_eq]
    omega
  · exact putMic_protected (by omega) hmic

/-! ## one frame after the other -/

/-- the calls of one association: the buffers are of any content -/
structure Call where
  alloc : Bool
  pktLen : UInt16
  m : Nat → UInt8
  whdr : Nat
  flen : Int

def Call.bytes (c : Call) : List UInt8 := read c.m c.whdr c.flen.toNat

/-- the number in the element of a frame -/
def frameIpn (gmcs : Cipher) (frame : List UInt8) : Nat :=
  leNat ((frame.drop (frame.length - mmeOffset gmcs + 4)).take 6)

structure Verifier where
  ipn : Nat
  accepted : List (List UInt8)

def Verifier.step (P : Crypto) (gmcs : Cipher) (key : List UInt8) (keyid : UInt16) (v : Verifier)
    (c : Call) : Verifier :=
  match rtwBipVerify P c.alloc gmcs c.pktLen c.m c.whdr c.flen key keyid v.ipn with
  | (.success, ipn) => { ipn := ipn, accepted := v.accepted ++ [c.bytes] }
  | (_, ipn) => { v with ipn := ipn }

/-- the two outcomes of a call -/
theorem rtwBipVerify_cases (P : Crypto) (gmcs : Cipher) (key : List UInt8) (keyid : UInt16)
    (ipn : Nat) (c : Call) :
    (∃ res, res ≠ .success
        ∧ rtwBipVerify P c.alloc gmcs c.pktLen c.m c.whdr c.flen key keyid ipn = (res, ipn))
      ∨ rtwBipVerify P c.alloc gmcs c.pktLen c.m c.whdr c.flen key keyid ipn
          = (.success, frameIpn gmcs c.bytes) ∧ ipn < frameIpn gmcs c.bytes := by
  unfold rtwBipVerify
  dsimp only
  split
  · exact Or.inl ⟨.handled, VerifyRes.noConfusion, rfl⟩
  split
  · exact Or.inl ⟨.handled, VerifyRes.noConfusion, rfl⟩
  split
  · exact Or.inl ⟨.fail, VerifyRes.noConfusion, rfl⟩
  split
  · exact Or.inl ⟨.fail, VerifyRes.noConfusion, rfl⟩
  split
  · exact Or.inl ⟨.fail, VerifyRes.noConfusion, rfl⟩
  split
  · exact Or.inl ⟨.fail, VerifyRes.noConfusion, rfl⟩
  split
  · rename_i hlen _ _ hipn _ _ _ _ _
    have hk := micLen_le gmcs
    have hoff := mmeOffset_eq gmcs
    have hnum : leNat (read c.m (c.whdr + (c.flen.toNat - mmeOffset gmcs) + 4) 6)
        = frameIpn gmcs c.bytes := by
      unfold frameIpn Call.bytes
      rw [length_read, ← read_sub (by omega), Nat.add_assoc]
    rw [hnum] at hipn ⊢
    exact Or.inr ⟨rfl, Nat.lt_of_not_le hipn⟩
  · exact Or.inl ⟨.fail, VerifyRes.noConfusion, rfl⟩

/-- the numbers of the accepted frames rise up to the stored one -/
def Verifier.Rising (gmcs : Cipher) (v : Verifier) : Prop :=
  (v.accepted.map (frameIpn gmcs)).Pairwise (· < ·)
    ∧ ∀ frame ∈ v.accepted, frameIpn gmcs frame ≤ v.ipn

theorem Verifier.step_rising {key : List UInt8} {keyid : UInt16} {v : Verifier} (c : Call)
    (h : v.Rising gmcs) : (v.step P gmcs key keyid c).Rising gmcs := by
  rcases rtwBipVerify_cases P gmcs key keyid v.ipn c with ⟨res, hres, he⟩ | ⟨he, hlt⟩
  · have hstep : v.step P gmcs key keyid c = v := by
      rw [Verifier.step, he]
      cases res with
      | success => exact absurd rfl hres
      | handled => rfl
      | fail => rfl
    rw [hstep]
    exact h
  · have hstep : v.step P gmcs key keyid c
        = ⟨frameIpn gmcs c.bytes, v.accepted ++ [c.bytes]⟩ := by
      rw [Verifier.step, he]
    rw [hstep]
    obtain ⟨hpair, hle⟩ := h
    constructor
    · show ((v.accepted ++ [c.bytes]).map _).Pairwise _
      rw [List.map_append, List.pairwise_append]
      refine ⟨hpair, List.pairwise_singleton _ _, ?_⟩
      intro x hx y hy
      obtain ⟨frame, hframe, rfl⟩ := List.mem_map.mp hx
      rw [List.mem_singleton.mp hy]
      exact Nat.lt_of_le_of_lt (hle frame hframe) hlt
    · intro frame hframe
      rcases List.mem_append.mp hframe with hold | hnew
      · exact Nat.le_of_lt (Nat.lt_of_le_of_lt (hle frame hold) hlt)
      · rw [List.mem_singleton.mp hnew]

theorem Verifier.Rising.nodup {v : Verifier} (h : v.Rising gmcs) : v.accepted.Nodup :=
  List.Nodup.of_map _ (h.1.imp Nat.ne_of_lt)

end Bip

open Bip

/-- **Sender and verifier agree, and a frame is accepted once.** -/
theorem bip_agrees (P : Crypto) :
    (∀ sec f, (Bip.getFrameSubType f.m f.memStart).robust = true →
        groupPrivacy (Bip.getFrameSubType f.m f.memStart) = false → sec.binstallBIPkey = true →
        (rtwMgmtXmitframeCoalesceBmc P true sec f).1 = .withMic
          ∨ (rtwMgmtXmitframeCoalesceBmc P true sec f).1 = .fail)
      ∧ (∀ alloc sec sec' f f', rtwMgmtXmitframeCoalesceBmc P alloc sec f = (.withMic, sec', f') →
        sec.dot11wBIPtxpn < 2 ^ 48 - 1 →
        ∀ (m : Nat → UInt8) (whdr : Nat) (pktLen : UInt16) (ipn : Nat),
          read m whdr f'.pktlen = f'.bytes → pktLen.toNat = f'.pktlen → ipn < sec'.dot11wBIPtxpn →
          rtwBipVerify P true sec.dot11wCipher pktLen m whdr (f'.pktlen : Int)
              (sec.dot11wBIPKey sec.dot11wBIPKeyid) (UInt16.ofNat sec.dot11wBIPKeyid) ipn
            = (.success, sec'.dot11wBIPtxpn))
      ∧ (∀ gmcs key keyid ipn (c : Call),
          (rtwBipVerify P c.alloc gmcs c.pktLen c.m c.whdr c.flen key keyid ipn).1 ≠ .success →
          (rtwBipVerify P c.alloc gmcs c.pktLen c.m c.whdr c.flen key keyid ipn).2 = ipn)
      ∧ ∀ gmcs key keyid ipn (cs : List Call),
          (((run (Verifier.step P gmcs key keyid) ⟨ipn, []⟩ cs).accepted.map
              (frameIpn gmcs)).Pairwise (· < ·))
            ∧ (run (Verifier.step P gmcs key keyid) ⟨ipn, []⟩ cs).accepted.Nodup := by
  refine ⟨fun sec f => coalesce_robust P sec f, ?_, ?_, ?_⟩
  · intro alloc sec sec' f f' h hpn m whdr pktLen ipn hread hlen hipn
    obtain ⟨hpktlen, hprot⟩ := coalesce_protected h hpn
    obtain ⟨mic, hsec, -, -⟩ := coalesce_withMic h
    have htx : sec'.dot11wBIPtxpn = sec.dot11wBIPtxpn + 1 := by
      rw [hsec]
      exact Nat.mod_eq_of_lt (by omega)
    have hid : (UInt16.ofNat sec.dot11wBIPKeyid).toNat = sec.dot11wBIPKeyid :=
      UInt16.toNat_ofNat_of_lt' (Nat.lt_trans sec.dot11wBIPKeyid.isLt (by decide))
    rw [htx] at hipn ⊢
    rw [hpktlen] at hlen ⊢
    refine Protected.verify ?_ ?_ (by omega) hlen hipn
    · rw [hid]
      refine hprot.congr ?_
      rw [← hpktlen]
      exact hread.symm
    · rw [hid]
      exact Nat.lt_trans sec.dot11wBIPKeyid.isLt (by decide)
  · intro gmcs key keyid ipn c hno
    rcases rtwBipVerify_cases P gmcs key keyid ipn c with ⟨res, -, he⟩ | ⟨he, -⟩
    · rw [he]
    · rw [he] at hno
      exact absurd rfl hno
  · intro gmcs key keyid ipn cs
    have hrise : (run (Verifier.step P gmcs key keyid) ⟨ipn, []⟩ cs).Rising gmcs :=
      run_inv_all (fun v c hv => Verifier.step_rising c hv) _ cs
        ⟨List.Pairwise.nil, fun frame hf => nomatch hf⟩
    exact ⟨hrise.1, hrise.nodup⟩

/-- key and data, byte by byte -/
def xorMic (key data : List UInt8) : Option Mic :=
  some ⟨(List.range 16).map fun i => key.getD i 0 ^^^ data.getD i 0, by simp⟩

def xorCrypto : Crypto := ⟨xorMic, xorMic, fun key nonce data => xorMic key (nonce ++ data)⟩

/-- a deauthentication of everybody, of 26 bytes -/
def deauthAll : MgmtXmitFrame where
  m i := if i = 0 then 0xc0 else if 4 ≤ i ∧ i < 10 then 0xff else UInt8.ofNat i
  memStart := 0
  pktlen := 26
  hdr_le := by decide
  lastTxcmdsz := 0

def igtkSec (gmcs : Cipher) : BipPriv where
  binstallBIPkey := true
  dot11wCipher := gmcs
  dot11wBIPKeyid := 4
  dot11wBIPKey _ := List.replicate 32 0x2b
  dot11wBIPtxpn := 255

theorem bip_agrees_deauthAll :
    let sent := rtwMgmtXmitframeCoalesceBmc xorCrypto true (igtkSec .gmac256) deauthAll
    rtwBipVerify xorCrypto true .gmac256 52 sent.2.2.m 0 sent.2.2.pktlen (List.replicate 32 0x2b) 4
      255 = (.success, 256) :=
  (bip_agrees xorCrypto).2.1 true (igtkSec .gmac256) _ deauthAll _ (Prod.ext rfl rfl) (by decide)
    _ 0 52 255 rfl rfl (by decide)

end Rtl8192eu
