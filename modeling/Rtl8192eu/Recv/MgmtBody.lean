import Rtl8192eu.Recv.Mgnt

/-!
# The two lengths of a decrypted management frame

`validate_mgmt_protect` of `core/rtw_recv.c` moves the decrypted body over the IV.  The frame has
its length twice: `u.hdr.len`, which goes with `rx_data` and `rx_tail`, and `pkt_len` of its
attributes.

* `RxMgmtFrame`   a frame with both lengths;
* `validateMgmtProtectLen`   the function on both, `validateMgmtProtectLen_frame` for the frame alone;
* `IsPlain`       header and body, in both lengths;
* `mgmt_plain_iff`   when that is what the handlers get.
-/

namespace Rtl8192eu

structure RxMgmtFrame where
  frame : RecvFrame
  /-- `pkt_len` of the attributes -/
  pktLen : Nat
  pktLen_lt : pktLen < 65536

inductive MgmtProtectLen where
  | pass (f : RxMgmtFrame)
  | drop
  | freed

/-- the frame with its one length, for the functions that know no other -/
def MgmtProtectLen.toFrame : MgmtProtectLen → MgmtProtect
  | .pass f => .pass f.frame
  | .drop => .drop
  | .freed => .freed

/-- `data_len`, of a frame that is long enough -/
def mgmtDataLen (att : RxPktAttrib) (pktLen : Nat) : Nat :=
  pktLen - att.hdrlen - att.ivLen - att.icvLen

/-- `n` bytes behind the IV are copied to the end of the header; they are read and written in the
buffer, whatever its length says -/
def moveBody (f : RecvFrame) (n : Nat) : RecvFrame :=
  let buf := f.data ++ f.room
  let buf' := buf.take f.attrib.hdrlen ++ f.bytes (f.attrib.hdrlen + f.attrib.ivLen) n
    ++ buf.drop (f.attrib.hdrlen + n)
  { f with data := buf'.take f.len, room := buf'.drop f.len }

/-- the IV and the ICV go from `pkt_len`, a `u16`; `u.hdr.len` stays -/
def overwriteBody (f : RxMgmtFrame) : RxMgmtFrame where
  frame := moveBody f.frame (mgmtDataLen f.frame.attrib f.pktLen)
  pktLen := (f.pktLen + 131072 - f.frame.attrib.ivLen - f.frame.attrib.icvLen) % 65536
  pktLen_lt := Nat.mod_lt _ (by decide)

def validateMgmtProtectLen (o : RxOracle) (conf : RxConf) (a : Adapter) (f : RxMgmtFrame) :
    MgmtProtectLen :=
  if !conf.installBipKey then .pass f
  else if !f.frame.attrib.privacy then
    match mgmtUnprotected o conf (a.rtwGetStainfo (getAddr2 f.frame)) f.frame with
    | .pass g => .pass { f with frame := g }
    | .drop => .drop
    | .freed => .freed
  else
    match a.rtwGetStainfo (getAddr2 f.frame) with
    | none => .drop
    | some sta =>
      let g := mgmtAttrib sta f.frame
      if !sta.mfp then .drop
      -- `data_len` of a short frame wraps, and nothing of that size is allocated
      else if !o.zmalloc || f.pktLen < g.attrib.hdrlen + g.attrib.ivLen + g.attrib.icvLen then .drop
      else
        match decryptor o.dec a g with
        | none => .freed
        | some g => .pass (overwriteBody { f with frame := g })

/-- decryption happens in place: the frame keeps its length and its header -/
def SwDecrypt.InPlace (dec : SwDecrypt) : Prop :=
  ∀ a f bs, dec.apply a f = some bs →
    bs.length = f.len ∧ bs.take f.attrib.hdrlen = f.data.take f.attrib.hdrlen

/-- the body of a decrypted frame, between its IV and its ICV -/
def decryptedBody (f : RecvFrame) : List UInt8 :=
  (f.data.drop (f.attrib.hdrlen + f.attrib.ivLen)).take (mgmtDataLen f.attrib f.len)

/-- header and body and nothing else, in both lengths -/
def IsPlain (hdr body : List UInt8) (f : RxMgmtFrame) : Prop :=
  f.frame.data = hdr ++ body ∧ f.frame.len = hdr.length + body.length
    ∧ f.pktLen = hdr.length + body.length

instance (hdr body : List UInt8) (f : RxMgmtFrame) : Decidable (IsPlain hdr body f) :=
  inferInstanceAs (Decidable (_ ∧ _))

section
variable {dec : SwDecrypt} {a : Adapter} {f g : RecvFrame}

theorem decryptor_attrib (h : decryptor dec a f = some g) :
    g.attrib.hdrlen = f.attrib.hdrlen ∧ g.attrib.ivLen = f.attrib.ivLen
      ∧ g.attrib.icvLen = f.attrib.icvLen ∧ g.room = f.room := by
  obtain ⟨bs, k, rfl⟩ := decryptor_some h
  exact ⟨rfl, rfl, rfl, rfl⟩

theorem decryptor_inPlace (hdec : dec.InPlace) (h : decryptor dec a f = some g) :
    g.len = f.len ∧ g.data.take f.attrib.hdrlen = f.data.take f.attrib.hdrlen := by
  obtain ⟨k, hk⟩ := setKeyIndex_eq f
  unfold decryptor at h
  rw [hk] at h
  dsimp only at h
  split at h
  · obtain ⟨bs, hbs, rfl⟩ := Option.map_eq_some_iff.mp h
    exact hdec a { f with attrib := { f.attrib with keyIndex := k } } bs hbs
  · obtain rfl := Option.some.inj h
    exact ⟨rfl, rfl⟩

/-- the frame with the body moved -/
def movedData (f : RecvFrame) (n : Nat) : List UInt8 :=
  f.data.take f.attrib.hdrlen ++ (f.data.drop (f.attrib.hdrlen + f.attrib.ivLen)).take n
    ++ f.data.drop (f.attrib.hdrlen + n)

theorem length_movedData {n : Nat} (h : f.attrib.hdrlen + f.attrib.ivLen + n ≤ f.len) :
    (movedData f n).length = f.len := by
  have hlen : f.len = f.data.length := rfl
  unfold movedData
  simp only [List.length_append, List.length_take, List.length_drop]
  omega

/-- a body that fits: only the frame itself is written -/
theorem moveBody_eq {n : Nat} (h : f.attrib.hdrlen + f.attrib.ivLen + n ≤ f.len) :
    moveBody f n = { f with data := movedData f n } := by
  have hlen : f.len = f.data.length := rfl
  have htake : (f.data ++ f.room).take f.attrib.hdrlen = f.data.take f.attrib.hdrlen :=
    List.take_append_of_le_length (by omega)
  have hdrop : (f.data ++ f.room).drop (f.attrib.hdrlen + n) =
      f.data.drop (f.attrib.hdrlen + n) ++ f.room := List.drop_append_of_le_length (by omega)
  have hbuf : (f.data ++ f.room).take f.attrib.hdrlen
      ++ f.bytes (f.attrib.hdrlen + f.attrib.ivLen) n
      ++ (f.data ++ f.room).drop (f.attrib.hdrlen + n) = movedData f n ++ f.room := by
    rw [htake, hdrop, bytes_eq_take h, ← List.append_assoc]
    rfl
  unfold moveBody
  dsimp only
  rw [hbuf, ← length_movedData h, List.take_left, List.drop_left]

/-- `overwriteIv` of the model that has one length -/
theorem moveBody_mgmt (h : f.attrib.hdrlen + f.attrib.ivLen + f.attrib.icvLen ≤ f.len) :
    moveBody f (mgmtDataLen f.attrib f.len) = overwriteIv f := by
  have hn : mgmtDataLen f.attrib f.len = f.len - f.attrib.hdrlen - f.attrib.ivLen - f.attrib.icvLen :=
    rfl
  rw [moveBody_eq (by omega)]
  rfl

theorem length_decryptedBody (h : f.attrib.hdrlen + f.attrib.ivLen + f.attrib.icvLen ≤ f.len) :
    (decryptedBody f).length = mgmtDataLen f.attrib f.len := by
  have hlen : f.len = f.data.length := rfl
  unfold decryptedBody mgmtDataLen
  rw [List.length_take, List.length_drop]
  omega

end

variable {o : RxOracle} {conf : RxConf} {a : Adapter} {f g : RxMgmtFrame} {sta : StaInfo}

/-- the protected frame of an MFP station that gets through -/
theorem validateMgmtProtectLen_pass (hbip : conf.installBipKey = true)
    (hprot : f.frame.attrib.privacy = true) (hsta : a.rtwGetStainfo (getAddr2 f.frame) = some sta)
    (h : validateMgmtProtectLen o conf a f = .pass g) :
    ∃ d, decryptor o.dec a (mgmtAttrib sta f.frame) = some d
      ∧ g = overwriteBody { f with frame := d } := by
  unfold validateMgmtProtectLen at h
  rw [hbip, hprot, hsta] at h
  simp only [Bool.not_true, Bool.false_eq_true, ↓reduceIte] at h
  split at h
  · cases h
  split at h
  · cases h
  cases hd : decryptor o.dec a (mgmtAttrib sta f.frame) with
  | none =>
    rw [hd] at h
    cases h
  | some d =>
    rw [hd] at h
    exact ⟨d, rfl, (MgmtProtectLen.pass.inj h).symm⟩

/-- **The frame alone**: with equal lengths it is the one of `validateMgmtProtect`. -/
theorem validateMgmtProtectLen_frame (hdec : o.dec.InPlace) (hlen : f.pktLen = f.frame.len) :
    (validateMgmtProtectLen o conf a f).toFrame = validateMgmtProtect o conf a f.frame := by
  unfold validateMgmtProtectLen validateMgmtProtect
  split
  · rfl
  split
  · cases mgmtUnprotected o conf (a.rtwGetStainfo (getAddr2 f.frame)) f.frame <;> rfl
  cases a.rtwGetStainfo (getAddr2 f.frame) with
  | none => rfl
  | some sta =>
    have hf : (mgmtAttrib sta f.frame).len = f.frame.len := rfl
    dsimp only
    split
    · rfl
    rw [← hlen] at hf
    rw [hf]
    split
    · rfl
    rename_i hlong
    cases hd : decryptor o.dec a (mgmtAttrib sta f.frame) with
    | none => rfl
    | some d =>
      obtain ⟨hh, hi, hc, -⟩ := decryptor_attrib hd
      obtain ⟨hl, -⟩ := decryptor_inPlace hdec hd
      have hfits : d.attrib.hdrlen + d.attrib.ivLen + d.attrib.icvLen ≤ d.len := by
        rw [hh, hi, hc, hl, hf]
        simp only [Bool.or_eq_true, Bool.not_eq_true', decide_eq_true_eq, not_or, not_lt] at hlong
        exact hlong.2
      have hframe : (overwriteBody { f with frame := d }).frame = overwriteIv d := by
        show moveBody d (mgmtDataLen d.attrib f.pktLen) = _
        rw [← hf, ← hl]
        exact moveBody_mgmt hfits
      exact congrArg MgmtProtect.pass hframe

theorem setIceIvLen_eq_zero (c : SecurityType) :
    (setIceIvLen c).1 + (setIceIvLen c).2 = 0 ↔ c = .noPrivacy ∨ c = .tkipWtmic := by
  cases c <;> decide

/-- **When the handlers get the plaintext frame**: exactly for a cipher that has no IV and no ICV.
For any other one they stay inside of `u.hdr.len`. -/
theorem mgmt_plain_iff (o : RxOracle) (conf : RxConf) (a : Adapter) (f g : RxMgmtFrame)
    (sta : StaInfo) (d : RecvFrame) (hdec : o.dec.InPlace) (hbip : conf.installBipKey = true)
    (hprot : f.frame.attrib.privacy = true) (hsta : a.rtwGetStainfo (getAddr2 f.frame) = some sta)
    (hlen : f.pktLen = f.frame.len)
    (hlong : wlanHdrA3Len + (setIceIvLen sta.dot118021XPrivacy).1
      + (setIceIvLen sta.dot118021XPrivacy).2 ≤ f.frame.len)
    (hd : decryptor o.dec a (mgmtAttrib sta f.frame) = some d)
    (hg : validateMgmtProtectLen o conf a f = .pass g) :
    IsPlain (f.frame.data.take wlanHdrA3Len) (decryptedBody d) g ↔
      sta.dot118021XPrivacy = .noPrivacy ∨ sta.dot118021XPrivacy = .tkipWtmic := by
  obtain ⟨d', hd', rfl⟩ := validateMgmtProtectLen_pass hbip hprot hsta hg
  obtain rfl : d' = d := Option.some.inj (hd'.symm.trans hd)
  obtain ⟨hh, hi, hc, -⟩ := decryptor_attrib hd
  obtain ⟨hl, hhdr⟩ := decryptor_inPlace hdec hd
  have hh' : d'.attrib.hdrlen = wlanHdrA3Len := hh
  have hi' : d'.attrib.ivLen = (setIceIvLen sta.dot118021XPrivacy).1 := hi
  have hc' : d'.attrib.icvLen = (setIceIvLen sta.dot118021XPrivacy).2 := hc
  have hl' : d'.len = f.frame.len := hl
  have hfits : d'.attrib.hdrlen + d'.attrib.ivLen + d'.attrib.icvLen ≤ d'.len := by
    rw [hh', hi', hc', hl']
    exact hlong
  have hn : mgmtDataLen d'.attrib d'.len =
      d'.len - d'.attrib.hdrlen - d'.attrib.ivLen - d'.attrib.icvLen := rfl
  have hframe : (overwriteBody { f with frame := d' }).frame =
      { d' with data := movedData d' (mgmtDataLen d'.attrib d'.len) } := by
    show moveBody d' (mgmtDataLen d'.attrib f.pktLen) = _
    rw [hlen, ← hl', moveBody_eq (by omega)]
  have htake : (f.frame.data.take wlanHdrA3Len).length = wlanHdrA3Len := by
    rw [List.length_take]
    exact Nat.min_eq_left (by unfold RecvFrame.len at hlong; omega)
  have hsame : f.frame.data.take wlanHdrA3Len = d'.data.take d'.attrib.hdrlen := by
    rw [hh']
    exact hhdr.symm
  have hpkt : (overwriteBody { f with frame := d' }).pktLen =
      (f.pktLen + 131072 - d'.attrib.ivLen - d'.attrib.icvLen) % 65536 := rfl
  have hlt := f.pktLen_lt
  have hz := setIceIvLen_eq_zero sta.dot118021XPrivacy
  unfold IsPlain
  rw [htake, length_decryptedBody hfits, hframe, hpkt, ← hz, ← hi', ← hc']
  constructor
  · -- the frame has not lost a byte
    rintro ⟨-, hlen', -⟩
    have hkept : (movedData d' (mgmtDataLen d'.attrib d'.len)).length = d'.len :=
      length_movedData (by omega)
    have hlen'' : (movedData d' (mgmtDataLen d'.attrib d'.len)).length = _ := hlen'
    omega
  · intro h0
    have hi0 : d'.attrib.ivLen = 0 := by omega
    have hc0 : d'.attrib.icvLen = 0 := by omega
    have hbody : movedData d' (mgmtDataLen d'.attrib d'.len) =
        f.frame.data.take wlanHdrA3Len ++ decryptedBody d' := by
      have hrest : d'.data.drop (d'.attrib.hdrlen + mgmtDataLen d'.attrib d'.len) = [] := by
        apply List.drop_eq_nil_of_le
        show d'.len ≤ _
        omega
      unfold movedData
      rw [hrest, List.append_nil, hsame]
      rfl
    refine ⟨hbody, ?_, ?_⟩
    · show (movedData d' (mgmtDataLen d'.attrib d'.len)).length = _
      rw [length_movedData (by omega)]
      omega
    · omega

/-- a protected deauthentication frame of a station with CCMP -/
def protectedDeauth : RxMgmtFrame where
  frame := apFrame [0xc0, 0x40] myMac [0x50, 0] (List.replicate 8 0 ++ [3, 0] ++ List.replicate 8 0)
  pktLen := 42
  pktLen_lt := by decide

def mgmtSta (c : SecurityType) : StaInfo := { mfp := true, dot118021XPrivacy := c }

def mgmtAdapter (c : SecurityType) : Adapter where
  macAddr := myMac
  mode := .ap
  stations := fun m => if m = apMac then some (mgmtSta c) else none

def plainOracle : RxOracle := ⟨acceptAll, fun _ _ => true, fun _ => true, true⟩

theorem acceptAll_inPlace : acceptAll.InPlace := by
  intro a f bs h
  unfold SwDecrypt.apply at h
  split at h <;> cases h <;> exact ⟨rfl, rfl⟩

/-- the deauthentication frame as it is decrypted, and as it is handed on -/
def deauthDecrypted (c : SecurityType) : RecvFrame :=
  { mgmtAttrib (mgmtSta c) protectedDeauth.frame with
    attrib := { (mgmtAttrib (mgmtSta c) protectedDeauth.frame).attrib with bdecrypted := true } }

/-- with CCMP the handlers see IV and MIC, without a cipher the frame -/
theorem mgmt_plain_iff_ccmp :
    ¬IsPlain (protectedDeauth.frame.data.take wlanHdrA3Len) (decryptedBody (deauthDecrypted .aes))
        (overwriteBody { protectedDeauth with frame := deauthDecrypted .aes })
      ∧ IsPlain (protectedDeauth.frame.data.take wlanHdrA3Len) (decryptedBody (deauthDecrypted .noPrivacy))
        (overwriteBody { protectedDeauth with frame := deauthDecrypted .noPrivacy }) := by
  have h := mgmt_plain_iff plainOracle { installBipKey := true } (mgmtAdapter .aes) protectedDeauth
    (overwriteBody { protectedDeauth with frame := deauthDecrypted .aes }) (mgmtSta .aes)
    (deauthDecrypted .aes) acceptAll_inPlace rfl rfl rfl rfl (by decide) rfl rfl
  have h' := mgmt_plain_iff plainOracle { installBipKey := true } (mgmtAdapter .noPrivacy) protectedDeauth
    (overwriteBody { protectedDeauth with frame := deauthDecrypted .noPrivacy }) (mgmtSta .noPrivacy)
    (deauthDecrypted .noPrivacy) acceptAll_inPlace rfl rfl rfl rfl (by decide) rfl rfl
  exact ⟨fun hp => absurd (h.mp hp) (by decide), h'.mpr (Or.inl rfl)⟩

theorem mgmt_not_plain :
    ¬ ∀ (o : RxOracle) (conf : RxConf) (a : Adapter) (f g : RxMgmtFrame) (sta : StaInfo)
      (d : RecvFrame), o.dec.InPlace → conf.installBipKey = true → f.frame.attrib.privacy = true →
      isMcast (getAddr1 f.frame) = false → a.rtwGetStainfo (getAddr2 f.frame) = some sta →
      sta.mfp = true → f.pktLen = f.frame.len →
      wlanHdrA3Len + (setIceIvLen sta.dot118021XPrivacy).1 + (setIceIvLen sta.dot118021XPrivacy).2
        ≤ f.frame.len →
      decryptor o.dec a (mgmtAttrib sta f.frame) = some d →
      validateMgmtProtectLen o conf a f = .pass g →
      IsPlain (f.frame.data.take wlanHdrA3Len) (decryptedBody d) g := by
  intro h
  have h' := h plainOracle { installBipKey := true } (mgmtAdapter .aes) protectedDeauth
    (overwriteBody { protectedDeauth with frame := deauthDecrypted .aes }) (mgmtSta .aes)
    (deauthDecrypted .aes) acceptAll_inPlace rfl rfl (by decide) rfl rfl rfl (by decide) rfl rfl
  exact absurd h' (by decide)

end Rtl8192eu
