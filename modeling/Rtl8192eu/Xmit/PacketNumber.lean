import Mathlib.Data.List.Nodup
import Rtl8192eu.Recv.Decache
import Rtl8192eu.Xmit.Fragment

/-!
# Packet numbers of one key

Everything that is encrypted for a station under a CCMP or GCMP key: data frames through
`update_attrib_sec_info` and `rtw_xmitframe_coalesce`, robust management frames through
`rtw_mgmt_xmitframe_coalesce`.  Both take their number from `dot11txpn` of the station.

* `ivPn`        the packet number in an IV, as the receiver reads it;
* `dataPns`     the numbers of the fragments of a data frame, read back from the buffer;
* `PnTx.step`   one frame more;
* `pn_unique_iff`   no number twice exactly when no frame was cut.

`update_attrib_sec_info` counts once for an MSDU, and the loop over the fragments copies the IV it
made into each of them.
-/

namespace Rtl8192eu

open Mem Run

/-! ## the number in an IV -/

def ivWord (iv : List UInt8) : BitVec 64 :=
  iv.foldr (fun b n => n <<< 8 ||| b.toBitVec.setWidth 64) 0

def ivPn (iv : List UInt8) : Nat := (ccmph2Pn (ivWord iv)).toNat

theorem and_high_shiftRight {x : Nat} (hx : x < 2 ^ 64) :
    (x &&& 0xffffffff00000000) >>> 16 = (x / 2 ^ 32) <<< 16 := by
  apply Nat.eq_of_testBit_eq
  intro i
  rw [show (0xffffffff00000000 : Nat) = (2 ^ 32 - 1) <<< 32 by decide]
  simp only [Nat.testBit_shiftRight, Nat.testBit_and, Nat.testBit_shiftLeft,
    Nat.testBit_two_pow_sub_one, Nat.testBit_div_two_pow]
  by_cases h : 16 ≤ i
  · by_cases h64 : 16 + i < 64
    · simp only [h, show 32 ≤ 16 + i by omega, show 16 + i - 32 < 32 by omega, decide_true,
        Bool.and_self, Bool.and_true, Bool.true_and]
      congr 1
      omega
    · have hb : ∀ j, 64 ≤ j → x.testBit j = false := by
        intro j hj
        exact Nat.testBit_lt_two_pow (Nat.lt_of_lt_of_le hx (Nat.pow_le_pow_right (by decide) hj))
      rw [hb _ (by omega), hb _ (by omega), Bool.false_and, Bool.and_false]
  · simp [h, show ¬ 32 ≤ 16 + i by omega]

theorem ccmph2Pn_toNat (ch : BitVec 64) :
    (ccmph2Pn ch).toNat = ch.toNat % 2 ^ 16 + ch.toNat / 2 ^ 32 * 2 ^ 16 := by
  have h1 : ch.toNat &&& (0x000000000000ffff#64).toNat = ch.toNat % 2 ^ 16 :=
    Nat.and_two_pow_sub_one_eq_mod ch.toNat 16
  have h2 : (ch.toNat &&& (0xffffffff00000000#64).toNat) >>> 16 = (ch.toNat / 2 ^ 32) <<< 16 :=
    and_high_shiftRight ch.isLt
  unfold ccmph2Pn
  rw [BitVec.toNat_or, BitVec.toNat_and, BitVec.toNat_ushiftRight, BitVec.toNat_and, h1, h2,
    Nat.or_comm, ← Nat.shiftLeft_add_eq_or_of_lt (Nat.mod_lt _ (by decide)), Nat.shiftLeft_eq,
    Nat.add_comm]

theorem shiftLeft_or_toNat {n : BitVec 64} {b : UInt8} (h : n.toNat < 2 ^ 56) :
    (n <<< 8 ||| b.toBitVec.setWidth 64).toNat = n.toNat * 256 + b.toNat := by
  have hb := b.toNat_lt
  have h1 : n.toNat <<< 8 % 2 ^ 64 = n.toNat <<< 8 := by
    rw [Nat.shiftLeft_eq]
    omega
  have h2 : b.toBitVec.toNat % 2 ^ 64 = b.toNat := Nat.mod_eq_of_lt (by show b.toNat < _; omega)
  rw [BitVec.toNat_or, BitVec.toNat_shiftLeft, BitVec.toNat_setWidth, h1, h2,
    ← Nat.shiftLeft_add_eq_or_of_lt (by omega), Nat.shiftLeft_eq]

/-- the little-endian value of at most eight bytes -/
theorem ivWord_toNat {iv : List UInt8} (h : iv.length ≤ 8) :
    (ivWord iv).toNat = iv.foldr (fun b n => n * 256 + b.toNat) 0
      ∧ (ivWord iv).toNat < 256 ^ iv.length := by
  induction iv with
  | nil => exact ⟨rfl, by decide⟩
  | cons b iv ih =>
    rw [List.length_cons] at h
    obtain ⟨he, hlt⟩ := ih (by omega)
    have h56 : (ivWord iv).toNat < 2 ^ 56 := Nat.lt_of_lt_of_le hlt (by
      rw [show (2 : Nat) ^ 56 = 256 ^ 7 by decide]
      exact Nat.pow_le_pow_right (by decide) (by omega))
    have hstep : (ivWord (b :: iv)).toNat = (ivWord iv).toNat * 256 + b.toNat := shiftLeft_or_toNat h56
    have hb := b.toNat_lt
    refine ⟨by rw [hstep, he]; rfl, ?_⟩
    rw [hstep, List.length_cons, Nat.pow_succ]
    omega

theorem pnByte_toNat (pn i : Nat) : (pnByte pn i).toNat = pn / 256 ^ i % 256 := by
  rw [pnByte, UInt8.toNat_ofNat']

/-- the receiver reads the number that was written -/
theorem ivPn_aesIv {pn keyidx : Nat} (h : pn < 2 ^ 48) :
    ivPn (aesIv pn keyidx).2 = (aesIv pn keyidx).1 := by
  have hlt : (aesIv pn keyidx).1 < 2 ^ 48 := by
    show nextPn 0xffffffffffff pn < 2 ^ 48
    unfold nextPn
    split <;> omega
  have hk : (0x20 ||| keyIdByte keyidx).toNat < 256 := (0x20 ||| keyIdByte keyidx).toNat_lt
  unfold ivPn
  rw [ccmph2Pn_toNat, (ivWord_toNat (by exact Nat.le_refl 8)).1]
  simp only [aesIv, List.foldr_cons, List.foldr_nil, pnByte_toNat] at hlt ⊢
  generalize nextPn 0xffffffffffff pn = p at hlt ⊢
  generalize (0x20 ||| keyIdByte keyidx).toNat = k at hk ⊢
  rw [show (0 : UInt8).toNat = 0 from rfl]
  omega

/-! ## the fragments of a data frame -/

/-- the headers of the fragments, in the order of `coalesceLoop` -/
def fragStarts (ad : TxAdapter) (att : PktAttrib) (off : Nat) :
    Nat → Nat → Nat → List UInt8 → List Nat
  | 0, _, _, _ => []
  | n + 1, inx, s, pkt =>
    let (_, chunk, pframe) := putFragment ad att inx s (fun _ => 0) pkt
    let rest := pkt.drop chunk.length
    s :: if isMcast att.ra || rest.isEmpty then []
      else fragStarts ad att off n (inx + 1) (rnd4 pframe + off) rest

theorem putFragment_snd (ad : TxAdapter) (att : PktAttrib) (inx s : Nat) (m m' : Nat → UInt8)
    (pkt : List UInt8) : (putFragment ad att inx s m pkt).2 = (putFragment ad att inx s m' pkt).2 :=
  rfl

theorem putFragment_iv (ad : TxAdapter) (att : PktAttrib) (inx s : Nat) (m : Nat → UInt8)
    (pkt : List UInt8) :
    read (putFragment ad att inx s m pkt).1 (s + att.hdrlen) att.iv.length = att.iv := by
  unfold putFragment
  dsimp only
  show read _ (s + att.hdrlen + 0) _ = _
  rw [read_write_inside (by simp), List.drop_zero, List.append_assoc, List.append_assoc,
    List.take_left' rfl]

theorem putFragment_end_iv {ad : TxAdapter} {att : PktAttrib} (hok : att.Ok ad) (inx s : Nat)
    (m : Nat → UInt8) (pkt : List UInt8) :
    s + att.hdrlen + att.iv.length ≤ (putFragment ad att inx s m pkt).2.2 := by
  rw [hok.iv_length]
  unfold putFragment
  dsimp only
  omega

/-- **Every fragment carries the IV of the frame.** -/
theorem fragStarts_iv {ad : TxAdapter} {att : PktAttrib} (hok : att.Ok ad) (start off n inx s : Nat)
    (m : Nat → UInt8) (pkt : List UInt8) :
    ∀ x ∈ fragStarts ad att off n inx s pkt,
      read (coalesceLoop ad att start off n inx s m pkt).mem (x + att.hdrlen) att.iv.length
        = att.iv := by
  induction n generalizing inx s m pkt with
  | zero => simp [fragStarts]
  | succ n ih =>
    have hiv := putFragment_iv ad att inx s m pkt
    have hend := putFragment_end_iv hok inx s m pkt
    have hsnd := putFragment_snd ad att inx s (fun _ => 0) m pkt
    obtain ⟨h24, -⟩ := hok.lens_le
    rw [fragStarts, coalesceLoop]
    generalize putFragment ad att inx s m pkt = r at hiv hend hsnd ⊢
    generalize putFragment ad att inx s (fun _ => 0) pkt = r' at hsnd ⊢
    obtain ⟨m', chunk, pframe⟩ := r
    obtain ⟨m₀, chunk₀, pframe₀⟩ := r'
    obtain ⟨rfl, rfl⟩ := Prod.mk.inj hsnd
    dsimp only at hiv hend ⊢
    intro x hx
    split at hx <;> rename_i hlast
    · rw [if_pos hlast]
      obtain rfl := List.mem_singleton.mp hx
      refine Eq.trans (read_congr ?_) hiv
      intro i hi _
      exact write_one_of_ne _ (by omega)
    · rw [if_neg hlast]
      rcases List.mem_cons.mp hx with rfl | hx
      · have hr := rnd4_ge pframe₀
        refine Eq.trans (read_congr ?_) hiv
        intro i _ hi
        rw [coalesceLoop_below _ _ _ _ _ _ _ (by omega) (by omega), write_of_lt (by omega)]
      · exact ih _ _ _ _ x hx

/-- the packet numbers of the fragments, from the buffer at `start` -/
def dataPns (ad : TxAdapter) (att : PktAttrib) (hdr pkt : List UInt8) (start off : Nat)
    (m : Nat → UInt8) : List Nat :=
  (fragStarts ad att off (pkt.length + 1) 0 start pkt).map fun s =>
    ivPn (read (coalesceLoop ad att start off (pkt.length + 1) 0 start (putWlanhdr m start hdr) pkt).mem
      (s + att.hdrlen) att.ivLen)

theorem dataPns_eq {ad : TxAdapter} {att : PktAttrib} (hok : att.Ok ad) (hdr pkt : List UInt8)
    (start off : Nat) (m : Nat → UInt8) :
    dataPns ad att hdr pkt start off m
      = List.replicate (fragStarts ad att off (pkt.length + 1) 0 start pkt).length (ivPn att.iv) := by
  unfold dataPns
  rw [List.eq_replicate_iff]
  refine ⟨List.length_map _, ?_⟩
  intro p hp
  obtain ⟨s, hs, rfl⟩ := List.mem_map.mp hp
  rw [← hok.iv_length, fragStarts_iv hok _ _ _ _ _ _ _ s hs]

theorem fragStarts_unfragmented {ad : TxAdapter} {att : PktAttrib} (off s n : Nat)
    {pkt : List UInt8} (hpl : att.pktlen = pkt.length)
    (hfit : isMcast att.ra = true ∨ Unfragmented ad att pkt.length) :
    (fragStarts ad att off (n + 1) 0 s pkt).length = 1 := by
  rw [fragStarts, putFragment_all hpl hfit]
  simp

theorem fragStarts_fragmented {ad : TxAdapter} {att : PktAttrib} (off s : Nat) {pkt : List UInt8}
    (hu : isMcast att.ra = false) (hcap : 8 ≤ fragCap ad att)
    (hfr : ¬ Unfragmented ad att pkt.length) :
    2 ≤ (fragStarts ad att off (pkt.length + 1) 0 s pkt).length := by
  have hchunk : (putFragment ad att 0 s (fun _ => 0) pkt).2.1.length < pkt.length := by
    unfold Unfragmented at hfr
    unfold fragCap at hcap
    unfold putFragment
    simp only [hu, if_true, if_false, Bool.false_eq_true, length_rtwPutSnap, pktfileRead, mpduLen]
    rw [if_neg (by omega), List.length_take]
    omega
  obtain ⟨n, hn⟩ := Nat.exists_eq_succ_of_ne_zero (show pkt.length ≠ 0 by omega)
  rw [fragStarts]
  generalize putFragment ad att 0 s (fun _ => 0) pkt = r at hchunk ⊢
  obtain ⟨m', chunk, pframe⟩ := r
  dsimp only at hchunk ⊢
  have hrest : (pkt.drop chunk.length).isEmpty = false := by
    rw [List.isEmpty_eq_false_iff, ← List.length_pos_iff, List.length_drop]
    omega
  rw [hu, hrest, Bool.or_self, if_neg Bool.false_ne_true, hn, fragStarts]
  simp

/-! ## robust management frames -/

inductive MgmtSubtype where
  | deauth | disassoc | action (category : Nat) | other
  deriving DecidableEq, Repr

/-- `key_type`, for frames of the 802.11w tests -/
inductive MgmtKeyType where
  | rightKey | wrongKey | noKey
  deriving DecidableEq, Repr

structure MgmtFrame where
  hdr : List UInt8
  hdr_length : hdr.length = 24
  body : List UInt8
  subtype : MgmtSubtype
  keyType : MgmtKeyType

def categoryIsNonRobust (c : Nat) : Bool :=
  c = 4 || c = 7 || c = 11 || c = 15 || c = 21 || c = 0x7f

def MgmtSubtype.robust : MgmtSubtype → Bool
  | .deauth | .disassoc => true
  | .action c => !categoryIsNonRobust c
  | .other => false

/-- the ciphers with a packet number of 48 bits -/
def pnCipher : SecurityType → Bool
  | .aes | .ccmp256 | .gcmp | .gcmp256 => true
  | _ => false

def mgmtEncrypt (sta : TxSta) (f : MgmtFrame) : SecurityType :=
  if f.keyType = .noKey then .noPrivacy else sta.dot118021XPrivacy

/-- `rtw_mgmt_xmitframe_coalesce` of a unicast frame: `none` for `_FAIL`; a frame that is protected
comes with its bytes before encryption -/
def rtwMgmtXmitframeCoalesce (sta : TxSta) (f : MgmtFrame) : Option (Option (List UInt8) × TxSta) :=
  if !f.subtype.robust then some (none, sta)
  else if !sta.mfp then some (none, sta)
  else if !sta.bpairwiseKeyInstalled then none
  else if !pnCipher (mgmtEncrypt sta f) then none
  else
    let (pn, iv) := aesIv sta.dot11txpn 0
    some (some (f.hdr ++ iv ++ f.body ++ List.replicate (ivIcvLen (mgmtEncrypt sta f)).2 0),
      { sta with dot11txpn := pn })

/-! ## runs -/

inductive TxOp where
  /-- a data frame, in a buffer at `bufAddr` with what was in it -/
  | data (eth : EthFrame) (eapol : EapType) (bufAddr pktOffset : Nat) (m : Nat → UInt8)
  | mgmt (f : MgmtFrame)

/-- the station, and the packet numbers of each frame that was encrypted -/
structure PnTx where
  sta : TxSta
  frames : List (List Nat) := []

/-- all packet numbers, in the order they were used -/
def PnTx.pns (r : PnTx) : List Nat := r.frames.flatten

def PnTx.step (ad : TxAdapter) (r : PnTx) : TxOp → PnTx
  | .data eth eapol bufAddr pktOffset m =>
    match updateAttrib ad r.sta eth eapol with
    | none => r
    | some (att, sta) =>
      match rtwMakeWlanhdr ad sta att with
      | none => { r with sta := sta }
      | some (hdr, sta) =>
        if att.encrypt = .noPrivacy then { r with sta := sta }
        else
          let off := hwHdrOffset pktOffset
          ⟨sta, r.frames ++ [dataPns ad att hdr eth.payload (bufAddr + off) off m]⟩
  | .mgmt f =>
    match rtwMgmtXmitframeCoalesce r.sta f with
    | none => r
    | some (none, sta) => { r with sta := sta }
    | some (some mpdu, sta) => ⟨sta, r.frames ++ [[ivPn ((mpdu.drop 24).take 8)]]⟩

/-- no number is used twice, and those of a fragmented frame follow each other -/
def PnTx.Unique (r : PnTx) : Prop :=
  r.pns.Nodup ∧ ∀ l ∈ r.frames, l.IsChain fun a b => b = a + 1

/-- a data frame is sent in one piece, if it is encrypted -/
def OneFragment (ad : TxAdapter) (r : PnTx) : TxOp → Prop
  | .data eth eapol _ _ _ => ∀ att sta, updateAttrib ad r.sta eth eapol = some (att, sta) →
      att.encrypt ≠ .noPrivacy → Unfragmented ad att eth.payload.length
  | .mgmt _ => True

/-- frames to the station, not to a group -/
def ToStation (ad : TxAdapter) : TxOp → Prop
  | .data eth _ _ _ _ => isMcast (txRa ad eth.dst) = false
  | .mgmt _ => True

/-! ## one frame -/

def maxPn : Nat := 0xffffffffffff

theorem nextPn_eq {pn : Nat} (h : pn < 2 ^ 48) : nextPn maxPn pn = (pn + 1) % 2 ^ 48 := by
  unfold nextPn maxPn
  split <;> omega

theorem rtwMakeWlanhdr_of_mode {ad : TxAdapter} (sta : TxSta) (att : PktAttrib)
    (hmode : ad.mode ≠ .other) (hasoc : sta.asoc = true) :
    ∃ hdr sta', rtwMakeWlanhdr ad sta att = some (hdr, sta')
      ∧ sta'.toStaInfo = sta.toStaInfo ∧ sta'.dot11txpn = sta.dot11txpn := by
  obtain ⟨x, hx⟩ : ∃ x, hdrAddrs ad att = some x := by
    unfold hdrAddrs
    cases hm : ad.mode with
    | station => exact ⟨_, rfl⟩
    | ap => exact ⟨_, rfl⟩
    | adhoc => exact ⟨_, rfl⟩
    | adhocMaster => exact ⟨_, rfl⟩
    | other => exact absurd hm hmode
  obtain ⟨ds, addrs⟩ := x
  let seqnum := (sta.txseqTid att.priority + 1) % 4096
  have hmk : rtwMakeWlanhdr ad sta att = some (wlanhdr ad att ds addrs seqnum,
      { sta with txseqTid := Function.update sta.txseqTid att.priority seqnum }) := by
    rw [rtwMakeWlanhdr, hx, Option.bind_some, hasoc]
    rfl
  exact ⟨_, _, hmk, rfl, rfl⟩

/-- what `update_attrib_sec_info` makes of a frame to the station -/
theorem updateAttrib_pn {ad : TxAdapter} {sta sta' : TxSta} {eth : EthFrame} {eapol : EapType}
    {att : PktAttrib} (hauth : ad.sec.dot11AuthAlgrthm = .ieee8021x)
    (hcip : pnCipher sta.dot118021XPrivacy = true) (hpn : sta.dot11txpn < 2 ^ 48)
    (hto : isMcast (txRa ad eth.dst) = false)
    (h : updateAttrib ad sta eth eapol = some (att, sta')) :
    (att.encrypt = .noPrivacy ∧ sta'.dot11txpn = sta.dot11txpn)
      ∨ (att.encrypt ≠ .noPrivacy ∧ sta'.dot11txpn = nextPn maxPn sta.dot11txpn
        ∧ ivPn att.iv = sta'.dot11txpn) := by
  obtain ⟨-, hs, -⟩ := updateAttrib_some h
  obtain ⟨henc, -, -, hiv, -⟩ := updateAttribSecInfo_some hs
  have halg : getEncryAlgo ad.sec.toSecurityPriv sta.toStaInfo (isMcast (txRa ad eth.dst))
      = sta.dot118021XPrivacy := by
    rw [getEncryAlgo, hauth, hto]
    rfl
  have hcase : att.encrypt = .noPrivacy ∨ att.encrypt = sta.dot118021XPrivacy := by
    rw [henc, txEncrypt, halg]
    dsimp only
    split
    · exact Or.inl rfl
    · split
      · exact Or.inl rfl
      · exact Or.inr rfl
  rcases hcase with he | he
  · rw [he] at hiv
    exact Or.inl ⟨he, congrArg Prod.fst hiv⟩
  · have hne : att.encrypt ≠ .noPrivacy := by
      rw [he]
      intro hn
      rw [hn] at hcip
      cases hcip
    have hsame : (sta'.dot11txpn, att.iv) = aesIv sta.dot11txpn 0 := by
      rw [hiv, he, hto]
      cases hc : sta.dot118021XPrivacy <;> first | rfl | (rw [hc] at hcip; cases hcip)
    have h1 : sta'.dot11txpn = (aesIv sta.dot11txpn 0).1 := congrArg Prod.fst hsame
    have h2 : att.iv = (aesIv sta.dot11txpn 0).2 := congrArg Prod.snd hsame
    exact Or.inr ⟨hne, h1, by rw [h1, h2, ivPn_aesIv hpn]⟩

theorem rtwMgmtXmitframeCoalesce_some {sta sta' : TxSta} {f : MgmtFrame} {mpdu : List UInt8}
    (hpn : sta.dot11txpn < 2 ^ 48)
    (h : rtwMgmtXmitframeCoalesce sta f = some (some mpdu, sta')) :
    sta' = { sta with dot11txpn := nextPn maxPn sta.dot11txpn }
      ∧ ivPn ((mpdu.drop 24).take 8) = sta'.dot11txpn := by
  unfold rtwMgmtXmitframeCoalesce at h
  split at h
  · cases h
  · split at h
    · cases h
    · split at h
      · cases h
      · split at h
        · cases h
        · cases h
          refine ⟨rfl, ?_⟩
          rw [List.append_assoc, List.append_assoc, List.drop_left' f.hdr_length,
            List.take_left' (show _ = 8 from rfl)]
          exact ivPn_aesIv hpn

theorem rtwMgmtXmitframeCoalesce_none {sta sta' : TxSta} {f : MgmtFrame}
    (h : rtwMgmtXmitframeCoalesce sta f = some (none, sta')) : sta' = sta := by
  unfold rtwMgmtXmitframeCoalesce at h
  split at h
  · cases h
    rfl
  · split at h
    · cases h
      rfl
    · split at h
      · cases h
      · split at h
        · cases h
        · cases h

/-- the key of the station, and where its counter can be -/
structure KeyOk (ad : TxAdapter) (sta : TxSta) : Prop where
  mode : ad.mode ≠ .other
  auth : ad.sec.dot11AuthAlgrthm = .ieee8021x
  cipher : pnCipher sta.dot118021XPrivacy = true
  pn_lt : sta.dot11txpn < 2 ^ 48

theorem KeyOk.next {ad : TxAdapter} {sta sta' : TxSta} (h : KeyOk ad sta)
    (hs : sta'.toStaInfo = sta.toStaInfo)
    (hpn : sta'.dot11txpn = sta.dot11txpn ∨ sta'.dot11txpn = nextPn maxPn sta.dot11txpn) :
    KeyOk ad sta' where
  mode := h.mode
  auth := h.auth
  cipher := by
    rw [hs]
    exact h.cipher
  pn_lt := by
    have := h.pn_lt
    rcases hpn with hpn | hpn
    · omega
    · rw [hpn, nextPn_eq this]
      exact Nat.mod_lt _ (by decide)

/-- what a frame does to the counter and to the numbers sent: nothing, or one number more, in each of
its fragments -/
def PnTx.Sends (ad : TxAdapter) (r : PnTx) (op : TxOp) (r' : PnTx) : Prop :=
  r'.sta.toStaInfo = r.sta.toStaInfo
    ∧ ((r'.sta.dot11txpn = r.sta.dot11txpn ∧ r'.frames = r.frames ∧ OneFragment ad r op)
      ∨ (r'.sta.dot11txpn = nextPn maxPn r.sta.dot11txpn
        ∧ ∃ n, r'.frames = r.frames ++ [List.replicate n r'.sta.dot11txpn]
          ∧ 1 ≤ n ∧ (n = 1 ↔ OneFragment ad r op)))

/-- the number of fragments of an MSDU to the station -/
theorem fragStarts_length {ad : TxAdapter} {att : PktAttrib} {pkt : List UInt8} (off s : Nat)
    (hok : att.Ok ad) (hpl : att.pktlen = pkt.length) (hra : isMcast att.ra = false)
    (hmin : minFragThreshold ≤ ad.fragLen) :
    1 ≤ (fragStarts ad att off (pkt.length + 1) 0 s pkt).length
      ∧ ((fragStarts ad att off (pkt.length + 1) 0 s pkt).length = 1
        ↔ Unfragmented ad att pkt.length) := by
  by_cases hf : Unfragmented ad att pkt.length
  · rw [fragStarts_unfragmented off s _ hpl (Or.inr hf)]
    exact ⟨Nat.le_refl 1, fun _ => hf, fun _ => rfl⟩
  · have hcap : 8 ≤ fragCap ad att := Nat.le_trans (by decide) (fragCap_ge hok hmin)
    have h2 := fragStarts_fragmented off s hra hcap hf
    refine ⟨by omega, ?_, ?_⟩
    · intro h
      omega
    · intro h
      exact absurd h hf

theorem PnTx.step_data {ad : TxAdapter} {r : PnTx} {eth : EthFrame} (eapol : EapType)
    (bufAddr pktOffset : Nat) (m : Nat → UInt8) (hk : KeyOk ad r.sta)
    (hmin : minFragThreshold ≤ ad.fragLen) (hto : isMcast (txRa ad eth.dst) = false) :
    r.Sends ad (.data eth eapol bufAddr pktOffset m)
      (r.step ad (.data eth eapol bufAddr pktOffset m)) := by
  cases ha : updateAttrib ad r.sta eth eapol with
  | none =>
    have hr : r.step ad (.data eth eapol bufAddr pktOffset m) = r := by rw [PnTx.step, ha]
    rw [hr]
    refine ⟨rfl, Or.inl ⟨rfl, rfl, ?_⟩⟩
    intro att sta h
    rw [ha] at h
    cases h
  | some x =>
    obtain ⟨att, sta⟩ := x
    obtain ⟨hasoc, hs, hatt⟩ := updateAttrib_some ha
    have hok := updateAttrib_ok ha
    obtain ⟨-, -, -, -, hsta⟩ := updateAttribSecInfo_some hs
    have hpl : att.pktlen = eth.payload.length := by rw [hatt]
    have hra : isMcast att.ra = false := by
      rw [hatt]
      exact hto
    obtain ⟨hdr, sta', hmk, hinfo, hpn⟩ := rtwMakeWlanhdr_of_mode sta att hk.mode
      (by rw [hsta]; exact hasoc)
    have hinfo' : sta'.toStaInfo = r.sta.toStaInfo := by rw [hinfo, hsta]
    have hone : OneFragment ad r (.data eth eapol bufAddr pktOffset m)
        ↔ (att.encrypt ≠ .noPrivacy → Unfragmented ad att eth.payload.length) := by
      constructor
      · intro h
        exact h att sta ha
      · intro h att' sta' h'
        rw [ha] at h'
        cases h'
        exact h
    rcases updateAttrib_pn hk.auth hk.cipher hk.pn_lt hto ha with ⟨he, hp⟩ | ⟨he, hp, hiv⟩
    · have hr : r.step ad (.data eth eapol bufAddr pktOffset m) = { r with sta := sta' } := by
        rw [PnTx.step, ha]
        dsimp only
        rw [hmk]
        dsimp only
        rw [if_pos he]
      rw [hr]
      exact ⟨hinfo', Or.inl ⟨hpn.trans hp, rfl, hone.mpr fun h => absurd he h⟩⟩
    · have hr : r.step ad (.data eth eapol bufAddr pktOffset m)
          = ⟨sta', r.frames ++ [dataPns ad att hdr eth.payload (bufAddr + hwHdrOffset pktOffset)
              (hwHdrOffset pktOffset) m]⟩ := by
        rw [PnTx.step, ha]
        dsimp only
        rw [hmk]
        dsimp only
        rw [if_neg he]
      obtain ⟨h1, h2⟩ := fragStarts_length (hwHdrOffset pktOffset)
        (bufAddr + hwHdrOffset pktOffset) hok hpl hra hmin
      rw [hr, dataPns_eq hok, hiv, ← hpn]
      refine ⟨hinfo', Or.inr ⟨hpn.trans hp, _, rfl, h1, ?_⟩⟩
      rw [hone, h2]
      exact ⟨fun h _ => h, fun h => h he⟩

theorem PnTx.step_mgmt {ad : TxAdapter} {r : PnTx} (f : MgmtFrame) (hk : KeyOk ad r.sta) :
    r.Sends ad (.mgmt f) (r.step ad (.mgmt f)) := by
  cases hm : rtwMgmtXmitframeCoalesce r.sta f with
  | none =>
    have hr : r.step ad (.mgmt f) = r := by rw [PnTx.step, hm]
    rw [hr]
    exact ⟨rfl, Or.inl ⟨rfl, rfl, trivial⟩⟩
  | some x =>
    obtain ⟨mpdu, sta⟩ := x
    cases mpdu with
    | none =>
      have hr : r.step ad (.mgmt f) = { r with sta := sta } := by rw [PnTx.step, hm]
      rw [hr, rtwMgmtXmitframeCoalesce_none hm]
      exact ⟨rfl, Or.inl ⟨rfl, rfl, trivial⟩⟩
    | some mpdu =>
      have hr : r.step ad (.mgmt f) = ⟨sta, r.frames ++ [[ivPn ((mpdu.drop 24).take 8)]]⟩ := by
        rw [PnTx.step, hm]
      obtain ⟨hsta, hiv⟩ := rtwMgmtXmitframeCoalesce_some hk.pn_lt hm
      rw [hr, hiv]
      refine ⟨by rw [hsta], Or.inr ⟨by rw [hsta], 1, rfl, Nat.le_refl 1, ?_⟩⟩
      exact ⟨fun _ => trivial, fun _ => rfl⟩

/-- **What one frame does.** -/
theorem PnTx.step_sends {ad : TxAdapter} {r : PnTx} {op : TxOp} (hk : KeyOk ad r.sta)
    (hmin : minFragThreshold ≤ ad.fragLen) (hto : ToStation ad op) :
    r.Sends ad op (r.step ad op) := by
  cases op with
  | data eth eapol bufAddr pktOffset m => exact step_data eapol bufAddr pktOffset m hk hmin hto
  | mgmt f => exact step_mgmt f hk

/-! ## the run -/

theorem KeyOk.step {ad : TxAdapter} {r : PnTx} {op : TxOp} (hk : KeyOk ad r.sta)
    (hmin : minFragThreshold ≤ ad.fragLen) (hto : ToStation ad op) :
    KeyOk ad (r.step ad op).sta := by
  obtain ⟨hinfo, ⟨hpn, -⟩ | ⟨hpn, -⟩⟩ := PnTx.step_sends hk hmin hto
  · exact hk.next hinfo (Or.inl hpn)
  · exact hk.next hinfo (Or.inr hpn)

theorem PnTx.run_frames_mono {ad : TxAdapter} {r : PnTx} {ops : List TxOp} {l : List Nat}
    (hk : KeyOk ad r.sta) (hmin : minFragThreshold ≤ ad.fragLen)
    (hto : ∀ op ∈ ops, ToStation ad op) (hl : l ∈ r.frames) :
    l ∈ (run (PnTx.step ad) r ops).frames := by
  induction ops generalizing r with
  | nil => exact hl
  | cons op ops ih =>
    have hto₀ := hto op List.mem_cons_self
    have hl' : l ∈ (r.step ad op).frames := by
      obtain ⟨-, ⟨-, hf, -⟩ | ⟨-, n, hf, -⟩⟩ := PnTx.step_sends hk hmin hto₀
      · rw [hf]
        exact hl
      · rw [hf]
        exact List.mem_append_left _ hl
    exact ih (hk.step hmin hto₀) (fun o ho => hto o (List.mem_cons_of_mem _ ho)) hl'

theorem not_isChain_replicate {n p : Nat} (hn : 2 ≤ n) :
    ¬ (List.replicate n p).IsChain fun a b => b = a + 1 := by
  obtain ⟨k, rfl⟩ := Nat.exists_eq_add_of_le' hn
  rw [List.replicate_succ, List.replicate_succ, List.isChain_cons_cons]
  intro h
  omega

theorem PnTx.oneFragment_of_unique {ad : TxAdapter} {r : PnTx} {ops : List TxOp}
    (hk : KeyOk ad r.sta) (hmin : minFragThreshold ≤ ad.fragLen)
    (hto : ∀ op ∈ ops, ToStation ad op) (hu : (run (PnTx.step ad) r ops).Unique) :
    Along (PnTx.step ad) (OneFragment ad) r ops := by
  induction ops generalizing r with
  | nil => trivial
  | cons op ops ih =>
    have hto₀ := hto op List.mem_cons_self
    have hto₁ : ∀ o ∈ ops, ToStation ad o := fun o ho => hto o (List.mem_cons_of_mem _ ho)
    have hk' := hk.step hmin hto₀
    refine ⟨?_, ih hk' hto₁ hu⟩
    obtain ⟨-, ⟨-, -, hone⟩ | ⟨-, n, hf, h1, hone⟩⟩ := PnTx.step_sends hk hmin hto₀
    · exact hone
    · refine hone.mp ?_
      -- a second fragment would have the number of the first
      have hmem : List.replicate n (r.step ad op).sta.dot11txpn ∈ (r.step ad op).frames := by
        rw [hf]
        exact List.mem_append_right _ (List.mem_singleton_self _)
      have hlast : List.replicate n (r.step ad op).sta.dot11txpn
          ∈ (run (PnTx.step ad) r (op :: ops)).frames := by
        show _ ∈ (run (PnTx.step ad) (r.step ad op) ops).frames
        exact run_frames_mono hk' hmin hto₁ hmem
      by_contra hn
      exact not_isChain_replicate (by omega) (hu.2 _ hlast)

/-- the numbers used are those that follow `p₀`, and the counter is at the last of them -/
structure PnTx.Counted (ad : TxAdapter) (p₀ : Nat) (r : PnTx) : Prop where
  key : KeyOk ad r.sta
  pns_eq : r.pns = (List.range r.pns.length).map fun j => (p₀ + j + 1) % 2 ^ 48
  pn_eq : r.sta.dot11txpn = (p₀ + r.pns.length) % 2 ^ 48
  single : ∀ l ∈ r.frames, l.length ≤ 1

theorem PnTx.Counted.step {ad : TxAdapter} {p₀ : Nat} {r : PnTx} {op : TxOp} (h : r.Counted ad p₀)
    (hmin : minFragThreshold ≤ ad.fragLen) (hto : ToStation ad op) (hone : OneFragment ad r op) :
    (r.step ad op).Counted ad p₀ := by
  have hk' := h.key.step hmin hto
  obtain ⟨-, ⟨hpn, hf, -⟩ | ⟨hpn, n, hf, -, hn⟩⟩ := PnTx.step_sends h.key hmin hto
  · have hp : (r.step ad op).pns = r.pns := congrArg List.flatten hf
    refine ⟨hk', ?_, ?_, ?_⟩
    · rw [hp]
      exact h.pns_eq
    · rw [hpn, hp]
      exact h.pn_eq
    · rw [hf]
      exact h.single
  · obtain rfl := hn.mpr hone
    rw [nextPn_eq h.key.pn_lt, h.pn_eq] at hpn
    have hpn' : (r.step ad op).sta.dot11txpn = (p₀ + r.pns.length + 1) % 2 ^ 48 := by
      rw [hpn]
      omega
    have hp : (r.step ad op).pns = r.pns ++ [(p₀ + r.pns.length + 1) % 2 ^ 48] := by
      rw [← hpn']
      unfold PnTx.pns
      rw [hf, List.flatten_append]
      rfl
    have hlen : (r.step ad op).pns.length = r.pns.length + 1 := by
      rw [hp, List.length_append, List.length_singleton]
    refine ⟨hk', ?_, ?_, ?_⟩
    · rw [hlen, List.range_succ, List.map_append, ← h.pns_eq, hp]
      rfl
    · rw [hlen, hpn']
      rfl
    · intro l hl
      rw [hf] at hl
      rcases List.mem_append.mp hl with hl | hl
      · exact h.single l hl
      · rw [List.mem_singleton.mp hl]
        exact Nat.le_refl 1

theorem PnTx.Counted.unique {ad : TxAdapter} {p₀ : Nat} {r : PnTx} (h : r.Counted ad p₀)
    (hlen : r.pns.length < 2 ^ 48 - 1) : r.Unique := by
  constructor
  · rw [h.pns_eq]
    refine List.Nodup.map_on ?_ List.nodup_range
    intro i hi j hj hij
    rw [List.mem_range] at hi hj
    omega
  · intro l hl
    match l, h.single l hl with
    | [], _ => exact List.IsChain.nil
    | [a], _ => exact List.IsChain.singleton a

/-- **Packet numbers are unique exactly in the runs without a fragmented frame.**  All frames go to
one station under one CCMP or GCMP key. -/
theorem pn_unique_iff {ad : TxAdapter} {sta : TxSta} {ops : List TxOp} (hk : KeyOk ad sta)
    (hmin : minFragThreshold ≤ ad.fragLen) (hto : ∀ op ∈ ops, ToStation ad op)
    (hlen : (run (PnTx.step ad) ⟨sta, []⟩ ops).pns.length < 2 ^ 48 - 1) :
    (run (PnTx.step ad) ⟨sta, []⟩ ops).Unique
      ↔ Along (PnTx.step ad) (OneFragment ad) ⟨sta, []⟩ ops := by
  constructor
  · intro hu
    exact PnTx.oneFragment_of_unique hk hmin hto hu
  · intro hone
    have h₀ : PnTx.Counted ad sta.dot11txpn ⟨sta, []⟩ :=
      ⟨hk, rfl, (Nat.mod_eq_of_lt hk.pn_lt).symm, by simp⟩
    have hrun : (run (PnTx.step ad) ⟨sta, []⟩ ops).Counted ad sta.dot11txpn :=
      run_inv (fun r op h hc => h.step hmin hc.1 hc.2) _ _ h₀ (along_and hto hone)
    exact hrun.unique hlen

/-- a station with a CCMP key, and the smallest threshold -/
def txAesStation : TxAdapter := { txFragStation with sec := { dot11AuthAlgrthm := .ieee8021x } }

def txAesAp : TxSta := { dot118021XPrivacy := .aes, bpairwiseKeyInstalled := true, mfp := true }

theorem txAesAp_keyOk : KeyOk txAesStation txAesAp := ⟨by decide, rfl, rfl, by decide⟩

def deauthFrame : MgmtFrame where
  hdr := List.replicate 24 0
  hdr_length := rfl
  body := [3, 0]
  subtype := .deauth
  keyType := .rightKey

def arpDeauth : List TxOp := [.data arpEth .nonEapol 512 1 fun _ => 0, .mgmt deauthFrame]

theorem pn_unique_iff_two :
    (run (PnTx.step txAesStation) ⟨txAesAp, []⟩ arpDeauth).pns = [1, 2]
      ∧ (run (PnTx.step txAesStation) ⟨txAesAp, []⟩ arpDeauth).Unique := by
  have hpns : (run (PnTx.step txAesStation) ⟨txAesAp, []⟩ arpDeauth).pns = [1, 2] := by
    decide +kernel
  refine ⟨hpns, (pn_unique_iff txAesAp_keyOk (by decide) ?_ ?_).mpr ⟨?_, trivial, trivial⟩⟩
  · intro op hop
    rcases List.mem_cons.mp hop with rfl | hop
    · exact rfl
    · rw [List.mem_singleton.mp hop]
      trivial
  · rw [hpns]
    decide
  · intro att sta h _
    cases h
    decide

def longOp : TxOp := .data longEth .nonEapol 512 1 fun _ => 0

/-- both fragments of a packet of 300 bytes have the number 1 -/
theorem pn_reused :
    (run (PnTx.step txAesStation) ⟨txAesAp, []⟩ [longOp]).pns = [1, 1]
      ∧ ¬ (run (PnTx.step txAesStation) ⟨txAesAp, []⟩ [longOp]).Unique := by
  have hpns : (run (PnTx.step txAesStation) ⟨txAesAp, []⟩ [longOp]).pns = [1, 1] := by
    decide +kernel
  refine ⟨hpns, ?_⟩
  intro hu
  have hnd := hu.1
  rw [hpns] at hnd
  exact absurd hnd (by decide)

end Rtl8192eu
