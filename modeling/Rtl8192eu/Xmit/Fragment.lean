import Mathlib.Algebra.GroupWithZero.Nat
import Rtl8192eu.Xmit.AggLayout

/-!
# Fragmented transmission

What reaches the device of an MSDU that `rtw_xmitframe_coalesce` cut into fragments.  On the direct
path `rtw_dump_xframe` makes one transfer for each of them, on the aggregating path the frame is one
packet of a transfer.

* `Faithful`   the MPDUs of an MSDU are its pieces, with the right fragment fields;
* `coalesceLoop_below`, `coalesceLoop_mfrag`, `coalesceLoop_count`   the loop over the fragments;
* `dump_faithful_iff`, `agg_faithful_iff`   faithful exactly when there is one fragment.

The loop never writes a fragment number.  Next to that the routines disagree about where the second
fragment starts and how long the first is: `rtw_dump_xframe` takes the ICV off a size that does not
hold it, the ciphers and the MIC step by `frag_len` and not by `frag_len - 4` with the room for the
descriptor.
-/

namespace Rtl8192eu

open Mem

/-- `MIN_FRAG_THRESHOLD` -/
def minFragThreshold : Nat := 256

/-- the threshold that `rtw_wx_set_frag` sets -/
def rtwWxSetFrag (disabled : Bool) (value : Nat) : Option Nat :=
  if disabled then some maxFragThreshold
  else if value < minFragThreshold ∨ maxFragThreshold < value then none
  else some (value / 2 * 2)

theorem rtwWxSetFrag_some {disabled : Bool} {value n : Nat} (h : rtwWxSetFrag disabled value = some n) :
    minFragThreshold ≤ n ∧ n ≤ maxFragThreshold := by
  unfold rtwWxSetFrag minFragThreshold maxFragThreshold at *
  split at h
  · cases h
    decide
  · split at h
    · cases h
    · cases h
      omega

/-! ## MPDUs -/

def moreFrag (mpdu : List UInt8) : Bool := mpdu.getD 1 0 &&& 0x04 ≠ 0

def fragNum (mpdu : List UInt8) : Nat := (mpdu.getD 22 0).toNat % 16

/-- without header, IV and ICV -/
def mpduBody (cr : TxCrypto) (att : PktAttrib) (mpdu : List UInt8) : List UInt8 :=
  let n := att.hdrlen + att.ivLen
  if att.bswenc && swCipher att.encrypt then cr.dec att.encrypt (mpdu.take n) (mpdu.drop n)
  else mpdu.drop n

/-- the MPDUs are the pieces of the MSDU -/
structure Faithful (cr : TxCrypto) (att : PktAttrib) (pkt : List UInt8) (mpdus : List (List UInt8)) :
    Prop where
  body : (mpdus.map (mpduBody cr att)).flatten
    = msduText cr att ((mpdus.headD []).take att.hdrlen) pkt
  more : ∀ i (h : i < mpdus.length), moreFrag mpdus[i] = decide (i + 1 < mpdus.length)
  num : ∀ i (h : i < mpdus.length), fragNum mpdus[i] = i

/-- what `rtw_dump_xframe` hands to `rtw_write_port` -/
def dumpMpdus (ad : TxAdapter) (speed : UsbSpeed) (att : PktAttrib) (bufAddr : Nat) (c : Coalesced) :
    List (List UInt8) :=
  (rtwDumpXframe ad speed att bufAddr c).map fun t => read c.mem t.mpduAddr t.pktSize

def AggPkt.mpdu {ad : TxAdapter} (mem : Nat → UInt8) (p : AggPkt ad) : List UInt8 :=
  read mem p.mpduAddr p.size

/-! ## the fragments in the buffer -/

section loop

variable {att : PktAttrib} {s i : Nat}

theorem putFragment_fst (ad : TxAdapter) (inx : Nat) (m : Nat → UInt8) (pkt : List UInt8)
    (hi : i < s + att.hdrlen) (hne : i ≠ s + 1) : (putFragment ad att inx s m pkt).1 i = m i := by
  unfold putFragment
  exact (write_of_lt hi).trans (write_one_of_ne _ hne)

theorem putFragment_mfrag (ad : TxAdapter) (inx : Nat) (m : Nat → UInt8) (pkt : List UInt8)
    (hh : 2 ≤ att.hdrlen) : (putFragment ad att inx s m pkt).1 (s + 1) = m (s + 1) ||| 0x04 := by
  unfold putFragment
  exact (write_of_lt (by omega)).trans (write_one_self _)

theorem putFragment_end (ad : TxAdapter) (att : PktAttrib) (inx s : Nat) (m : Nat → UInt8)
    (pkt : List UInt8) : s + att.hdrlen ≤ (putFragment ad att inx s m pkt).2.2 := by
  unfold putFragment
  dsimp only
  omega

theorem rnd4_ge (n : Nat) : n ≤ rnd4 n := by
  unfold rnd4
  omega

/-- from a fragment on, its header stays but for the second byte, and so does all in front of it -/
theorem coalesceLoop_below (ad : TxAdapter) (start off n inx : Nat) (m : Nat → UInt8)
    (pkt : List UInt8) (hi : i < s + att.hdrlen) (hne : i ≠ s + 1) :
    (coalesceLoop ad att start off n inx s m pkt).mem i = m i := by
  induction n generalizing inx s m pkt with
  | zero => rfl
  | succ n ih =>
    have hput := putFragment_fst ad inx m pkt hi hne
    have hend := putFragment_end ad att inx s m pkt
    rw [coalesceLoop]
    generalize putFragment ad att inx s m pkt = r at hput hend ⊢
    obtain ⟨m', chunk, pframe⟩ := r
    dsimp only at hput hend ⊢
    split
    · exact (write_one_of_ne _ hne).trans hput
    · have hr := rnd4_ge pframe
      rw [ih _ _ _ (by omega) (by omega), write_of_lt (by omega), hput]

/-- the payload of a fragment behind the first -/
def fragCap (ad : TxAdapter) (att : PktAttrib) : Nat :=
  ad.fragLen - 4 - att.hdrlen - att.ivLen - swIcv att

theorem putFragment_next (ad : TxAdapter) (inx s : Nat) (m : Nat → UInt8) (pkt : List UInt8)
    (hu : isMcast att.ra = false) (hcap : att.hdrlen + att.ivLen + swIcv att + 4 ≤ ad.fragLen) :
    (putFragment ad att (inx + 1) s m pkt).2.1 = pkt.take (fragCap ad att) := by
  unfold putFragment
  simp only [hu, Nat.succ_ne_zero, if_false, Bool.false_eq_true, List.length_nil, pktfileRead, mpduLen]
  rw [if_neg (by omega)]
  congr 1
  unfold fragCap
  omega

/-- **The fragments behind the first**: full ones, and a last one with what is left. -/
theorem coalesceLoop_count {ad : TxAdapter} (start off : Nat) {n : Nat} (inx s : Nat)
    (m : Nat → UInt8) (pkt : List UInt8) (hu : isMcast att.ra = false) (hcap : 0 < fragCap ad att) (hn : pkt.length ≤ n)
    (hne : 0 < pkt.length) :
    ∃ k l, pkt.length = k * fragCap ad att + l ∧ 0 < l ∧ l ≤ fragCap ad att
      ∧ (coalesceLoop ad att start off n (inx + 1) s m pkt).nrFrags = (inx + 1 + k + 1) % 256
      ∧ (coalesceLoop ad att start off n (inx + 1) s m pkt).lastTxcmdsz
        = att.hdrlen + att.ivLen + swIcv att + l := by
  induction n generalizing inx s m pkt with
  | zero => omega
  | succ n ih =>
    have hchunk := putFragment_next ad inx s m pkt hu (by unfold fragCap at hcap; omega)
    rw [coalesceLoop]
    generalize putFragment ad att (inx + 1) s m pkt = r at hchunk ⊢
    obtain ⟨m', chunk, pframe⟩ := r
    dsimp only at hchunk ⊢
    rw [hchunk, hu, Bool.false_or, List.length_take]
    by_cases hle : pkt.length ≤ fragCap ad att
    · rw [Nat.min_eq_right hle, List.drop_length, List.isEmpty_nil, if_pos rfl]
      refine ⟨0, pkt.length, by omega, hne, hle, rfl, ?_⟩
      show att.hdrlen + att.ivLen + (if (inx + 1 + 1) % 256 = 1 then llcSz (inx + 1) else 0)
        + swIcv att + pkt.length = _
      rw [show llcSz (inx + 1) = 0 from rfl, ite_self, Nat.add_zero]
    · rw [Nat.min_eq_left (by omega)]
      have hrest : (pkt.drop (fragCap ad att)).isEmpty = false := by
        rw [List.isEmpty_eq_false_iff, ← List.length_pos_iff, List.length_drop]
        omega
      rw [hrest, if_neg Bool.false_ne_true]
      obtain ⟨k, l, h1, h2, h3, h4, h5⟩ := ih (inx + 1) (rnd4 pframe + off)
        (write m' (rnd4 pframe + off) (read m' start att.hdrlen)) (pkt.drop (fragCap ad att))
        (by rw [List.length_drop]; omega) (by rw [List.length_drop]; omega)
      rw [List.length_drop] at h1
      refine ⟨k + 1, l, ?_, h2, h3, ?_, h5⟩
      · rw [Nat.succ_mul]
        omega
      · rw [h4]
        congr 1
        omega

/-- the first turn, when the payload does not fit -/
theorem coalesceLoop_first {ad : TxAdapter} {off n : Nat} {m : Nat → UInt8} {pkt : List UInt8}
    (hu : isMcast att.ra = false) (hcap : 8 ≤ fragCap ad att)
    (hfr : ¬ Unfragmented ad att pkt.length) :
    coalesceLoop ad att s off (n + 1) 0 s m pkt
      = coalesceLoop ad att s off n 1 (rnd4 (s + (ad.fragLen - 4)) + off)
        (write (putFragment ad att 0 s m pkt).1 (rnd4 (s + (ad.fragLen - 4)) + off)
          (read (putFragment ad att 0 s m pkt).1 s att.hdrlen))
        (pkt.drop (fragCap ad att - 8)) := by
  unfold Unfragmented at hfr
  have hchunk : (putFragment ad att 0 s m pkt).2.1 = pkt.take (fragCap ad att - 8) := by
    unfold fragCap at hcap
    unfold putFragment
    simp only [hu, if_true, if_false, Bool.false_eq_true, length_rtwPutSnap, pktfileRead, mpduLen]
    rw [if_neg (by omega)]
    congr 1
    unfold fragCap
    omega
  have hlen : (pkt.take (fragCap ad att - 8)).length = fragCap ad att - 8 := by
    rw [List.length_take]
    unfold fragCap at *
    omega
  have hend : (putFragment ad att 0 s m pkt).2.2 = s + (ad.fragLen - 4) := by
    have h : (putFragment ad att 0 s m pkt).2.2 = s + att.hdrlen + att.ivLen
        + (rtwPutSnap att.etherType).length + (putFragment ad att 0 s m pkt).2.1.length + swIcv att := rfl
    rw [h, hchunk, hlen, length_rtwPutSnap]
    unfold fragCap at *
    omega
  have hrest : (pkt.drop (fragCap ad att - 8)).isEmpty = false := by
    rw [List.isEmpty_eq_false_iff, ← List.length_pos_iff, List.length_drop]
    unfold fragCap at *
    omega
  rw [coalesceLoop]
  generalize putFragment ad att 0 s m pkt = r at hchunk hend ⊢
  obtain ⟨m', chunk, pframe⟩ := r
  dsimp only at hchunk hend ⊢
  rw [hchunk, hlen, hu, hrest, hend, Bool.or_self, if_neg Bool.false_ne_true]

/-- **A frame that is cut**: the first header has More Fragments set, the second one repeats its
sequence control, fragment number included. -/
theorem coalesceLoop_fragmented {ad : TxAdapter} (s off : Nat) (m : Nat → UInt8) {pkt : List UInt8}
    (hu : isMcast att.ra = false) (hcap : 8 ≤ fragCap ad att) (hh : 24 ≤ att.hdrlen)
    (hfr : ¬ Unfragmented ad att pkt.length) :
    let c := coalesceLoop ad att s off (pkt.length + 1) 0 s m pkt
    (∃ k l, pkt.length + 8 = (k + 1) * fragCap ad att + l ∧ 0 < l ∧ c.nrFrags = (k + 2) % 256
        ∧ c.lastTxcmdsz = att.hdrlen + att.ivLen + swIcv att + l)
      ∧ c.mem (s + 1) = m (s + 1) ||| 0x04
      ∧ c.mem (s + 22) = m (s + 22)
      ∧ c.mem (rnd4 (s + (ad.fragLen - 4)) + off + 22) = m (s + 22) := by
  intro c
  have hr := rnd4_ge (s + (ad.fragLen - 4))
  have hc : c = _ := coalesceLoop_first hu hcap hfr
  have hge : s + att.hdrlen ≤ s + (ad.fragLen - 4) := by
    unfold fragCap at hcap
    omega
  have hm22 : (putFragment ad att 0 s m pkt).1 (s + 22) = m (s + 22) :=
    putFragment_fst ad 0 m pkt (by omega) (by omega)
  refine ⟨?_, ?_, ?_, ?_⟩
  · have hlt : fragCap ad att < pkt.length + 8 := by
      unfold Unfragmented at hfr
      unfold fragCap at hcap ⊢
      omega
    have hl : (pkt.drop (fragCap ad att - 8)).length = pkt.length + 8 - fragCap ad att := by
      rw [List.length_drop]
      omega
    have hpos : 0 < fragCap ad att := by omega
    obtain ⟨k, l, h1, h2, -, h4, h5⟩ := coalesceLoop_count s off (n := pkt.length) 0
      (rnd4 (s + (ad.fragLen - 4)) + off) _ (pkt.drop (fragCap ad att - 8)) hu hpos
      (by rw [hl]; omega) (by rw [hl]; omega)
    refine ⟨k, l, ?_, h2, ?_, ?_⟩
    · rw [hl] at h1
      rw [Nat.succ_mul]
      omega
    · rw [hc, h4]
      congr 1
      omega
    · rw [hc, h5]
  · rw [hc, coalesceLoop_below _ _ _ _ _ _ _ (by omega) (by omega), write_of_lt (by omega),
      putFragment_mfrag _ _ _ _ (by omega)]
  · rw [hc, coalesceLoop_below _ _ _ _ _ _ _ (by omega) (by omega), write_of_lt (by omega), hm22]
  · rw [hc, coalesceLoop_below _ _ _ _ _ _ _ (by omega) (by omega),
      write_add (by rw [length_read]; omega), getElem_read, hm22]

end loop

/-! ## MIC and ciphers write behind the first header -/

theorem addmicLoop_ge (ad : TxAdapter) (att : PktAttrib) (last : Nat) (m : Nat → UInt8)
    (n payload : Nat) : payload ≤ (addmicLoop ad att last m n payload).1 := by
  have hr := rnd4_ge payload
  induction n generalizing payload with
  | zero => exact Nat.le_refl _
  | succ n ih =>
    cases n with
    | zero =>
      show payload ≤ rnd4 payload + att.hdrlen + att.ivLen + _
      omega
    | succ n =>
      rw [addmicLoop]
      exact Nat.le_trans (by omega) (ih _ (rnd4_ge _))

theorem addmicLoop_succ_ge (ad : TxAdapter) (att : PktAttrib) (last : Nat) (m : Nat → UInt8)
    (n payload : Nat) : payload + att.hdrlen ≤ (addmicLoop ad att last m (n + 1) payload).1 := by
  have hr := rnd4_ge payload
  cases n with
  | zero =>
    show payload + att.hdrlen ≤ rnd4 payload + att.hdrlen + att.ivLen + _
    omega
  | succ n =>
    rw [addmicLoop]
    exact Nat.le_trans (by omega) (addmicLoop_ge _ _ _ _ _ _)

theorem swencryptLoop_below (cr : TxCrypto) (ad : TxAdapter) (att : PktAttrib) (last n pframe : Nat)
    (m : Nat → UInt8) {i : Nat} (hi : i < pframe + att.hdrlen) :
    swencryptLoop cr ad att last n pframe m i = m i := by
  induction n generalizing pframe m with
  | zero => rfl
  | succ n ih =>
    cases n with
    | zero => exact write_of_lt (by omega)
    | succ n =>
      have hr := rnd4_ge (pframe + ad.fragLen)
      rw [swencryptLoop, ih _ _ (by omega)]
      exact write_of_lt (by omega)

theorem xmitframeSwencrypt_below (cr : TxCrypto) (ad : TxAdapter) (att : PktAttrib) (start : Nat)
    (c : Coalesced) {i : Nat} (hi : i < start + att.hdrlen) :
    (xmitframeSwencrypt cr ad att start c).mem i = c.mem i := by
  unfold xmitframeSwencrypt
  split
  · exact swencryptLoop_below _ _ _ _ _ _ _ hi
  · rfl

theorem xmitframeSwencrypt_sizes (cr : TxCrypto) (ad : TxAdapter) (att : PktAttrib) (start : Nat)
    (c : Coalesced) : (xmitframeSwencrypt cr ad att start c).nrFrags = c.nrFrags
      ∧ (xmitframeSwencrypt cr ad att start c).lastTxcmdsz = c.lastTxcmdsz := by
  unfold xmitframeSwencrypt
  split <;> exact ⟨rfl, rfl⟩

theorem xmitframeAddmic_some {cr : TxCrypto} {ad : TxAdapter} {sta : TxSta} {att : PktAttrib}
    {start : Nat} {c c' : Coalesced} (h : xmitframeAddmic cr ad sta att start c = some c') :
    c'.nrFrags = c.nrFrags
      ∧ c'.lastTxcmdsz = c.lastTxcmdsz + (if att.encrypt = .tkip then 8 else 0)
      ∧ (∀ i, i < start → c'.mem i = c.mem i)
      ∧ (0 < c.nrFrags → ∀ i, i < start + att.hdrlen → c'.mem i = c.mem i) := by
  unfold xmitframeAddmic at h
  by_cases ht : att.encrypt = .tkip
  · rw [if_neg (by simpa using ht)] at h
    split at h
    · cases h
    · cases h
      rw [if_pos ht]
      refine ⟨rfl, rfl, ?_, ?_⟩
      · intro i hi
        exact write_of_lt (Nat.lt_of_lt_of_le hi (addmicLoop_ge _ _ _ _ _ _))
      · intro hn i hi
        obtain ⟨n, hn⟩ := Nat.exists_eq_succ_of_ne_zero (Nat.ne_of_gt hn)
        have hge := addmicLoop_succ_ge ad att c.lastTxcmdsz c.mem n start
        dsimp only
        rw [hn]
        exact write_of_lt (Nat.lt_of_lt_of_le hi hge)
  · rw [if_pos ht] at h
    cases h
    rw [if_neg ht]
    exact ⟨rfl, rfl, fun _ _ => rfl, fun _ _ _ => rfl⟩

/-- nothing in front of a frame is written -/
theorem rtwXmitframeCoalesce_below {cr : TxCrypto} {ad : TxAdapter} {sta sta' : TxSta}
    {att : PktAttrib} {pkt : List UInt8} {bufAddr pktOffset : Nat} {m : Nat → UInt8} {c : Coalesced}
    (h : rtwXmitframeCoalesce cr ad sta att pkt bufAddr pktOffset m = some (c, sta'))
    (hh : 2 ≤ att.hdrlen) {i : Nat} (hi : i < bufAddr + hwHdrOffset pktOffset) : c.mem i = m i := by
  obtain ⟨⟨hdr, sta₁⟩, hmk, h⟩ := Option.bind_eq_some_iff.mp h
  obtain ⟨c₁, hmic, h⟩ := Option.map_eq_some_iff.mp h
  cases h
  obtain ⟨-, -, hlow, -⟩ := xmitframeAddmic_some hmic
  rw [xmitframeSwencrypt_below _ _ _ _ _ (by omega), hlow i hi,
    coalesceLoop_below _ _ _ _ _ _ _ (by omega) (by omega), putWlanhdr_below hi]

/-! ## a frame in pieces -/

theorem byte_or_and_self (x y : UInt8) : (x ||| y) &&& y = y := by
  apply UInt8.toBitVec_inj.mp
  ext i hi
  simp only [UInt8.toBitVec_and, UInt8.toBitVec_or, BitVec.getElem_and, BitVec.getElem_or]
  cases x.toBitVec[i] <;> cases y.toBitVec[i] <;> rfl

theorem PktAttrib.Ok.lens_le {ad : TxAdapter} {att : PktAttrib} (hok : att.Ok ad) :
    24 ≤ att.hdrlen ∧ att.hdrlen ≤ 26 ∧ att.ivLen ≤ 8 ∧ swIcv att ≤ att.icvLen ∧ att.icvLen ≤ 16 := by
  have hi : att.ivLen = (ivIcvLen att.encrypt).1 := congrArg Prod.fst hok.lens
  have hc : att.icvLen = (ivIcvLen att.encrypt).2 := congrArg Prod.snd hok.lens
  have hle : (ivIcvLen att.encrypt).1 ≤ 8 ∧ (ivIcvLen att.encrypt).2 ≤ 16 := by
    cases att.encrypt <;> decide
  have hs : swIcv att ≤ att.icvLen := by
    unfold swIcv
    split
    · exact Nat.le_refl _
    · exact Nat.zero_le _
  have hh := hok.hdrlen_eq
  split at hh <;> omega

theorem fragCap_ge {ad : TxAdapter} {att : PktAttrib} (hok : att.Ok ad)
    (hmin : minFragThreshold ≤ ad.fragLen) : 202 ≤ fragCap ad att := by
  obtain ⟨-, h1, h2, h3, h4⟩ := hok.lens_le
  unfold minFragThreshold at hmin
  unfold fragCap
  omega

theorem rtwXmitframeCoalesce_fragmented {cr : TxCrypto} {ad : TxAdapter} {sta sta' : TxSta}
    {att : PktAttrib} {pkt : List UInt8} {bufAddr pktOffset : Nat} {m : Nat → UInt8} {c : Coalesced}
    (hok : att.Ok ad) (hu : isMcast att.ra = false) (hmin : minFragThreshold ≤ ad.fragLen)
    (hmax : pkt.length ≤ maxXmitbufSz) (hfr : ¬ Unfragmented ad att pkt.length)
    (h : rtwXmitframeCoalesce cr ad sta att pkt bufAddr pktOffset m = some (c, sta')) :
    (∃ k l, pkt.length + 8 = (k + 1) * fragCap ad att + l ∧ 0 < l ∧ c.nrFrags = k + 2
        ∧ c.lastTxcmdsz = att.hdrlen + att.ivLen + swIcv att + l
          + if att.encrypt = .tkip then 8 else 0)
      ∧ c.mem (bufAddr + hwHdrOffset pktOffset + 1) &&& 0x04 ≠ 0
      ∧ (swCipher att.encrypt = false →
        (c.mem (bufAddr + hwHdrOffset pktOffset + 22)).toNat % 16 = 0
          ∧ (c.mem (rnd4 (bufAddr + hwHdrOffset pktOffset + (ad.fragLen - 4)) + hwHdrOffset pktOffset
            + 22)).toNat % 16 = 0) := by
  obtain ⟨⟨hdr, sta₁⟩, hmk, h⟩ := Option.bind_eq_some_iff.mp h
  obtain ⟨c₁, hmic, h⟩ := Option.map_eq_some_iff.mp h
  cases h
  have hhdr := (rtwMakeWlanhdr_some hok hmk).1
  have hh : hdr.length = att.hdrlen := hhdr.length_eq
  have hlong := hhdr.long
  have hcap := fragCap_ge hok hmin
  generalize hstart : bufAddr + hwHdrOffset pktOffset = start at hmic ⊢
  obtain ⟨⟨k, l, hlen, hl, hnr, hlast⟩, h1, h22, h22'⟩ := coalesceLoop_fragmented start
    (hwHdrOffset pktOffset) (putWlanhdr m start hdr) hu (by omega) (by omega) hfr
  obtain ⟨hnr', hlast', -, hlow⟩ := xmitframeAddmic_some hmic
  have hk : k + 2 < 256 := by
    have : (k + 1) * 202 ≤ (k + 1) * fragCap ad att := Nat.mul_le_mul_left _ hcap
    unfold maxXmitbufSz at hmax
    omega
  rw [Nat.mod_eq_of_lt hk] at hnr
  obtain ⟨hsz1, hsz2⟩ := xmitframeSwencrypt_sizes cr ad att start c₁
  refine ⟨⟨k, l, hlen, hl, ?_, ?_⟩, ?_, ?_⟩
  · rw [hsz1, hnr', hnr]
  · rw [hsz2, hlast', hlast]
  · rw [xmitframeSwencrypt_below _ _ _ _ _ (by omega), hlow (by omega) _ (by omega), h1,
      byte_or_and_self]
    decide
  · intro hsw
    have ht : att.encrypt ≠ .tkip := by
      intro ht
      rw [ht] at hsw
      cases hsw
    have hc₁ : c₁ = coalesceLoop ad att start (hwHdrOffset pktOffset) (pkt.length + 1) 0 start
        (putWlanhdr m start hdr) pkt := by
      rw [xmitframeAddmic, if_pos ht] at hmic
      exact (Option.some.inj hmic).symm
    have hsame : xmitframeSwencrypt cr ad att start c₁ = c₁ := by
      rw [xmitframeSwencrypt, hsw, Bool.and_false, if_neg Bool.false_ne_true]
    have hz : (putWlanhdr m start hdr (start + 22)).toNat % 16 = 0 := by
      rw [putWlanhdr_byte m start (by omega)]
      exact hhdr.fragnum
    rw [hsame, hc₁, h22, h22']
    exact ⟨hz, hz⟩

/-! ## one MPDU -/

theorem mpduBody_laid {cr : TxCrypto} {ad : TxAdapter} {att : PktAttrib} {hdr text : List UInt8}
    (hok : att.Ok ad) (hh : hdr.length = att.hdrlen) :
    mpduBody cr att (hdr ++ att.iv ++ sentText cr att hdr text) = text := by
  have hn : (hdr ++ att.iv).length = att.hdrlen + att.ivLen := by
    rw [List.length_append, hh, hok.iv_length]
  unfold mpduBody sentText
  dsimp only
  rw [List.take_left' hn, List.drop_left' hn]
  split
  · exact cr.dec_enc _ _ _
  · rfl

theorem faithful_single {cr : TxCrypto} {ad : TxAdapter} {att : PktAttrib} {hdr pkt : List UInt8}
    (hok : att.Ok ad) (hhdr : HdrOk att hdr) :
    Faithful cr att pkt [hdr ++ att.iv ++ sentText cr att hdr (msduText cr att hdr pkt)] := by
  have hh := hhdr.length_eq
  have hlong := hhdr.long
  have hget : ∀ xs i, i < 24 → (hdr ++ att.iv ++ xs).getD i 0 = hdr.getD i 0 := by
    intro xs i hi
    rw [List.append_assoc, List.getD_eq_getElem?_getD, List.getElem?_append_left (by omega),
      ← List.getD_eq_getElem?_getD]
  refine ⟨?_, ?_, ?_⟩
  · show mpduBody cr att (hdr ++ att.iv ++ sentText cr att hdr (msduText cr att hdr pkt)) ++ [] = _
    rw [List.append_nil, mpduBody_laid hok hh]
    show msduText cr att hdr pkt
      = msduText cr att ((hdr ++ att.iv ++ sentText cr att hdr (msduText cr att hdr pkt)).take att.hdrlen) pkt
    rw [List.append_assoc, List.take_left' hh]
  · intro i hi
    obtain rfl : i = 0 := Nat.lt_one_iff.mp hi
    show moreFrag (hdr ++ att.iv ++ sentText cr att hdr (msduText cr att hdr pkt)) = false
    have h0 : hdr.getD 1 0 &&& 0x04 = 0 := by
      rw [← hhdr.mfrag, UInt8.and_assoc]
      exact UInt8.and_zero
    rw [moreFrag, hget _ _ (by omega), h0]
    rfl
  · intro i hi
    obtain rfl : i = 0 := Nat.lt_one_iff.mp hi
    show fragNum (hdr ++ att.iv ++ sentText cr att hdr (msduText cr att hdr pkt)) = 0
    rw [fragNum, hget _ _ (by omega)]
    exact hhdr.fragnum

/-- one MPDU that still has More Fragments set is not an MSDU -/
theorem not_faithful_one {cr : TxCrypto} {att : PktAttrib} {pkt mpdu : List UInt8}
    (h : mpdu.getD 1 0 &&& 0x04 ≠ 0) : ¬ Faithful cr att pkt [mpdu] := by
  intro hf
  have hm : moreFrag mpdu = false := hf.more 0 Nat.one_pos
  rw [moreFrag, decide_eq_true h] at hm
  cases hm

/-! ## the aggregating path -/

/-- the packet was built where it is, and nothing of its room was written afterwards -/
def Placed (cr : TxCrypto) {ad : TxAdapter} (mem : Nat → UInt8) (p : AggPkt ad) : Prop :=
  ∃ bufAddr pktOffset sta sta' m c, 4 ∣ bufAddr ∧ bufAddr + hwHdrOffset pktOffset = p.mpduAddr
    ∧ rtwXmitframeCoalesce cr ad sta p.frame.att p.frame.pkt bufAddr pktOffset m = some (c, sta')
    ∧ p.size = c.lastTxcmdsz
    ∧ ∀ i, i < p.mpduAddr + rtwWlanPktSize p.frame.att → mem i = c.mem i

theorem aggLoop_placed (cr : TxCrypto) {ad : TxAdapter} (conf : XmitConf) (qsel : Nat) {base : Nat}
    (hbase : 8 ∣ base) (q : List (TxFrame ad)) (st : AggState) (tail : Nat) (m : Nat → UInt8)
    (sta : TxSta) (hst : 8 ∣ st.pbuf) :
    (∀ i, i < base + st.pbuf → (aggLoop cr ad conf qsel base st tail m sta q).mem i = m i)
      ∧ ∀ p ∈ (aggLoop cr ad conf qsel base st tail m sta q).pkts,
        Placed cr (aggLoop cr ad conf qsel base st tail m sta q).mem p := by
  induction q generalizing st tail m sta with
  | nil => exact ⟨fun _ _ => rfl, by simp [aggLoop]⟩
  | cons f q ih =>
    rw [aggLoop]
    split
    · exact ⟨fun _ _ => rfl, by simp⟩
    · split
      · exact ⟨fun _ _ => rfl, by simp⟩
      · have hh : 2 ≤ f.att.hdrlen := Nat.le_trans (by decide) f.ok.lens_le.1
        have hrnd := rnd8_ge (st.pbuf + (rtwWlanPktSize f.att + txdescSize))
        have halign : 4 ∣ base + st.pbuf := by omega
        dsimp only
        cases hc : rtwXmitframeCoalesce cr ad sta f.att f.pkt (base + st.pbuf) 0 m with
        | none => exact ih st tail m _ hst
        | some r =>
          obtain ⟨c, sta'⟩ := r
          have hlow : ∀ i, i < base + st.pbuf → c.mem i = m i := by
            intro i hi
            exact rtwXmitframeCoalesce_below hc hh (Nat.lt_of_lt_of_le hi (Nat.le_add_right _ _))
          dsimp only
          cases hn : aggNext conf st (rtwWlanPktSize f.att + txdescSize) with
          | none =>
            refine ⟨hlow, ?_⟩
            intro p hp
            obtain rfl := List.mem_singleton.mp hp
            exact ⟨_, 0, sta, sta', m, c, halign, rfl, hc, rfl, fun _ _ => rfl⟩
          | some st' =>
            have hpb := (aggNext_some hn).1
            have hst' : 8 ∣ st'.pbuf := by
              rw [hpb]
              exact ⟨_, Nat.mul_comm _ _⟩
            obtain ⟨hmem, hpl⟩ := ih st' (st.pbuf + (rtwWlanPktSize f.att + txdescSize)) c.mem sta' hst'
            refine ⟨?_, ?_⟩
            · intro i hi
              exact (hmem i (by omega)).trans (hlow i hi)
            · intro p hp
              rcases List.mem_cons.mp hp with rfl | hp
              · refine ⟨_, 0, sta, sta', m, c, halign, rfl, hc, rfl, ?_⟩
                intro i hi
                apply hmem i
                simp only [AggPkt.mpduAddr, hwHdrOffset] at hi
                omega
              · exact hpl p hp

theorem getD_read {m : Nat → UInt8} {a n i : Nat} (hi : i < n) : (read m a n).getD i 0 = m (a + i) := by
  rw [List.getD_eq_getElem?_getD, List.getElem?_eq_getElem (by rwa [length_read]), Option.getD_some,
    getElem_read]

theorem Placed.faithful_iff {cr : TxCrypto} {ad : TxAdapter} {mem : Nat → UInt8} {p : AggPkt ad}
    (h : Placed cr mem p) (hu : isMcast p.frame.att.ra = false)
    (hmin : minFragThreshold ≤ ad.fragLen) (hmax : p.frame.pkt.length ≤ maxXmitbufSz) :
    Faithful cr p.frame.att p.frame.pkt [p.mpdu mem]
      ↔ Unfragmented ad p.frame.att p.frame.pkt.length := by
  obtain ⟨bufAddr, pktOffset, sta, sta', m, c, hs, haddr, hc, hsz, hmem⟩ := h
  obtain ⟨h24, -⟩ := p.frame.ok.lens_le
  by_cases hfr : Unfragmented ad p.frame.att p.frame.pkt.length
  · obtain ⟨hdr, -, hhdr, hlaid, -, hlast⟩ :=
      rtwXmitframeCoalesce_single p.frame.ok p.frame.pktlen_eq hs (Or.inr hfr) hc
    have hpk : c.lastTxcmdsz = rtwWlanPktSize p.frame.att := coalesce_size hs (Or.inr hfr) hc
    have hread : p.mpdu mem = hdr ++ p.frame.att.iv
        ++ sentText cr p.frame.att hdr (msduText cr p.frame.att hdr p.frame.pkt) := by
      have hall := hlaid.read_all
      rw [hhdr.length_eq, p.frame.ok.iv_length, ← hlast, haddr] at hall
      rw [← hall, AggPkt.mpdu, hsz]
      apply read_congr
      intro i _ hi
      exact hmem i (by omega)
    rw [hread]
    exact ⟨fun _ => hfr, fun _ => faithful_single p.frame.ok hhdr⟩
  · obtain ⟨⟨k, l, -, -, -, hlast⟩, hbit, -⟩ :=
      rtwXmitframeCoalesce_fragmented p.frame.ok hu hmin hmax hfr hc
    refine ⟨fun hf => absurd hf (not_faithful_one ?_), fun h => absurd h hfr⟩
    rw [AggPkt.mpdu, getD_read (by omega), hmem _ (by unfold rtwWlanPktSize; omega), ← haddr]
    exact hbit

theorem xmitframeComplete_placed {cr : TxCrypto} {ad : TxAdapter} (conf : XmitConf)
    {buf : XmitBufMem} {f : TxFrame ad} (q : List (TxFrame ad)) {sta sta' : TxSta}
    {m : Nat → UInt8} {c : Coalesced}
    (hc : rtwXmitframeCoalesce cr ad sta f.att f.pkt buf.pbuf 1 m = some (c, sta')) :
    ∀ p ∈ (xmitframeComplete cr ad conf buf f c sta' q).pkts,
      Placed cr (xmitframeComplete cr ad conf buf f c sta' q).mem p := by
  have hb := buf.aligned
  have hpbuf := (aggInit_pbuf conf f).1
  have hrnd := rnd8_ge (rtwWlanPktSize f.att + txdescSize + packetOffsetSz)
  obtain ⟨hmem, hpl⟩ := aggLoop_placed cr conf f.qsel (show 8 ∣ buf.pbuf by omega) q
    (aggInit conf f.queued) (rtwWlanPktSize f.att + txdescSize + packetOffsetSz) c.mem sta'
    (by rw [hpbuf]; exact ⟨_, Nat.mul_comm _ _⟩)
  have hfirst : ∀ i, i < buf.pbuf + hwHdrOffset 1 + rtwWlanPktSize f.att →
      (aggLoop cr ad conf f.qsel buf.pbuf (aggInit conf f.queued)
        (rtwWlanPktSize f.att + txdescSize + packetOffsetSz) c.mem sta' q).mem i = c.mem i := by
    intro i hi
    apply hmem i
    unfold hwHdrOffset at hi
    omega
  unfold xmitframeComplete
  dsimp only
  split <;> intro p hp <;> rcases List.mem_cons.mp hp with rfl | hp
  · exact ⟨buf.pbuf, 1, sta, sta', m, c, by omega, rfl, hc, rfl, hfirst⟩
  · exact hpl p hp
  · exact ⟨buf.pbuf, 1, sta, sta', m, c, by omega, rfl, hc, rfl, hfirst⟩
  · exact hpl p hp

/-! ## the direct path -/

theorem length_mpduBody {ad : TxAdapter} {att : PktAttrib} (hok : att.Ok ad) (cr : TxCrypto)
    (mpdu : List UInt8) :
    (mpduBody cr att mpdu).length = mpdu.length - (att.hdrlen + att.ivLen) - swIcv att := by
  rw [hok.swIcv_eq]
  unfold mpduBody
  dsimp only
  split
  · rw [cr.dec_length, List.length_drop]
  · rw [List.length_drop, Nat.sub_zero]

theorem dumpLoop_cons (ad : TxAdapter) (speed : UsbSpeed) (att : PktAttrib)
    (last n memAddr bufAddr pktOffset : Nat) :
    ∃ t ma ba po, dumpLoop ad speed att last (n + 1) memAddr bufAddr pktOffset
        = t :: dumpLoop ad speed att last n ma ba po
      ∧ t.pktSize = if n = 0 then last else dumpFragSz ad att := by
  rw [dumpLoop]
  generalize (if n = 0 then last else dumpFragSz ad att) = sz
  dsimp only
  split
  · exact ⟨_, _, _, _, rfl, rfl⟩
  · exact ⟨_, _, _, _, rfl, rfl⟩

theorem dumpLoop_sum (g : Nat → Nat) (ad : TxAdapter) (speed : UsbSpeed) (att : PktAttrib)
    (last n memAddr bufAddr pktOffset : Nat) :
    ((dumpLoop ad speed att last (n + 1) memAddr bufAddr pktOffset).map fun t => g t.pktSize).sum
      = n * g (dumpFragSz ad att) + g last := by
  induction n generalizing memAddr bufAddr pktOffset with
  | zero =>
    obtain ⟨t, _, _, _, h, hsz⟩ := dumpLoop_cons ad speed att last 0 memAddr bufAddr pktOffset
    rw [h, List.map_cons, List.sum_cons, hsz, if_pos rfl, Nat.zero_mul, Nat.zero_add]
    rfl
  | succ n ih =>
    obtain ⟨t, _, _, _, h, hsz⟩ := dumpLoop_cons ad speed att last (n + 1) memAddr bufAddr pktOffset
    rw [h, List.map_cons, List.sum_cons, ih, hsz, if_neg (Nat.succ_ne_zero n), Nat.succ_mul]
    omega

/-- the second transfer starts at the second fragment, or at the first one again -/
theorem dumpLoop_second (ad : TxAdapter) (speed : UsbSpeed) (att : PktAttrib) (last n buf : Nat) :
    ∃ t t' ts, dumpLoop ad speed att last (n + 2) buf buf 1 = t :: t' :: ts
      ∧ (t'.mpduAddr = buf + hwHdrOffset 1
        ∨ t'.mpduAddr = rnd4 (buf + hwHdrOffset 1 + dumpFragSz ad att) + hwHdrOffset 1)
      ∧ t'.pktSize = if n = 0 then last else dumpFragSz ad att := by
  have hnext : rnd4 (buf + packetOffsetSz + (dumpFragSz ad att + txdescSize))
      = rnd4 (buf + hwHdrOffset 1 + dumpFragSz ad att) := by
    congr 1
    unfold hwHdrOffset
    omega
  have hnext' : rnd4 (buf + (dumpFragSz ad att + txdescSize + packetOffsetSz))
      = rnd4 (buf + hwHdrOffset 1 + dumpFragSz ad att) := by
    congr 1
    unfold hwHdrOffset
    omega
  rw [dumpLoop]
  dsimp only
  rw [if_neg (Nat.succ_ne_zero n), hnext, hnext', dumpLoop, dumpLoop]
  generalize (if n = 0 then last else dumpFragSz ad att) = sz
  dsimp only
  split <;> split
  · exact ⟨_, _, _, rfl, Or.inr rfl, rfl⟩
  · exact ⟨_, _, _, rfl, Or.inl rfl, rfl⟩
  · exact ⟨_, _, _, rfl, Or.inr rfl, rfl⟩
  · exact ⟨_, _, _, rfl, Or.inl rfl, rfl⟩

theorem dump_faithful {cr : TxCrypto} {ad : TxAdapter} {speed : UsbSpeed} {f : TxFrame ad}
    {sta sta' : TxSta} {bufAddr : Nat} {m : Nat → UInt8} {c : Coalesced} (hs : 4 ∣ bufAddr)
    (hfit : Unfragmented ad f.att f.pkt.length)
    (hc : rtwXmitframeCoalesce cr ad sta f.att f.pkt bufAddr 1 m = some (c, sta')) :
    Faithful cr f.att f.pkt (dumpMpdus ad speed f.att bufAddr c) := by
  obtain ⟨hdr, -, hhdr, hlaid, hnr, hlast⟩ :=
    rtwXmitframeCoalesce_single f.ok f.pktlen_eq hs (Or.inr hfit) hc
  have hone : dumpMpdus ad speed f.att bufAddr c
      = [read c.mem (bufAddr + hwHdrOffset 1) c.lastTxcmdsz] := by
    rw [dumpMpdus, rtwDumpXframe, hnr, dumpLoop]
    dsimp only
    rw [if_pos rfl]
    split <;> rfl
  have hall := hlaid.read_all
  rw [hhdr.length_eq, f.ok.iv_length, ← hlast] at hall
  rw [hone, hall]
  exact faithful_single f.ok hhdr

/-- with the ICV taken off each size but the last, bytes are missing -/
theorem dump_not_faithful_of_icv {cr : TxCrypto} {ad : TxAdapter} {speed : UsbSpeed}
    {att : PktAttrib} {pkt : List UInt8} {bufAddr k l : Nat} {c : Coalesced} (hok : att.Ok ad)
    (hmin : minFragThreshold ≤ ad.fragLen) (hsw : ad.sec.swEncrypt = false) (hicv : 0 < att.icvLen)
    (hlen : pkt.length + 8 = (k + 1) * fragCap ad att + l) (hnr : c.nrFrags = k + 2)
    (hlast : c.lastTxcmdsz = att.hdrlen + att.ivLen + swIcv att + l
      + if att.encrypt = .tkip then 8 else 0) :
    ¬ Faithful cr att pkt (dumpMpdus ad speed att bufAddr c) := by
  intro hf
  obtain ⟨-, h26, h8, hicv1, hicv2⟩ := hok.lens_le
  have hsum := congrArg List.length hf.body
  rw [length_msduText, List.length_flatten, List.map_map, dumpMpdus, List.map_map, rtwDumpXframe,
    hnr] at hsum
  have hfun : ∀ t : Transfer, ((List.length ∘ mpduBody cr att) ∘ fun t : Transfer =>
      read c.mem t.mpduAddr t.pktSize) t = t.pktSize - (att.hdrlen + att.ivLen) - swIcv att := by
    intro t
    show (mpduBody cr att (read c.mem t.mpduAddr t.pktSize)).length = _
    rw [length_mpduBody hok, length_read]
  rw [List.map_congr_left fun t _ => hfun t,
    dumpLoop_sum (fun n => n - (att.hdrlen + att.ivLen) - swIcv att), dumpFragSz, hsw] at hsum
  have hsz : ad.fragLen - 4 - (if false = true then 0 else att.icvLen) - (att.hdrlen + att.ivLen)
      - swIcv att + att.icvLen = fragCap ad att := by
    unfold minFragThreshold at hmin
    unfold fragCap
    simp only [Bool.false_eq_true, if_false]
    omega
  generalize ad.fragLen - 4 - (if false = true then 0 else att.icvLen) - (att.hdrlen + att.ivLen)
    - swIcv att = sz at hsum hsz
  rw [← hsz, Nat.mul_add] at hlen
  have hpos : 0 < (k + 1) * att.icvLen := Nat.mul_pos (Nat.succ_pos k) hicv
  omega

/-- without a cipher the second MPDU repeats the first fragment number -/
theorem dump_not_faithful_of_num {cr : TxCrypto} {ad : TxAdapter} {speed : UsbSpeed}
    {att : PktAttrib} {pkt : List UInt8} {bufAddr k l : Nat} {c : Coalesced} (hok : att.Ok ad)
    (hmin : minFragThreshold ≤ ad.fragLen) (hicv : att.icvLen = 0) (hnr : c.nrFrags = k + 2)
    (hlast : c.lastTxcmdsz = att.hdrlen + att.ivLen + swIcv att + l
      + if att.encrypt = .tkip then 8 else 0)
    (h1 : (c.mem (bufAddr + hwHdrOffset 1 + 22)).toNat % 16 = 0)
    (h2 : (c.mem (rnd4 (bufAddr + hwHdrOffset 1 + (ad.fragLen - 4)) + hwHdrOffset 1 + 22)).toNat % 16 = 0) :
    ¬ Faithful cr att pkt (dumpMpdus ad speed att bufAddr c) := by
  intro hf
  obtain ⟨h24, -⟩ := hok.lens_le
  have hfs : dumpFragSz ad att = ad.fragLen - 4 := by
    rw [dumpFragSz, hicv, ite_self, Nat.sub_zero]
  obtain ⟨t, t', ts, hd, haddr, hsz⟩ := dumpLoop_second ad speed att c.lastTxcmdsz k bufAddr
  have hmp : dumpMpdus ad speed att bufAddr c = read c.mem t.mpduAddr t.pktSize
      :: read c.mem t'.mpduAddr t'.pktSize :: ts.map fun t => read c.mem t.mpduAddr t.pktSize := by
    rw [dumpMpdus, rtwDumpXframe, hnr, hd]
    rfl
  rw [hmp] at hf
  have hnum : fragNum (read c.mem t'.mpduAddr t'.pktSize) = 1 := hf.num 1 (by simp)
  have hbig : 22 < t'.pktSize := by
    rw [hsz, hfs]
    unfold minFragThreshold at hmin
    split <;> omega
  rw [fragNum, getD_read hbig] at hnum
  rw [hfs] at haddr
  rcases haddr with ha | ha
  · rw [ha, h1] at hnum
    cases hnum
  · rw [ha, h2] at hnum
    cases hnum

theorem dump_not_faithful {cr : TxCrypto} {ad : TxAdapter} {speed : UsbSpeed} {f : TxFrame ad}
    {sta sta' : TxSta} {bufAddr : Nat} {m : Nat → UInt8} {c : Coalesced}
    (hu : isMcast f.att.ra = false) (hmin : minFragThreshold ≤ ad.fragLen)
    (hmax : f.pkt.length ≤ maxXmitbufSz) (hfr : ¬ Unfragmented ad f.att f.pkt.length)
    (hsw : ad.sec.swEncrypt = false ∨ swCipher f.att.encrypt = false)
    (hc : rtwXmitframeCoalesce cr ad sta f.att f.pkt bufAddr 1 m = some (c, sta')) :
    ¬ Faithful cr f.att f.pkt (dumpMpdus ad speed f.att bufAddr c) := by
  obtain ⟨⟨k, l, hlen, -, hnr, hlast⟩, -, hnum⟩ :=
    rtwXmitframeCoalesce_fragmented f.ok hu hmin hmax hfr hc
  have hi : f.att.icvLen = (ivIcvLen f.att.encrypt).2 := congrArg Prod.snd f.ok.lens
  cases hcip : swCipher f.att.encrypt with
  | false =>
    have h0 : f.att.icvLen = 0 := by
      rw [hi]
      cases he : f.att.encrypt <;> first | rfl | (rw [he] at hcip; cases hcip)
    obtain ⟨h1, h2⟩ := hnum hcip
    exact dump_not_faithful_of_num f.ok hmin h0 hnr hlast h1 h2
  | true =>
    have hpos : 0 < f.att.icvLen := by
      rw [hi]
      cases he : f.att.encrypt <;> first | decide | (rw [he] at hcip; cases hcip)
    have hsw' := hsw.resolve_right (by rw [hcip]; decide)
    exact dump_not_faithful_of_icv f.ok hmin hsw' hpos hlen hnr hlast

/-- **Fragmented transmission**: the MPDUs of a unicast MSDU are faithful on both paths if and only
if it is sent in one piece.  On the direct path alone this holds but for ciphers in software, where
the second fragment is what the cipher makes of its header; in an aggregate it holds of every
packet. -/
theorem msdu_faithful_iff (cr : TxCrypto) (ad : TxAdapter) (speed : UsbSpeed) (conf : XmitConf)
    (buf : XmitBufMem) (f : TxFrame ad) (q : List (TxFrame ad)) (sta sta' : TxSta)
    (m : Nat → UInt8) (c : Coalesced) (disabled : Bool) (value : Nat)
    (hacc : rtwWxSetFrag disabled value = some ad.fragLen) (hu : isMcast f.att.ra = false)
    (hmax : f.pkt.length ≤ maxXmitbufSz)
    (hc : rtwXmitframeCoalesce cr ad sta f.att f.pkt buf.pbuf 1 m = some (c, sta')) :
    (Faithful cr f.att f.pkt (dumpMpdus ad speed f.att buf.pbuf c)
        ∧ (∀ p ∈ (xmitframeComplete cr ad conf buf f c sta' q).pkts.head?, p.frame = f
          ∧ Faithful cr f.att f.pkt [p.mpdu (xmitframeComplete cr ad conf buf f c sta' q).mem])
      ↔ Unfragmented ad f.att f.pkt.length)
      ∧ (ad.sec.swEncrypt = false ∨ swCipher f.att.encrypt = false →
        (Faithful cr f.att f.pkt (dumpMpdus ad speed f.att buf.pbuf c)
          ↔ Unfragmented ad f.att f.pkt.length))
      ∧ ∀ p ∈ (xmitframeComplete cr ad conf buf f c sta' q).pkts, isMcast p.frame.att.ra = false →
        p.frame.pkt.length ≤ maxXmitbufSz →
        (Faithful cr p.frame.att p.frame.pkt
            [p.mpdu (xmitframeComplete cr ad conf buf f c sta' q).mem]
          ↔ Unfragmented ad p.frame.att p.frame.pkt.length) := by
  have hmin := (rtwWxSetFrag_some hacc).1
  have hb : 4 ∣ buf.pbuf := Nat.dvd_trans (by decide) buf.aligned
  have hpl := xmitframeComplete_placed conf q hc
  refine ⟨?_, ?_, ?_⟩
  · obtain ⟨p, ps, hps, hpf⟩ : ∃ p ps, (xmitframeComplete cr ad conf buf f c sta' q).pkts = p :: ps
        ∧ p.frame = f := by
      unfold xmitframeComplete
      dsimp only
      split
      · exact ⟨_, _, rfl, rfl⟩
      · exact ⟨_, _, rfl, rfl⟩
    have hiff := (hpl p (by rw [hps]; exact List.mem_cons_self)).faithful_iff (by rwa [hpf]) hmin
      (by rwa [hpf])
    rw [hpf] at hiff
    rw [hps]
    constructor
    · rintro ⟨-, hagg⟩
      exact hiff.mp (hagg p rfl).2
    · intro hfit
      refine ⟨dump_faithful hb hfit hc, ?_⟩
      intro p' hp'
      obtain rfl : p = p' := Option.some.inj hp'
      exact ⟨hpf, hiff.mpr hfit⟩
  · intro hsw
    refine ⟨?_, fun hfit => dump_faithful hb hfit hc⟩
    intro hf
    by_contra hfr
    exact dump_not_faithful hu hmin hmax hfr hsw hc hf
  · intro p hp hup hmaxp
    exact (hpl p hp).faithful_iff hup hmin hmaxp

theorem msdu_faithful_iff_arp :
    ∃ c, Faithful idleCrypto arpFrame.att arpFrame.pkt
      (dumpMpdus txStation .high arpFrame.att txBuf.pbuf c) := by
  refine ⟨_, ((msdu_faithful_iff idleCrypto txStation .high {} txBuf arpFrame [] {} _ (fun _ => 0) _
    true 0 rfl (by decide) (by decide) (Option.some_get arpFrame_coalesce).symm).1.mpr (by decide)).1⟩

/-- the same station with the smallest threshold -/
def txFragStation : TxAdapter := { txStation with fragLen := 256 }

def longEth : EthFrame :=
  { arpEth with etherType := 0x0800, payload := List.replicate 300 0, etherType_lt := by decide }

def longFrame : TxFrame txFragStation :=
  TxFrame.ofEth (Option.some_get (x := updateAttrib txFragStation {} longEth .nonEapol) rfl).symm 0

theorem longFrame_coalesce :
    (rtwXmitframeCoalesce idleCrypto txFragStation {} longFrame.att longFrame.pkt txBuf.pbuf 1
      fun _ => 0).isSome = true := by decide +kernel

/-- an unencrypted packet of 300 bytes with the smallest threshold -/
theorem msdu_not_faithful :
    ∃ c sta', rtwXmitframeCoalesce idleCrypto txFragStation {} longFrame.att longFrame.pkt
        txBuf.pbuf 1 (fun _ => 0) = some (c, sta')
      ∧ ¬ Faithful idleCrypto longFrame.att longFrame.pkt
        (dumpMpdus txFragStation .high longFrame.att txBuf.pbuf c) :=
  ⟨_, _, (Option.some_get longFrame_coalesce).symm,
    dump_not_faithful (by decide) (by decide) (by decide +kernel) (by decide +kernel) (Or.inl rfl)
      (Option.some_get longFrame_coalesce).symm⟩

end Rtl8192eu
