import Rtl8192eu.Lib.Circ
import Rtl8192eu.Lib.Run
import Rtl8192eu.Recv.Adapter

/-!
# Duplicate and replay caches

`recv_decache`, `recv_ucast_pn_decache` and `recv_bcast_pn_decache` of `core/rtw_recv.c`, and
runs of the last one: group frames with their packet numbers against the four receive counters.

* `validPnChk`    the comparison of packet numbers, by bit 47 of a 64-bit difference;
* `recvDecache`   the last sequence control of the station, by TID and address class;
* `recvUcastPnDecache`   the last IV of the TID, never a reason to drop;
* `recvBcastPnDecache`   the receive counter of the key id;
* `PnRun`         runs of the last one.
-/

namespace Rtl8192eu

open Circ Run

/-! ## packet numbers -/

def le64 (f : RecvFrame) (i : Nat) : BitVec 64 :=
  (f.bytes i 8).foldr (fun b n => n <<< 8 ||| b.toBitVec.setWidth 64) 0

def ccmph2Pn (ch : BitVec 64) : BitVec 64 :=
  ch &&& 0x000000000000ffff#64 ||| (ch &&& 0xffffffff00000000#64) >>> 16

def ccmph2Keyid (ch : BitVec 64) : Fin 4 :=
  Fin.ofNat 4 ((ch &&& 0x00000000c0000000#64) >>> 30).toNat

def pnLessChk (a b : BitVec 64) : Bool := (a - b) &&& 0x800000000000#64 != 0#64

def validPnChk (new old : BitVec 64) : Bool := old == 0#64 || pnLessChk old new

/-! ## the three caches -/

/-- `none` for `_FAIL`, a duplicate -/
def recvDecache (sta : StaInfo) (att : RxPktAttrib) : Option StaInfo :=
  let seqCtrl := 16 * att.seqNum.val + att.fragNum.val
  if att.qos then
    if isMcast att.ra then
      if seqCtrl = sta.bmcTidRxseq att.priority then none
      else some { sta with bmcTidRxseq := Function.update sta.bmcTidRxseq att.priority seqCtrl }
    else
      if seqCtrl = sta.tidRxseq att.priority then none
      else some { sta with tidRxseq := Function.update sta.tidRxseq att.priority seqCtrl }
  else
    if isMcast att.ra then
      if seqCtrl = sta.nonqosBmcRxseq then none else some { sta with nonqosBmcRxseq := seqCtrl }
    else
      if seqCtrl = sta.nonqosRxseq then none else some { sta with nonqosRxseq := seqCtrl }

/-- always `_SUCCESS`: the drop is commented out in the source -/
def recvUcastPnDecache (sta : StaInfo) (f : RecvFrame) : StaInfo :=
  if f.attrib.encrypt = .aes then
    let ivHdr := le64 f f.attrib.hdrlen
    if validPnChk (ccmph2Pn ivHdr) (ccmph2Pn (sta.iv f.attrib.priority)) then
      { sta with iv := Function.update sta.iv f.attrib.priority ivHdr }
    else sta
  else sta

/-- `none` for `_FAIL` -/
def recvBcastPnDecache (mode : FwMode) (sec : SecurityPriv) (f : RecvFrame) :
    Option SecurityPriv :=
  if f.attrib.encrypt = .aes ∧ mode = .station then
    let ivHdr := le64 f f.attrib.hdrlen
    let keyId := ccmph2Keyid ivHdr
    let pktPn := ccmph2Pn ivHdr
    let currPn := sec.ivSeq keyId &&& 0x0000ffffffffffff#64
    if validPnChk pktPn currPn then some { sec with ivSeq := Function.update sec.ivSeq keyId pktPn }
    else none
  else some sec

/-! ## the comparison -/

theorem pnLessChk_eq (a b : BitVec 64) : pnLessChk a b = circLess (2 ^ 47) a.toNat b.toNat := by
  rw [← getLsbD_sub (w := 64) (by decide), BitVec.ofNat_toNat, BitVec.ofNat_toNat,
    BitVec.setWidth_eq, BitVec.setWidth_eq]
  unfold pnLessChk
  rw [show (0x800000000000#64 : BitVec 64) = BitVec.twoPow 64 47 from rfl, BitVec.and_twoPow]
  cases (a - b).getLsbD 47 <;> rfl

/-- the comparison is that of the numbers only if these are within half a circle -/
theorem validPnChk_eq {new old : BitVec 64} (hn : new.toNat < 2 ^ 48) (ho : old.toNat < 2 ^ 48)
    (h0 : old.toNat ≠ 0) (hf : new.toNat ≤ old.toNat + 2 ^ 47)
    (hb : old.toNat < new.toNat + 2 ^ 47) :
    validPnChk new old = decide (old.toNat < new.toNat) := by
  have hne : (old == 0#64) = false := by
    rw [beq_eq_false_iff_ne]
    rintro rfl
    exact h0 rfl
  have h := circLess_mod (h := 2 ^ 47) hf hb
  rw [Nat.mod_eq_of_lt (show old.toNat < 2 * 2 ^ 47 from ho),
    Nat.mod_eq_of_lt (show new.toNat < 2 * 2 ^ 47 from hn)] at h
  rw [validPnChk, hne, Bool.false_or, pnLessChk_eq]
  exact h

theorem and_mask48_lt (x : BitVec 64) : (x &&& 0x0000ffffffffffff#64).toNat < 2 ^ 48 := by
  rw [BitVec.toNat_and]
  exact Nat.lt_of_le_of_lt Nat.and_le_right (by decide)

theorem ccmph2Pn_lt (ch : BitVec 64) : (ccmph2Pn ch).toNat < 2 ^ 48 := by
  have h1 : (ch &&& 0x000000000000ffff#64).toNat < 2 ^ 48 := by
    rw [BitVec.toNat_and]
    exact Nat.lt_of_le_of_lt Nat.and_le_right (by decide)
  have h2 : ((ch &&& 0xffffffff00000000#64) >>> 16).toNat < 2 ^ 48 := by
    rw [BitVec.toNat_ushiftRight, Nat.shiftRight_eq_div_pow]
    exact Nat.div_lt_of_lt_mul (by have := (ch &&& 0xffffffff00000000#64).isLt; omega)
  unfold ccmph2Pn
  rw [BitVec.toNat_or]
  exact Nat.or_lt_two_pow h1 h2

theorem ccmph2Pn_mask (ch : BitVec 64) : ccmph2Pn ch &&& 0x0000ffffffffffff#64 = ccmph2Pn ch := by
  apply BitVec.eq_of_toNat_eq
  rw [BitVec.toNat_and]
  exact (Nat.and_two_pow_sub_one_eq_mod _ 48).trans (Nat.mod_eq_of_lt (ccmph2Pn_lt ch))

/-! ## runs of group frames -/

def RecvFrame.keyId (f : RecvFrame) : Fin 4 := ccmph2Keyid (le64 f f.attrib.hdrlen)

def RecvFrame.pn (f : RecvFrame) : Nat := (ccmph2Pn (le64 f f.attrib.hdrlen)).toNat

/-- the receive counter of a key id, 48 bits -/
def SecurityPriv.counter (sec : SecurityPriv) (k : Fin 4) : Nat :=
  (sec.ivSeq k &&& 0x0000ffffffffffff#64).toNat

structure PnRun where
  sec : SecurityPriv
  /-- key id and packet number of the frames accepted so far -/
  accepted : List (Fin 4 × Nat)

def PnRun.init (sec : SecurityPriv) : PnRun := ⟨sec, []⟩

def PnRun.step (r : PnRun) (f : RecvFrame) : PnRun :=
  match recvBcastPnDecache .station r.sec f with
  | none => r
  | some sec => ⟨sec, r.accepted ++ [(f.keyId, f.pn)]⟩

/-- the packet numbers accepted under key id `k`, in order -/
def PnRun.acceptedPns (r : PnRun) (k : Fin 4) : List Nat :=
  (r.accepted.filter (·.1 = k)).map (·.2)

/-- the last one accepted, or the counter that the run started with -/
def PnRun.lastPn (sec : SecurityPriv) (r : PnRun) (k : Fin 4) : Nat :=
  (r.acceptedPns k).getLast?.getD (sec.counter k)

/-- the packet number is within half a circle of the counter; a counter of `0` stands for no
packet number yet, so `0` is not accepted again -/
def PnRun.Near (r : PnRun) (f : RecvFrame) : Prop :=
  (r.sec.counter f.keyId = 0 → f.pn ≠ 0 ∨ r.acceptedPns f.keyId = [])
  ∧ (r.sec.counter f.keyId ≠ 0 →
      f.pn ≤ r.sec.counter f.keyId + 2 ^ 47 ∧ r.sec.counter f.keyId < f.pn + 2 ^ 47)

instance (r : PnRun) (f : RecvFrame) : Decidable (r.Near f) :=
  inferInstanceAs (Decidable (_ ∧ _))

/-- replay protection of a run: accepted numbers increase, and only a number that is not greater
than the last one is rejected -/
def PnOrdered (sec : SecurityPriv) (fs : List RecvFrame) : Prop :=
  (∀ k, ((run PnRun.step (PnRun.init sec) fs).acceptedPns k).Pairwise (· < ·))
  ∧ ∀ pre f post, fs = pre ++ f :: post →
      recvBcastPnDecache .station (run PnRun.step (PnRun.init sec) pre).sec f = none →
      f.pn ≤ (run PnRun.step (PnRun.init sec) pre).lastPn sec f.keyId

/-- the verdict on a frame near the counter is the rule of `VALID_PN_CHK` -/
theorem recvBcastPnDecache_near {sec : SecurityPriv} {f : RecvFrame}
    (he : f.attrib.encrypt = .aes)
    (hn : sec.counter f.keyId ≠ 0 →
      f.pn ≤ sec.counter f.keyId + 2 ^ 47 ∧ sec.counter f.keyId < f.pn + 2 ^ 47) :
    recvBcastPnDecache .station sec f =
      if sec.counter f.keyId = 0 ∨ sec.counter f.keyId < f.pn then
        some { sec with ivSeq := Function.update sec.ivSeq f.keyId (ccmph2Pn (le64 f f.attrib.hdrlen)) }
      else none := by
  have hv : validPnChk (ccmph2Pn (le64 f f.attrib.hdrlen))
      (sec.ivSeq f.keyId &&& 0x0000ffffffffffff#64)
      = decide (sec.counter f.keyId = 0 ∨ sec.counter f.keyId < f.pn) := by
    by_cases h0 : sec.counter f.keyId = 0
    · have e : sec.ivSeq f.keyId &&& 0x0000ffffffffffff#64 = 0#64 := BitVec.eq_of_toNat_eq h0
      rw [e]
      simp [validPnChk, h0]
    · rw [validPnChk_eq (ccmph2Pn_lt _) (and_mask48_lt _) h0 (hn h0).1 (hn h0).2]
      exact decide_eq_decide.mpr ⟨Or.inr, fun h => h.resolve_left h0⟩
  unfold recvBcastPnDecache
  simp only [he, and_self, ↓reduceIte]
  show (if validPnChk _ (sec.ivSeq f.keyId &&& _) = true then _ else _) = _
  rw [hv]
  simp only [decide_eq_true_eq]
  rfl

theorem SecurityPriv.counter_update (sec : SecurityPriv) (f : RecvFrame) (k : Fin 4) :
    SecurityPriv.counter { sec with
      ivSeq := Function.update sec.ivSeq f.keyId (ccmph2Pn (le64 f f.attrib.hdrlen)) } k
      = if k = f.keyId then f.pn else sec.counter k := by
  unfold SecurityPriv.counter
  by_cases hk : k = f.keyId
  · subst hk
    rw [if_pos rfl]
    simp only [Function.update_self, ccmph2Pn_mask]
    rfl
  · rw [if_neg hk]
    simp only [Function.update_of_ne hk]

theorem PnRun.acceptedPns_append (r : PnRun) (sec : SecurityPriv) (f : RecvFrame) (k : Fin 4) :
    PnRun.acceptedPns ⟨sec, r.accepted ++ [(f.keyId, f.pn)]⟩ k
      = if k = f.keyId then r.acceptedPns k ++ [f.pn] else r.acceptedPns k := by
  unfold PnRun.acceptedPns
  by_cases hk : k = f.keyId
  · subst hk
    simp
  · simp [Ne.symm hk, hk]

/-- the invariant of a run from `sec`: the counters are the last accepted numbers -/
structure PnRun.Inv (sec : SecurityPriv) (r : PnRun) : Prop where
  counter : ∀ k, r.sec.counter k = r.lastPn sec k
  sorted : ∀ k, (r.acceptedPns k).Pairwise (· < ·)

theorem PnRun.inv_init (sec : SecurityPriv) : (PnRun.init sec).Inv sec where
  counter := fun _ => rfl
  sorted := fun _ => List.Pairwise.nil

theorem PnRun.Inv.le_counter {sec : SecurityPriv} {r : PnRun} (hI : r.Inv sec) {k : Fin 4} {p : Nat}
    (hp : p ∈ r.acceptedPns k) : p ≤ r.sec.counter k := by
  have hs := hI.sorted k
  rw [hI.counter k, PnRun.lastPn]
  obtain ⟨init, z, e⟩ : ∃ init z, r.acceptedPns k = init ++ [z] :=
    ⟨_, _, (List.dropLast_append_getLast (List.ne_nil_of_mem hp)).symm⟩
  rw [e] at hs hp ⊢
  rw [List.getLast?_append, List.getLast?_singleton]
  rcases List.mem_append.mp hp with h | h
  · exact ((List.pairwise_append.mp hs).2.2 p h z (List.mem_singleton.mpr rfl)).le
  · rw [List.mem_singleton.mp h]
    rfl

theorem PnRun.inv_step {sec : SecurityPriv} {r : PnRun} {f : RecvFrame} (hI : r.Inv sec)
    (he : f.attrib.encrypt = .aes) (hn : r.Near f) : (r.step f).Inv sec := by
  unfold PnRun.step
  rw [recvBcastPnDecache_near he hn.2]
  by_cases hv : r.sec.counter f.keyId = 0 ∨ r.sec.counter f.keyId < f.pn
  · rw [if_pos hv]
    -- the numbers accepted before are below the new one
    have hlt : ∀ p ∈ r.acceptedPns f.keyId, p < f.pn := by
      intro p hp
      have hle := hI.le_counter hp
      rcases hv with h0 | hlt
      · rcases hn.1 h0 with h | h
        · omega
        · rw [h] at hp
          cases hp
      · omega
    constructor
    · intro k
      show SecurityPriv.counter _ k = (PnRun.acceptedPns _ k).getLast?.getD _
      rw [SecurityPriv.counter_update, PnRun.acceptedPns_append]
      split
      · rw [List.getLast?_append, List.getLast?_singleton]
        rfl
      · exact hI.counter k
    · intro k
      rw [PnRun.acceptedPns_append]
      split
      · rename_i hk
        subst hk
        refine List.pairwise_append.mpr ⟨hI.sorted _, List.pairwise_singleton _ _, fun p hp q hq => ?_⟩
        rw [List.mem_singleton.mp hq]
        exact hlt p hp
      · exact hI.sorted k
  · rw [if_neg hv]
    exact hI

theorem PnRun.inv_run {sec : SecurityPriv} {fs : List RecvFrame}
    (he : ∀ f ∈ fs, f.attrib.encrypt = .aes)
    (hn : Along PnRun.step PnRun.Near (PnRun.init sec) fs) :
    (run PnRun.step (PnRun.init sec) fs).Inv sec := by
  have h : Along PnRun.step (fun r f => f.attrib.encrypt = .aes ∧ r.Near f) (PnRun.init sec) fs := by
    generalize PnRun.init sec = r at hn
    induction fs generalizing r with
    | nil => trivial
    | cons f fs ih =>
      exact ⟨⟨he f List.mem_cons_self, hn.1⟩,
        ih (fun g hg => he g (List.mem_cons_of_mem _ hg)) _ hn.2⟩
  exact run_inv (fun r f hI hC => PnRun.inv_step hI hC.1 hC.2) _ fs (PnRun.inv_init sec) h

/-- **Replay protection of group frames**: in a run where every packet number is within half a
circle of the counter of its key id, and `0` is not repeated. -/
theorem bcast_pn_ordered_of_near (sec : SecurityPriv) (fs : List RecvFrame)
    (he : ∀ f ∈ fs, f.attrib.encrypt = .aes)
    (hn : Along PnRun.step PnRun.Near (PnRun.init sec) fs) : PnOrdered sec fs := by
  refine ⟨(PnRun.inv_run he hn).sorted, ?_⟩
  rintro pre f post rfl hrej
  obtain ⟨hpre, hpost⟩ := (along_append _ _ _).mp hn
  have hI := PnRun.inv_run (fun g hg => he g (List.mem_append_left _ hg)) hpre
  have hf : f.attrib.encrypt = .aes := he f (List.mem_append_right _ List.mem_cons_self)
  rw [recvBcastPnDecache_near hf hpost.1.2] at hrej
  rw [← hI.counter f.keyId]
  by_contra hlt
  rw [if_pos (Or.inr (by omega))] at hrej
  cases hrej

/-- a CCMP frame with key id 1 and the given packet number, at most 6 bytes -/
def ccmpFrame (pn : List UInt8) : RecvFrame where
  id := 0
  attrib := { encrypt := .aes }
  data := pn.take 2 ++ [0, 0x60] ++ pn.drop 2

theorem bcast_pn_ordered_three : PnOrdered {} [ccmpFrame [1, 0, 0, 0, 0, 0],
    ccmpFrame [7, 0, 0, 0, 0, 0], ccmpFrame [5, 0, 0, 0, 0, 0]] :=
  bcast_pn_ordered_of_near _ _ (by decide) (by decide)

/-- half a circle behind the counter counts as ahead: packet number 5 after `2 ^ 47 + 5` -/
theorem bcast_pn_not_ordered :
    ¬ ∀ (sec : SecurityPriv) (fs : List RecvFrame), (∀ f ∈ fs, f.attrib.encrypt = .aes) →
      PnOrdered sec fs := by
  intro h
  have h1 := (h {} [ccmpFrame [5, 0, 0, 0, 0, 0x80], ccmpFrame [5, 0, 0, 0, 0, 0]] (by decide)).1 1
  have e : (run PnRun.step (PnRun.init {})
      [ccmpFrame [5, 0, 0, 0, 0, 0x80], ccmpFrame [5, 0, 0, 0, 0, 0]]).acceptedPns 1
      = [2 ^ 47 + 5, 5] := by decide
  rw [e] at h1
  exact absurd h1 (by decide)

end Rtl8192eu
