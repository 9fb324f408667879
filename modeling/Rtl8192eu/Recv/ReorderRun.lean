import Mathlib.Data.List.Nodup
import Rtl8192eu.Lib.Circ
import Rtl8192eu.Lib.ReorderBuffer
import Rtl8192eu.Recv.ReorderCtrl

/-!
# Runs of the reordering of one TID

A run is a sequence of frame arrivals and timer firings.  The control block refines the reorder
buffer over unbounded positions (`ReorderBuffer`): the window start is `indicate_seq` unwrapped,
and every frame has the position at or after the window start that wraps to its sequence number.
All comparisons of the code are between positions less than half a circle apart, so `SN_LESS` is
the order of the positions (`snLess_mod`).

* `ReorderRun`, `ReorderRun.step`   the control block, the frames accepted and the frames handed
                                    to `recv_process_mpdu` so far;
* `Refines`   the refinement relation;
* `ReorderRun.Inv`   the invariant of all runs.
-/

namespace Rtl8192eu

open ReorderBuffer Circ Run

/-! ## `SN_LESS` and the masks -/

theorem snLess_eq (a b : Nat) : snLess a b = circLess 2048 a b := by
  rw [show (2048 : Nat) = 2 ^ 11 from rfl, ← getLsbD_sub (w := 32) (by decide)]
  unfold snLess
  rw [show (0x800#32 : BitVec 32) = BitVec.twoPow 32 11 from rfl, BitVec.and_twoPow]
  cases (BitVec.ofNat 32 a - BitVec.ofNat 32 b).getLsbD 11 <;> rfl

theorem snLess_mod {x y : Nat} (hf : y ≤ x + 2048) (hb : x < y + 2048) :
    snLess (x % 4096) (y % 4096) = decide (x < y) := by
  rw [snLess_eq]
  exact circLess_mod hf hb

theorem and_fff (n : Nat) : n &&& 0xFFF = n % 4096 := Nat.and_two_pow_sub_one_eq_mod n 12

/-! ## the run -/

structure ReorderRun where
  ctrl : RecvReorderCtrl
  arrived : Nat
  /-- frames not rejected by `check_indicate_seq` or `enqueue_reorder_recvframe` -/
  accepted : List RecvFrame
  /-- frames handed to `recv_process_mpdu` -/
  up : List RecvFrame

inductive ReorderEvent where
  | arrive (f : RecvFrame)
  | timeout (cannotRun : Bool)

/-- an arrival is a QoS frame of this TID; its identity is its place in the run -/
def stamp (n : Nat) (f : RecvFrame) : RecvFrame :=
  { f with id := n, attrib := { f.attrib with qos := true } }

def ReorderRun.init (w : Nat) : ReorderRun := ⟨RecvReorderCtrl.init w true, 0, [], []⟩

def ReorderRun.step (r : ReorderRun) : ReorderEvent → ReorderRun
  | .arrive f =>
    let f := stamp r.arrived f
    let (ret, c, up) := recvIndicatepktReorder r.ctrl f
    { ctrl := c, arrived := r.arrived + 1,
      accepted := if ret = .handled then r.accepted ++ [f] else r.accepted, up := r.up ++ up }
  | .timeout cannotRun =>
    let (c, up) := rtwReorderingCtrlTimeoutHandler { r.ctrl with timer := false } cannotRun
    { r with ctrl := c, up := r.up ++ up }

/-! ## the functions, on positions -/

def Wrapped (l : List (Nat × RecvFrame)) : Prop := ∀ x ∈ l, x.1 % 4096 = x.2.attrib.seqNum

theorem indicateLoop_sim {l : List (Nat × RecvFrame)} (w : Nat)
    (hl : l.Pairwise (fun x y => x.1 < y.1)) (hw : Wrapped l) (hf : ∀ x ∈ l, x.1 ≤ w + 2048)
    (hb : ∀ x ∈ l, w < x.1 + 2048) :
    indicateLoop (w % 4096) (l.map Prod.snd)
      = ((drain w l).1 % 4096, (drain w l).2.1.map Prod.snd, (drain w l).2.2.map Prod.snd) := by
  induction l generalizing w with
  | nil => rfl
  | cons x l ih =>
    have hx := hw x List.mem_cons_self
    have hxf := hf x List.mem_cons_self
    have hxb := hb x List.mem_cons_self
    have hless : snLess (w % 4096) x.2.attrib.seqNum = decide (w < x.1) := by
      rw [← hx]; exact snLess_mod hxf hxb
    rw [List.map_cons]
    unfold indicateLoop
    rw [hless]
    by_cases h : w < x.1
    · rw [drain_stop h]
      simp [h]
    · have hbump : (if w % 4096 = (x.2.attrib.seqNum : Nat) then (w % 4096 + 1) &&& 0xFFF else w % 4096)
          = bump w x.1 % 4096 := by
        rw [and_fff, ← hx]
        unfold bump
        split_ifs <;> omega
      have hlt : ∀ y ∈ l, x.1 < y.1 := fun y hy => List.rel_of_pairwise_cons hl hy
      have hbw := bump_eq_or w x.1
      rw [drain_go h, if_neg (by simpa using h), hbump,
        ih (bump w x.1) hl.of_cons (fun y hy => hw y (List.mem_cons_of_mem _ hy)) ?_ ?_]
      · rfl
      · intro y hy
        have := hf y (List.mem_cons_of_mem _ hy)
        have := le_bump w x.1
        omega
      · intro y hy
        have := hb y (List.mem_cons_of_mem _ hy)
        have := hlt y hy
        rcases hbw with e | ⟨e, e'⟩ <;> omega

theorem reorderInsert_sim {l : List (Nat × RecvFrame)} {p : Nat} {f : RecvFrame} (hw : Wrapped l)
    (hp : p % 4096 = f.attrib.seqNum) (hf : ∀ y ∈ l, p ≤ y.1 + 2048)
    (hb : ∀ y ∈ l, y.1 < p + 2048) :
    reorderInsert f (l.map Prod.snd) = (place (p, f) l).map (List.map Prod.snd) := by
  induction l with
  | nil => rfl
  | cons y l ih =>
    have hy := hw y List.mem_cons_self
    have hyf := hf y List.mem_cons_self
    have hyb := hb y List.mem_cons_self
    have hless : snLess y.2.attrib.seqNum f.attrib.seqNum = decide (y.1 < p) := by
      rw [← hy, ← hp]; exact snLess_mod hyf hyb
    have heq : y.2.attrib.seqNum = f.attrib.seqNum ↔ y.1 = p := by
      rw [Fin.ext_iff, ← hy, ← hp]; omega
    have ih' := ih (fun z hz => hw z (List.mem_cons_of_mem _ hz))
      (fun z hz => hf z (List.mem_cons_of_mem _ hz)) (fun z hz => hb z (List.mem_cons_of_mem _ hz))
    rw [List.map_cons]
    simp only [reorderInsert, place, hless, heq, decide_eq_true_eq]
    split_ifs
    · rw [ih', Option.map_map, Option.map_map]
      rfl
    · rfl
    · rfl

theorem windowShift_eq {W w p : Nat} (hW : 0 < W) (hW' : W ≤ 64) (h : w + W ≤ p) :
    windowShift W (p % 4096) = (p + 1 - W) % 4096 := by
  unfold windowShift
  split_ifs <;> omega

/-- `check_indicate_seq` rejects positions half a circle or more ahead, and else slides the
window -/
theorem checkIndicateSeq_sim {c : RecvReorderCtrl} {w p : Nat} (hW : 0 < c.wsizeB)
    (hW' : c.wsizeB ≤ 64) (hwp : w ≤ p) (hp : p < w + 2048)
    (hind : c.indicateSeq = w % 4096 ∨ c.indicateSeq = seqInit ∧ w = p) :
    checkIndicateSeq c (p % 4096)
      = some { c with indicateSeq := slide c.wsizeB w p % 4096 } := by
  have hi : (if c.indicateSeq = seqInit then p % 4096 else c.indicateSeq) = w % 4096 := by
    rcases hind with e | ⟨e, rfl⟩
    · rw [e, if_neg (by unfold seqInit; omega)]
    · rw [if_pos e]
  have hwend : (w % 4096 + c.wsizeB + 0xFFF) &&& 0xFFF = (w + c.wsizeB - 1) % 4096 := by
    rw [and_fff]; omega
  have h1 : snLess (p % 4096) (w % 4096) = false := by
    rw [snLess_mod (by omega) (by omega)]; simpa using hwp
  have h2 : snLess ((w + c.wsizeB - 1) % 4096) (p % 4096) = decide (w + c.wsizeB - 1 < p) :=
    snLess_mod (by omega) (by omega)
  unfold checkIndicateSeq
  simp only [hi, hwend, h1, h2, Bool.false_eq_true, ↓reduceIte, decide_eq_true_eq, and_fff]
  unfold slide
  by_cases e : p = w
  · subst e
    simp only [↓reduceIte]
    congr 2
    omega
  · rw [if_neg e, if_neg (by omega : ¬ p % 4096 = w % 4096)]
    by_cases e' : w + c.wsizeB ≤ p
    · rw [if_pos e', if_pos (by omega), windowShift_eq hW hW' e']
    · rw [if_neg e', if_neg (by omega)]

/-! ## the refinement -/

structure Refines (r : ReorderRun) (s : Rcv RecvFrame) : Prop where
  ind : r.ctrl.indicateSeq = (s.start.map (· % 4096)).getD seqInit
  pend : r.ctrl.pending = s.pend.map Prod.snd
  up : r.up = s.up.map Prod.snd
  wrapped : Wrapped (s.up ++ s.pend)

/-- **The invariant of all runs** with window size `W`: the control block refines a reorder
buffer in its invariant, and the accepted frames are those handed up and those pending. -/
structure ReorderRun.Inv (W : Nat) (r : ReorderRun) : Prop where
  enable : r.ctrl.enable = true
  ack : r.ctrl.recAbbaRspAck = false
  wsize : r.ctrl.wsizeB = W
  sim : ∃ s, Refines r s ∧ (s = Rcv.empty ∨ ∃ w z, ReorderBuffer.Inv 2048 W s w z)
  perm : (r.up ++ r.ctrl.pending).Perm r.accepted
  fresh : ∀ f ∈ r.accepted, f.id < r.arrived
  nodup : r.accepted.Nodup

theorem ReorderRun.inv_init (W : Nat) : (ReorderRun.init W).Inv W where
  enable := rfl
  ack := rfl
  wsize := rfl
  sim := ⟨Rcv.empty, ⟨rfl, rfl, rfl, List.forall_mem_nil _⟩, Or.inl rfl⟩
  perm := List.Perm.refl _
  fresh := List.forall_mem_nil _
  nodup := List.nodup_nil

/-! ## an arrival -/

/-- an accepted arrival takes the same step in the code and in the buffer over positions -/
theorem arrive_sim {w p : Nat} {c : RecvReorderCtrl} {f : RecvFrame} {pend l : List (Nat × RecvFrame)}
    (hq : f.attrib.qos = true) (he : c.enable = true) (ha : c.recAbbaRspAck = false)
    (hW : 0 < c.wsizeB) (hW' : c.wsizeB ≤ 64) (hwp : w ≤ p) (hp : p < w + 2048)
    (hseq : p % 4096 = f.attrib.seqNum)
    (hind : c.indicateSeq = w % 4096 ∨ c.indicateSeq = seqInit ∧ w = p)
    (hpend : c.pending = pend.map Prod.snd) (hwr : Wrapped pend)
    (hl : place (p, f) pend = some l) (hsort : l.Pairwise (fun x y => x.1 < y.1))
    (hreach : ∀ x ∈ pend, p ≤ x.1 + 2048 ∧ x.1 < p + 2048)
    (hstart : ∀ x ∈ pend, slide c.wsizeB w p < x.1 + 2048 ∧ x.1 ≤ slide c.wsizeB w p + 2048) :
    ∃ c', recvIndicatepktReorder c f
        = (.handled, c', (drain (slide c.wsizeB w p) l).2.1.map Prod.snd) ∧ c.Same c'
      ∧ c'.indicateSeq = (drain (slide c.wsizeB w p) l).1 % 4096
      ∧ c'.pending = (drain (slide c.wsizeB w p) l).2.2.map Prod.snd := by
  have hmem : ∀ x ∈ l, x = (p, f) ∨ x ∈ pend := fun x hx =>
    List.mem_cons.mp ((place_perm hl).mem_iff.mp hx)
  have hwl : Wrapped l := by
    intro x hx
    rcases hmem x hx with rfl | hx
    · exact hseq
    · exact hwr x hx
  have hub := slide_le (W := c.wsizeB) hwp
  have hlb := le_slide c.wsizeB w p
  have hcheck := checkIndicateSeq_sim hW hW' hwp hp hind
  rw [hseq] at hcheck
  have hins : reorderInsert f c.pending = some (l.map Prod.snd) := by
    rw [hpend, reorderInsert_sim hwr hseq (fun y hy => (hreach y hy).1) (fun y hy => (hreach y hy).2),
      hl, Option.map_some]
  have hloop := indicateLoop_sim (slide c.wsizeB w p) hsort hwl
    (fun x hx => by
      rcases hmem x hx with rfl | hx
      · show p ≤ _
        omega
      · exact (hstart x hx).2)
    (fun x hx => by
      rcases hmem x hx with rfl | hx
      · show _ < p + 2048
        omega
      · exact (hstart x hx).1)
  obtain ⟨c', hrec, hsame, hi, hpd⟩ :=
    recvIndicatepktReorder_handled hq he ha hcheck ⟨rfl, rfl, rfl⟩ hins
  rw [hloop] at hrec hi hpd
  exact ⟨c', hrec, hsame, hi, hpd⟩

theorem ReorderRun.Inv.position {W : Nat} {r : ReorderRun} {s : Rcv RecvFrame} (hr : Refines r s)
    (hs : s = Rcv.empty ∨ ∃ w z, ReorderBuffer.Inv 2048 W s w z) (seq : Fin 4096) :
    ∃ w p : Nat, w ≤ p ∧ p % 4096 = seq ∧ s.start.getD p = w
      ∧ (r.ctrl.indicateSeq = w % 4096 ∨ r.ctrl.indicateSeq = seqInit ∧ w = p)
      ∧ snLess seq (if r.ctrl.indicateSeq = seqInit then seq else r.ctrl.indicateSeq)
          = decide (w + 2048 ≤ p) := by
  rcases hs with rfl | ⟨w, z, hI⟩
  · refine ⟨seq, seq, le_rfl, Nat.mod_eq_of_lt seq.isLt, rfl, Or.inr ⟨hr.ind, rfl⟩, ?_⟩
    have hi : r.ctrl.indicateSeq = seqInit := hr.ind
    rw [if_pos hi, snLess_eq]
    simp [circLess]
  · have hi : r.ctrl.indicateSeq = w % 4096 := by rw [hr.ind, hI.start]; rfl
    refine ⟨w, unwrap 4096 w seq, le_unwrap _ _ _, unwrap_mod w seq.isLt, ?_, Or.inl hi, ?_⟩
    · rw [hI.start]; rfl
    · rw [hi, if_neg (by unfold seqInit; omega), snLess_eq]
      exact circLess_unwrap (by decide) w seq

theorem checkIndicateSeq_none {c : RecvReorderCtrl} {seq : Nat}
    (h : snLess seq (if c.indicateSeq = seqInit then seq else c.indicateSeq) = true) :
    checkIndicateSeq c seq = none := by
  unfold checkIndicateSeq
  simp only [h, ↓reduceIte]

theorem ReorderRun.Inv.window {W w p : Nat} {s : Rcv RecvFrame}
    (hs : s = Rcv.empty ∨ ∃ w z, ReorderBuffer.Inv 2048 W s w z) (hst : s.start.getD p = w) :
    (∀ x ∈ s.pend, w < x.1) ∧ ∀ x ∈ s.pend, x.1 < w + W := by
  rcases hs with rfl | ⟨w', z, hI⟩
  · exact ⟨List.forall_mem_nil _, List.forall_mem_nil _⟩
  · obtain rfl : w' = w := by rw [hI.start] at hst; exact hst
    exact ⟨hI.above, hI.below⟩

/-- a frame that waits already; the window does not move for it -/
theorem ReorderRun.Inv.duplicate {W w p : Nat} {r : ReorderRun} {s : Rcv RecvFrame} {f : RecvFrame}
    (hr : Refines r s) (hs : s = Rcv.empty ∨ ∃ w z, ReorderBuffer.Inv 2048 W s w z)
    (hWc : 0 < r.ctrl.wsizeB) (hWc' : r.ctrl.wsizeB ≤ 64) (hwsize : r.ctrl.wsizeB = W) (hwp : w ≤ p)
    (hp : p < w + 2048) (hst : s.start.getD p = w)
    (hind : r.ctrl.indicateSeq = w % 4096 ∨ r.ctrl.indicateSeq = seqInit ∧ w = p)
    (hseq : p % 4096 = f.attrib.seqNum) (hl : place (p, f) s.pend = none) :
    checkIndicateSeq r.ctrl f.attrib.seqNum = some r.ctrl ∧ reorderInsert f r.ctrl.pending = none := by
  obtain ⟨habove, hbelow⟩ := ReorderRun.Inv.window hs hst
  obtain ⟨y, hy, e⟩ := place_none hl
  have hslide : slide r.ctrl.wsizeB w p = w := by
    have h1 := habove y hy
    have h2 := hbelow y hy
    rw [e] at h1 h2
    exact slide_inside h1 (hwsize ▸ h2)
  have hne : s.start = some w := by
    rcases hs with rfl | ⟨w', z, hJ⟩
    · exact absurd hy List.not_mem_nil
    · rw [hJ.start] at hst ⊢
      exact congrArg some hst
  constructor
  · have h := checkIndicateSeq_sim hWc hWc' hwp hp hind
    have hi : r.ctrl.indicateSeq = w % 4096 := by rw [hr.ind, hne]; rfl
    rw [hslide, hseq, ← hi] at h
    exact h
  · rw [hr.pend, reorderInsert_sim (fun x hx => hr.wrapped x (List.mem_append_right _ hx)) hseq, hl,
      Option.map_none]
    · intro y hy
      have := habove y hy
      omega
    · intro y hy
      have := hbelow y hy
      omega

theorem ReorderRun.Inv.rcv_arrive {W w p : Nat} {s s' : Rcv RecvFrame} {f : RecvFrame} (hW : 0 < W)
    (hW' : W ≤ 64) (hs : s = Rcv.empty ∨ ∃ w z, ReorderBuffer.Inv 2048 W s w z) (hwp : w ≤ p)
    (hp : p < w + 2048) (hst : s.start.getD p = w) (h : s.arrive W p f = some s') :
    ∃ w z, ReorderBuffer.Inv 2048 W s' w z := by
  rcases hs with rfl | ⟨w', z, hJ⟩
  · obtain ⟨t, ht, hJ⟩ := Rcv.arrive_first (H := 2048) (W := W) (p := p) f
    rw [ht] at h
    obtain rfl : t = s' := Option.some.inj h
    exact ⟨_, _, hJ⟩
  · have e : w' = w := by rw [hJ.start] at hst; exact hst
    subst e
    exact Rcv.arrive_inv hW (by omega) hJ hwp hp h

theorem ReorderRun.Inv.reject {W : Nat} {r : ReorderRun} (hI : r.Inv W) :
    ReorderRun.Inv W { r with arrived := r.arrived + 1, up := r.up ++ [] } where
  enable := hI.enable
  ack := hI.ack
  wsize := hI.wsize
  sim := by simpa only [List.append_nil] using
    hI.sim.imp fun s hs => ⟨⟨hs.1.ind, hs.1.pend, hs.1.up, hs.1.wrapped⟩, hs.2⟩
  perm := by simpa only [List.append_nil] using hI.perm
  fresh := fun f hf => Nat.lt_succ_of_lt (hI.fresh f hf)
  nodup := hI.nodup

theorem ReorderRun.Inv.accept {W p : Nat} {r : ReorderRun} {c : RecvReorderCtrl} {f : RecvFrame}
    {up : List RecvFrame} {s s' : Rcv RecvFrame} (hI : r.Inv W) (hid : f.id = r.arrived)
    (hr : Refines r s) (hsame : r.ctrl.Same c) (hseq : p % 4096 = f.attrib.seqNum)
    (h : s.arrive W p f = some s') (hi : c.indicateSeq = (s'.start.map (· % 4096)).getD seqInit)
    (hpend : c.pending = s'.pend.map Prod.snd)
    (hup : s'.up.map Prod.snd = s.up.map Prod.snd ++ up)
    (hs' : ∃ w z, ReorderBuffer.Inv 2048 W s' w z) :
    ReorderRun.Inv W ⟨c, r.arrived + 1, r.accepted ++ [f], r.up ++ up⟩ where
  enable := hsame.1.trans hI.enable
  ack := hsame.2.2.trans hI.ack
  wsize := hsame.2.1.trans hI.wsize
  sim := by
    refine ⟨s', ⟨hi, hpend, by rw [hup, hr.up], ?_⟩, Or.inr hs'⟩
    intro x hx
    rcases List.mem_cons.mp ((Rcv.arrive_perm h).mem_iff.mp hx) with rfl | hx
    · exact hseq
    · exact hr.wrapped x hx
  perm := by
    have e := (Rcv.arrive_perm h).map Prod.snd
    rw [List.map_append, List.map_cons, List.map_append, hup, ← hr.up, ← hpend, ← hr.pend] at e
    exact (e.trans (hI.perm.cons f)).trans (List.perm_append_singleton f _).symm
  fresh := by
    intro g hg
    rcases List.mem_append.mp hg with hg | hg
    · exact Nat.lt_succ_of_lt (hI.fresh g hg)
    · rw [List.mem_singleton.mp hg, hid]
      exact Nat.lt_succ_self _
  nodup := by
    refine List.nodup_append.mpr ⟨hI.nodup, List.nodup_cons.mpr ⟨List.not_mem_nil, List.nodup_nil⟩, ?_⟩
    intro g hg g' hg'
    rw [List.mem_singleton.mp hg']
    rintro rfl
    have := hI.fresh g hg
    omega

theorem ReorderRun.Inv.arrive {W : Nat} {r : ReorderRun} (hW : 0 < W) (hW' : W ≤ 64)
    (hI : r.Inv W) (f : RecvFrame) : (r.step (.arrive f)).Inv W := by
  obtain ⟨s, hr, hs⟩ := hI.sim
  have hWc : 0 < r.ctrl.wsizeB := hI.wsize ▸ hW
  have hWc' : r.ctrl.wsizeB ≤ 64 := hI.wsize ▸ hW'
  obtain ⟨w, p, hwp, hseq, hst, hind, hless⟩ := ReorderRun.Inv.position hr hs f.attrib.seqNum
  obtain ⟨habove, hbelow⟩ := ReorderRun.Inv.window hs hst
  have hseq' : p % 4096 = (stamp r.arrived f).attrib.seqNum := hseq
  have hreject : recvIndicatepktReorder r.ctrl (stamp r.arrived f) = (.fail, r.ctrl, []) →
      (r.step (.arrive f)).Inv W := by
    intro h
    simp only [ReorderRun.step, h, reduceCtorEq, ↓reduceIte]
    exact hI.reject
  by_cases hp : w + 2048 ≤ p
  · -- behind the window
    refine hreject (recvIndicatepktReorder_fail rfl hI.enable hI.ack (Or.inl ?_))
    exact checkIndicateSeq_none (hless.trans (decide_eq_true hp))
  rw [not_le] at hp
  cases hl : place (p, stamp r.arrived f) s.pend with
  | none =>
    obtain ⟨h1, h2⟩ := ReorderRun.Inv.duplicate hr hs hWc hWc' hI.wsize hwp hp hst hind hseq' hl
    exact hreject (recvIndicatepktReorder_fail rfl hI.enable hI.ack (Or.inr ⟨h1, h2⟩))
  | some l =>
    obtain ⟨s', h⟩ : ∃ s', s.arrive W p (stamp r.arrived f) = some s' := by
      simp only [Rcv.arrive, hl, Option.map_some]
      exact ⟨_, rfl⟩
    have hs' := ReorderRun.Inv.rcv_arrive hW hW' hs hwp hp hst h
    have hsort : s.pend.Pairwise (fun x y => x.1 < y.1) := by
      rcases hs with rfl | ⟨w', z, hJ⟩
      · exact List.Pairwise.nil
      · exact Near.pairwise hJ.chain.right_of_append
    have hub := slide_le (W := r.ctrl.wsizeB) hwp
    have hlb := le_slide r.ctrl.wsizeB w p
    obtain ⟨c', hrec, hsame, hi, hpend⟩ := arrive_sim rfl hI.enable hI.ack hWc hWc' hwp hp hseq'
      hind hr.pend (fun x hx => hr.wrapped x (List.mem_append_right _ hx)) hl (place_sorted hsort hl)
      (fun x hx => by
        have := habove x hx
        have := hbelow x hx
        omega)
      (fun x hx => by
        have := habove x hx
        have := hbelow x hx
        omega)
    simp only [ReorderRun.step, hrec, ↓reduceIte]
    have hs₁ := h
    simp only [Rcv.arrive, hl, Option.map_some, Option.some.injEq, hst] at hs₁
    rw [hI.wsize] at hi hpend ⊢
    refine hI.accept rfl hr hsame hseq' h ?_ ?_ ?_ hs'
    · rw [hi, ← hs₁]
      rfl
    · rw [hpend, ← hs₁]
    · rw [← hs₁]
      exact List.map_append

/-! ## a timer firing -/

theorem ReorderRun.Inv.fire {W : Nat} {r : ReorderRun} {c : RecvReorderCtrl} {up : List RecvFrame}
    {s : Rcv RecvFrame} (hI : r.Inv W) (hr : Refines r s) (hsame : r.ctrl.Same c)
    (hs : s.timeout = Rcv.empty ∨ ∃ w z, ReorderBuffer.Inv 2048 W s.timeout w z)
    (hi : c.indicateSeq = (s.timeout.start.map (· % 4096)).getD seqInit)
    (hpend : c.pending = s.timeout.pend.map Prod.snd)
    (hup : s.timeout.up.map Prod.snd = s.up.map Prod.snd ++ up) :
    ReorderRun.Inv W { r with ctrl := c, up := r.up ++ up } where
  enable := hsame.1.trans hI.enable
  ack := hsame.2.2.trans hI.ack
  wsize := hsame.2.1.trans hI.wsize
  sim := by
    refine ⟨s.timeout, ⟨hi, hpend, by rw [hup, hr.up], ?_⟩, hs⟩
    rw [Rcv.timeout_append]
    exact hr.wrapped
  perm := by
    have e : r.up ++ up ++ c.pending = r.up ++ r.ctrl.pending := by
      rw [hr.up, ← hup, hpend, ← List.map_append, Rcv.timeout_append, List.map_append, hr.pend]
    show (r.up ++ up ++ c.pending).Perm _
    rw [e]
    exact hI.perm
  fresh := hI.fresh
  nodup := hI.nodup

theorem ReorderRun.Inv.timeout {W : Nat} {r : ReorderRun} (hW' : W ≤ 64) (hI : r.Inv W)
    (cannotRun : Bool) : (r.step (.timeout cannotRun)).Inv W := by
  obtain ⟨s, hr, hs⟩ := hI.sim
  have hI₀ : ReorderRun.Inv W { r with ctrl := { r.ctrl with timer := false } } :=
    ⟨hI.enable, hI.ack, hI.wsize, ⟨s, ⟨hr.ind, hr.pend, hr.up, hr.wrapped⟩, hs⟩, hI.perm, hI.fresh,
      hI.nodup⟩
  have hr₀ : Refines { r with ctrl := { r.ctrl with timer := false } } s :=
    ⟨hr.ind, hr.pend, hr.up, hr.wrapped⟩
  cases cannotRun with
  | true =>
    show ReorderRun.Inv W { r with ctrl := { r.ctrl with timer := false }, up := r.up ++ [] }
    rw [List.append_nil]
    exact hI₀
  | false =>
    simp only [ReorderRun.step]
    cases hp : s.pend with
    | nil =>
      have ht : s.timeout = s := by simp only [Rcv.timeout, hp]
      obtain ⟨c', hc, hsame, hi, hpend⟩ :=
        timeout_nil (c := { r.ctrl with timer := false }) (hr.pend.trans (by rw [hp]; rfl))
      rw [hc]
      refine hI₀.fire hr₀ hsame (by rw [ht]; exact hs) ?_ ?_ ?_
      · rw [hi, ht]; exact hr.ind
      · rw [hpend, ht, hp]; rfl
      · rw [ht, List.append_nil]
    | cons x l =>
      rcases hs with rfl | ⟨w, z, hJ⟩
      · cases hp
      have hsub : ∀ y ∈ x :: l, y ∈ s.pend := fun y hy => hp ▸ hy
      have hsort : (x :: l).Pairwise (fun x y => x.1 < y.1) :=
        hp ▸ Near.pairwise hJ.chain.right_of_append
      have hwr : Wrapped (x :: l) := fun y hy =>
        hr.wrapped y (List.mem_append_right _ (hsub y hy))
      have hx := hJ.above x (hsub x List.mem_cons_self)
      have hloop := indicateLoop_sim x.1 hsort hwr
        (fun y hy => by
          have := hJ.below y (hsub y hy)
          omega)
        (fun y hy => by
          have h1 := hJ.above y (hsub y hy)
          have h2 := hJ.below x (hsub x List.mem_cons_self)
          omega)
      obtain ⟨c', hc, hsame, hi, hpend⟩ :=
        timeout_cons (c := { r.ctrl with timer := false }) (hr.pend.trans (by rw [hp]; rfl))
      rw [hc]
      rw [← hwr x List.mem_cons_self, ← List.map_cons, hloop] at hi hpend ⊢
      refine hI₀.fire hr₀ hsame (Or.inr (Rcv.timeout_inv hJ)) ?_ ?_ ?_ <;>
        simp only [Rcv.timeout, hp]
      · exact hi
      · exact hpend
      · exact List.map_append

/-! ## all runs -/

theorem ReorderRun.inv_step {W : Nat} (hW : 0 < W) (hW' : W ≤ 64) (r : ReorderRun)
    (e : ReorderEvent) (hI : r.Inv W) : (r.step e).Inv W := by
  cases e with
  | arrive f => exact hI.arrive hW hW' f
  | timeout cannotRun => exact hI.timeout hW' cannotRun

theorem ReorderRun.inv_run {W : Nat} (hW : 0 < W) (hW' : W ≤ 64) (es : List ReorderEvent) :
    (run ReorderRun.step (ReorderRun.init W) es).Inv W :=
  run_inv_all (ReorderRun.inv_step hW hW') _ es (ReorderRun.inv_init W)

theorem ReorderRun.accepted_step {f : RecvFrame} (r : ReorderRun) (e : ReorderEvent)
    (h : f ∈ r.accepted) : f ∈ (r.step e).accepted := by
  cases e with
  | arrive g =>
    simp only [ReorderRun.step]
    split
    · exact List.mem_append_left _ h
    · exact h
  | timeout cannotRun => exact h

/-- how far a sequence number lies after the window start, on the circle of 4096 -/
def circDistance (ind seq : Nat) : Int := ((seq : Int) - ind) % 4096

theorem circDistance_mod {w x : Nat} (h : w < x) (hx : x < w + 4096) :
    circDistance (w % 4096) (x % 4096) = x - w := by
  unfold circDistance
  omega

theorem ReorderRun.Inv.sorted {W : Nat} {r : ReorderRun} (hW' : W ≤ 64) (hI : r.Inv W)
    (h : r.ctrl.indicateSeq ≠ seqInit) :
    r.ctrl.pending.Pairwise (fun f g => circDistance r.ctrl.indicateSeq f.attrib.seqNum
        < circDistance r.ctrl.indicateSeq g.attrib.seqNum)
      ∧ ∀ f ∈ r.ctrl.pending, 1 ≤ circDistance r.ctrl.indicateSeq f.attrib.seqNum
        ∧ circDistance r.ctrl.indicateSeq f.attrib.seqNum ≤ W - 1 := by
  obtain ⟨s, hr, hs⟩ := hI.sim
  rcases hs with rfl | ⟨w, z, hJ⟩
  · exact absurd hr.ind h
  have hd : ∀ x ∈ s.pend, circDistance r.ctrl.indicateSeq x.2.attrib.seqNum = x.1 - w := by
    intro x hx
    have h1 := hJ.above x hx
    have h2 := hJ.below x hx
    rw [hr.ind, hJ.start, ← hr.wrapped x (List.mem_append_right _ hx)]
    exact circDistance_mod h1 (by omega)
  rw [hr.pend]
  constructor
  · rw [List.pairwise_map]
    refine (Near.pairwise hJ.chain.right_of_append).imp_of_mem fun {x y} hx hy hxy => ?_
    rw [hd x hx, hd y hy]
    omega
  · intro f hf
    obtain ⟨x, hx, rfl⟩ := List.mem_map.mp hf
    have h1 := hJ.above x hx
    have h2 := hJ.below x hx
    rw [hd x hx]
    omega

theorem ReorderRun.Inv.once {W : Nat} {r : ReorderRun} (hI : r.Inv W) {f : RecvFrame}
    (hf : f ∈ r.accepted) :
    r.ctrl.pending.count f = 1 ∧ f ∉ r.up ∨ r.up.count f = 1 ∧ f ∉ r.ctrl.pending := by
  have h1 : r.up.count f + r.ctrl.pending.count f = 1 := by
    rw [← List.count_append, hI.perm.count_eq]
    exact List.nodup_iff_count_eq_one.mp hI.nodup f hf
  rcases Nat.eq_zero_or_pos (r.up.count f) with h0 | h0
  · exact Or.inl ⟨by omega, List.count_eq_zero.mp h0⟩
  · exact Or.inr ⟨by omega, List.count_eq_zero.mp (by omega)⟩

/-- a chain of near positions is a chain of `SN_LESS` -/
theorem Wrapped.snLess_chain {l : List (Nat × RecvFrame)} (hw : Wrapped l)
    (hc : l.IsChain (Near 2048)) :
    (l.map Prod.snd).IsChain (fun f g => snLess f.attrib.seqNum g.attrib.seqNum = true) := by
  rw [List.isChain_map]
  apply hc.imp_of_mem_imp
  intro x y hx hy hxy
  rw [← hw x hx, ← hw y hy, snLess_mod hxy.2 (by have := hxy.1; omega)]
  exact decide_eq_true hxy.1

theorem ReorderRun.Inv.ordered {W : Nat} {r : ReorderRun} (hI : r.Inv W) :
    r.up.IsChain (fun f g => snLess f.attrib.seqNum g.attrib.seqNum = true) := by
  obtain ⟨s, hr, hs⟩ := hI.sim
  have hwr : Wrapped s.up := fun x hx => hr.wrapped x (List.mem_append_left _ hx)
  rw [hr.up]
  apply hwr.snLess_chain
  rcases hs with rfl | ⟨w, z, hJ⟩
  · exact List.isChain_nil
  · exact hJ.chain.left_of_append

/-- **Reordering of one TID.**  After every run: the pending list is sorted by the distance from
the window start and lies inside the window; a frame accepted earlier in the run is pending or
was handed up once, and not both; frames are handed up in the order of `SN_LESS`. -/
theorem reorder_run_sorted_once_inOrder (W : Nat) (hW : 1 ≤ W) (hW' : W ≤ 64)
    (es es' : List ReorderEvent) :
    let r := run ReorderRun.step (ReorderRun.init W) es
    let r' := run ReorderRun.step (ReorderRun.init W) (es ++ es')
    (r.ctrl.indicateSeq ≠ seqInit →
      r.ctrl.pending.Pairwise (fun f g => circDistance r.ctrl.indicateSeq f.attrib.seqNum
          < circDistance r.ctrl.indicateSeq g.attrib.seqNum)
        ∧ ∀ f ∈ r.ctrl.pending, 1 ≤ circDistance r.ctrl.indicateSeq f.attrib.seqNum
          ∧ circDistance r.ctrl.indicateSeq f.attrib.seqNum ≤ W - 1)
    ∧ (∀ f ∈ r.accepted,
        r'.ctrl.pending.count f = 1 ∧ f ∉ r'.up ∨ r'.up.count f = 1 ∧ f ∉ r'.ctrl.pending)
    ∧ r.up.IsChain (fun f g => snLess f.attrib.seqNum g.attrib.seqNum = true) := by
  have hI := ReorderRun.inv_run hW hW' es
  have hI' := ReorderRun.inv_run hW hW' (es ++ es')
  refine ⟨hI.sorted hW', fun f hf => hI'.once ?_, hI.ordered⟩
  rw [run_append]
  exact run_inv_all (I := fun r : ReorderRun => f ∈ r.accepted) ReorderRun.accepted_step _ es' hf

theorem reorder_run_sorted_once_inOrder_wrap :
    let f (seq : Fin 4096) : ReorderEvent :=
      .arrive { id := 0, attrib := { seqNum := seq } }
    let r := run ReorderRun.step (ReorderRun.init 64) [f 4094, f 0, f 1, .timeout false, f 4095]
    r.up.map (fun f => f.attrib.seqNum.val) = [4094, 0, 1] ∧ r.accepted.length = 3
      ∧ r.up.IsChain (fun f g => snLess f.attrib.seqNum g.attrib.seqNum = true) :=
  ⟨by decide, by decide, (reorder_run_sorted_once_inOrder 64 (by decide) (by decide) _ []).2.2⟩

end Rtl8192eu
