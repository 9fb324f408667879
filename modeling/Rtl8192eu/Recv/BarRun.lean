import Rtl8192eu.Recv.BaSession

/-!
# Block ack requests and the window

A block ack request sets the window start to any number, and leaves the pending list alone.  The
frames that wait are looked at through positions once more (`ReorderBuffer.Held`): what matters is
where they lie relative to the start, and that is kept by arrivals and timer firings as long as
the start never leaves a frame behind the window end, or half a circle behind it.

* `Lifted`       the pending list and the window start, on positions;
* `arrive_lifted`   an arrival that is not behind the window, on positions;
* `BaRun.Fits`   the condition under which fewer frames wait than were announced;
* `BaRun.InOrder`   the condition under which frames are handed up in order.
-/

namespace Rtl8192eu

open ReorderBuffer Circ Run

/-! ## positions -/

theorem Wrapped.shift {l : List (Nat × RecvFrame)} (h : Wrapped l) : Wrapped (shift 4096 l) := by
  intro x hx
  obtain ⟨y, hy, rfl⟩ := mem_shift hx
  rw [← h y hy]
  exact Nat.add_mod_right _ _

/-- the control block of an agreement that is going on -/
structure Going (c : RecvReorderCtrl) : Prop where
  enable : c.enable = true
  ack : c.recAbbaRspAck = false
  wsize : c.wsizeB = 64

theorem Going.same {c c' : RecvReorderCtrl} (h : Going c) (hs : c.Same c') : Going c' :=
  ⟨hs.1.trans h.enable, hs.2.2.trans h.ack, hs.2.1.trans h.wsize⟩

/-- the pending list is `l` and the window starts at `w` -/
structure Lifted (c : RecvReorderCtrl) (l : List (Nat × RecvFrame)) (w : Nat) : Prop where
  pend : c.pending = l.map Prod.snd
  wrapped : Wrapped l
  held : Held 2048 64 l w
  ind : c.indicateSeq = w % 4096 ∨ c.indicateSeq = seqInit ∧ l = []

/-- no frame that the window start has passed is half a circle before `f` -/
def Within (c : RecvReorderCtrl) (f : RecvFrame) : Prop :=
  ∀ q ∈ c.pending, snLess q.attrib.seqNum c.indicateSeq = true →
    circDistance q.attrib.seqNum f.attrib.seqNum ≤ 2046

instance decidableWithin (c : RecvReorderCtrl) (f : RecvFrame) : Decidable (Within c f) :=
  inferInstanceAs (Decidable (∀ q ∈ c.pending, snLess q.attrib.seqNum c.indicateSeq = true →
    circDistance q.attrib.seqNum f.attrib.seqNum ≤ 2046))

theorem Lifted.reach {c : RecvReorderCtrl} {f : RecvFrame} {l : List (Nat × RecvFrame)} {w p : Nat}
    (hl : Lifted c l w) (hf : Within c f) (hwp : w ≤ p) (hp : p < w + 2048)
    (hseq : p % 4096 = f.attrib.seqNum) : Reach 2048 w p l := by
  intro x hx hxw
  have hb := hl.held.behind x hx
  have hw := hl.wrapped x hx
  have hind : c.indicateSeq = w % 4096 := by
    rcases hl.ind with h | ⟨-, h⟩
    · exact h
    · rw [h] at hx
      cases hx
  have hless : snLess x.2.attrib.seqNum c.indicateSeq = true := by
    rw [hind, ← hw, snLess_mod (by omega) (by omega)]
    exact decide_eq_true hxw
  have hd := hf x.2 (by rw [hl.pend]; exact List.mem_map_of_mem hx) hless
  rw [← hw, ← hseq, circDistance_mod (by omega) (by omega)] at hd
  omega

/-! ## an arrival -/

/-- the frame is before the window -/
def Behind (c : RecvReorderCtrl) (f : RecvFrame) : Prop :=
  c.indicateSeq ≠ seqInit ∧ snLess f.attrib.seqNum c.indicateSeq = true

instance decidableBehind (c : RecvReorderCtrl) (f : RecvFrame) : Decidable (Behind c f) :=
  inferInstanceAs (Decidable (_ ∧ _))

theorem arrive_behind {c : RecvReorderCtrl} {f : RecvFrame} (hq : f.attrib.qos = true)
    (hc : Going c) (h : Behind c f) : recvIndicatepktReorder c f = (.fail, c, []) := by
  apply recvIndicatepktReorder_fail hq hc.enable hc.ack
  left
  apply checkIndicateSeq_none
  rw [if_neg h.1]
  exact h.2

theorem recvIndicatepktReorder_duplicate {c c₁ : RecvReorderCtrl} {f : RecvFrame}
    (hq : f.attrib.qos = true) (he : c.enable = true) (ha : c.recAbbaRspAck = false)
    (h₁ : checkIndicateSeq c f.attrib.seqNum = some c₁) (hl : reorderInsert f c₁.pending = none) :
    recvIndicatepktReorder c f = (.fail, c₁, []) := by
  unfold recvIndicatepktReorder enqueueReorderRecvframe
  simp [hq, he, ha, h₁, hl]

/-- what an arrival at position `p` does -/
inductive Outcome (c : RecvReorderCtrl) (f : RecvFrame) (l : List (Nat × RecvFrame)) (w p : Nat) : Prop
  | duplicate (c' : RecvReorderCtrl) (h : recvIndicatepktReorder c f = (.fail, c', []))
      (hs : c.Same c') (hi : c'.indicateSeq = slide 64 w p % 4096) (hl : Lifted c' l (slide 64 w p))
  | accept (c' : RecvReorderCtrl) (l' : List (Nat × RecvFrame)) (hpl : place (p, f) l = some l')
      (hle : ∀ x ∈ l, p ≤ x.1 + 2048 ∧ x.1 < p + 2048)
      (h : recvIndicatepktReorder c f
        = (.handled, c', (drain (slide 64 w p) l').2.1.map Prod.snd))
      (hs : c.Same c') (hi : c'.indicateSeq = (drain (slide 64 w p) l').1 % 4096)
      (hl : Lifted c' (drain (slide 64 w p) l').2.2 (drain (slide 64 w p) l').1)

theorem arrive_lifted {c : RecvReorderCtrl} {f : RecvFrame} {l : List (Nat × RecvFrame)} {w p : Nat}
    (hq : f.attrib.qos = true) (hc : Going c) (hl : Lifted c l w) (hf : Within c f) (hwp : w ≤ p)
    (hp : p < w + 2048) (hseq : p % 4096 = f.attrib.seqNum)
    (hind : c.indicateSeq = w % 4096 ∨ c.indicateSeq = seqInit ∧ w = p) : Outcome c f l w p := by
  have hW : 0 < c.wsizeB := by rw [hc.wsize]; decide
  have hW' : c.wsizeB ≤ 64 := hc.wsize.le
  have hreach := hl.reach hf hwp hp hseq
  have hle := hl.held.reach_le (by decide) hwp hp hreach
  have hslide := hl.held.slide_lt (by decide) (by decide) hwp hp hreach
  cases hpl : place (p, f) l with
  | none =>
    have hcheck := checkIndicateSeq_sim hW hW' hwp hp hind
    rw [hseq, hc.wsize] at hcheck
    have hins : reorderInsert f c.pending = none := by
      rw [hl.pend, reorderInsert_sim hl.wrapped hseq (fun y hy => (hle y hy).1)
        (fun y hy => (hle y hy).2), hpl, Option.map_none]
    refine .duplicate _ (recvIndicatepktReorder_duplicate hq hc.enable hc.ack hcheck hins)
      ⟨rfl, by rw [hc.wsize], rfl⟩ rfl ⟨hl.pend, hl.wrapped, ?_, Or.inl rfl⟩
    exact hl.held.duplicate (by decide) (by decide) hwp hp hreach
  | some l' =>
    have hsort := place_sorted hl.held.sorted hpl
    obtain ⟨c', hrec, hsame, hi, hpd⟩ := arrive_sim hq hc.enable hc.ack hW hW' hwp hp hseq hind
      hl.pend hl.wrapped hpl hsort hle
      (fun x hx => by
        rw [hc.wsize]
        have := hslide x hx
        omega)
    rw [hc.wsize] at hrec hi hpd
    refine .accept c' l' hpl hle hrec hsame hi ⟨hpd, ?_, ?_, Or.inl hi⟩
    · intro x hx
      have hx' : x ∈ l' := by
        rw [← drain_append (slide 64 w p) l']
        exact List.mem_append_right _ hx
      rcases List.mem_cons.mp ((place_perm hpl).mem_iff.mp hx') with rfl | hx'
      · exact hseq
      · exact hl.wrapped x hx'
    · exact hl.held.arrive (by decide) (by decide) hwp hp hreach hpl

/-- the position of a frame that is not before the window -/
theorem ahead_position {c : RecvReorderCtrl} {f : RecvFrame} {w : Nat}
    (hind : c.indicateSeq = w % 4096) (h : ¬ Behind c f) :
    w ≤ unwrap 4096 w f.attrib.seqNum ∧ unwrap 4096 w f.attrib.seqNum < w + 2048
      ∧ unwrap 4096 w f.attrib.seqNum % 4096 = f.attrib.seqNum := by
  refine ⟨le_unwrap _ _ _, ?_, unwrap_mod w f.attrib.seqNum.isLt⟩
  by_contra hge
  rw [not_lt] at hge
  apply h
  refine ⟨by rw [hind]; unfold seqInit; omega, ?_⟩
  rw [hind, snLess_eq]
  exact (circLess_unwrap (by decide) w f.attrib.seqNum).trans (decide_eq_true hge)

/-- every arrival that is not before the window has a position -/
theorem Lifted.arrive {c : RecvReorderCtrl} {f : RecvFrame} {l : List (Nat × RecvFrame)} {w : Nat}
    (hq : f.attrib.qos = true) (hc : Going c) (hl : Lifted c l w) (hf : Within c f)
    (h : ¬ Behind c f) :
    ∃ w p : Nat, w ≤ p ∧ p % 4096 = f.attrib.seqNum ∧ Lifted c l w ∧ Outcome c f l w p := by
  rcases hl.ind with hind | ⟨hind, rfl⟩
  · obtain ⟨hwp, hp, hseq⟩ := ahead_position hind h
    exact ⟨w, _, hwp, hseq, hl, arrive_lifted hq hc hl hf hwp hp hseq (Or.inl hind)⟩
  · -- the first frame is the window start
    have hl' : Lifted c [] f.attrib.seqNum.val := ⟨hl.pend, hl.wrapped, Held.nil _ _ _, Or.inr ⟨hind, rfl⟩⟩
    have hseq : f.attrib.seqNum.val % 4096 = f.attrib.seqNum := Nat.mod_eq_of_lt f.attrib.seqNum.isLt
    exact ⟨_, f.attrib.seqNum, le_rfl, hseq, hl',
      arrive_lifted hq hc hl' hf le_rfl (by omega) hseq (Or.inr ⟨hind, rfl⟩)⟩

/-! ## a timer firing -/

theorem Lifted.timeout {c : RecvReorderCtrl} {l : List (Nat × RecvFrame)} {w : Nat}
    (hl : Lifted c l w) (cannotRun : Bool) :
    ∃ c' u l' w', rtwReorderingCtrlTimeoutHandler { c with timer := false } cannotRun
        = (c', u.map Prod.snd) ∧ c.Same c' ∧ u ++ l' = l ∧ Lifted c' l' w'
      ∧ (c'.indicateSeq = seqInit → c.indicateSeq = seqInit) := by
  cases cannotRun with
  | true =>
    exact ⟨_, [], l, w, rfl, ⟨rfl, rfl, rfl⟩, rfl, ⟨hl.pend, hl.wrapped, hl.held, hl.ind⟩, id⟩
  | false =>
    cases l with
    | nil =>
      obtain ⟨c', hc, hs, hi, hp⟩ := timeout_nil (c := { c with timer := false }) hl.pend
      refine ⟨c', [], [], w, hc, hs, rfl, ⟨hp, hl.wrapped, hl.held, ?_⟩, fun h => hi ▸ h⟩
      rw [hi]
      exact hl.ind
    | cons x l =>
      obtain ⟨c', hc, hs, hi, hp⟩ := timeout_cons (c := { c with timer := false }) hl.pend
      have hx := hl.wrapped x List.mem_cons_self
      have hspan := hl.held.span x List.mem_cons_self
      have hfirst : ∀ y ∈ x :: l, x.1 ≤ y.1 := by
        intro y hy
        rcases List.mem_cons.mp hy with rfl | hy
        · exact le_rfl
        · exact (List.rel_of_pairwise_cons hl.held.sorted hy).le
      have hloop := indicateLoop_sim x.1 hl.held.sorted hl.wrapped
        (fun y hy => by
          have := hspan y hy
          omega)
        (fun y hy => by
          have := hfirst y hy
          omega)
      rw [← hx, ← List.map_cons, hloop] at hc hi hp
      refine ⟨c', _, _, _, hc, hs, drain_append x.1 (x :: l), ⟨hp, ?_, hl.held.timeout, Or.inl hi⟩, ?_⟩
      · intro y hy
        apply hl.wrapped y
        rw [← drain_append x.1 (x :: l)]
        exact List.mem_append_right _ hy
      · intro h
        rw [hi] at h
        unfold seqInit at h
        omega

/-! ## a block ack request -/

/-- no frame that waits is past the end of a window that starts at `start` -/
def Covers (c : RecvReorderCtrl) (start : Nat) : Prop :=
  ∀ q ∈ c.pending, circDistance start q.attrib.seqNum < 64 ∨ circDistance q.attrib.seqNum start ≤ 2047

instance decidableCovers (c : RecvReorderCtrl) (start : Nat) : Decidable (Covers c start) :=
  inferInstanceAs (Decidable (∀ q ∈ c.pending,
    circDistance start q.attrib.seqNum < 64 ∨ circDistance q.attrib.seqNum start ≤ 2047))

/-- the window start is next to the frames that wait, wherever it was before -/
theorem Lifted.bar {c : RecvReorderCtrl} {l : List (Nat × RecvFrame)} {w : Nat} (hl : Lifted c l w)
    {start : Fin 4096} (h : Covers c start) :
    ∃ w', Lifted (c.processBar start) (shift 4096 l) w' := by
  have hwr := hl.wrapped.shift
  have hpend : (c.processBar start).pending = (shift 4096 l).map Prod.snd := by
    rw [shift_snd]
    exact hl.pend
  cases l with
  | nil =>
    exact ⟨start, hpend, hwr, Held.nil _ _ _, Or.inl (Nat.mod_eq_of_lt start.isLt).symm⟩
  | cons x l =>
    have hcov : ∀ y ∈ x :: l, circDistance start (y.1 % 4096 : Nat) < 64
        ∨ circDistance (y.1 % 4096 : Nat) start ≤ 2047 := by
      intro y hy
      rw [hl.wrapped y hy]
      exact h y.2 (by rw [hl.pend]; exact List.mem_map_of_mem hy)
    have hspan : ∀ y ∈ x :: l, x.1 ≤ y.1 ∧ y.1 + 1 < x.1 + 64 := by
      intro y hy
      refine ⟨?_, hl.held.span x List.mem_cons_self y hy⟩
      rcases List.mem_cons.mp hy with rfl | hy
      · exact le_rfl
      · exact (List.rel_of_pairwise_cons hl.held.sorted hy).le
    -- the first frame is in the window, or before the start
    obtain ⟨w', hmod, hlo, hhi⟩ : ∃ w', w' % 4096 = start.val ∧ x.1 + 4096 < w' + 64
        ∧ w' ≤ x.1 + 4096 + 2047 := by
      have hs := start.isLt
      rcases hcov x List.mem_cons_self with h0 | h0
      · refine ⟨x.1 + 4096 - (circDistance start (x.1 % 4096 : Nat)).toNat, ?_, ?_, ?_⟩ <;>
          unfold circDistance at h0 ⊢ <;> omega
      · refine ⟨x.1 + 4096 + (circDistance (x.1 % 4096 : Nat) start).toNat, ?_, ?_, ?_⟩ <;>
          unfold circDistance at h0 ⊢ <;> omega
    refine ⟨w', hpend, hwr, ⟨shift_sorted _ hl.held.sorted, ?_, ?_, ?_⟩, Or.inl hmod.symm⟩
    · intro y' hy' z' hz'
      obtain ⟨y, hy, rfl⟩ := mem_shift hy'
      obtain ⟨z, hz, rfl⟩ := mem_shift hz'
      have := hl.held.span y hy z hz
      show z.1 + 4096 + 1 < y.1 + 4096 + 64
      omega
    · intro y' hy'
      obtain ⟨y, hy, rfl⟩ := mem_shift hy'
      have h1 := hspan y hy
      have h2 := hcov y hy
      show y.1 + 4096 < w' + 64
      unfold circDistance at h2
      omega
    · intro y' hy'
      obtain ⟨y, hy, rfl⟩ := mem_shift hy'
      have h1 := hspan y hy
      show w' < y.1 + 4096 + 2048
      omega

/-! ## fewer frames wait than were announced -/

namespace BaRun

/-- Every response that accepts announces the window size or more.  The first frame of an agreement
comes after all that is left over; later no frame that waits gets past the window end or half a
circle behind. -/
def Fits (r : BaRun) : BaEvent → Prop
  | .arrive f => r.ctrl.enable = true →
      if r.ctrl.recAbbaRspAck then ∀ q ∈ r.ctrl.pending, After q f
      else Behind r.ctrl f ∨ Within r.ctrl f
  | .bar start => r.ctrl.enable = true → r.ctrl.recAbbaRspAck = false → Covers r.ctrl start
  | .addba conf => (processAddbaReq conf).accept = true → 64 ≤ (processAddbaReq conf).size
  | _ => True

instance decidableFits (r : BaRun) : ∀ e : BaEvent, Decidable (r.Fits e)
  | .arrive f => inferInstanceAs (Decidable (r.ctrl.enable = true →
      if r.ctrl.recAbbaRspAck then ∀ q ∈ r.ctrl.pending, After q f
      else Behind r.ctrl f ∨ Within r.ctrl f))
  | .bar start => inferInstanceAs
      (Decidable (r.ctrl.enable = true → r.ctrl.recAbbaRspAck = false → Covers r.ctrl start))
  | .addba conf => inferInstanceAs
      (Decidable ((processAddbaReq conf).accept = true → 64 ≤ (processAddbaReq conf).size))
  | .timeout _ => isTrue trivial
  | .delba => isTrue trivial

/-- what waits: between two agreements, or inside the window of the one that is going on -/
inductive Room (r : BaRun) : Prop
  | anew (hack : r.ctrl.enable = true → r.ctrl.recAbbaRspAck = true) (hw : r.ctrl.wsizeB = 64)
      (hlen : r.ctrl.pending.length < 64)
  | going (hc : Going r.ctrl) (l : List (Nat × RecvFrame)) (w : Nat) (hl : Lifted r.ctrl l w)

theorem Room.length_lt {r : BaRun} (h : r.Room) : r.ctrl.pending.length < 64 := by
  rcases h with ⟨-, -, hlen⟩ | ⟨-, l, w, hl⟩
  · exact hlen
  · rw [hl.pend, List.length_map]
    exact hl.held.length_lt (by decide)

theorem Room.wsize {r : BaRun} (h : r.Room) : r.ctrl.wsizeB = 64 := by
  rcases h with ⟨-, hw, -⟩ | ⟨hc, -⟩
  · exact hw
  · exact hc.wsize

theorem room_init (enable : Bool) : (init enable).Room := by
  cases enable with
  | false => exact .anew (fun h => Bool.noConfusion h) rfl (by decide)
  | true => exact .going ⟨rfl, rfl, rfl⟩ [] 0 ⟨rfl, List.forall_mem_nil _, Held.nil _ _ _, Or.inr ⟨rfl, rfl⟩⟩

theorem Going.room_arrive {r : BaRun} {f : RecvFrame} (hq : f.attrib.qos = true) (hc : Going r.ctrl)
    {l : List (Nat × RecvFrame)} {w : Nat} (hl : Lifted r.ctrl l w)
    (hf : Behind r.ctrl f ∨ Within r.ctrl f) : (r.arrive f).Room := by
  unfold arrive
  by_cases hb : Behind r.ctrl f
  · rw [arrive_behind hq hc hb]
    exact .going hc l w hl
  obtain ⟨w, p, -, -, -, hout⟩ := hl.arrive hq hc (hf.resolve_left hb) hb
  rcases hout with ⟨c', h, hs, -, hl'⟩ | ⟨c', l', -, -, h, hs, -, hl'⟩
  · rw [h]
    exact .going (hc.same hs) l _ hl'
  · rw [h]
    exact .going (hc.same hs) _ _ hl'

theorem room_arrive {r : BaRun} {f : RecvFrame} (h : r.Room) (hF : r.Fits (.arrive f)) :
    (r.step (.arrive f)).Room := by
  show (r.arrive (stamp r.arrived f)).Room
  rcases h with ⟨hack, hw, hlen⟩ | ⟨hc, l, w, hl⟩
  · cases he : r.ctrl.enable with
    | false =>
      rw [arrive_off he]
      exact .anew hack hw hlen
    | true =>
      have ha := hack he
      have hF' := hF he
      rw [if_pos ha] at hF'
      have hfl := Rtl8192eu.flush (c := r.ctrl) (f := stamp r.arrived f) rfl he ha hF'
      unfold arrive
      rw [hfl]
      refine .going ⟨he, rfl, hw⟩ [] ((f.attrib.seqNum.val + 1) % 4096) ⟨rfl, List.forall_mem_nil _,
        Held.nil _ _ _, Or.inl ?_⟩
      exact (Nat.mod_mod _ _).symm
  · have hF' := hF hc.enable
    rw [if_neg (by rw [hc.ack]; decide)] at hF'
    exact Going.room_arrive rfl hc hl hF'

theorem room_step (r : BaRun) (e : BaEvent) (h : r.Room) (hF : r.Fits e) : (r.step e).Room := by
  cases e with
  | arrive f => exact room_arrive h hF
  | timeout cannotRun =>
    rcases h with ⟨hack, hw, hlen⟩ | ⟨hc, l, w, hl⟩
    · obtain ⟨c, up, hr, hp, hs⟩ := r.timeout_cases cannotRun
      show (r.timeout cannotRun).Room
      rw [hr]
      refine .anew (fun he => hs.2.2.trans (hack (hs.1.symm.trans he))) (hs.2.1.trans hw) ?_
      rw [← hp, List.length_append] at hlen
      show c.pending.length < 64
      omega
    · obtain ⟨c', u, l', w', hr, hs, -, hl', -⟩ := hl.timeout cannotRun
      show (r.timeout cannotRun).Room
      unfold timeout
      rw [hr]
      exact .going (hc.same hs) l' w' hl'
  | bar start =>
    rcases h with ⟨hack, hw, hlen⟩ | ⟨hc, l, w, hl⟩
    · exact .anew hack hw hlen
    · obtain ⟨w', hl'⟩ := hl.bar (hF hc.enable hc.ack)
      exact .going ⟨hc.enable, hc.ack, hc.wsize⟩ _ w' hl'
  | addba conf => exact .anew (fun _ => rfl) h.wsize h.length_lt
  | delba => exact .anew (fun he => Bool.noConfusion he) h.wsize h.length_lt

theorem announced_step (r : BaRun) (e : BaEvent) (h : ∀ n ∈ r.announced, 64 ≤ n) (hF : r.Fits e) :
    ∀ n ∈ (r.step e).announced, 64 ≤ n := by
  cases e with
  | arrive f =>
    show ∀ n ∈ (r.arrive _).announced, 64 ≤ n
    unfold arrive
    split
    · exact h
    · exact h
    · exact h
  | addba conf =>
    show ∀ n ∈ (if (processAddbaReq conf).accept then some (processAddbaReq conf).size
      else r.announced), 64 ≤ n
    cases ha : (processAddbaReq conf).accept with
    | false => exact h
    | true =>
      intro n hn
      obtain rfl : (processAddbaReq conf).size = n := Option.some.inj hn
      exact hF ha
  | timeout cannotRun => exact h
  | bar start => exact h
  | delba => exact h

/-! ## a gap at the window start -/

/-- the window starts at 1, the frames from 2 on have come and wait -/
structure Gap (r : BaRun) (n : Nat) : Prop where
  going : Going r.ctrl
  ind : r.ctrl.indicateSeq = 1
  length : r.ctrl.pending.length = n
  seqs : ∀ q ∈ r.ctrl.pending, 2 ≤ q.attrib.seqNum.val ∧ q.attrib.seqNum.val < n + 2

namespace Gap

variable {r : BaRun} {n : Nat} {f : RecvFrame}

theorem check (h : Gap r n) (hn : n < 63) (hf : f.attrib.seqNum.val = n + 2) :
    checkIndicateSeq r.ctrl f.attrib.seqNum = some r.ctrl := by
  have h1 : snLess (n + 2) 1 = false := by
    rw [snLess_circDistance]
    unfold circDistance
    exact decide_eq_false (by omega)
  have h2 : snLess 64 (n + 2) = false := by
    rw [snLess_circDistance]
    unfold circDistance
    exact decide_eq_false (by omega)
  unfold checkIndicateSeq
  rw [hf, h.ind, h.going.wsize]
  dsimp only
  rw [if_neg (show ¬ 1 = seqInit by decide), h1, if_neg Bool.false_ne_true, if_neg (by omega),
    and_fff, show (1 + 64 + 0xFFF) % 4096 = 64 from rfl, h2, if_neg Bool.false_ne_true, ← h.ind,
    ← h.going.wsize]

theorem insert (h : Gap r n) (hn : n < 63) (hf : f.attrib.seqNum.val = n + 2) :
    reorderInsert f r.ctrl.pending = some (r.ctrl.pending ++ [f]) := by
  apply reorderInsert_after
  intro q hq
  have := h.seqs q hq
  unfold After circDistance
  omega

theorem seqs_append (h : Gap r n) (hf : f.attrib.seqNum.val = n + 2) :
    ∀ q ∈ r.ctrl.pending ++ [f], 2 ≤ q.attrib.seqNum.val ∧ q.attrib.seqNum.val < n + 1 + 2 := by
  intro q hq
  rcases List.mem_append.mp hq with hq | hq
  · have := h.seqs q hq
    omega
  · rw [List.mem_singleton.mp hq]
    omega

/-- number 1 is still missing -/
theorem stop (h : Gap r n) (hn : n < 63) (hf : f.attrib.seqNum.val = n + 2) :
    indicateLoop r.ctrl.indicateSeq (r.ctrl.pending ++ [f])
      = (r.ctrl.indicateSeq, [], r.ctrl.pending ++ [f]) := by
  have hless : ∀ q ∈ r.ctrl.pending ++ [f], snLess r.ctrl.indicateSeq q.attrib.seqNum = true := by
    intro q hq
    have hq := h.seqs_append hf q hq
    rw [h.ind, snLess_circDistance]
    unfold circDistance
    exact decide_eq_true (by omega)
  cases hl : r.ctrl.pending ++ [f] with
  | nil => rfl
  | cons q l =>
    unfold indicateLoop
    rw [if_pos (hless q (hl ▸ List.mem_cons_self))]

theorem arrive (h : Gap r n) (hn : n < 63) :
    Gap (r.step (.data (Fin.ofNat 4096 (n + 2)))) (n + 1) := by
  obtain ⟨f, hf⟩ : ∃ f : RecvFrame,
      f = stamp r.arrived { id := 0, attrib := { seqNum := Fin.ofNat 4096 (n + 2) } } := ⟨_, rfl⟩
  have hseq : f.attrib.seqNum.val = n + 2 := by
    rw [hf]
    exact Nat.mod_eq_of_lt (by omega)
  obtain ⟨c', hrec, hs, hi, hp⟩ := recvIndicatepktReorder_handled (f := f) (by rw [hf]; rfl)
    h.going.enable h.going.ack (h.check hn hseq) ⟨rfl, rfl, rfl⟩ (h.insert hn hseq)
  rw [h.stop hn hseq] at hrec hi hp
  have hctrl : (r.step (.data (Fin.ofNat 4096 (n + 2)))).ctrl = c' := by
    show (r.arrive (stamp r.arrived _)).ctrl = c'
    rw [← hf]
    unfold BaRun.arrive
    rw [hrec]
  refine ⟨?_, ?_, ?_, ?_⟩
  · rw [hctrl]
    exact h.going.same hs
  · rw [hctrl, hi, h.ind]
  · rw [hctrl, hp, List.length_append, h.length]
    rfl
  · rw [hctrl, hp]
    exact h.seqs_append hseq

end Gap

def gapFrames (n : Nat) : List BaEvent := (List.range n).map fun i => .data (Fin.ofNat 4096 (i + 2))

theorem Gap.run {r : BaRun} (h : Gap r 0) {n : Nat} (hn : n ≤ 63) :
    Gap (run step r (gapFrames n)) n := by
  induction n with
  | zero => exact h
  | succ n ih =>
    unfold gapFrames
    rw [List.range_succ, List.map_append, run_append]
    exact (ih (by omega)).arrive (by omega)

theorem gap_addba (enable : Bool) {conf : AmpduConf} (h : (processAddbaReq conf).accept = true) :
    Gap (run step (init enable) [.addba conf, .data 0]) 0 := by
  have hfl := Rtl8192eu.flush (c := ((init enable).step (.addba conf)).ctrl)
    (f := stamp 0 { id := 0, attrib := { seqNum := 0 } }) rfl h rfl (List.forall_mem_nil _)
  have hctrl : (run step (init enable) [.addba conf, .data 0]).ctrl
      = { ((init enable).step (.addba conf)).ctrl with
          recAbbaRspAck := false, indicateSeq := 1, pending := [], bReorderWaiting := false, timer := false } := by
    show (((init enable).step (.addba conf)).arrive _).ctrl = _
    unfold BaRun.arrive
    change recvIndicatepktReorder _ (stamp ((init enable).step (.addba conf)).arrived _) = _ at hfl
    rw [hfl]
    rfl
  refine ⟨⟨?_, ?_, ?_⟩, ?_, ?_, ?_⟩
  · rw [hctrl]; exact h
  · rw [hctrl]
  · rw [hctrl]; rfl
  · rw [hctrl]
  · rw [hctrl]; rfl
  · rw [hctrl]; exact List.forall_mem_nil _

end BaRun

open BaRun

/-- **Fewer frames wait than were announced**, in every run whose responses announce 64 frames or
more and whose block ack requests and first frames keep what waits inside the window.  For a
smaller size that is announced there are frames that break it. -/
theorem ba_pending_lt_announced (enable : Bool) :
    (∀ es : List BaEvent, Along BaRun.step Fits (BaRun.init enable) es →
      ∀ n ∈ (run BaRun.step (BaRun.init enable) es).announced,
        (run BaRun.step (BaRun.init enable) es).ctrl.pending.length < n)
    ∧ ∀ conf, (processAddbaReq conf).accept = true → (processAddbaReq conf).size < 64 →
      ∃ fs : List (Fin 4096), (processAddbaReq conf).size ≤
        (run BaRun.step (BaRun.init enable) (.addba conf :: fs.map .data)).ctrl.pending.length := by
  constructor
  · intro es h n hn
    have hroom := run_inv room_step _ es (room_init enable) h
    have hann := run_inv (I := fun r : BaRun => ∀ n ∈ r.announced, 64 ≤ n) announced_step _ es
      (fun _ hn => by cases hn) h
    exact lt_of_lt_of_le hroom.length_lt (hann n hn)
  · intro conf ha hlt
    refine ⟨0 :: (List.range 63).map fun i => Fin.ofNat 4096 (i + 2), ?_⟩
    have hgap := (gap_addba enable ha).run (n := 63) le_rfl
    rw [← run_append] at hgap
    have hev : [BaEvent.addba conf, .data 0] ++ gapFrames 63
        = .addba conf :: ((0 :: (List.range 63).map fun i => Fin.ofNat 4096 (i + 2)).map .data) := by
      unfold gapFrames
      rw [List.map_cons, List.map_map]
      rfl
    rw [hev] at hgap
    rw [hgap.length]
    omega

theorem ba_pending_lt_announced_default :
    let r := run BaRun.step (BaRun.init true) [.addba {}, .data 0, .data 2, .bar 1, .data 3]
    r.announced = some 64 ∧ r.ctrl.pending.length = 2 ∧ r.ctrl.pending.length < 64 :=
  ⟨by decide, by decide, (ba_pending_lt_announced true).1
    [.addba {}, .data 0, .data 2, .bar 1, .data 3] (by decide) 64 (by decide)⟩

/-- 8 is announced and 8 frames wait -/
theorem ba_pending_eq_announced :
    let conf : AmpduConf := { driverRxAmpduFactor := 0 }
    let r := run BaRun.step (BaRun.init true) (.addba conf :: ([0, 2, 3, 4, 5, 6, 7, 8, 9].map .data))
    processAddbaReq conf = ⟨true, 8⟩ ∧ r.announced = some 8
      ∧ ¬ ∀ n ∈ r.announced, r.ctrl.pending.length < n := by
  decide

/-! ## frames are handed up in order -/

namespace BaRun

/-- A block ack request does not move the window start backwards, nor away from what waits.  A frame
that goes to the front of the list comes after the last one that was handed up. -/
def InOrder (r : BaRun) : BaEvent → Prop
  | .arrive f => Behind r.ctrl f ∨ Within r.ctrl f ∧
      ((∀ q ∈ r.ctrl.pending.head?, snLess f.attrib.seqNum q.attrib.seqNum = true) →
        ∀ z ∈ r.up.getLast?, snLess z.attrib.seqNum f.attrib.seqNum = true)
  | .timeout _ => True
  | .bar start => ¬ (r.ctrl.indicateSeq ≠ seqInit ∧ snLess start r.ctrl.indicateSeq = true)
      ∧ Covers r.ctrl start
  | .addba _ => False
  | .delba => False

/-- what was handed up and what waits, on positions -/
structure Ordered (r : BaRun) (u l : List (Nat × RecvFrame)) (w : Nat) : Prop where
  going : Going r.ctrl
  up : r.up = u.map Prod.snd
  wrapped : Wrapped u
  chain : (u ++ l).IsChain (Near 2048)
  lifted : Lifted r.ctrl l w
  first : r.ctrl.indicateSeq = seqInit → u = []

theorem ordered_init : (init true).Ordered [] [] 0 where
  going := ⟨rfl, rfl, rfl⟩
  up := rfl
  wrapped := List.forall_mem_nil _
  chain := List.isChain_nil
  lifted := ⟨rfl, List.forall_mem_nil _, Held.nil _ _ _, Or.inr ⟨rfl, rfl⟩⟩
  first := fun _ => rfl

theorem mod_ne_seqInit (n : Nat) : ¬ n % 4096 = seqInit := by
  unfold seqInit
  omega

/-- an arrival at a position after what was handed up last, or behind the head of the list -/
theorem Ordered.outcome {r : BaRun} {f : RecvFrame} {u l : List (Nat × RecvFrame)} {w p : Nat}
    (h : r.Ordered u l w) (hseq : p % 4096 = f.attrib.seqNum) (hout : Outcome r.ctrl f l w p)
    (hfront : (∀ y ∈ l.head?, p < y.1) → ∀ z ∈ u.getLast?, Near 2048 z (p, f)) :
    ∃ u l w, (r.arrive f).Ordered u l w := by
  unfold arrive
  rcases hout with ⟨c', hrec, hs, hi, hl⟩ | ⟨c', l', hpl, hle, hrec, hs, hi, hl⟩
  · rw [hrec]
    exact ⟨u, l, _, h.going.same hs, h.up, h.wrapped, h.chain, hl,
      fun e => absurd (hi.symm.trans e) (mod_ne_seqInit _)⟩
  · rw [hrec]
    have hchain : (u ++ l').IsChain (Near 2048) := by
      apply place_chain_append h.chain hpl (fun y hy => (hle y hy).1) _ hfront
      intro y hy
      exact (hle y hy).2.le
    have hwr : Wrapped l' := by
      intro x hx
      rcases List.mem_cons.mp ((place_perm hpl).mem_iff.mp hx) with rfl | hx
      · exact hseq
      · exact h.lifted.wrapped x hx
    refine ⟨u ++ (drain (slide 64 w p) l').2.1, _, _, h.going.same hs, ?_, ?_, ?_, hl,
      fun e => absurd (hi.symm.trans e) (mod_ne_seqInit _)⟩
    · show r.up ++ _ = _
      rw [h.up, List.map_append]
    · intro x hx
      rcases List.mem_append.mp hx with hx | hx
      · exact h.wrapped x hx
      · apply hwr x
        rw [← drain_append (slide 64 w p) l']
        exact List.mem_append_left _ hx
    · rw [List.append_assoc, drain_append]
      exact hchain

/-- nothing waits: the positions of what was handed up can be moved -/
theorem Ordered.shifted {r : BaRun} {u : List (Nat × RecvFrame)} {v w : Nat} (h : r.Ordered u [] w)
    (hind : r.ctrl.indicateSeq ≠ seqInit) (hv : r.ctrl.indicateSeq = v % 4096) :
    r.Ordered (shift 4096 u) [] v where
  going := h.going
  up := by
    rw [shift_snd]
    exact h.up
  wrapped := h.wrapped.shift
  chain := by
    have hc := h.chain
    rw [List.append_nil] at hc ⊢
    exact shift_chain 4096 hc
  lifted := ⟨h.lifted.pend, List.forall_mem_nil _, Held.nil _ _ _, Or.inl hv⟩
  first := fun e => absurd e hind

theorem Ordered.arrive_nil {r : BaRun} {f : RecvFrame} {u : List (Nat × RecvFrame)} {w : Nat}
    (hq : f.attrib.qos = true) (h : r.Ordered u [] w) (hb : ¬ Behind r.ctrl f)
    (hw : Within r.ctrl f) (hlast : ∀ z ∈ r.up.getLast?, snLess z.attrib.seqNum f.attrib.seqNum = true) :
    ∃ u l w, (r.arrive f).Ordered u l w := by
  cases hz : u.getLast? with
  | none =>
    -- the first frame to be handed up
    obtain ⟨w, p, -, hseq, hl, hout⟩ := h.lifted.arrive hq h.going hw hb
    refine Ordered.outcome ⟨h.going, h.up, h.wrapped, h.chain, hl, h.first⟩ hseq hout ?_
    intro _ z hz'
    rw [hz] at hz'
    cases hz'
  | some z =>
    have hzu : z ∈ u := List.mem_of_mem_getLast? hz
    have hind : r.ctrl.indicateSeq ≠ seqInit := by
      intro e
      rw [h.first e] at hzu
      cases hzu
    obtain ⟨n, hn⟩ : ∃ n : Nat, r.ctrl.indicateSeq = n % 4096 := by
      rcases h.lifted.ind with e | ⟨e, -⟩
      · exact ⟨w, e⟩
      · exact absurd e hind
    -- the distance of the frame from the last one handed up, and from the window start
    have hdz : 1 ≤ circDistance z.2.attrib.seqNum f.attrib.seqNum
        ∧ circDistance z.2.attrib.seqNum f.attrib.seqNum ≤ 2048 := by
      have := hlast z.2 (by rw [h.up, List.getLast?_map, hz]; rfl)
      rwa [snLess_circDistance, decide_eq_true_eq] at this
    have hdi : circDistance r.ctrl.indicateSeq f.attrib.seqNum < 2048 := by
      by_contra hge
      apply hb
      refine ⟨hind, ?_⟩
      rw [snLess_circDistance]
      unfold circDistance at hge ⊢
      exact decide_eq_true (by omega)
    have hzw := h.wrapped z hzu
    have hf := f.attrib.seqNum.isLt
    obtain ⟨p, hp⟩ : ∃ p, p = z.1 + 4096 + (circDistance z.2.attrib.seqNum f.attrib.seqNum).toNat :=
      ⟨_, rfl⟩
    obtain ⟨v, hv⟩ : ∃ v, v + (circDistance r.ctrl.indicateSeq f.attrib.seqNum).toNat = p := by
      refine ⟨p - (circDistance r.ctrl.indicateSeq f.attrib.seqNum).toNat, ?_⟩
      omega
    have hseq : p % 4096 = f.attrib.seqNum := by
      unfold circDistance at hp hdz
      omega
    have hvmod : r.ctrl.indicateSeq = v % 4096 := by
      unfold circDistance at hv hdi
      omega
    have hshift := h.shifted hind hvmod
    refine hshift.outcome hseq
      (arrive_lifted hq h.going hshift.lifted hw (by omega) (by omega) hseq (Or.inl hvmod)) ?_
    intro _ y hy
    obtain rfl : (z.1 + 4096, z.2) = y := by
      have : (shift 4096 u).getLast? = some (z.1 + 4096, z.2) := by
        unfold shift
        rw [List.getLast?_map, hz]
        rfl
      rw [this] at hy
      exact Option.some.inj hy
    show z.1 + 4096 < p ∧ p ≤ z.1 + 4096 + 2048
    omega

theorem Ordered.arrive_cons {r : BaRun} {f : RecvFrame} {u l : List (Nat × RecvFrame)}
    {x : Nat × RecvFrame} {w : Nat} (hq : f.attrib.qos = true) (h : r.Ordered u (x :: l) w)
    (hb : ¬ Behind r.ctrl f) (hw : Within r.ctrl f)
    (hfront : snLess f.attrib.seqNum x.2.attrib.seqNum = true →
      ∀ z ∈ r.up.getLast?, snLess z.attrib.seqNum f.attrib.seqNum = true) :
    ∃ u l w, (r.arrive f).Ordered u l w := by
  obtain ⟨w, p, hwp, hseq, hl, hout⟩ := h.lifted.arrive hq h.going hw hb
  refine Ordered.outcome ⟨h.going, h.up, h.wrapped, h.chain, hl, h.first⟩ hseq hout ?_
  intro hhead z hz
  have hpx : p < x.1 := hhead x rfl
  have hxw := hl.held.below x List.mem_cons_self
  have hx := hl.wrapped x List.mem_cons_self
  -- the last frame handed up is near the head of the list
  have hzx : Near 2048 z x := (List.isChain_append.mp h.chain).2.2 z hz x rfl
  have hless : snLess f.attrib.seqNum x.2.attrib.seqNum = true := by
    rw [← hseq, ← hx, snLess_mod (by omega) (by omega)]
    exact decide_eq_true hpx
  have hzf := hfront hless z.2 (by rw [h.up, List.getLast?_map, hz]; rfl)
  have h1 := hzx.1
  have h2 := hzx.2
  rw [← h.wrapped z (List.mem_of_mem_getLast? hz), ← hseq, snLess_mod (by omega) (by omega),
    decide_eq_true_eq] at hzf
  exact ⟨hzf, by show p ≤ z.1 + 2048; omega⟩

theorem Ordered.timeout {r : BaRun} {u l : List (Nat × RecvFrame)} {w : Nat} (h : r.Ordered u l w)
    (cannotRun : Bool) : ∃ u l w, (r.timeout cannotRun).Ordered u l w := by
  obtain ⟨c', v, l', w', hr, hs, hvl, hl', hi⟩ := h.lifted.timeout cannotRun
  unfold BaRun.timeout
  rw [hr]
  refine ⟨u ++ v, l', w', h.going.same hs, ?_, ?_, ?_, hl', ?_⟩
  · show r.up ++ _ = _
    rw [h.up, List.map_append]
  · intro x hx
    rcases List.mem_append.mp hx with hx | hx
    · exact h.wrapped x hx
    · exact h.lifted.wrapped x (hvl ▸ List.mem_append_left _ hx)
  · rw [List.append_assoc, hvl]
    exact h.chain
  · intro e
    -- before the first frame nothing waits
    have hl : l = [] := by
      rcases h.lifted.ind with e' | ⟨-, e'⟩
      · exact absurd (e'.symm.trans (hi e)) (mod_ne_seqInit w)
      · exact e'
    rw [h.first (hi e), (List.append_eq_nil_iff.mp (hvl.trans hl)).1]
    rfl

theorem Ordered.bar {r : BaRun} {u l : List (Nat × RecvFrame)} {w : Nat} {start : Fin 4096}
    (h : r.Ordered u l w) (hC : Covers r.ctrl start) :
    ∃ u l w, (r.step (.bar start)).Ordered u l w := by
  obtain ⟨w', hl'⟩ := h.lifted.bar hC
  refine ⟨shift 4096 u, shift 4096 l, w', ⟨h.going.enable, h.going.ack, h.going.wsize⟩, ?_,
    h.wrapped.shift, ?_, hl', ?_⟩
  · rw [shift_snd]
    exact h.up
  · rw [← shift_append]
    exact shift_chain 4096 h.chain
  · intro e
    have hlt := start.isLt
    change start.val = seqInit at e
    unfold seqInit at e
    omega

theorem ordered_step (r : BaRun) (e : BaEvent) (h : ∃ u l w, r.Ordered u l w) (hC : r.InOrder e) :
    ∃ u l w, (r.step e).Ordered u l w := by
  obtain ⟨u, l, w, h⟩ := h
  cases e with
  | arrive f =>
    show ∃ u l w, (r.arrive (stamp r.arrived f)).Ordered u l w
    by_cases hb : Behind r.ctrl f
    · have hrec := arrive_behind (f := stamp r.arrived f) rfl h.going hb
      unfold arrive
      rw [hrec]
      exact ⟨u, l, w, h.going, h.up, h.wrapped, h.chain, h.lifted, h.first⟩
    obtain ⟨hw, hfront⟩ := hC.resolve_left hb
    cases l with
    | nil =>
      apply Ordered.arrive_nil (f := stamp r.arrived f) rfl h hb hw
      apply hfront
      rw [h.lifted.pend]
      exact fun _ hq => by cases hq
    | cons x l =>
      refine Ordered.arrive_cons (f := stamp r.arrived f) rfl h hb hw fun hless => hfront ?_
      rw [h.lifted.pend]
      intro q hq
      obtain rfl : x.2 = q := Option.some.inj hq
      exact hless
  | timeout cannotRun => exact h.timeout cannotRun
  | bar start => exact h.bar hC.2
  | addba conf => exact hC.elim
  | delba => exact hC.elim

end BaRun

/-! ## no number twice within a window -/

theorem window_nodup {l : List RecvFrame} {start : Nat}
    (hc : l.IsChain (fun f g => snLess f.attrib.seqNum g.attrib.seqNum = true))
    (hw : ∀ f ∈ l, circDistance start f.attrib.seqNum < 64) :
    (l.map fun f => f.attrib.seqNum).Nodup := by
  have hlt : l.IsChain fun f g =>
      circDistance start f.attrib.seqNum < circDistance start g.attrib.seqNum := by
    apply hc.imp_of_mem_imp
    intro f g hf hg hfg
    have h1 := hw f hf
    have h2 := hw g hg
    rw [snLess_circDistance, decide_eq_true_eq] at hfg
    unfold circDistance at *
    omega
  have htrans : Trans (fun f g : RecvFrame => circDistance start f.attrib.seqNum < circDistance start g.attrib.seqNum)
      (fun f g : RecvFrame => circDistance start f.attrib.seqNum < circDistance start g.attrib.seqNum)
      (fun f g : RecvFrame => circDistance start f.attrib.seqNum < circDistance start g.attrib.seqNum) :=
    ⟨lt_trans⟩
  rw [List.Nodup, List.pairwise_map]
  refine (List.isChain_iff_pairwise.mp hlt).imp fun {f g} hfg e => ?_
  rw [e] at hfg
  exact lt_irrefl _ hfg

open BaRun

/-- **Block ack requests and the order**, where no request moves the window start backwards or away
from what waits, and a frame that goes to the front of the list comes after the last one handed
up.  The window start does not go back, frames are handed up in the order of `SN_LESS`, and
consecutive frames that fit into one window have different numbers. -/
theorem bar_run_inOrder (es : List BaEvent) (h : Along BaRun.step InOrder (BaRun.init true) es) :
    let r := run BaRun.step (BaRun.init true) es
    (∀ start, r.InOrder (.bar start) → r.ctrl.indicateSeq ≠ seqInit →
      snLess (r.step (.bar start)).ctrl.indicateSeq r.ctrl.indicateSeq = false)
    ∧ r.up.IsChain (fun f g => snLess f.attrib.seqNum g.attrib.seqNum = true)
    ∧ ∀ l, l <:+: r.up → ∀ start, (∀ f ∈ l, circDistance start f.attrib.seqNum < 64) →
      (l.map fun f => f.attrib.seqNum).Nodup := by
  dsimp only
  obtain ⟨u, l, w, ho⟩ := run_inv ordered_step _ es ⟨[], [], 0, ordered_init⟩ h
  have hchain : (run BaRun.step (BaRun.init true) es).up.IsChain
      (fun f g => snLess f.attrib.seqNum g.attrib.seqNum = true) := by
    rw [ho.up]
    exact ho.wrapped.snLess_chain ho.chain.left_of_append
  refine ⟨?_, hchain, ?_⟩
  · intro start hs hne
    have := hs.1
    rw [not_and, Bool.not_eq_true] at this
    exact this hne
  · intro m hm start hw
    have hm := List.IsChain.infix hchain hm
    exact window_nodup hm hw

instance decidableInOrder (r : BaRun) : ∀ e : BaEvent, Decidable (r.InOrder e)
  | .arrive f => inferInstanceAs (Decidable (Behind r.ctrl f ∨ Within r.ctrl f ∧
      ((∀ q ∈ r.ctrl.pending.head?, snLess f.attrib.seqNum q.attrib.seqNum = true) →
        ∀ z ∈ r.up.getLast?, snLess z.attrib.seqNum f.attrib.seqNum = true)))
  | .bar start => inferInstanceAs (Decidable (¬ (r.ctrl.indicateSeq ≠ seqInit
      ∧ snLess start r.ctrl.indicateSeq = true) ∧ Covers r.ctrl start))
  | .timeout _ => isTrue trivial
  | .addba _ => isFalse id
  | .delba => isFalse id

theorem bar_run_inOrder_passed :
    let r := run BaRun.step (BaRun.init true) [.data 4094, .data 0, .data 2, .bar 1, .data 3, .timeout false]
    r.up.map (fun f => f.attrib.seqNum.val) = [4094, 0, 2, 3]
      ∧ r.up.IsChain (fun f g => snLess f.attrib.seqNum g.attrib.seqNum = true) :=
  ⟨by decide, (bar_run_inOrder [.data 4094, .data 0, .data 2, .bar 1, .data 3, .timeout false]
    (by decide)).2.1⟩

/-- a block ack request that comes late: the window start goes back from 101 to 100, and frame 100
is handed up a second time -/
theorem bar_run_twice :
    let r := run BaRun.step (BaRun.init true) [.data 100]
    let r' := run BaRun.step (BaRun.init true) [.data 100, .bar 100, .data 100]
    r.ctrl.indicateSeq = 101 ∧ snLess (r.step (.bar 100)).ctrl.indicateSeq r.ctrl.indicateSeq = true
      ∧ r'.up.map (fun f => f.attrib.seqNum.val) = [100, 100]
      ∧ ¬ r'.up.IsChain (fun f g => snLess f.attrib.seqNum g.attrib.seqNum = true)
      ∧ ¬ (r'.up.map fun f => f.attrib.seqNum).Nodup := by
  decide

end Rtl8192eu
