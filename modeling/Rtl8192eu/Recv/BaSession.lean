import Rtl8192eu.Recv.BlockAck

/-!
# Changes of a block ack agreement

An accepted ADDBA request has the next frame start the window anew, a DELBA has frames handed up
as they come; both leave the frames that wait where they are.  A frame that arrives afterwards is
inserted by its distance on the circle from numbers of the old agreement, or passes them by.

* `BaRun.Follows`   the arriving frame is reordered and comes after everything left over;
* `flush`         such a frame takes everything that is left over up before it;
* `BaRun.Left`    what is left over, as an invariant;
* `BaRun.Alike`   a run and the same run with the pending list emptied at the change.
-/

namespace Rtl8192eu

open Run

/-! ## a frame after everything that waits -/

theorem snLess_circDistance (a b : Nat) :
    snLess a b = decide (1 ≤ circDistance a b ∧ circDistance a b ≤ 2048) := by
  rw [snLess_eq, Circ.circLess, decide_eq_decide]
  unfold circDistance
  omega

/-- `f` comes after `q`, so far that the window start after `f` is still after `q` -/
def After (q f : RecvFrame) : Prop :=
  1 ≤ circDistance q.attrib.seqNum f.attrib.seqNum ∧ circDistance q.attrib.seqNum f.attrib.seqNum ≤ 2046

instance decidableAfter (q f : RecvFrame) : Decidable (After q f) :=
  inferInstanceAs (Decidable (_ ∧ _))

theorem reorderInsert_after {f : RecvFrame} {l : List RecvFrame} (h : ∀ q ∈ l, After q f) :
    reorderInsert f l = some (l ++ [f]) := by
  induction l with
  | nil => rfl
  | cons g l ih =>
    have hg := h g List.mem_cons_self
    have hless : snLess g.attrib.seqNum f.attrib.seqNum = true := by
      rw [snLess_circDistance]
      exact decide_eq_true ⟨hg.1, by have := hg.2; omega⟩
    unfold reorderInsert
    rw [if_pos hless, ih fun q hq => h q (List.mem_cons_of_mem _ hq)]
    rfl

theorem indicateLoop_after {f : RecvFrame} {l : List RecvFrame} (h : ∀ q ∈ l, After q f) :
    indicateLoop ((f.attrib.seqNum.val + 1) % 4096) (l ++ [f])
      = ((f.attrib.seqNum.val + 1) % 4096, l ++ [f], []) := by
  have hf := f.attrib.seqNum.isLt
  induction l with
  | nil =>
    have hless : snLess ((f.attrib.seqNum.val + 1) % 4096) f.attrib.seqNum = false := by
      rw [snLess_circDistance]
      unfold circDistance
      exact decide_eq_false (by omega)
    show indicateLoop _ [f] = _
    unfold indicateLoop
    rw [hless, if_neg Bool.false_ne_true, if_neg (by omega)]
    rfl
  | cons g l ih =>
    have hg := h g List.mem_cons_self
    have hless : snLess ((f.attrib.seqNum.val + 1) % 4096) g.attrib.seqNum = false := by
      rw [snLess_circDistance]
      unfold After circDistance at hg
      unfold circDistance
      exact decide_eq_false (by omega)
    have hne : ¬ (f.attrib.seqNum.val + 1) % 4096 = g.attrib.seqNum.val := by
      unfold After circDistance at hg
      omega
    rw [List.cons_append]
    unfold indicateLoop
    rw [hless, if_neg Bool.false_ne_true, if_neg hne, ih fun q hq => h q (List.mem_cons_of_mem _ hq)]

/-- **The first frame of an agreement takes what waits up before it**, if it comes after all of
it. -/
theorem flush {c : RecvReorderCtrl} {f : RecvFrame} (hq : f.attrib.qos = true)
    (he : c.enable = true) (ha : c.recAbbaRspAck = true) (h : ∀ q ∈ c.pending, After q f) :
    recvIndicatepktReorder c f = (.handled,
      { c with recAbbaRspAck := false, indicateSeq := (f.attrib.seqNum.val + 1) % 4096, pending := [],
               bReorderWaiting := false, timer := false }, c.pending ++ [f]) := by
  have hless : snLess f.attrib.seqNum f.attrib.seqNum = false := by
    rw [snLess_circDistance]
    unfold circDistance
    exact decide_eq_false (by omega)
  have hcheck : checkIndicateSeq { c with recAbbaRspAck := false, indicateSeq := seqInit } f.attrib.seqNum
      = some { c with recAbbaRspAck := false, indicateSeq := (f.attrib.seqNum.val + 1) % 4096 } := by
    unfold checkIndicateSeq
    simp only [↓reduceIte, hless, Bool.false_eq_true, and_fff]
  have hon : (!f.attrib.qos || !c.enable) = false := by rw [hq, he]; rfl
  unfold recvIndicatepktReorder enqueueReorderRecvframe
  simp only [hon, ha, ↓reduceIte, hcheck, reorderInsert_after h, Option.map_some,
    recvIndicatepktsInOrder_false, indicateLoop_after h, Bool.not_true, Bool.false_eq_true,
    List.isEmpty_nil]

/-! ## the waiting flag and the timer decide about nothing but themselves -/

def RecvReorderCtrl.wait (c : RecvReorderCtrl) (b t : Bool) : RecvReorderCtrl :=
  { c with bReorderWaiting := b, timer := t }

theorem checkIndicateSeq_wait (c : RecvReorderCtrl) (b t : Bool) (seq : Nat) :
    checkIndicateSeq (c.wait b t) seq = (checkIndicateSeq c seq).map (·.wait b t) := by
  unfold checkIndicateSeq
  rw [show (c.wait b t).indicateSeq = c.indicateSeq from rfl,
    show (c.wait b t).wsizeB = c.wsizeB from rfl]
  dsimp only
  generalize (if c.indicateSeq = seqInit then seq else c.indicateSeq) = ind
  split_ifs <;> rfl

theorem reset_wait (c : RecvReorderCtrl) (b t : Bool) : (c.wait b t).reset = c.reset.wait b t := by
  show (if c.recAbbaRspAck = true then _ else _) = (if c.recAbbaRspAck = true then _ else _ : RecvReorderCtrl).wait b t
  split <;> rfl

theorem reorderLocked_wait (c : RecvReorderCtrl) (b t : Bool) (f : RecvFrame) :
    ∃ b' t', reorderLocked (c.wait b t) f = ((reorderLocked c f).1,
      (reorderLocked c f).2.1.wait b' t', (reorderLocked c f).2.2) := by
  unfold reorderLocked enqueueReorderRecvframe
  rw [reset_wait, checkIndicateSeq_wait]
  cases checkIndicateSeq c.reset f.attrib.seqNum with
  | none => exact ⟨b, t, rfl⟩
  | some d =>
    simp only [Option.map_some, recvIndicatepktsInOrder_false]
    rw [show (d.wait b t).pending = d.pending from rfl]
    cases reorderInsert f d.pending with
    | none => exact ⟨b, t, rfl⟩
    | some l =>
      simp only [Option.map_some]
      rw [show (d.wait b t).indicateSeq = d.indicateSeq from rfl]
      cases (indicateLoop d.indicateSeq l).2.2.isEmpty with
      | true => exact ⟨false, t, rfl⟩
      | false =>
        cases b with
        | true =>
          refine ⟨true, t, ?_⟩
          cases d.bReorderWaiting <;> rfl
        | false =>
          refine ⟨true, true, ?_⟩
          cases d.bReorderWaiting <;> rfl

theorem recvIndicatepktReorder_wait {c : RecvReorderCtrl} {f : RecvFrame} (hq : f.attrib.qos = true)
    (he : c.enable = true) (b t : Bool) :
    ∃ b' t', recvIndicatepktReorder (c.wait b t) f = ((recvIndicatepktReorder c f).1,
      (recvIndicatepktReorder c f).2.1.wait b' t', (recvIndicatepktReorder c f).2.2) := by
  obtain ⟨b', t', h⟩ := reorderLocked_wait c b t f
  rw [recvIndicatepktReorder_on hq he, recvIndicatepktReorder_on (c := c.wait b t) hq he, h]
  cases (reorderLocked c f).2.2.2 with
  | true => exact ⟨b', false, rfl⟩
  | false => exact ⟨b', t', rfl⟩

theorem timeout_wait (c : RecvReorderCtrl) (b t cannotRun : Bool) :
    ∃ b' t', rtwReorderingCtrlTimeoutHandler (c.wait b t) cannotRun
      = ((rtwReorderingCtrlTimeoutHandler c cannotRun).1.wait b' t',
          (rtwReorderingCtrlTimeoutHandler c cannotRun).2) := by
  cases cannotRun with
  | true => exact ⟨b, t, rfl⟩
  | false =>
    unfold rtwReorderingCtrlTimeoutHandler recvIndicatepktsInOrder
    dsimp only [RecvReorderCtrl.wait]
    cases c.pending with
    | nil => exact ⟨false, true, rfl⟩
    | cons f l => exact ⟨false, _, rfl⟩

/-! ## the frames of a run -/

theorem timeout_append (c : RecvReorderCtrl) (cannotRun : Bool) :
    (rtwReorderingCtrlTimeoutHandler c cannotRun).2
      ++ (rtwReorderingCtrlTimeoutHandler c cannotRun).1.pending = c.pending := by
  cases cannotRun with
  | true => rfl
  | false => exact recvIndicatepktsInOrder_append { c with bReorderWaiting := false } true

theorem timeout_same (c : RecvReorderCtrl) (cannotRun : Bool) :
    c.Same (rtwReorderingCtrlTimeoutHandler c cannotRun).1 := by
  cases cannotRun with
  | true => exact ⟨rfl, rfl, rfl⟩
  | false =>
    cases h : c.pending with
    | nil =>
      obtain ⟨c', hc, hs, -⟩ := timeout_nil h
      rw [hc]
      exact hs
    | cons f l =>
      obtain ⟨c', hc, hs, -⟩ := timeout_cons h
      rw [hc]
      exact hs

namespace BaRun

/-- an arrival is rejected, queued with those that wait and handed up as far as it goes, or handed
up at once -/
inductive Arrival (r : BaRun) (f : RecvFrame) (r' : BaRun) : Prop
  | fail (he : r.ctrl.enable = true) (hp : r'.ctrl.pending = r.ctrl.pending) (hu : r'.up = r.up)
      (ha : r'.accepted = r.accepted)
  | handled (he : r.ctrl.enable = true) (up : List RecvFrame)
      (hp : (up ++ r'.ctrl.pending).Perm (f :: r.ctrl.pending)) (hu : r'.up = r.up ++ up)
      (ha : r'.accepted = r.accepted ++ [f])
  | success (he : r.ctrl.enable = false) (hp : r'.ctrl.pending = r.ctrl.pending)
      (hu : r'.up = r.up ++ [f]) (ha : r'.accepted = r.accepted ++ [f])

theorem arrive_off {r : BaRun} {f : RecvFrame} (he : r.ctrl.enable = false) :
    r.arrive f = { r with ctrl := r.ctrl.direct f, arrived := r.arrived + 1,
                          accepted := r.accepted ++ [f], up := r.up ++ [f] } := by
  have h : recvIndicatepktReorder r.ctrl f = (.success, r.ctrl, []) := by
    unfold recvIndicatepktReorder
    simp [he]
  unfold arrive
  rw [h]

theorem arrive_cases {r : BaRun} {f : RecvFrame} (hq : f.attrib.qos = true) :
    Arrival r f (r.arrive f) := by
  cases he : r.ctrl.enable with
  | false =>
    rw [arrive_off he]
    exact .success he rfl rfl rfl
  | true =>
    have hperm := recvIndicatepktReorder_perm r.ctrl f
    unfold arrive
    rcases h : recvIndicatepktReorder r.ctrl f with ⟨ret, c, up⟩
    rw [h] at hperm
    cases ret with
    | fail => exact .fail he hperm rfl rfl
    | handled => exact .handled he up hperm rfl rfl
    | success =>
      -- with reordering on, every branch fails or handles the frame
      exfalso
      unfold recvIndicatepktReorder at h
      simp only [hq, he, Bool.not_true, Bool.or_self, Bool.false_eq_true, ↓reduceIte] at h
      split at h
      · cases h
      split at h
      · cases h
      split at h
      · cases h
      · cases h

/-- a timer firing hands up from the head of the list -/
theorem timeout_cases (r : BaRun) (cannotRun : Bool) :
    ∃ c up, r.timeout cannotRun = { r with ctrl := c, up := r.up ++ up }
      ∧ up ++ c.pending = r.ctrl.pending ∧ r.ctrl.Same c := by
  refine ⟨_, _, rfl, ?_, ?_⟩
  · exact timeout_append { r.ctrl with timer := false } cannotRun
  · exact timeout_same { r.ctrl with timer := false } cannotRun

theorem arrive_arrived (r : BaRun) (f : RecvFrame) :
    (r.arrive f).arrived = r.arrived + 1 ∧ (r.arrive f).mark = r.mark := by
  unfold arrive
  split
  · exact ⟨rfl, rfl⟩
  · exact ⟨rfl, rfl⟩
  · exact ⟨rfl, rfl⟩

/-- **Nothing is lost**: what was accepted waits or was handed up. -/
def Kept (r : BaRun) : Prop := (r.up ++ r.ctrl.pending).Perm r.accepted

theorem kept_step (r : BaRun) (e : BaEvent) (h : r.Kept) : (r.step e).Kept := by
  cases e with
  | arrive f =>
    show ((r.arrive _).up ++ (r.arrive _).ctrl.pending).Perm (r.arrive _).accepted
    rcases arrive_cases (r := r) (f := stamp r.arrived f) rfl with
      ⟨-, hp, hu, ha⟩ | ⟨-, up, hp, hu, ha⟩ | ⟨-, hp, hu, ha⟩
    · rw [hp, hu, ha]
      exact h
    · rw [hu, ha, List.append_assoc]
      refine ((hp.append_left r.up).trans List.perm_middle).trans ?_
      exact (h.cons _).trans (List.perm_append_singleton _ _).symm
    · rw [hp, hu, ha, List.append_assoc, List.singleton_append]
      exact List.perm_middle.trans ((h.cons _).trans (List.perm_append_singleton _ _).symm)
  | timeout cannotRun =>
    obtain ⟨c, up, hr, hp, -⟩ := r.timeout_cases cannotRun
    show (r.timeout cannotRun).Kept
    rw [hr]
    show (r.up ++ up ++ c.pending).Perm r.accepted
    rw [List.append_assoc, hp]
    exact h
  | bar start => exact h
  | addba conf => exact h
  | delba => exact h

/-! ## what is left over -/

/-- a frame that arrives while frames of an earlier agreement wait is reordered and comes after
all of them -/
def Follows (r : BaRun) : BaEvent → Prop
  | .arrive f => ∀ q ∈ r.ctrl.pending, q.id < r.mark → r.ctrl.enable = true ∧ After q f
  | _ => True

instance decidableFollows (r : BaRun) : ∀ e : BaEvent, Decidable (r.Follows e)
  | .arrive f => inferInstanceAs
      (Decidable (∀ q ∈ r.ctrl.pending, q.id < r.mark → r.ctrl.enable = true ∧ After q f))
  | .timeout _ => isTrue trivial
  | .bar _ => isTrue trivial
  | .addba _ => isTrue trivial
  | .delba => isTrue trivial

/-- frames of an earlier agreement wait only until the first frame of the next arrives -/
structure Left (r : BaRun) : Prop where
  mark : r.mark ≤ r.arrived
  fresh : ∀ q ∈ r.up ++ r.ctrl.pending, q.id < r.arrived
  left : ∀ q ∈ r.ctrl.pending, q.id < r.mark →
    r.mark = r.arrived ∧ (r.ctrl.enable = true → r.ctrl.recAbbaRspAck = true)

theorem left_init (enable : Bool) : (init enable).Left where
  mark := le_rfl
  fresh := List.forall_mem_nil _
  left := List.forall_mem_nil _

theorem Left.all {r : BaRun} (hL : r.Left) {q : RecvFrame} (hq : q ∈ r.ctrl.pending)
    (hm : q.id < r.mark) : ∀ g ∈ r.ctrl.pending, g.id < r.mark := by
  intro g hg
  rw [(hL.left q hq hm).1]
  exact hL.fresh g (List.mem_append_right _ hg)

/-- **A frame that follows takes what is left over up before it.** -/
theorem Left.flush {r : BaRun} {f : RecvFrame} (hL : r.Left) (hF : r.Follows (.arrive f))
    {q : RecvFrame} (hq : q ∈ r.ctrl.pending) (hm : q.id < r.mark) :
    r.step (.arrive f) = { r with
      ctrl := { r.ctrl with recAbbaRspAck := false, pending := [], bReorderWaiting := false,
                            indicateSeq := (f.attrib.seqNum.val + 1) % 4096, timer := false }
      arrived := r.arrived + 1
      accepted := r.accepted ++ [stamp r.arrived f]
      up := r.up ++ (r.ctrl.pending ++ [stamp r.arrived f]) } := by
  have he := (hF q hq hm).1
  have hflush := Rtl8192eu.flush (c := r.ctrl) (f := stamp r.arrived f) rfl he
    ((hL.left q hq hm).2 he) fun g hg => (hF g hg (hL.all hq hm g hg)).2
  show r.arrive (stamp r.arrived f) = _
  unfold arrive
  rw [hflush]
  rfl

theorem fresh_arrive {r : BaRun} {f : RecvFrame}
    (h : ∀ q ∈ r.up ++ r.ctrl.pending, q.id < r.arrived) :
    ∀ q ∈ (r.step (.arrive f)).up ++ (r.step (.arrive f)).ctrl.pending,
      q.id < (r.step (.arrive f)).arrived := by
  intro q hq
  show q.id < (r.arrive _).arrived
  rw [(arrive_arrived r _).1]
  -- a frame of the new state is the one that arrived or one of the old state
  have hmem : q = stamp r.arrived f ∨ q ∈ r.up ++ r.ctrl.pending := by
    change q ∈ (r.arrive (stamp r.arrived f)).up ++ (r.arrive (stamp r.arrived f)).ctrl.pending at hq
    rcases arrive_cases (r := r) (f := stamp r.arrived f) rfl with
      ⟨-, hp, hu, -⟩ | ⟨-, up, hp, hu, -⟩ | ⟨-, hp, hu, -⟩
    · rw [hp, hu] at hq
      exact Or.inr hq
    · rw [hu, List.append_assoc] at hq
      rcases List.mem_append.mp hq with hq | hq
      · exact Or.inr (List.mem_append_left _ hq)
      rcases List.mem_cons.mp (hp.mem_iff.mp hq) with hq | hq
      · exact Or.inl hq
      · exact Or.inr (List.mem_append_right _ hq)
    · rw [hp, hu, List.append_assoc, List.singleton_append] at hq
      rcases List.mem_append.mp hq with hq | hq
      · exact Or.inr (List.mem_append_left _ hq)
      rcases List.mem_cons.mp hq with hq | hq
      · exact Or.inl hq
      · exact Or.inr (List.mem_append_right _ hq)
  rcases hmem with rfl | hq
  · exact Nat.lt_succ_self _
  · exact Nat.lt_succ_of_lt (h q hq)

theorem left_step (r : BaRun) (e : BaEvent) (hL : r.Left) (hF : r.Follows e) : (r.step e).Left := by
  cases e with
  | arrive f =>
    have hmark : (r.step (.arrive f)).mark = r.mark := (arrive_arrived r _).2
    have harr : (r.step (.arrive f)).arrived = r.arrived + 1 := (arrive_arrived r _).1
    refine ⟨by rw [hmark, harr]; exact Nat.le_succ_of_le hL.mark, fresh_arrive hL.fresh, ?_⟩
    by_cases hx : ∃ q ∈ r.ctrl.pending, q.id < r.mark
    · obtain ⟨q, hq, hm⟩ := hx
      rw [hL.flush hF hq hm]
      exact List.forall_mem_nil _
    · -- nothing was left over, and the new frame belongs to this agreement
      intro q hq hm
      rw [hmark] at hm
      exfalso
      change q ∈ (r.arrive (stamp r.arrived f)).ctrl.pending at hq
      rcases arrive_cases (r := r) (f := stamp r.arrived f) rfl with
        ⟨-, hp, -⟩ | ⟨-, up, hp, -⟩ | ⟨-, hp, -⟩
      · exact hx ⟨q, hp ▸ hq, hm⟩
      · rcases List.mem_cons.mp (hp.mem_iff.mp (List.mem_append_right _ hq)) with rfl | hq
        · have hlt : r.arrived < r.mark := hm
          have := hL.mark
          omega
        · exact hx ⟨q, hq, hm⟩
      · exact hx ⟨q, hp ▸ hq, hm⟩
  | timeout cannotRun =>
    obtain ⟨c, up, hr, hp, hs⟩ := r.timeout_cases cannotRun
    show (r.timeout cannotRun).Left
    rw [hr]
    refine ⟨hL.mark, ?_, ?_⟩
    · show ∀ q ∈ r.up ++ up ++ c.pending, q.id < r.arrived
      rw [List.append_assoc, hp]
      exact hL.fresh
    · intro q hq hm
      obtain ⟨h1, h2⟩ := hL.left q (hp ▸ List.mem_append_right up hq) hm
      refine ⟨h1, fun he => ?_⟩
      show c.recAbbaRspAck = true
      rw [hs.2.2]
      exact h2 (hs.1 ▸ he)
  | bar start => exact ⟨hL.mark, hL.fresh, hL.left⟩
  | addba conf => exact ⟨le_rfl, hL.fresh, fun _ _ _ => ⟨rfl, fun _ => rfl⟩⟩
  | delba => exact ⟨le_rfl, hL.fresh, fun _ _ _ => ⟨rfl, fun he => Bool.noConfusion he⟩⟩

/-! ## the order across a change -/

theorem step_up (r : BaRun) (e : BaEvent) : ∃ us, (r.step e).up = r.up ++ us := by
  cases e with
  | arrive f =>
    rcases arrive_cases (r := r) (f := stamp r.arrived f) rfl with
      ⟨-, -, hu, -⟩ | ⟨-, up, -, hu, -⟩ | ⟨-, -, hu, -⟩
    · exact ⟨[], hu.trans (List.append_nil _).symm⟩
    · exact ⟨up, hu⟩
    · exact ⟨_, hu⟩
  | timeout cannotRun =>
    obtain ⟨c, up, hr, -⟩ := r.timeout_cases cannotRun
    exact ⟨up, congrArg BaRun.up hr⟩
  | bar start => exact ⟨[], (List.append_nil _).symm⟩
  | addba conf => exact ⟨[], (List.append_nil _).symm⟩
  | delba => exact ⟨[], (List.append_nil _).symm⟩

/-- `q` waits and no frame has arrived since the change after `m` frames, or it was handed up
before all that arrived since -/
inductive Before (q : RecvFrame) (m : Nat) (r : BaRun) : Prop
  | waits (hq : q ∈ r.ctrl.pending) (hm : r.mark = m) (ha : r.arrived = m)
  | passed (pre post : List RecvFrame) (hu : r.up = pre ++ post) (hq : q ∈ pre)
      (hpre : ∀ g ∈ pre, g.id < m)

theorem before_step {q : RecvFrame} {m : Nat} (r : BaRun) (e : BaEvent) (hL : r.Left)
    (hF : r.Follows e) (hB : Before q m r) : Before q m (r.step e) := by
  rcases hB with ⟨hq, hm, ha⟩ | ⟨pre, post, hu, hq, hpre⟩
  · have hold : ∀ g ∈ r.up ++ r.ctrl.pending, g.id < m := ha ▸ hL.fresh
    cases e with
    | arrive f =>
      rw [hL.flush hF hq (hm ▸ hold q (List.mem_append_right _ hq))]
      exact .passed (r.up ++ r.ctrl.pending) [stamp r.arrived f] (List.append_assoc _ _ _).symm
        (List.mem_append_right _ hq) hold
    | timeout cannotRun =>
      obtain ⟨c, up, hr, hp, -⟩ := r.timeout_cases cannotRun
      rw [← hp] at hq hold
      show Before q m (r.timeout cannotRun)
      rw [hr]
      rcases List.mem_append.mp hq with hq | hq
      · refine .passed (r.up ++ up) [] (List.append_nil _).symm (List.mem_append_right _ hq) ?_
        intro g hg
        rw [← List.append_assoc] at hold
        exact hold g (List.mem_append_left _ hg)
      · exact .waits hq hm ha
    | bar start => exact .waits hq hm ha
    | addba conf => exact .waits hq ha ha
    | delba => exact .waits hq ha ha
  · obtain ⟨us, hus⟩ := r.step_up e
    exact .passed pre (post ++ us) (by rw [hus, hu, List.append_assoc]) hq hpre

theorem Before.idxOf {q g : RecvFrame} {m : Nat} {r : BaRun} (hL : r.Left) (hB : Before q m r)
    (hg : g ∈ r.up) (hm : m ≤ g.id) : r.up.idxOf q < r.up.idxOf g := by
  rcases hB with ⟨-, -, ha⟩ | ⟨pre, post, hu, hq, hpre⟩
  · have := hL.fresh g (List.mem_append_left _ hg)
    omega
  · have hgpre : g ∉ pre := by
      intro h
      have := hpre g h
      omega
    rw [hu, List.idxOf_append_of_mem hq, List.idxOf_append_of_notMem hgpre]
    exact Nat.lt_of_lt_of_le (List.idxOf_lt_length_of_mem hq) (Nat.le_add_right _ _)

/-! ## the same run without what is left over -/

/-- the frame is reordered or handed up, not rejected -/
def Accepts (r : BaRun) (f : RecvFrame) : Prop :=
  (recvIndicatepktReorder r.ctrl (stamp r.arrived f)).1 ≠ .fail

/-- the pending list is emptied -/
def clear (r : BaRun) : BaRun := { r with ctrl := { r.ctrl with pending := [] } }

/-- `s` differs from `r` in nothing that decides about frames, or `r` waits for its next frame to
start the window anew and `s` does the same with an empty list -/
inductive Alike (r s : BaRun) : Prop
  | same (ha : s.arrived = r.arrived) (b t : Bool) (hc : s.ctrl = r.ctrl.wait b t)
  | anew (ha : s.arrived = r.arrived) (hs : r.ctrl.Same s.ctrl) (hp : s.ctrl.pending = [])
      (hold : ∀ q ∈ r.ctrl.pending, q.id < r.mark)
      (hack : r.ctrl.enable = true → r.ctrl.recAbbaRspAck = true)

/-- the three changes of an agreement -/
def Change : BaEvent → Prop
  | .addba _ => True
  | .delba => True
  | _ => False

theorem alike_clear {r : BaRun} {e : BaEvent} (hL : r.Left) (he : Change e) :
    Alike (r.step e) (r.step e).clear := by
  have hold : ∀ q ∈ r.ctrl.pending, q.id < r.arrived := fun q hq =>
    hL.fresh q (List.mem_append_right _ hq)
  cases e with
  | addba conf => exact .anew rfl ⟨rfl, rfl, rfl⟩ rfl hold fun _ => rfl
  | delba => exact .anew rfl ⟨rfl, rfl, rfl⟩ rfl hold fun h => Bool.noConfusion h
  | arrive f => exact he.elim
  | timeout cannotRun => exact he.elim
  | bar start => exact he.elim

theorem arrive_wait {r s : BaRun} {f : RecvFrame} (hq : f.attrib.qos = true)
    (ha : s.arrived = r.arrived) {b t : Bool} (hc : s.ctrl = r.ctrl.wait b t) :
    Alike (r.arrive f) (s.arrive f) := by
  have harr : (s.arrive f).arrived = (r.arrive f).arrived := by
    rw [(arrive_arrived s f).1, (arrive_arrived r f).1, ha]
  cases he : r.ctrl.enable with
  | false =>
    refine .same harr b t ?_
    rw [arrive_off he, arrive_off (r := s) (by rw [hc]; exact he)]
    show s.ctrl.direct f = (r.ctrl.direct f).wait b t
    rw [hc]
    rfl
  | true =>
    obtain ⟨b', t', h⟩ := recvIndicatepktReorder_wait hq he b t
    rw [← hc] at h
    rcases hr : recvIndicatepktReorder r.ctrl f with ⟨ret, c, up⟩
    rw [hr] at h
    have hctrl : ∀ ret', ret = ret' → ret' ≠ .success →
        (r.arrive f).ctrl = c ∧ (s.arrive f).ctrl = c.wait b' t' := by
      rintro ret' rfl hne
      unfold arrive
      rw [hr, h]
      cases ret with
      | success => exact absurd rfl hne
      | fail => exact ⟨rfl, rfl⟩
      | handled => exact ⟨rfl, rfl⟩
    cases ret with
    | fail =>
      obtain ⟨h1, h2⟩ := hctrl _ rfl (by decide)
      exact .same harr b' t' (by rw [h1, h2])
    | handled =>
      obtain ⟨h1, h2⟩ := hctrl _ rfl (by decide)
      exact .same harr b' t' (by rw [h1, h2])
    | success =>
      refine .same harr b' t' ?_
      unfold arrive
      rw [hr, h]
      rfl

theorem alike_arrive {r s : BaRun} {f : RecvFrame} (hF : r.Follows (.arrive f)) (hA : Alike r s) :
    Alike (r.step (.arrive f)) (s.step (.arrive f)) := by
  rcases hA with ⟨ha, b, t, hc⟩ | ⟨ha, hs, hp, hold, hack⟩
  · show Alike (r.arrive (stamp r.arrived f)) (s.arrive (stamp s.arrived f))
    rw [ha]
    exact arrive_wait rfl ha hc
  · have harr : (s.step (.arrive f)).arrived = (r.step (.arrive f)).arrived := by
      show (s.arrive _).arrived = (r.arrive _).arrived
      rw [(arrive_arrived s _).1, (arrive_arrived r _).1, ha]
    cases he : r.ctrl.enable with
    | true =>
      -- both start the window at the new frame, and nothing waits afterwards
      have hr := Rtl8192eu.flush (c := r.ctrl) (f := stamp r.arrived f) rfl he (hack he)
        fun q hq => (hF q hq (hold q hq)).2
      have hs' := Rtl8192eu.flush (c := s.ctrl) (f := stamp r.arrived f) rfl (hs.1.trans he)
        (hs.2.2.trans (hack he)) (by rw [hp]; exact List.forall_mem_nil _)
      refine .same harr false false ?_
      show (s.arrive (stamp s.arrived f)).ctrl = ((r.arrive (stamp r.arrived f)).ctrl).wait false false
      rw [ha]
      unfold arrive
      rw [hr, hs']
      simp only [RecvReorderCtrl.wait, hs.1, hs.2.1]
    | false =>
      have hnil : r.ctrl.pending = [] := by
        cases hl : r.ctrl.pending with
        | nil => rfl
        | cons q l =>
          have hq : q ∈ r.ctrl.pending := hl ▸ List.mem_cons_self
          have := (hF q hq (hold q hq)).1
          rw [he] at this
          cases this
      refine .same harr s.ctrl.bReorderWaiting s.ctrl.timer ?_
      show (s.arrive (stamp s.arrived f)).ctrl = ((r.arrive (stamp r.arrived f)).ctrl).wait _ _
      rw [ha, arrive_off he, arrive_off (hs.1.trans he)]
      simp only [RecvReorderCtrl.wait, RecvReorderCtrl.direct, hs.1, hs.2.1, hs.2.2, hp, hnil]

theorem alike_step {r s : BaRun} (e : BaEvent) (hL : r.Left) (hF : r.Follows e) (hA : Alike r s) :
    Alike (r.step e) (s.step e) := by
  cases e with
  | arrive f => exact alike_arrive hF hA
  | timeout cannotRun =>
    rcases hA with ⟨ha, b, t, hc⟩ | ⟨ha, hs, hp, hold, hack⟩
    · obtain ⟨b', t', h⟩ := timeout_wait { r.ctrl with timer := false } b false cannotRun
      refine .same ha b' t' ?_
      show (rtwReorderingCtrlTimeoutHandler { s.ctrl with timer := false } cannotRun).1 = _
      rw [hc]
      exact congrArg Prod.fst h
    · obtain ⟨c, up, hr, hpr, hsr⟩ := r.timeout_cases cannotRun
      obtain ⟨d, up', hd, hpd, hsd⟩ := s.timeout_cases cannotRun
      have hnil : d.pending = [] := (List.append_eq_nil_iff.mp (hpd.trans hp)).2
      show Alike (r.timeout cannotRun) (s.timeout cannotRun)
      rw [hr, hd]
      refine .anew ha ⟨?_, ?_, ?_⟩ hnil (fun q hq => hold q (hpr ▸ List.mem_append_right up hq)) ?_
      · exact (hsd.1.trans hs.1).trans hsr.1.symm
      · exact (hsd.2.1.trans hs.2.1).trans hsr.2.1.symm
      · exact (hsd.2.2.trans hs.2.2).trans hsr.2.2.symm
      · intro he
        exact hsr.2.2.trans (hack (hsr.1.symm.trans he))
  | bar start =>
    rcases hA with ⟨ha, b, t, hc⟩ | ⟨ha, hs, hp, hold, hack⟩
    · exact .same ha b t (congrArg (·.processBar start) hc)
    · exact .anew ha hs hp hold hack
  | addba conf =>
    have hold : ∀ q ∈ r.ctrl.pending, q.id < r.arrived := fun q hq =>
      hL.fresh q (List.mem_append_right _ hq)
    rcases hA with ⟨ha, b, t, hc⟩ | ⟨ha, hs, hp, -, -⟩
    · exact .same ha b t (congrArg (·.addBaRspHdl (processAddbaReq conf)) hc)
    · exact .anew ha ⟨rfl, hs.2.1, rfl⟩ hp hold fun _ => rfl
  | delba =>
    have hold : ∀ q ∈ r.ctrl.pending, q.id < r.arrived := fun q hq =>
      hL.fresh q (List.mem_append_right _ hq)
    rcases hA with ⟨ha, b, t, hc⟩ | ⟨ha, hs, hp, -, -⟩
    · exact .same ha b t (congrArg (·.onDelba) hc)
    · exact .anew ha ⟨rfl, hs.2⟩ hp hold fun h => Bool.noConfusion h

theorem alike_run {r s : BaRun} (es : List BaEvent) (hL : r.Left) (hF : Along step Follows r es)
    (hA : Alike r s) : Alike (run step r es) (run step s es) := by
  induction es generalizing r s with
  | nil => exact hA
  | cons e es ih => exact ih (left_step r e hL hF.1) hF.2 (alike_step e hL hF.1 hA)

theorem Alike.accepts {r s : BaRun} {f : RecvFrame} (hA : Alike r s)
    (hF : r.Follows (.arrive f)) (h : s.Accepts f) : r.Accepts f := by
  rcases hA with ⟨ha, b, t, hc⟩ | ⟨-, -, -, hold, hack⟩
  · cases he : r.ctrl.enable with
    | false =>
      unfold Accepts recvIndicatepktReorder
      simp [he]
    | true =>
      obtain ⟨b', t', hw⟩ :=
        recvIndicatepktReorder_wait (c := r.ctrl) (f := stamp r.arrived f) rfl he b t
      unfold Accepts at h
      rw [ha, hc, hw] at h
      exact h
  · cases he : r.ctrl.enable with
    | false =>
      unfold Accepts recvIndicatepktReorder
      simp [he]
    | true =>
      have hr := Rtl8192eu.flush (c := r.ctrl) (f := stamp r.arrived f) rfl he (hack he)
        fun q hq => (hF q hq (hold q hq)).2
      unfold Accepts
      rw [hr]
      show RxRet.handled ≠ RxRet.fail
      decide

/-! ## all runs -/

theorem left_run {enable : Bool} {es : List BaEvent} (h : Along step Follows (init enable) es) :
    (run step (init enable) es).Left :=
  run_inv left_step _ es (left_init enable) h

theorem before_run {q : RecvFrame} {m : Nat} {r : BaRun} {es : List BaEvent} (hL : r.Left)
    (hB : Before q m r) (h : Along step Follows r es) : Before q m (run step r es) :=
  (run_inv (I := fun r => r.Left ∧ Before q m r)
    (fun r e hI hF => ⟨left_step r e hI.1 hF, before_step r e hI.1 hF hI.2⟩) r es ⟨hL, hB⟩ h).2

theorem change_waits {r : BaRun} {e : BaEvent} {q : RecvFrame} (he : Change e)
    (hq : q ∈ r.ctrl.pending) : Before q r.arrived (r.step e) := by
  cases e with
  | addba conf => exact .waits hq rfl rfl
  | delba => exact .waits hq rfl rfl
  | arrive f => exact he.elim
  | timeout cannotRun => exact he.elim
  | bar start => exact he.elim

instance decidableAccepts (r : BaRun) (f : RecvFrame) : Decidable (r.Accepts f) :=
  inferInstanceAs (Decidable (_ ≠ _))

end BaRun

open BaRun

/-- **Changes of a block ack agreement**, where every frame that arrives while frames of an earlier
agreement wait is reordered and comes after them.  A frame that waits at a change is handed up
before all frames that arrive after it; a frame is rejected only if it would be with an empty
list at the change; what was accepted waits or was handed up. -/
theorem ba_change_keeps_order (enable : Bool) (es es' : List BaEvent) (e : BaEvent) (he : Change e)
    (hF : Along BaRun.step Follows (BaRun.init enable) (es ++ e :: es')) :
    let r := run BaRun.step (BaRun.init enable) es
    let r' := run BaRun.step (BaRun.init enable) (es ++ e :: es')
    (∀ q ∈ r.ctrl.pending, ∀ g ∈ r'.up, r.arrived ≤ g.id → r'.up.idxOf q < r'.up.idxOf g)
    ∧ (∀ f, r'.Follows (.arrive f) → (run BaRun.step (r.step e).clear es').Accepts f → r'.Accepts f)
    ∧ (r'.up ++ r'.ctrl.pending).Perm r'.accepted := by
  dsimp only
  have hL' := left_run hF
  have hK := run_inv_all kept_step (BaRun.init enable) (es ++ e :: es') (List.Perm.refl [])
  obtain ⟨h₁, h₂⟩ := (along_append _ es (e :: es')).mp hF
  have hL := left_run h₁
  rw [run_append] at hL' hK ⊢
  refine ⟨?_, ?_, hK⟩
  · intro q hq g hg hm
    exact (before_run (left_step _ e hL h₂.1) (change_waits he hq) h₂.2).idxOf hL' hg hm
  · intro f hf hacc
    exact (alike_run es' (left_step _ e hL h₂.1) h₂.2 (alike_clear hL he)).accepts hf hacc

theorem ba_change_keeps_order_restart :
    let r' := run BaRun.step (BaRun.init true)
      ([.data 100, .data 102] ++ .addba {} :: [.data 1000, .data 1002])
    r'.up.map (fun f => f.attrib.seqNum.val) = [100, 102, 1000] ∧ r'.accepted.length = 4
      ∧ (r'.up ++ r'.ctrl.pending).Perm r'.accepted :=
  ⟨by decide, by decide, (ba_change_keeps_order true [.data 100, .data 102] [.data 1000, .data 1002]
    (.addba {}) trivial (by decide)).2.2⟩

/-- after a DELBA the frame 103 overtakes 102, and after a new agreement 102 is taken for a
duplicate of the one that is left over -/
theorem ba_change_overtakes :
    let r := run BaRun.step (BaRun.init true) [.data 100, .data 102]
    let r' := run BaRun.step (BaRun.init true)
      ([.data 100, .data 102] ++ .delba :: [.data 103, .timeout false])
    let s := run BaRun.step (BaRun.init true) ([.data 100, .data 102] ++ .addba {} :: [.data 50])
    r.ctrl.pending.map (fun f => f.attrib.seqNum.val) = [102]
      ∧ r'.up.map (fun f => f.attrib.seqNum.val) = [100, 103, 102]
      ∧ ¬ (∀ q ∈ r.ctrl.pending, ∀ g ∈ r'.up, r.arrived ≤ g.id → r'.up.idxOf q < r'.up.idxOf g)
      ∧ ¬ s.Accepts { id := 0, attrib := { seqNum := 102 } }
      ∧ (run BaRun.step (r.step (.addba {})).clear [.data 50]).Accepts
          { id := 0, attrib := { seqNum := 102 } } := by
  decide

end Rtl8192eu
