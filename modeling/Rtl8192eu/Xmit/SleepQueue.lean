import Mathlib.Logic.Relation
import Rtl8192eu.Xmit.Pending

/-!
# The sleep queue of a station

What the power-save code does to one station and to its bit of the TIM.  All events of the system
come down to eight moves (`SleepStep`), and the counters and the TIM bit are followed through these.

* `ApXmit.view`   the station and its TIM bit;
* `step_sleep`    every event is a sequence of moves;
* `sleepCounts_iff`   the counters are exact when no PS-Poll takes a U-APSD frame, and only then;
* `timTells_iff_along`   the TIM bits tell the truth when no PS-Poll takes the last announced frame
                           and leaves others, and only then.
-/

namespace Rtl8192eu

open Run

/-! ## moves -/

/-- the access category of the frame is delivered in U-APSD service periods -/
def uapsdFrame (st : PsSta) (f : PsFrame) : Bool := st.uapsd (acOf f.priority) ≠ 0

/-- a frame at the end of the `sleep_q` -/
def PsSta.push (st : PsSta) (f : PsFrame) : PsSta :=
  { st with
    sleepQ := st.sleepQ ++ [f]
    sleepqLen := st.sleepqLen + 1
    sleepqAcLen := if wmmpsAc st 0 f.priority then st.sleepqAcLen + 1 else st.sleepqAcLen }

/-- the frame sets the TIM bit -/
def PsSta.announces (st : PsSta) (f : PsFrame) : Bool :=
  (st.hasLegacyAc && !wmmpsAc st 0 f.priority) || (!st.hasLegacyAc && wmmpsAc st 0 f.priority)

/-- what happens to a station and its TIM bit; `C` is asked of the station before a PS-Poll takes a
frame -/
inductive SleepStep (C : PsSta → Prop) : PsSta × Bool → PsSta × Bool → Prop
  | assoc {st : PsSta} {b : Bool} (info : Option Nat) (ha : st.asoc = false) :
    SleepStep C (st, b) (rtwApParseStaWmmIe info, b)
  | free {st : PsSta} {b : Bool} : SleepStep C (st, b) ({ sleep := st.sleep }, false)
  | doze {st : PsSta} {b : Bool} : SleepStep C (st, b) ({ st with sleep := true }, b)
  | push {st : PsSta} {b : Bool} (f : PsFrame) (ha : st.asoc = true) :
    SleepStep C (st, b) (st.push f, b || st.announces f)
  | wake {st : PsSta} {b : Bool} (h0 : (emptySleepQ wakeupOne st).1.sleepqLen = 0) :
    SleepStep C (st, b) ({ (emptySleepQ wakeupOne st).1 with sleep := false }, false)
  | wakeOn {st : PsSta} {b : Bool} (h0 : (emptySleepQ wakeupOne st).1.sleepqLen ≠ 0) :
    SleepStep C (st, b) ((emptySleepQ wakeupOne st).1, b)
  | deliver {st : PsSta} {b : Bool} :
    SleepStep C (st, b) ((deliverLoop { st with sleepQ := [] } st.sleepQ).st,
      b && !(deliverLoop { st with sleepQ := [] } st.sleepQ).timClear)
  | poll {st : PsSta} {b : Bool} {f : PsFrame} {fs : List PsFrame} {priority : Nat}
    (ha : st.asoc = true) (hp : wmmpsAc st 0 priority = false) (hq : st.sleepQ = f :: fs) (hC : C st) :
    SleepStep C (st, b) ((releaseOne { st with sleepQ := fs } f).1, b && dec32 st.sleepqLen ≠ 0)
  | pollEmpty {st : PsSta} {b : Bool} (hq : st.sleepQ = []) :
    SleepStep C (st, b) (if b then { st with sleepqLen := 0 } else st, false)

abbrev SleepSteps (C : PsSta → Prop) : PsSta × Bool → PsSta × Bool → Prop :=
  Relation.ReflTransGen (SleepStep C)

namespace ApXmit

def view (s : ApXmit) (x : Nat) : PsSta × Bool := (s.sta x, decide (x ∈ s.tim))

/-- a PS-Poll that is answered -/
def answers (s : ApXmit) (x priority : Nat) : Bool :=
  s.peer x && !wmmpsAc (s.sta x) 0 priority && (s.sta x).sleep && decide (x ∈ s.dz)

/-- `C` holds of the station that a PS-Poll comes from, if it is answered -/
def PollMeets (C : PsSta → Prop) (s : ApXmit) : PsEvent → Prop
  | .psPoll x priority => s.answers x priority = true → C (s.sta x)
  | _ => True

variable {C : PsSta → Prop} {s s' : ApXmit} {x y : Nat} {f : PsFrame} {fs : List PsFrame}

/-- another station is changed -/
theorem view_of_ne (h : x ≠ y) {st : PsSta} (hs : s'.sta = Function.update s.sta y st)
    (ht : x ∈ s'.tim ↔ x ∈ s.tim) : s'.view x = s.view x := by
  rw [view, view, hs, Function.update_of_ne h, decide_eq_decide.mpr ht]

theorem sleep_of_eq (h : s'.view x = s.view x) : SleepSteps C (s.view x) (s'.view x) := by
  rw [h]

theorem view_foldl_halXmitframeEnqueue (s : ApXmit) (fs : List PsFrame) (x : Nat) :
    (fs.foldl halXmitframeEnqueue s).view x = s.view x := by
  obtain ⟨q, d, h⟩ := foldl_halXmitframeEnqueue_frame s fs
  rw [h]
  rfl

theorem view_halXmitframeEnqueue (s : ApXmit) (f : PsFrame) (x : Nat) :
    (s.halXmitframeEnqueue f).view x = s.view x :=
  view_foldl_halXmitframeEnqueue s [f] x

theorem view_foldl_write (s : ApXmit) (ts : List Taken) (x : Nat) :
    (ts.foldl write s).view x = s.view x := by
  induction ts generalizing s with
  | nil => rfl
  | cons t ts ih => exact ih (s.write t)

theorem buffer_sleep (hx : x ≠ bmcSta) (hr : (s.sta f.sta).asoc = true) :
    SleepSteps C (s.view x) ((s.buffer f).view x) := by
  unfold buffer
  split <;> rename_i hb
  · refine sleep_of_eq (view_of_ne hx rfl ?_)
    show x ∈ insert bmcSta s.tim ↔ x ∈ s.tim
    rw [Finset.mem_insert, or_iff_right hx]
  · by_cases hf : x = f.sta
    · subst hf
      refine Relation.ReflTransGen.single ?_
      have hv : (s.bufferUc { f with triggered := false }).view f.sta
          = ((s.sta f.sta).push { f with triggered := false },
            decide (f.sta ∈ s.tim) || (s.sta f.sta).announces { f with triggered := false }) := by
        unfold view bufferUc setSta PsSta.announces
        dsimp only
        rw [Function.update_self]
        refine Prod.ext rfl ?_
        dsimp only
        split <;> rename_i hw
        · rw [hw, Bool.or_true, decide_eq_true (Finset.mem_insert_self _ _)]
        · rw [Bool.not_eq_true] at hw
          rw [hw, Bool.or_false]
      rw [hv]
      exact SleepStep.push _ hr
    · refine sleep_of_eq (view_of_ne hf rfl ?_)
      show x ∈ ite _ (insert f.sta s.tim) s.tim ↔ x ∈ s.tim
      split
      · rw [Finset.mem_insert, or_iff_right hf]
      · exact Iff.rfl

theorem foldl_buffer_sleep (hx : x ≠ bmcSta) (ha : ∀ f ∈ fs, (s.sta f.sta).asoc = true) :
    SleepSteps C (s.view x) ((fs.foldl buffer s).view x) := by
  induction fs generalizing s with
  | nil => exact Relation.ReflTransGen.refl
  | cons f fs ih =>
    refine (buffer_sleep hx (ha f List.mem_cons_self)).trans (ih ?_)
    intro g hg
    rw [(buffer_sta s f g.sta).1]
    exact ha g (List.mem_cons_of_mem _ hg)

theorem stop_sleep (hs : s.Ok []) (hx : x ≠ bmcSta) (hy : s.peer y = true) :
    SleepSteps C (s.view x) ((s.stopStaXmit y).view x) := by
  rw [stopStaXmit_eq hy hs.stas.bmc hs.queues.placed]
  have hd : SleepSteps C (s.view x) ((s.doze y).view x) := by
    by_cases hxy : x = y
    · subst hxy
      refine Relation.ReflTransGen.single ?_
      have hv : (s.doze x).view x = ({ s.sta x with sleep := true }, decide (x ∈ s.tim)) := by
        show (Function.update s.sta x _ x, _) = _
        rw [Function.update_self]
        rfl
      rw [hv]
      exact SleepStep.doze
    · exact sleep_of_eq (view_of_ne hxy rfl Iff.rfl)
  refine hd.trans ?_
  exact foldl_buffer_sleep hx (asoc_of_waiting hs hy)

theorem wakeupUc_sleep (s : ApXmit) (x y : Nat) :
    SleepSteps C (s.view x) ((s.wakeupUc y).view x) := by
  unfold wakeupUc
  dsimp only
  obtain ⟨q, d, hf⟩ := foldl_halXmitframeEnqueue_frame
    (s.setSta y (emptySleepQ wakeupOne (s.sta y)).1) (emptySleepQ wakeupOne (s.sta y)).2
  rw [hf]
  by_cases hxy : x = y
  · subst hxy
    refine Relation.ReflTransGen.single ?_
    split <;> rename_i h0
    · have hv := SleepStep.wake (C := C) (b := decide (x ∈ s.tim)) h0
      unfold view setSta
      dsimp only
      rw [Function.update_self, decide_eq_false (Finset.notMem_erase x s.tim)]
      exact hv
    · have hv := SleepStep.wakeOn (C := C) (b := decide (x ∈ s.tim)) h0
      unfold view setSta
      dsimp only
      rw [Function.update_self]
      exact hv
  · split
    · refine sleep_of_eq ?_
      unfold view setSta
      dsimp only
      rw [Function.update_of_ne hxy, Function.update_of_ne hxy,
        decide_eq_decide.mpr (Finset.mem_erase.trans (and_iff_right hxy))]
    · exact sleep_of_eq (view_of_ne hxy rfl Iff.rfl)

theorem wakeupBmc_view (hx : x ≠ bmcSta) : s.wakeupBmc.view x = s.view x := by
  unfold wakeupBmc
  dsimp only
  obtain ⟨q, d, hf⟩ := foldl_halXmitframeEnqueue_frame
    (s.setSta bmcSta (emptySleepQ releaseOne (s.sta bmcSta)).1)
    (emptySleepQ releaseOne (s.sta bmcSta)).2
  rw [hf]
  split
  · exact view_of_ne hx rfl (Finset.mem_erase.trans (and_iff_right hx))
  · exact view_of_ne hx rfl Iff.rfl

theorem wakeup_sleep (hx : x ≠ bmcSta) (y : Nat) :
    SleepSteps C (s.view x) ((s.wakeupStaToXmit y).view x) := by
  refine (wakeupUc_sleep s x y).trans ?_
  unfold wakeupStaToXmit
  dsimp only
  split
  · exact Relation.ReflTransGen.refl
  · exact sleep_of_eq (wakeupBmc_view hx)

theorem delivery_view (s : ApXmit) (x : Nat) : (s.xmitDeliveryEnabledFrames x).view x
    = ((s.delivery x).st, decide (x ∈ s.tim) && !(s.delivery x).timClear) := by
  unfold xmitDeliveryEnabledFrames
  dsimp only
  obtain ⟨q, d, hf⟩ := foldl_halXmitframeEnqueue_frame (s.setSta x (s.delivery x).st)
    (s.delivery x).released
  rw [hf]
  split <;> rename_i hc
  · unfold view setSta
    dsimp only
    rw [Function.update_self, decide_eq_false (Finset.notMem_erase x s.tim), hc, Bool.not_true,
      Bool.and_false]
  · rw [Bool.not_eq_true] at hc
    unfold view setSta
    dsimp only
    rw [Function.update_self, hc, Bool.not_false, Bool.and_true]

theorem deliver_sleep (s : ApXmit) (x y : Nat) :
    SleepSteps C (s.view x) ((s.xmitDeliveryEnabledFrames y).view x) := by
  by_cases hxy : x = y
  · subst hxy
    rw [delivery_view]
    exact Relation.ReflTransGen.single SleepStep.deliver
  · refine sleep_of_eq ?_
    unfold xmitDeliveryEnabledFrames
    dsimp only
    obtain ⟨q, d, hf⟩ := foldl_halXmitframeEnqueue_frame (s.setSta y (s.delivery y).st)
      (s.delivery y).released
    rw [hf]
    split
    · exact view_of_ne hxy rfl (Finset.mem_erase.trans (and_iff_right hxy))
    · exact view_of_ne hxy rfl Iff.rfl

theorem answers_iff {priority : Nat} : s.answers x priority = true
    ↔ s.peer x = true ∧ wmmpsAc (s.sta x) 0 priority = false ∧ (s.sta x).sleep = true ∧ x ∈ s.dz := by
  unfold answers
  rw [Bool.and_eq_true, Bool.and_eq_true, Bool.and_eq_true, Bool.not_eq_true', decide_eq_true_eq,
    and_assoc, and_assoc]

theorem psPoll_of_not_answers {priority : Nat} (hx : s.peer x = true)
    (ha : s.answers x priority = false) : s.psPoll x priority = s := by
  unfold psPoll
  dsimp only
  split
  · rfl
  · rename_i hw
    split
    · rename_i hd
      rw [Bool.and_eq_true, decide_eq_true_eq] at hd
      rw [Bool.not_eq_true] at hw
      exact absurd (answers_iff.mpr ⟨hx, hw, hd⟩) (Bool.eq_false_iff.mp ha)
    · rfl

/-- a PS-Poll that takes a frame -/
theorem psPoll_view {priority : Nat} (ha : s.answers x priority = true)
    (hq : (s.sta x).sleepQ = f :: fs) : (s.psPoll x priority).view x
      = ((releaseOne { s.sta x with sleepQ := fs } f).1,
        decide (x ∈ s.tim) && dec32 (s.sta x).sleepqLen ≠ 0) := by
  obtain ⟨-, hw, hsl, hd⟩ := answers_iff.mp ha
  have hc : ((s.sta x).sleep && decide (x ∈ s.dz)) = true := by
    rw [hsl, decide_eq_true hd]
    rfl
  unfold psPoll
  dsimp only
  rw [if_neg (Bool.eq_false_iff.mp hw), if_pos hc, hq]
  dsimp only
  obtain ⟨q, d, hf⟩ := halXmitframeEnqueue_frame
    (s.setSta x (releaseOne { s.sta x with sleepQ := fs } f).1)
    (releaseOne { s.sta x with sleepQ := fs } f).2
  rw [hf]
  split <;> rename_i h0 <;> unfold view setSta <;> dsimp only
  · have h0' : dec32 (s.sta x).sleepqLen = 0 := h0
    rw [Function.update_self, decide_eq_false (Finset.notMem_erase x s.tim), h0']
    simp
  · have h0' : dec32 (s.sta x).sleepqLen ≠ 0 := h0
    rw [Function.update_self, decide_eq_true h0', Bool.and_true]

/-- a PS-Poll that finds no frame -/
theorem psPoll_view_nil {priority : Nat} (ha : s.answers x priority = true)
    (hq : (s.sta x).sleepQ = []) : (s.psPoll x priority).view x
      = (if decide (x ∈ s.tim) then { s.sta x with sleepqLen := 0 } else s.sta x, false) := by
  obtain ⟨-, hw, hsl, hd⟩ := answers_iff.mp ha
  have hc : ((s.sta x).sleep && decide (x ∈ s.dz)) = true := by
    rw [hsl, decide_eq_true hd]
    rfl
  unfold psPoll
  dsimp only
  rw [if_neg (Bool.eq_false_iff.mp hw), if_pos hc, hq]
  dsimp only
  split <;> rename_i ht
  · unfold view setSta
    dsimp only
    rw [Function.update_self, decide_eq_false (Finset.notMem_erase x s.tim), if_pos (decide_eq_true ht)]
  · unfold view
    rw [decide_eq_false ht, if_neg Bool.false_ne_true]

theorem psPoll_view_of_ne {priority : Nat} (h : x ≠ y) : (s.psPoll y priority).view x = s.view x := by
  unfold psPoll
  dsimp only
  split
  · rfl
  · split
    · split
      · rename_i f fs hq
        obtain ⟨q, d, hf⟩ := halXmitframeEnqueue_frame
          (s.setSta y (releaseOne { s.sta y with sleepQ := fs } f).1)
          (releaseOne { s.sta y with sleepQ := fs } f).2
        rw [hf]
        split
        · exact view_of_ne h rfl (Finset.mem_erase.trans (and_iff_right h))
        · exact view_of_ne h rfl Iff.rfl
      · split
        · exact view_of_ne h rfl (Finset.mem_erase.trans (and_iff_right h))
        · rfl
    · rfl

theorem poll_sleep {priority : Nat} (hy : s.peer y = true)
    (hC : s.answers y priority = true → C (s.sta y)) :
    SleepSteps C (s.view x) ((s.psPoll y priority).view x) := by
  by_cases hxy : x = y
  · subst hxy
    cases ha : s.answers x priority with
    | false =>
      rw [psPoll_of_not_answers hy ha]
    | true =>
      obtain ⟨-, hw, -, -⟩ := answers_iff.mp ha
      cases hq : (s.sta x).sleepQ with
      | nil =>
        rw [psPoll_view_nil ha hq]
        exact Relation.ReflTransGen.single (SleepStep.pollEmpty hq)
      | cons f fs =>
        rw [psPoll_view ha hq]
        exact Relation.ReflTransGen.single (SleepStep.poll (peer_iff.mp hy).1 hw hq (hC ha))
  · exact sleep_of_eq (psPoll_view_of_ne hxy)

theorem posthandle_sleep (hx : x ≠ bmcSta) (c : Nat) (req : XmitReq) :
    SleepSteps C (s.view x) ((s.posthandle c req).view x) := by
  rcases posthandle_cases s c req with he | ⟨f, -, ha, -, -, ⟨-, he⟩ | ⟨-, he⟩⟩ <;> rw [he]
  · exact Relation.ReflTransGen.refl
  · exact buffer_sleep (s := s.accept) hx ha

/-- **Every event is a sequence of moves** of the station and its TIM bit. -/
theorem step_sleep (conf : XmitConf) (hs : s.Ok []) (hx : x ≠ bmcSta) (e : PsEvent)
    (hC : s.PollMeets C e) : SleepSteps C (s.view x) ((s.step conf e).view x) := by
  cases e with
  | assoc y info =>
    unfold step
    dsimp only
    split <;> rename_i ha
    · exact Relation.ReflTransGen.refl
    · by_cases hxy : x = y
      · subst hxy
        rw [Bool.not_eq_true] at ha
        have hv : (s.setSta x (rtwApParseStaWmmIe info)).view x
            = (rtwApParseStaWmmIe info, decide (x ∈ s.tim)) := by
          show (Function.update s.sta x _ x, _) = _
          rw [Function.update_self]
          rfl
        rw [hv]
        exact Relation.ReflTransGen.single (SleepStep.assoc info ha)
      · exact sleep_of_eq (view_of_ne hxy rfl Iff.rfl)
  | freeStainfo y =>
    unfold step
    dsimp only
    split
    · by_cases hxy : x = y
      · subst hxy
        have hv : (s.rtwFreeStainfo x).view x = ({ sleep := (s.sta x).sleep }, false) := by
          unfold view rtwFreeStainfo
          dsimp only
          rw [Function.update_self, decide_eq_false (Finset.notMem_erase x s.tim)]
        rw [hv]
        exact Relation.ReflTransGen.single SleepStep.free
      · exact sleep_of_eq (view_of_ne hxy rfl (Finset.mem_erase.trans (and_iff_right hxy)))
    · exact Relation.ReflTransGen.refl
  | posthandle c req => exact posthandle_sleep hx c req
  | pre c o noBuf =>
    show SleepSteps C (s.view x) ((s.preXmitframe c o noBuf).view x)
    unfold preXmitframe
    split
    · split
      · exact sleep_of_eq (view_halXmitframeEnqueue s _ x)
      · exact Relation.ReflTransGen.refl
    · exact Relation.ReflTransGen.refl
  | osCoalesce c ok =>
    show SleepSteps C (s.view x) ((s.osCoalesce c ok).view x)
    unfold osCoalesce
    split
    · split <;> exact Relation.ReflTransGen.refl
    · exact Relation.ReflTransGen.refl
  | osWrite c =>
    show SleepSteps C (s.view x) ((s.osWrite c).view x)
    unfold osWrite
    split <;> exact Relation.ReflTransGen.refl
  | taskDequeue =>
    show SleepSteps C (s.view x) ((s.taskDequeue conf).view x)
    unfold taskDequeue
    split
    · split <;> exact Relation.ReflTransGen.refl
    · exact Relation.ReflTransGen.refl
  | taskCoalesce ok =>
    show SleepSteps C (s.view x) ((s.taskCoalesce ok).view x)
    unfold taskCoalesce
    split
    · split <;> exact Relation.ReflTransGen.refl
    · exact Relation.ReflTransGen.refl
  | taskAgg cs =>
    show SleepSteps C (s.view x) ((s.taskAgg conf cs).view x)
    unfold taskAgg
    split <;> exact Relation.ReflTransGen.refl
  | taskWrite =>
    show SleepSteps C (s.view x) (s.taskWrite.view x)
    unfold taskWrite
    split
    · exact sleep_of_eq (view_foldl_write s _ x)
    · exact Relation.ReflTransGen.refl
  | stop y =>
    unfold step
    dsimp only
    split <;> rename_i hy
    · exact stop_sleep hs hx hy
    · exact Relation.ReflTransGen.refl
  | wakeup y =>
    unfold step
    dsimp only
    split
    · exact wakeup_sleep hx y
    · exact Relation.ReflTransGen.refl
  | deliver y =>
    unfold step
    dsimp only
    split
    · exact deliver_sleep s x y
    · exact Relation.ReflTransGen.refl
  | psPoll y priority =>
    unfold step
    dsimp only
    split <;> rename_i hy
    · exact poll_sleep hy hC
    · exact Relation.ReflTransGen.refl

end ApXmit

/-! ## the loops and the counters -/

/-- `uapsd_vo`, `uapsd_vi`, `uapsd_be` and `uapsd_bk` are 0 or `BIT(0) | BIT(1)` -/
def UapsdOk (st : PsSta) : Prop := ∀ ac, st.uapsd ac = 0 ∨ st.uapsd ac = 3

theorem UapsdOk.wmmpsAc_eq {st : PsSta} (h : UapsdOk st) {bit : Nat} (hb : bit < 2) (priority : Nat) :
    wmmpsAc st bit priority = decide (st.uapsd (acOf priority) ≠ 0) := by
  unfold wmmpsAc
  rcases h (acOf priority) with hu | hu <;> rw [hu]
  · exact Nat.zero_testBit bit
  · have hbit : bit = 0 ∨ bit = 1 := by omega
    rcases hbit with rfl | rfl <;> rfl

theorem dec32_succ (n : Nat) : dec32 (n + 1) = n := rfl

variable {st : PsSta} {a b fs : List PsFrame}

theorem releaseLoop_len {one : PsSta → PsFrame → PsSta × PsFrame}
    (hone : ∀ st f, (one st f).1.sleepqLen = dec32 st.sleepqLen)
    (hl : st.sleepqLen = (a ++ b).length) : (releaseLoop one st a).1.sleepqLen = b.length := by
  induction a generalizing st with
  | nil => exact hl
  | cons f a ih =>
    refine ih ?_
    rw [hone, hl]
    exact dec32_succ _

theorem wakeupOne_len (st : PsSta) (f : PsFrame) :
    (wakeupOne st f).1.sleepqLen = dec32 st.sleepqLen := by
  unfold wakeupOne
  dsimp only
  split <;> rfl

theorem wakeupOne_acLen (hu : UapsdOk st) (f : PsFrame) : (wakeupOne st f).1.sleepqAcLen
    = if uapsdFrame st f then dec32 st.sleepqAcLen else st.sleepqAcLen := by
  unfold wakeupOne uapsdFrame
  dsimp only
  rw [hu.wmmpsAc_eq (by decide)]
  split <;> rfl

theorem wakeupOne_uapsd (st : PsSta) (f : PsFrame) : (wakeupOne st f).1.uapsd = st.uapsd := by
  obtain ⟨n, m, h⟩ := wakeupOne_keeps.sta st f
  rw [h]

/-- the count of U-APSD frames, and one more in front -/
theorem countP_uapsd_cons (f : PsFrame) (fs : List PsFrame) : (f :: fs).countP (uapsdFrame st)
    = if uapsdFrame st f then fs.countP (uapsdFrame st) + 1 else fs.countP (uapsdFrame st) := by
  rw [List.countP_cons]
  split <;> rfl

theorem wakeupLoop_acLen (st : PsSta) (a b : List PsFrame) (hu : UapsdOk st)
    (hl : st.sleepqAcLen = (a ++ b).countP (uapsdFrame st)) :
    (releaseLoop wakeupOne st a).1.sleepqAcLen = b.countP (uapsdFrame st) := by
  induction a generalizing st with
  | nil => exact hl
  | cons f a ih =>
    have hw := wakeupOne_uapsd st f
    have huf : uapsdFrame (wakeupOne st f).1 = uapsdFrame st := by
      unfold uapsdFrame
      rw [hw]
    have hu' : UapsdOk (wakeupOne st f).1 := by
      unfold UapsdOk
      rw [hw]
      exact hu
    rw [← huf]
    refine ih _ hu' ?_
    rw [wakeupOne_acLen hu, hl, List.cons_append, countP_uapsd_cons, huf]
    split <;> rfl

/-- the station when `xmit_delivery_enabled_frames` has released a frame -/
def PsSta.delivered (st : PsSta) : PsSta :=
  { st with sleepqLen := dec32 st.sleepqLen, sleepqAcLen := dec32 st.sleepqAcLen }

/-- the station when it has passed over a frame -/
def PsSta.kept (st : PsSta) (f : PsFrame) : PsSta := { st with sleepQ := st.sleepQ ++ [f] }

theorem deliverLoop_cons_keep {f : PsFrame} (hu : UapsdOk st) (hf : uapsdFrame st f = false) :
    deliverLoop st (f :: fs) = deliverLoop (st.kept f) fs := by
  rw [deliverLoop, if_pos]
  · rfl
  · rw [hu.wmmpsAc_eq (by decide)]
    exact congrArg not hf

theorem deliverLoop_cons_release {f : PsFrame} (hu : UapsdOk st) (hf : uapsdFrame st f = true) :
    deliverLoop st (f :: fs) = ⟨(deliverLoop st.delivered fs).st,
      { f with mdata := 0 < dec32 st.sleepqAcLen, eosp := dec32 st.sleepqAcLen = 0, triggered := true }
        :: (deliverLoop st.delivered fs).released,
      (dec32 st.sleepqAcLen = 0 && !st.hasLegacyAc) || (deliverLoop st.delivered fs).timClear⟩ := by
  rw [deliverLoop, if_neg]
  · rfl
  · rw [hu.wmmpsAc_eq (by decide), show decide (st.uapsd (acOf f.priority) ≠ 0) = true from hf]
    exact Bool.false_ne_true

theorem deliverLoop_len (st : PsSta) (a b : List PsFrame) (hu : UapsdOk st)
    (hl : st.sleepqLen = (st.sleepQ ++ (a ++ b)).length) :
    (deliverLoop st a).st.sleepqLen = ((deliverLoop st a).st.sleepQ ++ b).length := by
  induction a generalizing st with
  | nil => exact hl
  | cons f a ih =>
    cases hf : uapsdFrame st f with
    | false =>
      rw [deliverLoop_cons_keep hu hf]
      refine ih (st.kept f) hu ?_
      show st.sleepqLen = (st.sleepQ ++ [f] ++ (a ++ b)).length
      rw [hl, List.append_assoc]
      rfl
    | true =>
      rw [deliverLoop_cons_release hu hf]
      refine ih st.delivered hu ?_
      show dec32 st.sleepqLen = (st.sleepQ ++ (a ++ b)).length
      have hn : (st.sleepQ ++ (f :: a ++ b)).length = (st.sleepQ ++ (a ++ b)).length + 1 := by
        simp only [List.length_append, List.length_cons]
        omega
      rw [hl, hn]
      exact dec32_succ _

theorem deliverLoop_acLen (st : PsSta) (a b : List PsFrame) (hu : UapsdOk st)
    (hl : st.sleepqAcLen = (st.sleepQ ++ (a ++ b)).countP (uapsdFrame st)) :
    (deliverLoop st a).st.sleepqAcLen
      = ((deliverLoop st a).st.sleepQ ++ b).countP (uapsdFrame st) := by
  induction a generalizing st with
  | nil => exact hl
  | cons f a ih =>
    cases hf : uapsdFrame st f with
    | false =>
      rw [deliverLoop_cons_keep hu hf]
      refine ih (st.kept f) hu ?_
      show st.sleepqAcLen = (st.sleepQ ++ [f] ++ (a ++ b)).countP (uapsdFrame st)
      rw [hl, List.append_assoc]
      rfl
    | true =>
      rw [deliverLoop_cons_release hu hf]
      refine ih st.delivered hu ?_
      show dec32 st.sleepqAcLen = (st.sleepQ ++ (a ++ b)).countP (uapsdFrame st)
      rw [hl, List.cons_append, List.countP_append, List.countP_append, countP_uapsd_cons, if_pos hf,
        ← Nat.add_assoc]
      exact dec32_succ _

/-- nothing is released when there is no U-APSD frame, and only then -/
theorem released_eq_nil (hu : UapsdOk st) :
    (deliverLoop st fs).released = [] ↔ fs.countP (uapsdFrame st) = 0 := by
  induction fs generalizing st with
  | nil => exact ⟨fun _ => rfl, fun _ => rfl⟩
  | cons f fs ih =>
    rw [countP_uapsd_cons]
    cases hf : uapsdFrame st f with
    | false =>
      rw [deliverLoop_cons_keep hu hf, if_neg Bool.false_ne_true]
      exact @ih (st.kept f) hu
    | true =>
      rw [deliverLoop_cons_release hu hf, if_pos rfl]
      exact ⟨fun h => absurd h (List.cons_ne_nil _ _), fun h => absurd h (Nat.succ_ne_zero _)⟩

/-- exactly the last frame says that the service period ends -/
def EndsService (released : List PsFrame) : Prop :=
  ∀ before f after, released = before ++ f :: after →
    (f.eosp = true ∧ f.mdata = false ↔ after = [])

theorem EndsService.cons {f : PsFrame} (h : EndsService fs)
    (hf : f.eosp = true ∧ f.mdata = false ↔ fs = []) : EndsService (f :: fs) := by
  intro before g after he
  cases before with
  | nil =>
    obtain ⟨rfl, rfl⟩ := List.cons.inj he
    exact hf
  | cons k before => exact h before g after (List.cons.inj he).2

/-- **A service period ends** with the last frame released, when `sleepq_ac_len` is right. -/
theorem deliverLoop_endsService (hu : UapsdOk st)
    (hl : st.sleepqAcLen = fs.countP (uapsdFrame st)) : EndsService (deliverLoop st fs).released := by
  induction fs generalizing st with
  | nil =>
    intro before f after he
    exact absurd he (by simp [deliverLoop])
  | cons f fs ih =>
    rw [countP_uapsd_cons] at hl
    cases hf : uapsdFrame st f with
    | false =>
      rw [hf, if_neg Bool.false_ne_true] at hl
      rw [deliverLoop_cons_keep hu hf]
      exact @ih (st.kept f) hu hl
    | true =>
      rw [hf, if_pos rfl] at hl
      have hd : dec32 st.sleepqAcLen = fs.countP (uapsdFrame st) := by
        rw [hl]
        exact dec32_succ _
      rw [deliverLoop_cons_release hu hf]
      refine (@ih st.delivered hu hd).cons ?_
      rw [@released_eq_nil st.delivered fs hu]
      show decide (dec32 st.sleepqAcLen = 0) = true ∧ decide (0 < dec32 st.sleepqAcLen) = false
        ↔ fs.countP (uapsdFrame st) = 0
      rw [hd, decide_eq_true_eq, decide_eq_false_iff_not, Nat.not_lt, Nat.le_zero, and_self]

/-! ## invariants of the moves -/

/-- the first frame is not one of U-APSD -/
def HeadLegacy (st : PsSta) : Prop := ∀ f fs, st.sleepQ = f :: fs → uapsdFrame st f = false

/-- what the moves keep; `sleepq_ac_len` is right for all stations if `all` -/
structure StaOk (all : Prop) (st : PsSta) : Prop where
  uapsd : UapsdOk st
  legacy : st.asoc = true → (st.hasLegacyAc = true ↔ ∃ ac, st.uapsd ac = 0)
  len : st.sleepqLen = st.sleepQ.length
  empty : st.asoc = false → st.sleepQ = []
  -- without a legacy access category no PS-Poll is answered
  acLen : all ∨ st.hasLegacyAc = false → st.sleepqAcLen = st.sleepQ.countP (uapsdFrame st)

theorem qosInfo_legacy (info : Nat) :
    info % 16 ≠ 15 ↔ ∃ ac, (if info.testBit (qosInfoBit ac) then 3 else 0) = 0 := by
  have hbit : ∀ i, i < 4 → info.testBit i = (info % 16).testBit i := by
    intro i hi
    rw [show (16 : Nat) = 2 ^ 4 from rfl, Nat.testBit_mod_two_pow, decide_eq_true hi, Bool.true_and]
  constructor
  · intro h
    by_contra hn
    have hset : ∀ ac, info.testBit (qosInfoBit ac) = true := by
      intro ac
      by_contra hb
      exact hn ⟨ac, if_neg hb⟩
    have hall : ∀ n < 16, n.testBit 0 = true → n.testBit 1 = true → n.testBit 2 = true
        → n.testBit 3 = true → n = 15 := by
      decide
    refine h (hall _ (Nat.mod_lt _ (by decide)) ?_ ?_ ?_ ?_) <;> rw [← hbit _ (by decide)]
    · exact hset .vo
    · exact hset .vi
    · exact hset .bk
    · exact hset .be
  · rintro ⟨ac, hac⟩ h
    have hset : info.testBit (qosInfoBit ac) = true := by
      cases ac <;> (unfold qosInfoBit; rw [hbit _ (by decide), h]; rfl)
    rw [if_pos hset] at hac
    cases hac

variable {all : Prop}

theorem staOk_parse (info : Option Nat) : StaOk all (rtwApParseStaWmmIe info) := by
  cases info with
  | none =>
    exact ⟨fun _ => Or.inl rfl, fun _ => ⟨fun _ => ⟨.vo, rfl⟩, fun _ => rfl⟩, rfl, fun _ => rfl, fun _ => rfl⟩
  | some info =>
    refine ⟨?_, ?_, rfl, fun _ => rfl, fun _ => rfl⟩
    · intro ac
      show ite _ 3 0 = 0 ∨ ite _ 3 0 = 3
      split
      · exact Or.inr rfl
      · exact Or.inl rfl
    · intro _
      show decide (info % 16 ≠ 15) = true ↔ _
      rw [decide_eq_true_eq]
      exact qosInfo_legacy info

theorem staOk_default (sleep : Bool) : StaOk all { sleep := sleep } :=
  ⟨fun _ => Or.inl rfl, fun h => (nomatch h), rfl, fun _ => rfl, fun _ => rfl⟩

namespace StaOk

/-- a PS-Poll is answered only for a station with a legacy access category -/
theorem legacy_of_poll (h : StaOk all st) (ha : st.asoc = true) {priority : Nat}
    (hp : wmmpsAc st 0 priority = false) : st.hasLegacyAc = true := by
  rw [h.uapsd.wmmpsAc_eq (by decide), decide_eq_false_iff_not, not_not] at hp
  exact (h.legacy ha).mpr ⟨_, hp⟩

/-- only the queue and the counters change -/
theorem requeue (h : StaOk all st) {q : List PsFrame} {n m : Nat} (hn : n = q.length)
    (hq : st.asoc = false → q = [])
    (hm : all ∨ st.hasLegacyAc = false → m = q.countP (uapsdFrame st)) :
    StaOk all { st with sleepQ := q, sleepqLen := n, sleepqAcLen := m } :=
  ⟨h.uapsd, h.legacy, hn, hq, hm⟩

theorem push (h : StaOk all st) (ha : st.asoc = true) (f : PsFrame) : StaOk all (st.push f) := by
  refine h.requeue ?_ ?_ ?_
  · rw [h.len, List.length_append]
    rfl
  · intro e
    rw [ha] at e
    cases e
  · intro hall
    rw [List.countP_append, countP_uapsd_cons, List.countP_nil, h.acLen hall,
      h.uapsd.wmmpsAc_eq (by decide)]
    unfold uapsdFrame
    split <;> rfl

theorem wakeLen (h : StaOk all st) : (emptySleepQ wakeupOne st).1.sleepqLen = 0 := by
  refine releaseLoop_len (b := []) wakeupOne_len ?_
  rw [List.append_nil]
  exact h.len

theorem wake (h : StaOk all st) : StaOk all (emptySleepQ wakeupOne st).1 := by
  obtain ⟨n, m, he⟩ := wakeupOne_keeps.empty_sta st
  have hn := h.wakeLen
  have hm : all ∨ st.hasLegacyAc = false → (emptySleepQ wakeupOne st).1.sleepqAcLen = 0 := by
    intro hall
    refine wakeupLoop_acLen { st with sleepQ := [] } st.sleepQ [] h.uapsd ?_
    rw [List.append_nil]
    exact h.acLen hall
  rw [he] at hn hm ⊢
  exact h.requeue hn (fun _ => rfl) hm

theorem deliver (h : StaOk all st) :
    StaOk all (deliverLoop { st with sleepQ := [] } st.sleepQ).st := by
  obtain ⟨⟨q, n, m, he⟩, hq, -, -⟩ := deliverLoop_keeps { st with sleepQ := [] } st.sleepQ
  have hn := deliverLoop_len { st with sleepQ := [] } st.sleepQ [] h.uapsd
    (by rw [h.len, List.append_nil]; rfl)
  have hm : all ∨ st.hasLegacyAc = false → _ := fun hall =>
    deliverLoop_acLen { st with sleepQ := [] } st.sleepQ [] h.uapsd
      (by rw [h.acLen hall, List.append_nil]; rfl)
  rw [he] at hn hm hq ⊢
  rw [List.append_nil] at hn hm
  refine h.requeue hn ?_ hm
  intro ha
  rw [show q = _ from hq, h.empty ha]
  rfl

theorem poll (h : StaOk all st) (ha : st.asoc = true) {f : PsFrame} (hq : st.sleepQ = f :: fs)
    (hl : st.hasLegacyAc = true) (hC : all → uapsdFrame st f = false) :
    StaOk all (releaseOne { st with sleepQ := fs } f).1 := by
  refine h.requeue ?_ ?_ ?_
  · rw [h.len, hq]
    exact dec32_succ _
  · intro e
    rw [ha] at e
    cases e
  · rintro (hall | e)
    · show st.sleepqAcLen = _
      rw [h.acLen (Or.inl hall), hq, countP_uapsd_cons, hC hall, if_neg Bool.false_ne_true]
    · rw [hl] at e
      cases e

end StaOk

theorem SleepStep.staOk {C : PsSta → Prop} {v w : PsSta × Bool} (hstep : SleepStep C v w)
    (hC : all → ∀ st, C st → HeadLegacy st) (h : StaOk all v.1) : StaOk all w.1 := by
  cases hstep with
  | assoc info ha => exact staOk_parse info
  | free => exact staOk_default _
  | doze => exact ⟨h.uapsd, h.legacy, h.len, h.empty, h.acLen⟩
  | push f ha => exact h.push ha f
  | wake h0 => exact ⟨h.wake.uapsd, h.wake.legacy, h.wake.len, h.wake.empty, h.wake.acLen⟩
  | wakeOn h0 => exact h.wake
  | deliver => exact h.deliver
  | poll ha hp hq hc => exact h.poll ha hq (h.legacy_of_poll ha hp) fun hall => hC hall _ hc _ _ hq
  | pollEmpty hq =>
    show StaOk all (ite _ _ _)
    split
    · have hn : 0 = ([] : List PsFrame).length := rfl
      exact ⟨h.uapsd, h.legacy, hq ▸ hn, h.empty, h.acLen⟩
    · exact h

/-- the class of frames that the TIM announces -/
def announced (st : PsSta) (f : PsFrame) : Bool := if st.hasLegacyAc then !uapsdFrame st f else true

/-- the TIM bit and the queue agree -/
def TimTrue (v : PsSta × Bool) : Prop := v.2 = true ↔ ∃ f ∈ v.1.sleepQ, announced v.1 f = true

/-- a PS-Poll that takes an announced frame takes the last frame, or leaves another one announced -/
def HeadNotLast (st : PsSta) : Prop := ∀ f fs, st.sleepQ = f :: fs →
  uapsdFrame st f = true ∨ fs = [] ∨ ∃ g ∈ fs, uapsdFrame st g = false

theorem StaOk.announces_eq (h : StaOk all st) (ha : st.asoc = true) (f : PsFrame) :
    st.announces f = announced st f := by
  unfold PsSta.announces announced uapsdFrame
  rw [h.uapsd.wmmpsAc_eq (by decide)]
  cases hl : st.hasLegacyAc with
  | true => simp
  | false =>
    have hu : st.uapsd (acOf f.priority) ≠ 0 := by
      intro he
      rw [(h.legacy ha).mpr ⟨_, he⟩] at hl
      cases hl
    simp [hu]

theorem timClear_legacy (hu : UapsdOk st) (hl : st.hasLegacyAc = true) :
    (deliverLoop st fs).timClear = false := by
  induction fs generalizing st with
  | nil => rfl
  | cons f fs ih =>
    cases hf : uapsdFrame st f with
    | false =>
      rw [deliverLoop_cons_keep hu hf]
      exact @ih (st.kept f) hu hl
    | true =>
      rw [deliverLoop_cons_release hu hf]
      dsimp only
      rw [@ih st.delivered hu hl, hl, Bool.not_true, Bool.and_false, Bool.or_false]

theorem timClear_uapsd (hu : UapsdOk st) (hl : st.hasLegacyAc = false)
    (hc : st.sleepqAcLen = fs.countP (uapsdFrame st)) (hne : fs.countP (uapsdFrame st) ≠ 0) :
    (deliverLoop st fs).timClear = true := by
  induction fs generalizing st with
  | nil => exact absurd rfl hne
  | cons f fs ih =>
    rw [countP_uapsd_cons] at hc hne
    cases hf : uapsdFrame st f with
    | false =>
      rw [hf, if_neg Bool.false_ne_true] at hc hne
      rw [deliverLoop_cons_keep hu hf]
      exact @ih (st.kept f) hu hl hc hne
    | true =>
      rw [hf, if_pos rfl] at hc
      have hd : dec32 st.sleepqAcLen = fs.countP (uapsdFrame st) := by
        rw [hc]
        exact dec32_succ _
      rw [deliverLoop_cons_release hu hf]
      dsimp only
      -- the last one clears the bit
      by_cases h0 : fs.countP (uapsdFrame st) = 0
      · rw [hd, h0, hl]
        rfl
      · rw [@ih st.delivered hu hl hd h0, Bool.or_true]

theorem timTrue_nil {b : Bool} (hq : st.sleepQ = []) (hb : b = false) : TimTrue (st, b) := by
  subst hb
  refine ⟨fun h => Bool.noConfusion h, ?_⟩
  rintro ⟨f, hf, -⟩
  rw [show (st, false).1.sleepQ = [] from hq] at hf
  cases hf

theorem TimTrue.eq_false {b : Bool} (h : TimTrue (st, b)) (hq : st.sleepQ = []) : b = false := by
  cases b with
  | false => rfl
  | true =>
    obtain ⟨f, hf, -⟩ := h.mp rfl
    rw [show (st, true).1.sleepQ = [] from hq] at hf
    cases hf

theorem TimTrue.push {b : Bool} (h : TimTrue (st, b)) (hok : StaOk all st) (ha : st.asoc = true)
    (f : PsFrame) : TimTrue (st.push f, b || st.announces f) := by
  show (b || st.announces f) = true ↔ ∃ g ∈ st.sleepQ ++ [f], announced st g = true
  rw [hok.announces_eq ha, Bool.or_eq_true]
  constructor
  · rintro (hb | hf)
    · obtain ⟨g, hg, hga⟩ := h.mp hb
      exact ⟨g, List.mem_append_left _ hg, hga⟩
    · exact ⟨f, List.mem_append_right _ List.mem_cons_self, hf⟩
  · rintro ⟨g, hg, hga⟩
    rcases List.mem_append.mp hg with hg | hg
    · exact Or.inl (h.mpr ⟨g, hg, hga⟩)
    · rw [List.mem_singleton.mp hg] at hga
      exact Or.inr hga

theorem TimTrue.deliver {b : Bool} (h : TimTrue (st, b)) (hok : StaOk all st) :
    TimTrue ((deliverLoop { st with sleepQ := [] } st.sleepQ).st,
      b && !(deliverLoop { st with sleepQ := [] } st.sleepQ).timClear) := by
  obtain ⟨⟨q, n, m, he⟩, hq, -, -⟩ := deliverLoop_keeps { st with sleepQ := [] } st.sleepQ
  have hkeep : q = st.sleepQ.filter fun f => !uapsdFrame st f := by
    rw [he] at hq
    refine hq.trans (List.filter_congr fun f _ => ?_)
    show (!wmmpsAc st 1 f.priority) = _
    rw [hok.uapsd.wmmpsAc_eq (by decide)]
    rfl
  rw [he]
  show (b && !(deliverLoop { st with sleepQ := [] } st.sleepQ).timClear) = true
    ↔ ∃ f ∈ q, announced st f = true
  rcases Bool.eq_false_or_eq_true st.hasLegacyAc with hl | hl
  · have hann : ∀ f, announced st f = !uapsdFrame st f := by
      intro f
      rw [announced, hl, if_pos rfl]
    rw [timClear_legacy (by exact hok.uapsd) (by exact hl), Bool.not_false, Bool.and_true]
    refine Iff.trans h ⟨?_, ?_⟩
    · rintro ⟨f, hf, hfa⟩
      refine ⟨f, ?_, hfa⟩
      rw [hkeep, List.mem_filter]
      exact ⟨hf, (hann f).symm.trans hfa⟩
    · rintro ⟨f, hf, hfa⟩
      rw [hkeep, List.mem_filter] at hf
      exact ⟨f, hf.1, hfa⟩
  · -- every frame is one of U-APSD, and goes
    have hall : ∀ f ∈ st.sleepQ, uapsdFrame st f = true := by
      intro f hf
      have ha : st.asoc = true := by
        by_contra ha
        rw [hok.empty (Bool.not_eq_true _ ▸ ha)] at hf
        cases hf
      refine decide_eq_true fun hu => ?_
      rw [(hok.legacy ha).mpr ⟨_, hu⟩] at hl
      cases hl
    have hnil : q = [] := by
      rw [hkeep, List.filter_eq_nil_iff]
      intro f hf
      rw [hall f hf]
      exact Bool.false_ne_true
    have hclear : (b && !(deliverLoop { st with sleepQ := [] } st.sleepQ).timClear) = false := by
      by_cases h0 : st.sleepQ = []
      · rw [h.eq_false h0, Bool.false_and]
      · have hne : st.sleepQ.countP (uapsdFrame st) ≠ 0 := by
          rw [List.countP_eq_length.mpr hall]
          exact fun hz => h0 (List.length_eq_zero_iff.mp hz)
        rw [timClear_uapsd (by exact hok.uapsd) (by exact hl) (by exact hok.acLen (Or.inr hl))
          (by exact hne), Bool.not_true, Bool.and_false]
    rw [hclear, hnil]
    exact ⟨fun e => Bool.noConfusion e, fun ⟨f, hf, _⟩ => nomatch hf⟩

theorem TimTrue.poll {b : Bool} (h : TimTrue (st, b)) (hok : StaOk all st) {f : PsFrame}
    (hq : st.sleepQ = f :: fs) (hl : st.hasLegacyAc = true) (hC : HeadNotLast st) :
    TimTrue ((releaseOne { st with sleepQ := fs } f).1, b && dec32 st.sleepqLen ≠ 0) := by
  have hlen : dec32 st.sleepqLen = fs.length := by
    rw [hok.len, hq]
    exact dec32_succ _
  rw [hlen]
  cases fs with
  | nil => exact timTrue_nil rfl (by simp)
  | cons g fs =>
    rw [List.length_cons, decide_eq_true (Nat.succ_ne_zero _), Bool.and_true]
    refine Iff.trans h ?_
    show (∃ k ∈ st.sleepQ, announced st k = true) ↔ ∃ k ∈ g :: fs, announced st k = true
    rw [hq]
    constructor
    · rintro ⟨k, hk, hka⟩
      rcases List.mem_cons.mp hk with rfl | hk
      · rcases hC k _ hq with hu | hn | ⟨j, hj, hju⟩
        · rw [announced, hl, if_pos rfl, hu] at hka
          cases hka
        · cases hn
        · refine ⟨j, hj, ?_⟩
          rw [announced, hl, if_pos rfl, hju]
          rfl
      · exact ⟨k, hk, hka⟩
    · rintro ⟨k, hk, hka⟩
      exact ⟨k, List.mem_cons_of_mem _ hk, hka⟩

theorem SleepStep.timTrue {C : PsSta → Prop} {v w : PsSta × Bool} (hstep : SleepStep C v w)
    (hC : ∀ st, C st → HeadNotLast st) (hok : StaOk all v.1) (h : TimTrue v) : TimTrue w := by
  cases hstep with
  | assoc info ha =>
    refine timTrue_nil ?_ (h.eq_false (hok.empty ha))
    cases info <;> rfl
  | free => exact timTrue_nil rfl rfl
  | doze => exact h
  | push f ha => exact h.push hok ha f
  | wake h0 =>
    obtain ⟨n, m, he⟩ := wakeupOne_keeps.empty_sta _
    refine timTrue_nil ?_ rfl
    rw [he]
  | wakeOn h0 => exact absurd hok.wakeLen h0
  | deliver => exact h.deliver hok
  | poll ha hp hq hc => exact h.poll hok hq (hok.legacy_of_poll ha hp) (hC _ hc)
  | pollEmpty hq =>
    refine timTrue_nil ?_ rfl
    split <;> exact hq

/-! ## runs -/

namespace ApXmit

/-- an invariant of the moves is one of the system -/
structure Moves (C : PsSta → Prop) (I : PsSta × Bool → Prop) : Prop where
  start : I ({}, false)
  keep : ∀ v w, SleepStep C v w → I v → I w

/-- the queues are accounted for, and every station meets `I` -/
def Each (I : PsSta × Bool → Prop) (s : ApXmit) : Prop := s.Ok [] ∧ ∀ x, x ≠ bmcSta → I (s.view x)

variable {C : PsSta → Prop} {I : PsSta × Bool → Prop} {s : ApXmit} {x : Nat}

theorem Moves.each_init (hI : Moves C I) : Each I init := by
  refine ⟨init_ok, ?_⟩
  intro x hx
  have hv : init.view x = ({}, false) := by
    unfold view
    rw [init_sta, if_neg hx]
    rfl
  rw [hv]
  exact hI.start

theorem Moves.each_step (hI : Moves C I) (conf : XmitConf) (h : Each I s) (e : PsEvent)
    (hC : s.PollMeets C e) : Each I (s.step conf e) := by
  have hmoves : ∀ v w, SleepSteps C v w → I v → I w := by
    intro v w hvw hv
    induction hvw with
    | refl => exact hv
    | tail _ hstep ih => exact hI.keep _ _ hstep ih
  refine ⟨h.1.step conf e, ?_⟩
  intro x hx
  exact hmoves _ _ (step_sleep conf h.1 hx e hC) (h.2 x hx)

theorem Moves.each_run (hI : Moves C I) (conf : XmitConf) {es : List PsEvent}
    (hC : Along (ApXmit.step conf) (PollMeets C) init es) : Each I (run (ApXmit.step conf) init es) :=
  run_inv (I := Each I) (fun _ e h hc => hI.each_step conf h e hc) init es hI.each_init hC

theorem pollMeets_true (s : ApXmit) (e : PsEvent) : s.PollMeets (fun _ => True) e := by
  cases e <;> simp [PollMeets]

/-- whatever the PS-Polls take -/
theorem moves_staOk : Moves (fun _ => True) fun v => StaOk False v.1 where
  start := staOk_default false
  keep _ _ hstep h := hstep.staOk (fun e => e.elim) h

end ApXmit

/-! ## the counters -/

/-- **The counters of a station are exact**, also in the middle of the loops of
`wakeup_sta_to_xmit` and `xmit_delivery_enabled_frames`, and a service period ends where it should. -/
structure SleepCounts (st : PsSta) : Prop where
  len : st.sleepqLen = st.sleepQ.length
  acLen : st.sleepqAcLen = st.sleepQ.countP (uapsdFrame st)
  wake : ∀ a b, st.sleepQ = a ++ b →
    (releaseLoop wakeupOne { st with sleepQ := [] } a).1.sleepqLen = b.length
      ∧ (releaseLoop wakeupOne { st with sleepQ := [] } a).1.sleepqAcLen = b.countP (uapsdFrame st)
  deliver : ∀ a b, st.sleepQ = a ++ b →
    let r := (deliverLoop { st with sleepQ := [] } a).st
    r.sleepqLen = (r.sleepQ ++ b).length ∧ r.sleepqAcLen = (r.sleepQ ++ b).countP (uapsdFrame st)
  ends : EndsService (deliverLoop { st with sleepQ := [] } st.sleepQ).released

theorem StaOk.sleepCounts (h : StaOk True st) : SleepCounts st := by
  have hac := h.acLen (Or.inl trivial)
  refine ⟨h.len, hac, ?_, ?_, ?_⟩
  · intro a b hq
    refine ⟨releaseLoop_len wakeupOne_len ?_, wakeupLoop_acLen _ a b h.uapsd ?_⟩
    · rw [← hq]
      exact h.len
    · rw [← hq]
      exact hac
  · intro a b hq
    refine ⟨deliverLoop_len _ a b h.uapsd ?_, deliverLoop_acLen _ a b h.uapsd ?_⟩
    · rw [← hq]
      exact h.len
    · rw [← hq]
      exact hac
  · exact deliverLoop_endsService (by exact h.uapsd) (by exact hac)

namespace ApXmit

variable {s : ApXmit} {x : Nat}

theorem moves_counts : Moves HeadLegacy fun v => StaOk True v.1 where
  start := staOk_default false
  keep _ _ hstep h := hstep.staOk (fun _ _ hC => hC) h

/-- a PS-Poll that takes a U-APSD frame does not count it -/
theorem headLegacy_of_counts {priority : Nat} (ha : s.answers x priority = true)
    (h : SleepCounts (s.sta x)) (h' : SleepCounts ((s.psPoll x priority).sta x)) :
    HeadLegacy (s.sta x) := by
  intro f fs hq
  have hv : (s.psPoll x priority).sta x = (releaseOne { s.sta x with sleepQ := fs } f).1 :=
    congrArg Prod.fst (psPoll_view ha hq)
  have hac := h'.acLen
  rw [hv] at hac
  replace hac : (s.sta x).sleepqAcLen = fs.countP (uapsdFrame (s.sta x)) := hac
  rw [h.acLen, hq, countP_uapsd_cons] at hac
  by_contra hf
  rw [if_pos (Bool.eq_true_of_not_eq_false hf)] at hac
  omega

end ApXmit

/-- **The power-save counters are exact, and service periods end, in exactly the runs where no
PS-Poll takes a U-APSD frame.** -/
theorem sleepCounts_iff (conf : XmitConf) (es : List PsEvent) :
    (∀ es', es' <+: es → ∀ x, x ≠ bmcSta →
        SleepCounts ((run (ApXmit.step conf) ApXmit.init es').sta x))
      ↔ Along (ApXmit.step conf) (ApXmit.PollMeets HeadLegacy) ApXmit.init es := by
  refine always_iff_along (P := fun s : ApXmit => ∀ x, x ≠ bmcSta → SleepCounts (s.sta x))
    (I := fun _ => True) trivial (fun _ _ h => h) ?_ ?_ es
  · intro es hC x hx
    exact ((ApXmit.moves_counts.each_run conf hC).2 x hx).sleepCounts
  · intro s e _ hP hP'
    cases e with
    | psPoll x priority =>
      intro ha
      have hx := (ApXmit.answers_iff.mp ha).1
      have hne := (ApXmit.peer_iff.mp hx).2
      have h' := hP' x hne
      rw [show s.step conf (.psPoll x priority) = s.psPoll x priority from if_pos hx] at h'
      exact ApXmit.headLegacy_of_counts ha (hP x hne) h'
    | _ => exact trivial

/-- a frame of `AC_VO` to station 1, which sleeps and has U-APSD for `AC_VO` alone, and a PS-Poll -/
def voPoll : List PsEvent :=
  [.assoc 1 (some 1), .stop 1, .posthandle 0 ⟨1, 6, 100, 7⟩, .psPoll 1 0]

/-- the queue is empty and one frame is counted: the next service period does not end -/
theorem sleepCounts_voPoll :
    ¬ SleepCounts ((run (ApXmit.step {}) ApXmit.init voPoll).sta 1)
      ∧ ((run (ApXmit.step {}) ApXmit.init voPoll).sta 1).sleepQ = []
      ∧ ((run (ApXmit.step {}) ApXmit.init voPoll).sta 1).sleepqAcLen = 1
      ∧ ((run (ApXmit.step {}) ApXmit.init (voPoll ++ [.posthandle 0 ⟨1, 6, 100, 7⟩])).delivery
          1).released.map (fun f => (f.eosp, f.mdata)) = [(false, true)] := by
  have hq : ((run (ApXmit.step {}) ApXmit.init voPoll).sta 1).sleepQ = [] := by decide +kernel
  have hac : ((run (ApXmit.step {}) ApXmit.init voPoll).sta 1).sleepqAcLen = 1 := by decide +kernel
  refine ⟨?_, hq, hac, by decide +kernel⟩
  intro h
  have := h.acLen
  rw [hq, hac] at this
  cases this

/-! ## the TIM -/

/-- **The TIM bit of `x` tells the truth**: it is set when a frame of an announced class waits. -/
structure TimTells (s : ApXmit) (x : Nat) : Prop where
  bit : x ∈ s.tim ↔ ∃ f ∈ (s.sta x).sleepQ,
    if (s.sta x).hasLegacyAc then (s.sta x).uapsd (acOf f.priority) = 0 else True
  legacy : (s.sta x).asoc = true →
    ((s.sta x).hasLegacyAc = true ↔ ∃ ac, (s.sta x).uapsd ac = 0)

theorem announced_iff (st : PsSta) (f : PsFrame) : announced st f = true
    ↔ if st.hasLegacyAc then st.uapsd (acOf f.priority) = 0 else True := by
  unfold announced uapsdFrame
  split <;> simp

namespace ApXmit

variable {s : ApXmit} {x : Nat}

theorem timTells_iff : TimTells s x ↔ TimTrue (s.view x)
    ∧ ((s.sta x).asoc = true → ((s.sta x).hasLegacyAc = true ↔ ∃ ac, (s.sta x).uapsd ac = 0)) := by
  have hbit : TimTrue (s.view x) ↔ (x ∈ s.tim ↔ ∃ f ∈ (s.sta x).sleepQ,
      if (s.sta x).hasLegacyAc then (s.sta x).uapsd (acOf f.priority) = 0 else True) := by
    unfold TimTrue view
    simp only [announced_iff, decide_eq_true_eq]
  rw [hbit]
  exact ⟨fun h => ⟨h.bit, h.legacy⟩, fun h => ⟨h.1, h.2⟩⟩

theorem moves_tim : Moves HeadNotLast fun v => StaOk False v.1 ∧ TimTrue v where
  start := ⟨staOk_default false, timTrue_nil rfl rfl⟩
  keep _ _ hstep h := ⟨hstep.staOk (fun e => e.elim) h.1, hstep.timTrue (fun _ hC => hC) h.1 h.2⟩

/-- the bit stays set when a PS-Poll takes the last announced frame and leaves others -/
theorem headNotLast_of_timTrue {priority : Nat} (hok : StaOk False (s.sta x))
    (ha : s.answers x priority = true) (h : TimTrue (s.view x))
    (h' : TimTrue ((s.psPoll x priority).view x)) : HeadNotLast (s.sta x) := by
  obtain ⟨hx, hw, -, -⟩ := answers_iff.mp ha
  have hl := hok.legacy_of_poll (peer_iff.mp hx).1 hw
  have hann : ∀ f, announced (s.sta x) f = !uapsdFrame (s.sta x) f := by
    intro f
    rw [announced, hl, if_pos rfl]
  intro f fs hq
  rw [psPoll_view ha hq] at h'
  by_contra hno
  obtain ⟨hf, hne, hfs⟩ : uapsdFrame (s.sta x) f ≠ true ∧ fs ≠ []
      ∧ ¬ ∃ g ∈ fs, uapsdFrame (s.sta x) g = false :=
    ⟨fun e => hno (Or.inl e), fun e => hno (Or.inr (Or.inl e)), fun e => hno (Or.inr (Or.inr e))⟩
  have hbit : decide (x ∈ s.tim) = true := by
    refine h.mpr ⟨f, ?_, ?_⟩
    · show f ∈ (s.sta x).sleepQ
      rw [hq]
      exact List.mem_cons_self
    · show announced (s.sta x) f = true
      rw [hann, Bool.eq_false_of_not_eq_true hf]
      rfl
  have hlen : dec32 (s.sta x).sleepqLen ≠ 0 := by
    rw [hok.len, hq]
    exact fun e => hne (List.length_eq_zero_iff.mp e)
  have hset : (decide (x ∈ s.tim) && decide (dec32 (s.sta x).sleepqLen ≠ 0)) = true := by
    rw [hbit, decide_eq_true hlen]
    rfl
  obtain ⟨g, hg, hga⟩ := h'.mp hset
  replace hga : announced (s.sta x) g = true := hga
  rw [hann, Bool.not_eq_true'] at hga
  exact hfs ⟨g, hg, hga⟩

end ApXmit

/-- **The TIM bits tell the truth in exactly the runs where no PS-Poll takes the last announced
frame and leaves frames that are not announced.** -/
theorem timTells_iff_along (conf : XmitConf) (es : List PsEvent) :
    (∀ es', es' <+: es → ∀ x, x ≠ bmcSta → TimTells (run (ApXmit.step conf) ApXmit.init es') x)
      ↔ Along (ApXmit.step conf) (ApXmit.PollMeets HeadNotLast) ApXmit.init es := by
  have hI := ApXmit.moves_staOk
  refine always_iff_along (P := fun s : ApXmit => ∀ x, x ≠ bmcSta → TimTells s x)
    (I := ApXmit.Each fun v => StaOk False v.1) hI.each_init
    (fun s e h => hI.each_step conf h e (ApXmit.pollMeets_true s e)) ?_ ?_ es
  · intro es hC x hx
    obtain ⟨hok, ht⟩ := (ApXmit.moves_tim.each_run conf hC).2 x hx
    exact ApXmit.timTells_iff.mpr ⟨ht, hok.legacy⟩
  · intro s e hs hP hP'
    cases e with
    | psPoll x priority =>
      intro ha
      have hx := (ApXmit.answers_iff.mp ha).1
      have hne := (ApXmit.peer_iff.mp hx).2
      have h' := hP' x hne
      rw [show s.step conf (.psPoll x priority) = s.psPoll x priority from if_pos hx] at h'
      exact ApXmit.headNotLast_of_timTrue (hs.2 x hne) ha (ApXmit.timTells_iff.mp (hP x hne)).1
        (ApXmit.timTells_iff.mp h').1
    | _ => exact trivial

/-- a frame of `AC_BE` and one of `AC_VO` to the same station, and a PS-Poll -/
def beVoPoll : List PsEvent :=
  [.assoc 1 (some 1), .stop 1, .posthandle 0 ⟨1, 0, 100, 0⟩, .posthandle 0 ⟨1, 6, 100, 7⟩, .psPoll 1 0]

/-- only the frame of `AC_VO` is left, and the bit is still set -/
theorem timTells_beVoPoll :
    ¬ TimTells (run (ApXmit.step {}) ApXmit.init beVoPoll) 1
      ∧ 1 ∈ (run (ApXmit.step {}) ApXmit.init beVoPoll).tim
      ∧ ((run (ApXmit.step {}) ApXmit.init beVoPoll).sta 1).hasLegacyAc = true
      ∧ ∀ f ∈ ((run (ApXmit.step {}) ApXmit.init beVoPoll).sta 1).sleepQ,
          ((run (ApXmit.step {}) ApXmit.init beVoPoll).sta 1).uapsd (acOf f.priority) = 3 := by
  have hbit : 1 ∈ (run (ApXmit.step {}) ApXmit.init beVoPoll).tim := by decide +kernel
  have hl : ((run (ApXmit.step {}) ApXmit.init beVoPoll).sta 1).hasLegacyAc = true := by
    decide +kernel
  have hvo : ∀ f ∈ ((run (ApXmit.step {}) ApXmit.init beVoPoll).sta 1).sleepQ,
      ((run (ApXmit.step {}) ApXmit.init beVoPoll).sta 1).uapsd (acOf f.priority) = 3 := by
    decide +kernel
  refine ⟨?_, hbit, hl, hvo⟩
  intro h
  obtain ⟨f, hf, hu⟩ := h.bit.mp hbit
  rw [if_pos hl, hvo f hf] at hu
  cases hu

end Rtl8192eu
