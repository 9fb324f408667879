import Rtl8192eu.Recv.ReorderCtrl

/-!
# The reorder timer and the pending queue lock

The receive context and the timer handler share the reorder control under the lock of the pending
queue.  `recv_indicatepkt_reorder` cancels the timer only after it has released the lock, and the
handler arms it again without setting `bReorderWaiting`, so the two are cut into the steps between
which the other may run.

* `RxPc`, `TmPc`   where the receive context and the handler are;
* `TimerState.step`   one step of one of them;
* `TimerState.Inv`   whenever something waits, the timer is armed or the handler is on its way.

The timer is a timer of the kernel: it is armed or not, it does not fire while its handler runs, and
`del_timer_sync` waits for the handler.
-/

namespace Rtl8192eu

open Run

inductive RxPc where
  | idle
  /-- at `_enter_critical_bh` with a frame -/
  | waiting (f : RecvFrame)
  | locked (f : RecvFrame)
  /-- at `_exit_critical_bh`, with or without the cancel after it -/
  | unlock (cancel : Bool)
  /-- at `_cancel_timer_ex` -/
  | cancel
  deriving DecidableEq, Repr

inductive TmPc where
  | idle | waiting | locked | unlock
  deriving DecidableEq, Repr

structure TimerState where
  ctrl : RecvReorderCtrl
  rx : RxPc
  tm : TmPc
  /-- `RTW_CANNOT_RUN` -/
  cannotRun : Bool
  deriving DecidableEq, Repr

inductive TimerEvent where
  /-- a frame reaches `recv_indicatepkt_reorder` -/
  | arrive (f : RecvFrame)
  /-- the receive context goes on -/
  | rx
  /-- the timer expires -/
  | fire
  /-- the handler goes on -/
  | tm
  /-- the driver is stopped or the device removed -/
  | stop
  deriving DecidableEq, Repr

def RxPc.holds : RxPc → Bool
  | .locked _ => true
  | .unlock _ => true
  | _ => false

def TmPc.holds : TmPc → Bool
  | .locked => true
  | .unlock => true
  | _ => false

/-- the timer will be cancelled before the next frame -/
def RxPc.cancels : RxPc → Bool
  | .unlock b => b
  | .cancel => true
  | _ => false

namespace TimerState

def init (w : Nat) : TimerState := ⟨RecvReorderCtrl.init w true, .idle, .idle, false⟩

def lockFree (s : TimerState) : Bool := !s.rx.holds && !s.tm.holds

def arrive (s : TimerState) (f : RecvFrame) : TimerState :=
  match s.rx with
  | .idle => if !f.attrib.qos || !s.ctrl.enable then s else { s with rx := .waiting f }
  | _ => s

/-- the critical section of the receive context -/
def rxLocked (s : TimerState) (f : RecvFrame) : TimerState :=
  { s with ctrl := (reorderLocked s.ctrl f).2.1, rx := .unlock (reorderLocked s.ctrl f).2.2.2 }

def rxStep (s : TimerState) : TimerState :=
  match s.rx with
  | .idle => s
  | .waiting f => if s.lockFree then { s with rx := .locked f } else s
  | .locked f => s.rxLocked f
  | .unlock cancel => { s with rx := if cancel then .cancel else .idle }
  -- `del_timer_sync` returns when the handler is not running
  | .cancel => if s.tm = .idle then { s with ctrl := s.ctrl.cancelTimer, rx := .idle } else s

def fire (s : TimerState) : TimerState :=
  if s.ctrl.timer && s.tm = .idle then
    { s with ctrl := s.ctrl.cancelTimer, tm := if s.cannotRun then .idle else .waiting }
  else s

def tmStep (s : TimerState) : TimerState :=
  match s.tm with
  | .idle => s
  | .waiting => if s.lockFree then { s with tm := .locked } else s
  | .locked => { s with ctrl := (rtwReorderingCtrlTimeoutHandler s.ctrl false).1, tm := .unlock }
  | .unlock => { s with tm := .idle }

def step (s : TimerState) : TimerEvent → TimerState
  | .arrive f => s.arrive f
  | .rx => s.rxStep
  | .fire => s.fire
  | .tm => s.tmStep
  | .stop => { s with cannotRun := true }

end TimerState

/-! ## the two critical sections -/

/-- what the critical section of the receive context leaves -/
inductive RxLocked (c : RecvReorderCtrl) (r : RxRet × RecvReorderCtrl × List RecvFrame × Bool) : Prop
  /-- the frame is rejected -/
  | fail (hc : r.2.2.2 = false) (hp : r.2.1.pending = c.pending)
      (hb : r.2.1.bReorderWaiting = c.bReorderWaiting) (ht : r.2.1.timer = c.timer)
  /-- something waits, and the timer was armed here or earlier -/
  | buffered (hc : r.2.2.2 = false) (hb : r.2.1.bReorderWaiting = true)
      (ht : r.2.1.timer = (!c.bReorderWaiting || c.timer))
  | drained (hc : r.2.2.2 = true) (hp : r.2.1.pending = []) (hb : r.2.1.bReorderWaiting = false)

theorem reset_waits (c : RecvReorderCtrl) : c.reset.pending = c.pending
    ∧ c.reset.bReorderWaiting = c.bReorderWaiting ∧ c.reset.timer = c.timer := by
  unfold RecvReorderCtrl.reset
  split
  · exact ⟨rfl, rfl, rfl⟩
  · exact ⟨rfl, rfl, rfl⟩

theorem checkIndicateSeq_waits {c c' : RecvReorderCtrl} {seq : Nat}
    (h : checkIndicateSeq c seq = some c') : c'.pending = c.pending
    ∧ c'.bReorderWaiting = c.bReorderWaiting ∧ c'.timer = c.timer := by
  unfold checkIndicateSeq at h
  dsimp only at h
  generalize (if c.indicateSeq = seqInit then seq else c.indicateSeq) = ind at h
  split at h
  · cases h
  split at h
  · cases h
    exact ⟨rfl, rfl, rfl⟩
  split at h
  · cases h
    exact ⟨rfl, rfl, rfl⟩
  · cases h
    exact ⟨rfl, rfl, rfl⟩

theorem reorderLocked_cases (c : RecvReorderCtrl) (f : RecvFrame) : RxLocked c (reorderLocked c f) := by
  obtain ⟨hp₀, hb₀, ht₀⟩ := reset_waits c
  unfold reorderLocked
  cases h₁ : checkIndicateSeq c.reset f.attrib.seqNum with
  | none => exact .fail rfl hp₀ hb₀ ht₀
  | some c₁ =>
    obtain ⟨hp₁, hb₁, ht₁⟩ := checkIndicateSeq_waits h₁
    rw [hp₀] at hp₁
    rw [hb₀] at hb₁
    rw [ht₀] at ht₁
    simp only [enqueueReorderRecvframe]
    cases reorderInsert f c₁.pending with
    | none => exact .fail rfl hp₁ hb₁ ht₁
    | some l =>
      simp only [Option.map_some, recvIndicatepktsInOrder_false]
      cases hl : (indicateLoop c₁.indicateSeq l).2.2.isEmpty with
      | true => exact .drained rfl (List.isEmpty_iff.mp hl) rfl
      | false =>
        cases hw : c₁.bReorderWaiting with
        | true =>
          refine .buffered rfl (by simp) ?_
          simp [← hb₁, ← ht₁, hw]
        | false =>
          refine .buffered rfl (by simp) ?_
          simp [← hb₁, hw]

/-- the handler clears the flag and arms the timer if something waits -/
theorem timeout_waits (c : RecvReorderCtrl) :
    (rtwReorderingCtrlTimeoutHandler c false).1.bReorderWaiting = false
    ∧ ((rtwReorderingCtrlTimeoutHandler c false).1.pending ≠ [] →
        (rtwReorderingCtrlTimeoutHandler c false).1.timer = true)
    ∧ (c.pending = [] → (rtwReorderingCtrlTimeoutHandler c false).1.pending = []) := by
  unfold rtwReorderingCtrlTimeoutHandler recvIndicatepktsInOrder
  cases hp : c.pending with
  | nil => simp
  | cons f l =>
    have harm : ∀ m : List RecvFrame, m ≠ [] → (!m.isEmpty || c.timer) = true := by
      intro m hm
      rw [List.isEmpty_eq_false_iff.mpr hm]
      rfl
    exact ⟨rfl, harm _, fun h => by cases h⟩

/-! ## the invariant -/

namespace TimerState

/-- the timer is armed, or its handler will take the lock or has just taken it -/
def Coming (s : TimerState) : Prop := s.ctrl.timer = true ∨ s.tm = .waiting ∨ s.tm = .locked

/-- **Whatever waits, somebody comes for it**, as long as the driver runs. -/
structure Inv (s : TimerState) : Prop where
  coming : s.ctrl.pending ≠ [] → s.Coming
  /-- the flag does not outlive the timer it stands for -/
  waiting : s.ctrl.bReorderWaiting = true → s.Coming
  /-- a cancel finds nothing that waits, and nobody adds to it before it is done -/
  cancel : s.rx.cancels = true → s.ctrl.pending = [] ∧ s.ctrl.bReorderWaiting = false
  exclusive : ¬ (s.rx.holds = true ∧ s.tm.holds = true)

theorem inv_init (w : Nat) : (init w).Inv where
  coming := fun h => absurd rfl h
  waiting := fun h => by cases h
  cancel := fun h => by cases h
  exclusive := fun h => by cases h.1

theorem lockFree_iff {s : TimerState} : s.lockFree = true ↔ s.rx.holds = false ∧ s.tm.holds = false := by
  unfold lockFree
  cases s.rx.holds <;> cases s.tm.holds <;> decide

theorem inv_arrive {s : TimerState} (hI : s.Inv) (f : RecvFrame) : (s.arrive f).Inv := by
  unfold arrive
  split
  · split
    · exact hI
    · exact ⟨hI.coming, hI.waiting, fun h => (by cases h), fun h => by cases h.1⟩
  · exact hI

theorem inv_rxLocked {s : TimerState} {f : RecvFrame} (hI : s.Inv) (hrx : s.rx = .locked f) :
    (s.rxLocked f).Inv := by
  have hex : ¬ ((s.rxLocked f).rx.holds = true ∧ (s.rxLocked f).tm.holds = true) := by
    intro h
    apply hI.exclusive
    rw [hrx]
    exact ⟨rfl, h.2⟩
  rcases reorderLocked_cases s.ctrl f with ⟨hc, hp, hb, ht⟩ | ⟨hc, hb, ht⟩ | ⟨hc, hp, hb⟩
  · have hcoming : s.Coming → (s.rxLocked f).Coming := fun h => h.imp_left ht.trans
    refine ⟨fun h => hcoming (hI.coming (hp ▸ h)), fun h => hcoming (hI.waiting (hb ▸ h)), ?_, hex⟩
    intro h
    exact absurd (hc.symm.trans h) (by decide)
  · -- the timer is armed here, or the flag says that it was
    have hcoming : (s.rxLocked f).Coming := by
      cases hw : s.ctrl.bReorderWaiting with
      | false =>
        left
        show (reorderLocked s.ctrl f).2.1.timer = true
        rw [ht, hw]
        rfl
      | true =>
        refine (hI.waiting hw).imp_left fun h => ?_
        show (reorderLocked s.ctrl f).2.1.timer = true
        rw [ht, h, Bool.or_true]
    refine ⟨fun _ => hcoming, fun _ => hcoming, ?_, hex⟩
    intro h
    exact absurd (hc.symm.trans h) (by decide)
  · refine ⟨fun h => absurd hp h, fun h => ?_, fun _ => ⟨hp, hb⟩, hex⟩
    rw [show (reorderLocked s.ctrl f).2.1.bReorderWaiting = true from h] at hb
    cases hb

theorem inv_rxStep {s : TimerState} (hI : s.Inv) : s.rxStep.Inv := by
  unfold rxStep
  split
  · exact hI
  · split
    · rename_i hfree
      refine ⟨hI.coming, hI.waiting, fun h => (by cases h), fun h => ?_⟩
      exact absurd ((lockFree_iff.mp hfree).2.symm.trans h.2) (by decide)
    · exact hI
  · rename_i f hrx
    exact inv_rxLocked hI hrx
  · rename_i cancel hrx
    refine ⟨hI.coming, hI.waiting, fun h => ?_, fun h => ?_⟩
    · cases cancel with
      | true => exact hI.cancel (by rw [hrx]; rfl)
      | false => cases h
    · cases cancel <;> cases h.1
  · rename_i hrx
    split
    · obtain ⟨hp, hb⟩ := hI.cancel (by rw [hrx]; rfl)
      exact ⟨fun h => absurd hp h, fun h => absurd (hb.symm.trans h) (by decide),
        fun h => (by cases h), fun h => by cases h.1⟩
    · exact hI

theorem inv_fire {s : TimerState} (hI : s.Inv) (hrun : s.cannotRun = false) : s.fire.Inv := by
  unfold fire
  split
  · rw [hrun]
    exact ⟨fun _ => Or.inr (Or.inl rfl), fun _ => Or.inr (Or.inl rfl), hI.cancel, fun h => by cases h.2⟩
  · exact hI

theorem inv_tmStep {s : TimerState} (hI : s.Inv) : s.tmStep.Inv := by
  unfold tmStep
  split
  · exact hI
  · split
    · rename_i htm hfree
      refine ⟨fun _ => Or.inr (Or.inr rfl), fun _ => Or.inr (Or.inr rfl), hI.cancel, fun h => ?_⟩
      exact absurd ((lockFree_iff.mp hfree).1.symm.trans h.1) (by decide)
    · exact hI
  · rename_i htm
    obtain ⟨hb, ht, hp⟩ := timeout_waits s.ctrl
    refine ⟨fun h => Or.inl (ht h), fun h => absurd (hb.symm.trans h) (by decide), fun h => ?_, fun h => ?_⟩
    · exact ⟨hp (hI.cancel h).1, hb⟩
    · exact hI.exclusive ⟨h.1, by rw [htm]; rfl⟩
  · rename_i htm
    have hcoming : s.Coming → s.ctrl.timer = true := by
      rintro (h | h | h)
      · exact h
      · rw [htm] at h
        cases h
      · rw [htm] at h
        cases h
    exact ⟨fun h => Or.inl (hcoming (hI.coming h)), fun h => Or.inl (hcoming (hI.waiting h)), hI.cancel,
      fun h => by cases h.2⟩

theorem arrive_cannotRun (s : TimerState) (f : RecvFrame) : (s.arrive f).cannotRun = s.cannotRun := by
  unfold arrive
  split
  · split <;> rfl
  · rfl

theorem rxStep_cannotRun (s : TimerState) : s.rxStep.cannotRun = s.cannotRun := by
  unfold rxStep
  split
  · rfl
  · split <;> rfl
  · rfl
  · rfl
  · split <;> rfl

theorem tmStep_cannotRun (s : TimerState) : s.tmStep.cannotRun = s.cannotRun := by
  unfold tmStep
  split
  · rfl
  · split <;> rfl
  · rfl
  · rfl

theorem fire_cannotRun (s : TimerState) : s.fire.cannotRun = s.cannotRun := by
  unfold fire
  split <;> rfl

theorem step_cannotRun (s : TimerState) (e : TimerEvent) (he : e ≠ .stop) :
    (s.step e).cannotRun = s.cannotRun := by
  cases e with
  | arrive f => exact s.arrive_cannotRun f
  | rx => exact s.rxStep_cannotRun
  | fire => exact s.fire_cannotRun
  | tm => exact s.tmStep_cannotRun
  | stop => exact absurd rfl he

theorem inv_step (s : TimerState) (e : TimerEvent) (hI : s.Inv) (hrun : s.cannotRun = false) :
    (s.step e).Inv := by
  cases e with
  | arrive f => exact inv_arrive hI f
  | rx => exact inv_rxStep hI
  | fire => exact inv_fire hI hrun
  | tm => exact inv_tmStep hI
  | stop => exact ⟨hI.coming, hI.waiting, hI.cancel, hI.exclusive⟩

theorem inv_run (w : Nat) (es : List TimerEvent) (h : TimerEvent.stop ∉ es) :
    (run step (init w) es).Inv := by
  have hgen : ∀ (es : List TimerEvent) (s : TimerState), TimerEvent.stop ∉ es → s.Inv →
      s.cannotRun = false → (run step s es).Inv := by
    intro es
    induction es with
    | nil => exact fun s _ hI _ => hI
    | cons e es ih =>
      intro s hes hI hrun
      have he : e ≠ .stop := fun h => hes (h ▸ List.mem_cons_self)
      apply ih (s.step e) (fun hm => hes (List.mem_cons_of_mem _ hm)) (inv_step s e hI hrun)
      rw [step_cannotRun s e he]
      exact hrun
  exact hgen es (init w) h (inv_init w) rfl

end TimerState

open TimerState

/-- **No frame gets stuck in the reorder queue.**  While the driver runs, after every interleaving of
arrivals, timer firings and the steps of the two contexts: if the lock is free, no cancel is
outstanding and something waits, the timer is armed or its handler waits for the lock. -/
theorem reorder_timer_armed (w : Nat) (es : List TimerEvent) (hrun : TimerEvent.stop ∉ es) :
    let s := run TimerState.step (TimerState.init w) es
    s.lockFree = true → s.rx ≠ .cancel → s.ctrl.pending ≠ [] →
      s.ctrl.timer = true ∨ s.tm = .waiting := by
  intro s hfree _ hp
  rcases (inv_run w es hrun).coming hp with h | h | h
  · exact Or.inl h
  · exact Or.inr h
  · -- the handler does not hold a lock that is free
    have := (lockFree_iff.mp hfree).2
    rw [show s.tm = .locked from h] at this
    cases this

/-- frame 2 waits for 1; the timer has fired, and the handler waits for the lock -/
theorem reorder_timer_armed_waiting :
    let f (seq : Fin 4096) : TimerEvent := .arrive { id := 0, attrib := { qos := true, seqNum := seq } }
    let s := run TimerState.step (TimerState.init 64)
      [f 0, .rx, .rx, .rx, .rx, f 2, .rx, .rx, .fire, .rx]
    s.ctrl.pending.length = 1 ∧ s.ctrl.timer = false ∧ (s.ctrl.timer = true ∨ s.tm = .waiting) :=
  ⟨by decide, by decide, reorder_timer_armed 64 _ (by decide) (by decide) (by decide) (by decide)⟩

end Rtl8192eu
