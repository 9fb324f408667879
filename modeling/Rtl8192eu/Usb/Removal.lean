import Mathlib.Data.Fintype.Pi
import Rtl8192eu.Lib.Run
import Rtl8192eu.Usb.StallRecovery

/-!
# Removal of the device during a recovery

`rtw_dev_remove` of `os_dep/linux/usb_intf.c` against the completions of the `n` receive URBs and
the work item that resets a halted endpoint, each in its own steps and in any order.

* `removeStep`    `rtw_dev_remove`: the work is cancelled and its slot cleared, the flags are
                   set, the URBs are killed one after the other, the adapter is freed;
* `handlerStep`   `usb_read_port_complete` of one URB with `rtw_ep_reset_schedule`;
* `workerStep`    `rtw_ep_reset_worker` with the resubmission;
* `Clean`         nothing of the adapter is left behind.

`cancel_work_sync` waits for running work.  `usb_kill_urb` makes the host controller give the URB
back, waits for its handler, and lets no one submit the URB meanwhile.  `usb_read_port` finds an
skb for every buffer.
-/

namespace Rtl8192eu

open Run

/-! ## the state -/

inductive HandlerPc where
  /-- the flag test of `usb_read_port_complete`, and what follows it -/
  | enter (st : RxStatus)
  | status (st : RxStatus)
  /-- `rtw_ep_reset_schedule` -/
  | flagTest | pendingTest | setPending | setAdapter | setRecvbuf | setWorkitem
  /-- `usb_read_port`: its flag test and `usb_submit_urb` -/
  | readPort | submit
  deriving DecidableEq, Repr

inductive UrbState where
  | idle
  | inFlight
  | handling (pc : HandlerPc)
  deriving DecidableEq, Repr

/-- where `rtw_ep_reset_worker` is, with what it has read -/
inductive ResetPc (n : Nat) where
  | start
  | slotTest (adapter : Bool)
  | flagTest | clearHalt | resetErr | rxTest
  | readPort (b : Option (Fin n))
  | submit (b : Fin n)
  | clearRecvbuf | clearPending
  deriving DecidableEq, Repr

/-- where `rtw_dev_remove` is: the next thing it does -/
inductive RemovePc where
  /-- `rtw_usb_ep_reset_work_deinit` -/
  | cancelWork | clearAdapter | clearRecvbuf | clearPending
  | surpriseRemoved | drvStopped
  /-- `usb_read_port_cancel`: `usb_kill_urb` of one URB after the other -/
  | kill (i : Nat) | killWait (i : Nat)
  /-- the end of `rtw_dev_unload` -/
  | unloadRemoved
  | free | freed
  deriving DecidableEq, Repr

structure RemoveState (n : Nat) extends IoState where
  urb : Fin n → UrbState
  /-- the URB that is being killed -/
  rejected : Option (Fin n) := none
  /-- `rtw_ep_reset_padapter` refers to the adapter -/
  slotAdapter : Bool := false
  slot : Option (Fin n) := none
  resetPending : Bool := false
  queued : Bool := false
  worker : Option (ResetPc n) := none
  remove : RemovePc := .cancelWork
  /-- `usb_drv.drv_registered`: an unplug, or else a module unload -/
  drvRegistered : Bool
  deriving DecidableEq

namespace RemoveState

variable {n : Nat}

/-- all receive URBs are with the host controller -/
def init (n : Nat) (drvRegistered : Bool) : RemoveState n where
  urb := fun _ => .inFlight
  drvRegistered := drvRegistered

/-! ## the steps -/

def io (s : RemoveState n) (f : IoState → IoState) : RemoveState n :=
  { s with toIoState := f s.toIoState }

def setUrb (s : RemoveState n) (i : Fin n) (u : UrbState) : RemoveState n :=
  { s with urb := Function.update s.urb i u }

/-- `usb_submit_urb` fails with `-EPERM` while the URB is killed -/
def submitUrb (s : RemoveState n) (i : Fin n) : UrbState :=
  if s.rejected = some i then .idle else .inFlight

def handlerStep (s : RemoveState n) (i : Fin n) : RemoveState n :=
  match s.urb i with
  | .idle | .inFlight => s
  | .handling (.enter st) => s.setUrb i (if s.cannotRun then .idle else .handling (.status st))
  | .handling (.status (.ok false)) => s.setUrb i (.handling .readPort)
  | .handling (.status (.ok true)) => (s.io .resetErr).setUrb i (.handling .readPort)
  | .handling (.status .epipe) => (s.io .incUsbStallErr).setUrb i (.handling .flagTest)
  | .handling (.status .shutdown) =>
    { s.io .incContinualIoError with drvStopped := true }.setUrb i .idle
  | .handling (.status .eproto) => (s.io .incContinualIoError).setUrb i (.handling .readPort)
  | .handling (.status .other) => (s.io .incContinualIoError).setUrb i .idle
  | .handling .flagTest => s.setUrb i (if s.cannotRun then .idle else .handling .pendingTest)
  | .handling .pendingTest => s.setUrb i (if s.resetPending then .idle else .handling .setPending)
  | .handling .setPending => { s with resetPending := true }.setUrb i (.handling .setAdapter)
  | .handling .setAdapter => { s with slotAdapter := true }.setUrb i (.handling .setRecvbuf)
  | .handling .setRecvbuf => { s with slot := some i }.setUrb i (.handling .setWorkitem)
  | .handling .setWorkitem => { s with queued := true }.setUrb i .idle
  | .handling .readPort => s.setUrb i (if s.cannotRun then .idle else .handling .submit)
  | .handling .submit => s.setUrb i (s.submitUrb i)

def workerStep (s : RemoveState n) : RemoveState n :=
  match s.worker with
  | none => if s.queued then { s with queued := false, worker := some .start } else s
  | some .start => { s with worker := some (.slotTest s.slotAdapter) }
  | some (.slotTest adapter) =>
    { s with worker := some (if adapter && s.slot.isSome then .flagTest else .clearRecvbuf) }
  | some .flagTest => { s with worker := some (if s.cannotRun then .clearRecvbuf else .clearHalt) }
  | some .clearHalt => { s with worker := some .resetErr }
  | some .resetErr => { s.io .resetErr with worker := some .rxTest }
  | some .rxTest =>
    { s with worker := some (if s.cannotRun then .clearRecvbuf else .readPort s.slot) }
  | some (.readPort none) => { s with worker := some .clearRecvbuf }
  | some (.readPort (some b)) =>
    { s with worker := some (if s.cannotRun then .clearRecvbuf else .submit b) }
  | some (.submit b) =>
    -- a URB that is not idle is refused with `-EBUSY`
    { s.setUrb b (if s.urb b = .idle then s.submitUrb b else s.urb b) with
      worker := some .clearRecvbuf }
  | some .clearRecvbuf => { s with slot := none, worker := some .clearPending }
  | some .clearPending => { s with resetPending := false, worker := none }

/-- `usb_kill_urb` takes the URB from the host controller; its handler runs with `-ENOENT` -/
def unlinkUrb (s : RemoveState n) (i : Fin n) : RemoveState n :=
  { s.setUrb i (if s.urb i = .inFlight then .handling (.enter .shutdown) else s.urb i) with
    rejected := some i }

def removeStep (s : RemoveState n) : RemoveState n :=
  match s.remove with
  | .cancelWork =>
    if s.worker = none then { s with queued := false, remove := .clearAdapter } else s
  | .clearAdapter => { s with slotAdapter := false, remove := .clearRecvbuf }
  | .clearRecvbuf => { s with slot := none, remove := .clearPending }
  | .clearPending => { s with resetPending := false, remove := .surpriseRemoved }
  | .surpriseRemoved =>
    { s with surpriseRemoved := s.surpriseRemoved || s.drvRegistered, remove := .drvStopped }
  | .drvStopped => { s with drvStopped := true, remove := .kill 0 }
  | .kill i =>
    if h : i < n then { s.unlinkUrb ⟨i, h⟩ with remove := .killWait i }
    else { s with remove := .unloadRemoved }
  | .killWait i =>
    if h : i < n then
      if s.urb ⟨i, h⟩ = .idle then { s with rejected := none, remove := .kill (i + 1) } else s
    else s
  | .unloadRemoved => { s with surpriseRemoved := true, remove := .free }
  | .free => { s with remove := .freed }
  | .freed => s

end RemoveState

inductive RemoveEvent (n : Nat) where
  | remove
  /-- the host controller gives URB `i` back -/
  | complete (i : Fin n) (st : RxStatus)
  | handler (i : Fin n)
  | work
  deriving DecidableEq, Repr

namespace RemoveState

variable {n : Nat}

def step (s : RemoveState n) : RemoveEvent n → RemoveState n
  | .remove => s.removeStep
  | .complete i st => if s.urb i = .inFlight then s.setUrb i (.handling (.enter st)) else s
  | .handler i => s.handlerStep i
  | .work => s.workerStep

/-- no work is queued or running, no URB is in flight or in its handler, and the slot does not
refer to the adapter -/
structure Clean (s : RemoveState n) : Prop where
  queued : s.queued = false
  worker : s.worker = none
  urb : ∀ i, s.urb i = .idle
  slotAdapter : s.slotAdapter = false

/-- before a step: a handler queues the work only while it is not yet cancelled -/
def QueuesBeforeCancel (s : RemoveState n) : RemoveEvent n → Prop
  | .handler i => s.urb i = .handling .setWorkitem → s.remove = .cancelWork
  | _ => True

instance (s : RemoveState n) : (e : RemoveEvent n) → Decidable (s.QueuesBeforeCancel e)
  | .handler i =>
    inferInstanceAs (Decidable (s.urb i = .handling .setWorkitem → s.remove = .cancelWork))
  | .remove | .complete _ _ | .work => isTrue trivial

/-! ## what a step of a handler changes -/

variable {s : RemoveState n} {i j : Fin n}

@[simp] theorem setUrb_urb (s : RemoveState n) (i : Fin n) (u : UrbState) :
    (s.setUrb i u).urb = Function.update s.urb i u :=
  rfl

@[simp] theorem handlerStep_worker (s : RemoveState n) (i : Fin n) :
    (s.handlerStep i).worker = s.worker := by
  unfold handlerStep
  split <;> rfl

@[simp] theorem handlerStep_remove (s : RemoveState n) (i : Fin n) :
    (s.handlerStep i).remove = s.remove := by
  unfold handlerStep
  split <;> rfl

theorem handlerStep_queued (h : s.urb i ≠ .handling .setWorkitem) :
    (s.handlerStep i).queued = s.queued := by
  unfold handlerStep
  split <;> first
    | rfl
    | exact absurd ‹_› h

theorem handlerStep_slotAdapter (h : s.urb i ≠ .handling .setAdapter) :
    (s.handlerStep i).slotAdapter = s.slotAdapter := by
  unfold handlerStep
  split <;> first
    | rfl
    | exact absurd ‹_› h

theorem handlerStep_urb_of_ne (h : j ≠ i) : (s.handlerStep i).urb j = s.urb j := by
  unfold handlerStep
  split <;> first
    | rfl
    | exact Function.update_of_ne h _ _

theorem handlerStep_urb_idle (h : s.urb i = .idle) : s.handlerStep i = s := by
  rw [handlerStep, h]

theorem handlerStep_urb_setAdapter (h : s.urb i = .handling .setAdapter) :
    (s.handlerStep i).urb i = .handling .setRecvbuf := by
  rw [handlerStep, h]
  exact Function.update_self _ _ _

theorem handlerStep_urb_setRecvbuf (h : s.urb i = .handling .setRecvbuf) :
    (s.handlerStep i).urb i = .handling .setWorkitem := by
  rw [handlerStep, h]
  exact Function.update_self _ _ _

/-! ## the invariant of a removal -/

def killed (s : RemoveState n) : Nat :=
  match s.remove with
  | .kill i | .killWait i => i
  | .unloadRemoved | .free | .freed => n
  | _ => 0

/-- the handler has written the adapter into the slot and will queue the work -/
def WroteAdapter (s : RemoveState n) (i : Fin n) : Prop :=
  s.urb i = .handling .setRecvbuf ∨ s.urb i = .handling .setWorkitem

/-- once the work is cancelled it is neither queued nor running, a slot that refers to the adapter
was written by a handler that still runs, and the URBs that are killed stay idle -/
structure Cancelled (s : RemoveState n) : Prop where
  queued : s.queued = false
  worker : s.worker = none
  slot : s.slotAdapter = true → s.remove = .clearAdapter ∨ ∃ i, s.WroteAdapter i
  killed : ∀ i : Fin n, i.val < s.killed → s.urb i = .idle

def RemoveInv (s : RemoveState n) : Prop := s.remove = .cancelWork ∨ s.Cancelled

theorem WroteAdapter.handling (h : s.WroteAdapter i) : ∃ pc, s.urb i = .handling pc := by
  obtain h | h := h
  · exact ⟨_, h⟩
  · exact ⟨_, h⟩

/-- a step that neither queues the work nor writes the slot -/
theorem Cancelled.mono {s' : RemoveState n} (h : s.Cancelled) (hq : s'.queued = s.queued)
    (hw : s'.worker = s.worker) (hslot : s'.slotAdapter = s.slotAdapter)
    (hrem : s.remove = .clearAdapter → s'.remove = .clearAdapter)
    (hwrote : ∀ i, s.WroteAdapter i → s'.WroteAdapter i)
    (hidle : ∀ i, s.urb i = .idle → s'.urb i = .idle)
    (hk : ∀ i : Fin n, i.val < s'.killed → i.val < s.killed ∨ s.urb i = .idle) : s'.Cancelled where
  queued := hq.trans h.queued
  worker := hw.trans h.worker
  slot hs := by
    obtain hr | ⟨i, hi⟩ := h.slot (hslot.symm.trans hs)
    · exact Or.inl (hrem hr)
    · exact Or.inr ⟨i, hwrote i hi⟩
  killed i hi := by
    obtain hlt | he := hk i hi
    · exact hidle i (h.killed i hlt)
    · exact hidle i he

theorem Cancelled.setUrb_inFlight (h : s.Cancelled) (hi : s.urb i = .inFlight) (u : UrbState) :
    (s.setUrb i u).Cancelled := by
  refine h.mono rfl rfl rfl id ?_ ?_ fun j hj => Or.inl hj
  · intro j hj
    have hne : j ≠ i := by
      rintro rfl
      obtain ⟨pc, hpc⟩ := hj.handling
      rw [hpc] at hi
      cases hi
    rwa [WroteAdapter, setUrb_urb, Function.update_of_ne hne]
  · intro j hj
    have hne : j ≠ i := by
      rintro rfl
      rw [hj] at hi
      cases hi
    rwa [setUrb_urb, Function.update_of_ne hne]

theorem handlerStep_removeInv (h : s.Cancelled) (hC : s.QueuesBeforeCancel (.handler i)) :
    (s.handlerStep i).RemoveInv := by
  by_cases hwork : s.urb i = .handling .setWorkitem
  · left
    rw [handlerStep_remove]
    exact hC hwork
  right
  have hidle : ∀ j, s.urb j = .idle → (s.handlerStep i).urb j = .idle := by
    intro j hj
    by_cases hne : j = i
    · subst hne
      rwa [handlerStep_urb_idle hj]
    · rwa [handlerStep_urb_of_ne hne]
  have hkilled : (s.handlerStep i).killed = s.killed := by
    rw [killed, killed, handlerStep_remove]
  by_cases hadapter : s.urb i = .handling .setAdapter
  · -- the slot refers to the adapter again, and this handler goes on to queue the work
    exact {
      queued := (handlerStep_queued hwork).trans h.queued
      worker := (handlerStep_worker s i).trans h.worker
      slot := fun _ => Or.inr ⟨i, Or.inl (handlerStep_urb_setAdapter hadapter)⟩
      killed := fun j hj => hidle j (h.killed j (hkilled ▸ hj)) }
  · refine h.mono (handlerStep_queued hwork) (handlerStep_worker s i)
      (handlerStep_slotAdapter hadapter) (fun hr => (handlerStep_remove s i).trans hr)
      ?_ hidle fun j hj => Or.inl (hkilled ▸ hj)
    intro j hj
    by_cases hne : j = i
    · subst hne
      exact Or.inr (handlerStep_urb_setRecvbuf (hj.resolve_right hwork))
    · rwa [WroteAdapter, handlerStep_urb_of_ne hne]

theorem workerStep_of_cancelled (h : s.Cancelled) : s.workerStep = s := by
  rw [workerStep, h.worker]
  dsimp only
  rw [h.queued]
  rfl

theorem Cancelled.advance {s' : RemoveState n} (h : s.Cancelled) (hurb : s'.urb = s.urb)
    (hq : s'.queued = s.queued) (hw : s'.worker = s.worker) (hslot : s'.slotAdapter = s.slotAdapter)
    (hpc : s.remove ≠ .clearAdapter)
    (hk : ∀ i : Fin n, i.val < s'.killed → i.val < s.killed ∨ s.urb i = .idle) : s'.Cancelled := by
  refine h.mono hq hw hslot (fun hbad => absurd hbad hpc) ?_ ?_ hk
  · intro i hi
    rwa [WroteAdapter, hurb]
  · intro i hi
    rwa [hurb]

theorem Cancelled.unlinkUrb (h : s.Cancelled) (i : Fin n) : (s.unlinkUrb i).Cancelled := by
  by_cases hi : s.urb i = .inFlight
  · have h' := h.setUrb_inFlight hi (.handling (.enter .shutdown))
    rw [RemoveState.unlinkUrb, if_pos hi]
    exact ⟨h'.queued, h'.worker, h'.slot, h'.killed⟩
  · rw [RemoveState.unlinkUrb, if_neg hi, setUrb, Function.update_eq_self]
    exact ⟨h.queued, h.worker, h.slot, h.killed⟩

theorem removeStep_removeInv (h : s.RemoveInv) : s.removeStep.RemoveInv := by
  obtain hr | h := h
  · rw [removeStep, hr]
    dsimp only
    split
    · rename_i hw
      exact Or.inr ⟨rfl, hw, fun _ => Or.inl rfl, fun i hi => absurd hi (Nat.not_lt_zero _)⟩
    · exact Or.inl hr
  right
  rw [removeStep]
  cases hr : s.remove with
  | cancelWork =>
    dsimp only
    rw [if_pos h.worker]
    exact ⟨rfl, h.worker, fun _ => Or.inl rfl, fun i hi => absurd hi (Nat.not_lt_zero _)⟩
  | clearAdapter =>
    exact ⟨h.queued, h.worker, fun hbad => Bool.noConfusion hbad,
      fun i hi => absurd hi (Nat.not_lt_zero _)⟩
  | clearRecvbuf =>
    refine h.advance rfl rfl rfl rfl ?_ fun i hi => absurd hi (Nat.not_lt_zero _)
    simp [hr]
  | clearPending =>
    refine h.advance rfl rfl rfl rfl ?_ fun i hi => absurd hi (Nat.not_lt_zero _)
    simp [hr]
  | surpriseRemoved =>
    refine h.advance rfl rfl rfl rfl ?_ fun i hi => absurd hi (Nat.not_lt_zero _)
    simp [hr]
  | drvStopped =>
    refine h.advance rfl rfl rfl rfl ?_ fun i hi => absurd hi (Nat.not_lt_zero _)
    simp [hr]
  | kill i =>
    have hk : s.killed = i := by rw [killed, hr]
    dsimp only
    split
    · rename_i hlt
      have h' := h.unlinkUrb ⟨i, hlt⟩
      have hr' : (s.unlinkUrb ⟨i, hlt⟩).remove = .kill i := hr
      refine h'.advance rfl rfl rfl rfl ?_ fun j hj => Or.inl ?_
      · simp [hr']
      · rw [killed, hr']
        exact hj
    · rename_i hge
      refine h.advance rfl rfl rfl rfl ?_ fun j _ => Or.inl ?_
      · simp [hr]
      · have hj := j.isLt
        omega
  | killWait i =>
    have hk : s.killed = i := by rw [killed, hr]
    dsimp only
    split
    · split
      · rename_i hlt hidle
        refine h.advance rfl rfl rfl rfl ?_ ?_
        · simp [hr]
        · intro j hj
          obtain hj | hj := Nat.lt_succ_iff_lt_or_eq.mp hj
          · exact Or.inl (hk ▸ hj)
          · exact Or.inr ((congrArg s.urb (Fin.ext hj)).trans hidle)
      · exact h
    · exact h
  | unloadRemoved =>
    have hk : s.killed = n := by rw [killed, hr]
    refine h.advance rfl rfl rfl rfl ?_ fun j _ => Or.inl (hk.symm ▸ j.isLt)
    simp [hr]
  | free =>
    have hk : s.killed = n := by rw [killed, hr]
    refine h.advance rfl rfl rfl rfl ?_ fun j _ => Or.inl (hk.symm ▸ j.isLt)
    simp [hr]
  | freed => exact h

/-- **A step keeps the invariant of a removal.** -/
theorem step_removeInv (s : RemoveState n) (e : RemoveEvent n) (h : s.RemoveInv)
    (hC : s.QueuesBeforeCancel e) : (s.step e).RemoveInv := by
  cases e with
  | remove => exact removeStep_removeInv h
  | complete i st =>
    rw [step]
    split
    · exact h.imp id fun h => h.setUrb_inFlight ‹_› _
    · exact h
  | handler i =>
    obtain hr | h := h
    · exact Or.inl ((handlerStep_remove s i).trans hr)
    · exact handlerStep_removeInv h hC
  | work =>
    obtain hr | h := h
    · left
      rw [step, workerStep]
      split <;> first
        | exact hr
        | (split <;> exact hr)
    · rw [step, workerStep_of_cancelled h]
      exact Or.inr h

theorem Cancelled.clean (h : s.Cancelled) (hr : s.remove = .free) : s.Clean := by
  have hidle : ∀ i, s.urb i = .idle := by
    intro i
    apply h.killed i
    rw [RemoveState.killed, hr]
    exact i.isLt
  refine ⟨h.queued, h.worker, hidle, Bool.eq_false_iff.mpr ?_⟩
  intro hslot
  obtain hbad | ⟨i, hi⟩ := h.slot hslot
  · rw [hr] at hbad
    cases hbad
  · obtain ⟨pc, hpc⟩ := hi.handling
    rw [hidle i] at hpc
    cases hpc

end RemoveState

/-- **Nothing of a recovery is left when the adapter is freed**, in a run in which no completion
queues the work after it was cancelled. -/
theorem remove_run_clean (n : Nat) (drvRegistered : Bool) (es : List (RemoveEvent n))
    (hes : Along RemoveState.step RemoveState.QueuesBeforeCancel (RemoveState.init n drvRegistered) es)
    (hfree : (run RemoveState.step (RemoveState.init n drvRegistered) es).remove = .free) :
    (run RemoveState.step (RemoveState.init n drvRegistered) es).Clean := by
  have hinv := run_inv RemoveState.step_removeInv _ es (Or.inl rfl) hes
  obtain hr | h := hinv
  · rw [hfree] at hr
    cases hr
  · exact h.clean hfree

/-- URB `0` stalls and its handler runs to its end -/
def stalled : List (RemoveEvent 1) := .complete 0 .epipe :: List.replicate 8 (.handler 0)

/-- the end of a removal, from the first of the two flags on -/
def removal : List (RemoveEvent 1) := List.replicate 3 .remove ++ .handler 0 :: List.replicate 3 .remove

/-- an unplug after a recovery: the work resubmits the URB, and the removal kills it -/
theorem remove_run_clean_unplug :
    (run RemoveState.step (RemoveState.init 1 true)
      (stalled ++ List.replicate 12 .work ++ List.replicate 4 .remove ++ removal)).Clean :=
  remove_run_clean 1 true _ (by decide) (by decide)

/-- A completion between the cancellation and the flags queues the work again. -/
theorem remove_run_not_clean :
    ¬ ∀ (n : Nat) (drvRegistered : Bool) (es : List (RemoveEvent n)),
      (run RemoveState.step (RemoveState.init n drvRegistered) es).remove = .free →
        (run RemoveState.step (RemoveState.init n drvRegistered) es).Clean := by
  intro h
  have hclean := h 1 true (List.replicate 4 .remove ++ stalled ++ removal) (by decide)
  exact absurd hclean.queued (by decide)

end Rtl8192eu
