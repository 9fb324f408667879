import Mathlib.Data.List.Nodup
import Rtl8192eu.Usb.StallRecovery

/-!
# Receive buffers during a recovery

A receive buffer is with the host controller, waits for an skb, or is held by the work item that
resets the endpoint.

* `UsbDev.places`   in how many of the places a buffer is;
* `UsbDev.step_onePlace`   a step keeps every buffer in one place, unless a stall completes while
                            a reset is pending;
* `stall_run_onePlace`   runs.
-/

namespace Rtl8192eu

open Run

/-! ## where a receive buffer is -/

/-- the work item is queued or has not resubmitted the buffer of its slot yet -/
def UsbDev.beforeResubmit (d : UsbDev) : Bool :=
  d.queued || match d.worker with
    | some .start | some .clearHalt | some .resetCounters | some .resubmit => true
    | _ => false

def UsbDev.held (d : UsbDev) (b : Nat) : Nat :=
  if d.slot = some b ∧ d.beforeResubmit = true then 1 else 0

/-- in how many places the buffer is: with the host controller, in the queue, or held for the
work item -/
def UsbDev.places (d : UsbDev) (b : Nat) : Nat :=
  d.submitted.count b + d.pendingQueue.count b + d.held b

namespace UsbDev

variable {d : UsbDev}

/-! ## the operations and the places -/

/-- the slot: while the work item is idle nothing is queued, and until it resubmits the slot
holds a buffer -/
structure SlotOk (d : UsbDev) : Prop where
  idle : d.resetPending = false → d.queued = false ∧ d.worker = none
  single : d.queued = true → d.worker = none
  filled : d.beforeResubmit = true → d.slotAdapter = true ∧ d.slot ≠ none

theorem SlotOk.io (h : d.SlotOk) (f : IoState → IoState) : (d.io f).SlotOk :=
  ⟨h.idle, h.single, h.filled⟩

theorem SlotOk.giveback (h : d.SlotOk) (b : Nat) : (d.giveback b).SlotOk :=
  ⟨h.idle, h.single, h.filled⟩

theorem count_cons_eq (l : List Nat) (b x : Nat) :
    (b :: l).count x = l.count x + if x = b then 1 else 0 := by
  rw [List.count_cons]
  by_cases e : x = b
  · simp [e]
  · rw [if_neg e, if_neg (by simpa using Ne.symm e)]

theorem readPort_places (h : d.cannotRun = false) (b : Nat) (skb : Bool) (x : Nat) :
    (d.readPort b skb).places x = d.places x + if x = b then 1 else 0 := by
  unfold readPort
  rw [h]
  cases skb with
  | false =>
    show d.submitted.count x + (d.pendingQueue ++ [b]).count x + d.held x = _
    rw [List.count_append, count_cons_eq, places, List.count_nil]
    omega
  | true =>
    show (b :: d.submitted).count x + d.pendingQueue.count x + d.held x = _
    rw [count_cons_eq, places]
    omega

theorem giveback_places {b : Nat} (hb : b ∈ d.submitted) (x : Nat) :
    (d.giveback b).places x + (if x = b then 1 else 0) = d.places x := by
  have hc : 0 < d.submitted.count b := List.count_pos_iff.mpr hb
  show (d.submitted.erase b).count x + d.pendingQueue.count x + d.held x + _ = _
  rw [places]
  by_cases e : x = b
  · subst e
    rw [List.count_erase_self, if_pos rfl]
    omega
  · rw [List.count_erase_of_ne e, if_neg e]
    rfl

theorem readPort_slotOk (h : d.SlotOk) (b : Nat) (skb : Bool) : (d.readPort b skb).SlotOk := by
  unfold readPort
  split
  · exact h
  split
  · exact ⟨h.idle, h.single, h.filled⟩
  · exact ⟨h.idle, h.single, h.filled⟩

theorem SlotOk.beforeResubmit_idle (h : d.SlotOk) (hp : d.resetPending = false) :
    d.beforeResubmit = false := by
  obtain ⟨hq, hw⟩ := h.idle hp
  simp [beforeResubmit, hq, hw]

theorem rtwEpResetSchedule_places (h : d.SlotOk) (hr : d.cannotRun = false)
    (hp : d.resetPending = false) (b x : Nat) :
    (d.rtwEpResetSchedule b).places x = d.places x + if x = b then 1 else 0 := by
  have hb := h.beforeResubmit_idle hp
  have hheld : d.held x = 0 := by
    rw [held, hb]
    simp
  unfold rtwEpResetSchedule
  rw [hr, hp]
  show d.submitted.count x + d.pendingQueue.count x + (if some b = some x ∧ true = true then 1 else 0) = _
  rw [places, hheld]
  by_cases e : x = b
  · simp [e]
  · rw [if_neg e, if_neg fun hy => e (Option.some.inj hy.1).symm]

theorem rtwEpResetSchedule_slotOk (h : d.SlotOk) (hr : d.cannotRun = false)
    (hp : d.resetPending = false) (b : Nat) : (d.rtwEpResetSchedule b).SlotOk := by
  obtain ⟨-, hw⟩ := h.idle hp
  unfold rtwEpResetSchedule
  rw [hr, hp]
  exact ⟨fun e => Bool.noConfusion e, fun _ => hw, fun _ => ⟨rfl, Option.some_ne_none b⟩⟩

/-! ## the invariant of a device that is neither removed nor stopped -/

/-- **Every buffer is in one place**, or the device is removed or stopped. -/
def OnePlace (bufs : List Nat) (d : UsbDev) : Prop :=
  d.cannotRun = true ∨ d.SlotOk ∧ ∀ b ∈ bufs, d.places b = 1

/-- before a step: no stall completes while a reset is pending -/
def StallWhenIdle (d : UsbDev) : UsbEvent → Prop
  | .rx b .epipe _ => b ∈ d.submitted → d.resetPending = false
  | _ => True

instance : (e : UsbEvent) → Decidable (d.StallWhenIdle e)
  | .rx b .epipe _ => inferInstanceAs (Decidable (b ∈ d.submitted → d.resetPending = false))
  | .rx _ (.ok _) _ | .rx _ .shutdown _ | .rx _ .eproto _ | .rx _ .other _ => isTrue trivial
  | .tx _ | .tasklet _ | .work _ => isTrue trivial

/-- the completions are successes, `-EPIPE` and the errors that are resubmitted at once -/
def Recoverable : UsbEvent → Prop
  | .rx _ .shutdown _ | .rx _ .other _ => False
  | _ => True

instance : (e : UsbEvent) → Decidable (Recoverable e)
  | .rx _ .shutdown _ | .rx _ .other _ => isFalse id
  | .rx _ (.ok _) _ | .rx _ .epipe _ | .rx _ .eproto _ => isTrue trivial
  | .tx _ | .tasklet _ | .work _ => isTrue trivial

theorem onePlace_of_places {bufs : List Nat} {d' : UsbDev} (hs : d'.cannotRun = false → d'.SlotOk)
    (h : ∀ x, d'.cannotRun = false → d'.places x = d.places x)
    (hd : ∀ b ∈ bufs, d.places b = 1) : d'.OnePlace bufs := by
  cases hr : d'.cannotRun with
  | true => exact Or.inl hr
  | false => exact Or.inr ⟨hs hr, fun b hb => (h b hr).trans (hd b hb)⟩

/-! ## a step keeps the invariant -/

theorem readPort_flags (d : UsbDev) (b : Nat) (skb : Bool) :
    (d.readPort b skb).cannotRun = d.cannotRun := by
  unfold readPort
  split_ifs <;> rfl

theorem rtwEpResetSchedule_flags (d : UsbDev) (b : Nat) :
    (d.rtwEpResetSchedule b).cannotRun = d.cannotRun := by
  unfold rtwEpResetSchedule
  split_ifs <;> rfl

theorem giveback_readPort_onePlace {bufs : List Nat} {d' : UsbDev} {b : Nat}
    (hd : ∀ x ∈ bufs, d.places x = 1) (hb : b ∈ d.submitted) (skb : Bool) (hs : d'.SlotOk)
    (hp : ∀ x, d'.places x = (d.giveback b).places x) : (d'.readPort b skb).OnePlace bufs := by
  refine onePlace_of_places (d := d) (fun _ => readPort_slotOk hs b skb) ?_ hd
  intro x hr
  rw [readPort_flags] at hr
  rw [readPort_places hr, hp, giveback_places hb]

theorem usbReadPortComplete_onePlace {bufs : List Nat} {b : Nat} {st : RxStatus} {skb : Bool}
    (h : d.SlotOk) (hd : ∀ x ∈ bufs, d.places x = 1) (hb : b ∈ d.submitted)
    (hst : d.StallWhenIdle (.rx b st skb)) (hrec : Recoverable (.rx b st skb)) :
    (d.usbReadPortComplete b st skb).OnePlace bufs := by
  unfold usbReadPortComplete
  by_cases hr : d.cannotRun = true
  · rw [if_pos hr]
    exact Or.inl hr
  rw [if_neg hr]
  cases st with
  | ok validLen =>
    cases validLen with
    | false => exact giveback_readPort_onePlace hd hb true (h.giveback b) fun _ => rfl
    | true => exact giveback_readPort_onePlace hd hb skb ((h.giveback b).io .resetErr) fun _ => rfl
  | epipe =>
    -- the reset is idle, so the buffer goes into its slot
    have hp : d.resetPending = false := hst hb
    have hs' : ((d.giveback b).io .incUsbStallErr).SlotOk := (h.giveback b).io .incUsbStallErr
    have hflags := rtwEpResetSchedule_flags ((d.giveback b).io .incUsbStallErr) b
    refine onePlace_of_places (d := d)
      (fun hr => rtwEpResetSchedule_slotOk hs' (hflags.symm.trans hr) hp b) ?_ hd
    intro x hr
    show (((d.giveback b).io .incUsbStallErr).rtwEpResetSchedule b).places x = d.places x
    rw [rtwEpResetSchedule_places hs' (hflags.symm.trans hr) hp, ← giveback_places hb]
    rfl
  | shutdown => exact absurd hrec id
  | eproto =>
    exact giveback_readPort_onePlace hd hb true ((h.giveback b).io .incContinualIoError) fun _ => rfl
  | other => exact absurd hrec id

theorem usbRecvTasklet_onePlace {bufs : List Nat} (h : d.SlotOk) (hd : ∀ x ∈ bufs, d.places x = 1)
    (skb : Bool) : (d.usbRecvTasklet skb).OnePlace bufs := by
  unfold usbRecvTasklet
  split
  · exact Or.inl ‹_›
  split
  · exact Or.inr ⟨h, hd⟩
  · rename_i hr b q hq
    have hs : { d with pendingQueue := q }.SlotOk := ⟨h.idle, h.single, h.filled⟩
    refine onePlace_of_places (d := d) (fun _ => readPort_slotOk hs b skb) ?_ hd
    intro x hr
    rw [readPort_flags] at hr
    rw [readPort_places hr]
    show d.submitted.count x + q.count x + d.held x + _ = d.submitted.count x + d.pendingQueue.count x + d.held x
    rw [hq, count_cons_eq]
    omega

theorem usbWritePortComplete_onePlace {bufs : List Nat} (h : d.SlotOk)
    (hd : ∀ x ∈ bufs, d.places x = 1) (st : TxStatus) :
    (d.usbWritePortComplete st).OnePlace bufs := by
  unfold usbWritePortComplete
  split
  · exact Or.inl ‹_›
  -- only counters and flags change
  cases st with
  | ok => exact Or.inr ⟨h.io .resetErr, hd⟩
  | stall =>
    have hs := h.io .incUsbStallErr
    rw [txStatus]
    split
    · exact Or.inr ⟨hs, hd⟩
    · exact Or.inr ⟨hs.io fun s => { s with continualIoError := 0 }, hd⟩
  | aborted => exact Or.inr ⟨h, hd⟩
  | eshutdown => exact Or.inr ⟨h.io fun s => { s with drvStopped := true }, hd⟩
  | other => exact Or.inr ⟨h.io .incContinualIoError, hd⟩

theorem SlotOk.of_queued (h : d.SlotOk) (hq : d.queued = true) : d.resetPending = true := by
  by_contra hp
  rw [(h.idle (Bool.not_eq_true _ ▸ hp)).1] at hq
  cases hq

theorem SlotOk.of_worker (h : d.SlotOk) {pc : WorkerPc} (hw : d.worker = some pc) :
    d.resetPending = true ∧ d.queued = false := by
  constructor
  · by_contra hp
    rw [(h.idle (Bool.not_eq_true _ ▸ hp)).2] at hw
    cases hw
  · by_contra hq
    rw [h.single (Bool.not_eq_false _ ▸ hq)] at hw
    cases hw

theorem SlotOk.running (hp : d.resetPending = true) (hq : d.queued = false)
    (hf : d.beforeResubmit = true → d.slotAdapter = true ∧ d.slot ≠ none) : d.SlotOk where
  idle h := absurd (h.symm.trans hp) Bool.false_ne_true
  single h := absurd (hq.symm.trans h) Bool.false_ne_true
  filled := hf

theorem held_of_resubmitted (hb : d.beforeResubmit = false) (x : Nat) : d.held x = 0 := by
  rw [held, hb]
  exact if_neg fun h => Bool.noConfusion h.2

theorem onePlace_of_kept {bufs : List Nat} {d' : UsbDev} (h : d.SlotOk)
    (hd : ∀ x ∈ bufs, d.places x = 1) (hp : d'.resetPending = true) (hq : d'.queued = false)
    (hsub : d'.submitted = d.submitted) (hpend : d'.pendingQueue = d.pendingQueue)
    (hslot : d'.slot = d.slot) (hadapter : d'.slotAdapter = d.slotAdapter)
    (hb : d.beforeResubmit = true) (hb' : d'.beforeResubmit = true) : d'.OnePlace bufs := by
  refine onePlace_of_places (d := d) (fun _ => .running hp hq fun _ => ?_) (fun x _ => ?_) hd
  · rw [hslot, hadapter]
    exact h.filled hb
  · rw [places, places, held, held, hsub, hpend, hslot, hb, hb']

theorem onePlace_of_resubmitted {bufs : List Nat} {d' : UsbDev} (hs : d'.SlotOk)
    (hd : ∀ x ∈ bufs, d.places x = 1) (hsub : d'.submitted = d.submitted)
    (hpend : d'.pendingQueue = d.pendingQueue) (hb : d.beforeResubmit = false)
    (hb' : d'.beforeResubmit = false) : d'.OnePlace bufs := by
  refine onePlace_of_places (d := d) (fun _ => hs) ?_ hd
  intro x _
  rw [places, places, held_of_resubmitted hb, held_of_resubmitted hb', hsub, hpend]

theorem resubmit_onePlace {bufs : List Nat} (h : d.SlotOk) (hd : ∀ x ∈ bufs, d.places x = 1)
    (hr : d.cannotRun = false) (hw : d.worker = some .resubmit) :
    d.rtwEpResetWorker.OnePlace bufs := by
  obtain ⟨hpend, hq⟩ := h.of_worker hw
  have hbefore : d.beforeResubmit = true := by rw [beforeResubmit, hw, Bool.or_true]
  obtain ⟨b, hb⟩ := Option.ne_none_iff_exists'.mp (h.filled hbefore).2
  have hworker : d.rtwEpResetWorker
      = { d with submitted := b :: d.submitted, worker := some .clearSlot } := by
    simp only [rtwEpResetWorker, hw, hb, readPort, hr]
    rfl
  have hafter : d.rtwEpResetWorker.beforeResubmit = false := by
    rw [hworker, beforeResubmit, Bool.or_eq_false_iff]
    exact ⟨hq, rfl⟩
  refine onePlace_of_places (d := d) ?_ ?_ hd
  · intro _
    refine .running ?_ ?_ fun hbad => absurd hbad (Bool.eq_false_iff.mp hafter)
    · rw [hworker]
      exact hpend
    · rw [hworker]
      exact hq
  · intro x _
    have hheld : d.held x = if x = b then 1 else 0 := by
      rw [held, hb, hbefore]
      by_cases e : x = b
      · simp [e]
      · rw [if_neg e, if_neg fun hy => e (Option.some.inj hy.1).symm]
    rw [places, held_of_resubmitted hafter, places, hheld, hworker]
    show (b :: d.submitted).count x + d.pendingQueue.count x + 0 = _
    rw [count_cons_eq]
    omega

theorem rtwEpResetWorker_onePlace {bufs : List Nat} (h : d.SlotOk)
    (hd : ∀ x ∈ bufs, d.places x = 1) (hr : d.cannotRun = false) :
    d.rtwEpResetWorker.OnePlace bufs := by
  cases hw : d.worker with
  | none =>
    rw [rtwEpResetWorker, hw]
    dsimp only
    split
    · rename_i hq
      have hbefore : d.beforeResubmit = true := by rw [beforeResubmit, hq, Bool.true_or]
      exact onePlace_of_kept h hd (h.of_queued hq) rfl rfl rfl rfl rfl hbefore rfl
    · exact Or.inr ⟨h, hd⟩
  | some pc =>
    obtain ⟨hpend, hq⟩ := h.of_worker hw
    cases pc with
    | start =>
      -- the slot is filled, so the work item does not give up
      have hbefore : d.beforeResubmit = true := by rw [beforeResubmit, hw, Bool.or_true]
      have hgo : ¬ (!d.slotAdapter || d.slot = none || d.cannotRun) = true := by
        simp [h.filled hbefore, hr]
      rw [rtwEpResetWorker, hw]
      dsimp only
      rw [if_neg hgo]
      exact onePlace_of_kept h hd hpend hq rfl rfl rfl rfl hbefore (Bool.or_true _)
    | clearHalt =>
      have hbefore : d.beforeResubmit = true := by rw [beforeResubmit, hw, Bool.or_true]
      rw [rtwEpResetWorker, hw]
      exact onePlace_of_kept h hd hpend hq rfl rfl rfl rfl hbefore (Bool.or_true _)
    | resetCounters =>
      have hbefore : d.beforeResubmit = true := by rw [beforeResubmit, hw, Bool.or_true]
      rw [rtwEpResetWorker, hw]
      exact onePlace_of_kept h hd hpend hq rfl rfl rfl rfl hbefore (Bool.or_true _)
    | resubmit => exact resubmit_onePlace h hd hr hw
    | clearSlot =>
      have hbefore : d.beforeResubmit = false := by
        rw [beforeResubmit, hw, hq]
        rfl
      have hafter : { d with slot := none, worker := some .clearPending }.beforeResubmit = false := by
        rw [beforeResubmit, Bool.or_eq_false_iff]
        exact ⟨hq, rfl⟩
      rw [rtwEpResetWorker, hw]
      exact onePlace_of_resubmitted (.running hpend hq fun hbad =>
        absurd hbad (Bool.eq_false_iff.mp hafter)) hd rfl rfl hbefore hafter
    | clearPending =>
      have hbefore : d.beforeResubmit = false := by
        rw [beforeResubmit, hw, hq]
        rfl
      have hafter : { d with resetPending := false, worker := none }.beforeResubmit = false := by
        rw [beforeResubmit, Bool.or_eq_false_iff]
        exact ⟨hq, rfl⟩
      rw [rtwEpResetWorker, hw]
      exact onePlace_of_resubmitted ⟨fun _ => ⟨hq, rfl⟩, fun _ => rfl, fun hbad =>
        absurd hbad (Bool.eq_false_iff.mp hafter)⟩ hd rfl rfl hbefore hafter

/-! ## runs of stalls and resets -/

theorem step_cannotRun (hr : d.cannotRun = true) (e : UsbEvent) : (d.step e).cannotRun = true := by
  obtain ⟨hremoved, hstopped⟩ := step_flags hr e
  rw [IoState.cannotRun, hremoved, hstopped]
  exact hr

/-- **A step keeps every buffer in one place.** -/
theorem step_onePlace {bufs : List Nat} (e : UsbEvent) (h : d.OnePlace bufs)
    (hC : d.StallWhenIdle e ∧ Recoverable e) : (d.step e).OnePlace bufs := by
  cases hr : d.cannotRun with
  | true => exact Or.inl (step_cannotRun hr e)
  | false =>
    obtain ⟨hs, hd⟩ := h.resolve_left (Bool.eq_false_iff.mp hr)
    cases e with
    | rx b st skb =>
      rw [step]
      split
      · exact usbReadPortComplete_onePlace hs hd ‹_› hC.1 hC.2
      · exact h
    | tx st => exact usbWritePortComplete_onePlace hs hd st
    | tasklet skb => exact usbRecvTasklet_onePlace hs hd skb
    | work halt => exact rtwEpResetWorker_onePlace hs hd hr

theorem init_onePlace {bufs : List Nat} (h : bufs.Nodup) : (init bufs).OnePlace bufs := by
  refine Or.inr ⟨⟨fun _ => ⟨rfl, rfl⟩, fun _ => rfl, fun hbad => Bool.noConfusion hbad⟩,
    fun b hb => ?_⟩
  show bufs.count b + [].count b + 0 = 1
  rw [List.count_eq_one_of_mem h hb, List.count_nil]

end UsbDev

open UsbDev in
/-- **No receive buffer is lost** in a run in which no stall completes while a reset is pending. -/
theorem stall_run_onePlace (bufs : List Nat) (hbufs : bufs.Nodup) (es : List UsbEvent)
    (hes : Along UsbDev.step (fun d e => d.StallWhenIdle e ∧ Recoverable e) (UsbDev.init bufs) es)
    (b : Nat) (hb : b ∈ bufs) :
    (run UsbDev.step (UsbDev.init bufs) es).cannotRun = true
      ∨ (run UsbDev.step (UsbDev.init bufs) es).places b = 1 := by
  have h := run_inv (fun _ e => step_onePlace e) (UsbDev.init bufs) es (init_onePlace hbufs) hes
  exact h.imp_right fun h => h.2 b hb

/-- two stalls with a reset between them -/
theorem stall_run_onePlace_two :
    (run UsbDev.step (UsbDev.init [0, 1])
        (.rx 0 .epipe true :: List.replicate 7 (.work true) ++ [.rx 1 .epipe true])).cannotRun = true
      ∨ (run UsbDev.step (UsbDev.init [0, 1])
        (.rx 0 .epipe true :: List.replicate 7 (.work true) ++ [.rx 1 .epipe true])).places 1 = 1 :=
  stall_run_onePlace [0, 1] (by decide) _ (by decide) 1 (by decide)

/-- The second URB of a burst finds the slot taken and its buffer is gone. -/
theorem stall_run_loses_buffer :
    ¬ ∀ (bufs : List Nat) (es : List UsbEvent), bufs.Nodup → (∀ e ∈ es, UsbDev.Recoverable e) →
      ∀ b ∈ bufs, (run UsbDev.step (UsbDev.init bufs) es).cannotRun = true
        ∨ (run UsbDev.step (UsbDev.init bufs) es).places b = 1 := by
  intro h
  have hlost := h [0, 1] [.rx 0 .epipe true, .rx 1 .epipe true] (by decide) (by decide) 1 (by decide)
  revert hlost
  decide

end Rtl8192eu
