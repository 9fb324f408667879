import Rtl8192eu.Usb.StallRecovery

/-!
# The shared stall counter

One counter, `usb_stall_err`, is raised by the stalls of both directions and reset by a success of
either and by the work item.

* `StallRun`   runs with the stalls of each direction since its last success;
* `StallRun.Covered`   the counter is at least as high as either number;
* `stall_run_escalated`   more than `MAX_USB_STALL_ERR` stalls of a direction mark the device
                            removed, in a run that keeps the count.
-/

namespace Rtl8192eu

open Run

/-! ## stalls of each direction -/

/-- a run with the stalls of each direction since its last completion with status `0` -/
structure StallRun where
  dev : UsbDev
  rxStalls : Nat := 0
  txStalls : Nat := 0
  deriving DecidableEq, Repr

namespace StallRun

def countRx (n : Nat) : RxStatus → Nat
  | .ok _ => 0
  | .epipe => n + 1
  | _ => n

def countTx (n : Nat) : TxStatus → Nat
  | .ok => 0
  | .stall => n + 1
  | _ => n

def step (s : StallRun) (e : UsbEvent) : StallRun where
  dev := s.dev.step e
  rxStalls := match e with
    | .rx b st _ => if b ∈ s.dev.submitted then countRx s.rxStalls st else s.rxStalls
    | _ => s.rxStalls
  txStalls := match e with
    | .tx st => countTx s.txStalls st
    | _ => s.txStalls

def Escalated (s : StallRun) : Prop :=
  (maxUsbStallErr < s.rxStalls → s.dev.surpriseRemoved = true)
    ∧ (maxUsbStallErr < s.txStalls → s.dev.surpriseRemoved = true)

/-- before a step: the shared counter is not reset over stalls of the other direction, nor by the
work item over stalls of either, and no stall comes to a stopped driver -/
def KeepsCount (s : StallRun) (e : UsbEvent) : Prop :=
  s.dev.surpriseRemoved = true ∨
    match e with
    | .rx b (.ok true) _ => b ∈ s.dev.submitted → s.dev.drvStopped = false → s.txStalls = 0
    | .rx b .epipe _ => b ∈ s.dev.submitted → s.dev.drvStopped = false
    | .tx .ok => s.dev.drvStopped = false → s.rxStalls = 0
    | .tx .stall => s.dev.drvStopped = false
    | .work _ => s.dev.worker = some .resetCounters → s.rxStalls = 0 ∧ s.txStalls = 0
    | _ => True

instance (s : StallRun) : (e : UsbEvent) → Decidable (s.KeepsCount e)
  | .rx b (.ok true) _ => inferInstanceAs
      (Decidable (_ ∨ (b ∈ s.dev.submitted → s.dev.drvStopped = false → s.txStalls = 0)))
  | .rx b .epipe _ =>
    inferInstanceAs (Decidable (_ ∨ (b ∈ s.dev.submitted → s.dev.drvStopped = false)))
  | .tx .ok => inferInstanceAs (Decidable (_ ∨ (s.dev.drvStopped = false → s.rxStalls = 0)))
  | .tx .stall => inferInstanceAs (Decidable (_ ∨ _ = _))
  | .work _ => inferInstanceAs
      (Decidable (_ ∨ (s.dev.worker = some .resetCounters → s.rxStalls = 0 ∧ s.txStalls = 0)))
  | .rx _ (.ok false) _ | .rx _ .shutdown _ | .rx _ .eproto _ | .rx _ .other _ => isTrue (.inr trivial)
  | .tx .aborted | .tx .eshutdown | .tx .other | .tasklet _ => isTrue (.inr trivial)

def Covered (s : StallRun) : Prop :=
  s.dev.surpriseRemoved = true ∨
    s.rxStalls ≤ s.dev.usbStallErr ∧ s.txStalls ≤ s.dev.usbStallErr ∧ s.dev.usbStallErr ≤ maxUsbStallErr

theorem Covered.escalated {s : StallRun} (h : s.Covered) : s.Escalated := by
  obtain hr | ⟨hrx, htx, hle⟩ := h
  · exact ⟨fun _ => hr, fun _ => hr⟩
  · exact ⟨fun hlt => absurd hlt (by omega), fun hlt => absurd hlt (by omega)⟩

end StallRun

namespace UsbDev

variable {d : UsbDev}

@[simp] theorem readPort_usbStallErr (d : UsbDev) (b : Nat) (skb : Bool) :
    (d.readPort b skb).usbStallErr = d.usbStallErr := by
  unfold readPort
  split_ifs <;> rfl

@[simp] theorem rtwEpResetSchedule_usbStallErr (d : UsbDev) (b : Nat) :
    (d.rtwEpResetSchedule b).usbStallErr = d.usbStallErr := by
  unfold rtwEpResetSchedule
  split_ifs <;> rfl

@[simp] theorem rtwEpResetSchedule_surpriseRemoved (d : UsbDev) (b : Nat) :
    (d.rtwEpResetSchedule b).surpriseRemoved = d.surpriseRemoved := by
  unfold rtwEpResetSchedule
  split_ifs <;> rfl

@[simp] theorem usbRecvTasklet_usbStallErr (d : UsbDev) (skb : Bool) :
    (d.usbRecvTasklet skb).usbStallErr = d.usbStallErr := by
  unfold usbRecvTasklet
  split
  · rfl
  split
  · rfl
  · exact readPort_usbStallErr _ _ _

/-- only a reset of the counters by the work item lowers the counter there -/
theorem rtwEpResetWorker_usbStallErr (d : UsbDev) (hw : d.worker ≠ some .resetCounters) :
    d.rtwEpResetWorker.usbStallErr = d.usbStallErr := by
  unfold rtwEpResetWorker
  split
  · split <;> rfl
  · split <;> rfl
  · rfl
  · exact absurd ‹_› hw
  · split
    · rfl
    · exact readPort_usbStallErr _ _ _
  · rfl
  · rfl

theorem step_surpriseRemoved (hr : d.surpriseRemoved = true) (e : UsbEvent) :
    (d.step e).surpriseRemoved = true := by
  have hrun : d.cannotRun = true := by rw [IoState.cannotRun, hr, Bool.true_or]
  exact (step_flags hrun e).1.trans hr

end UsbDev

namespace StallRun

variable {s : StallRun}

theorem covered_of_inc {d d' : UsbDev} {rx tx : Nat} (herr : d'.usbStallErr = d.usbStallErr + 1)
    (hr : d'.surpriseRemoved = d.toIoState.incUsbStallErr.surpriseRemoved) (hrx : rx ≤ d.usbStallErr + 1)
    (htx : tx ≤ d.usbStallErr + 1) : Covered ⟨d', rx, tx⟩ := by
  by_cases hn : maxUsbStallErr < d.usbStallErr + 1
  · refine Or.inl (hr.trans ?_)
    rw [IoState.incUsbStallErr, decide_eq_true hn, Bool.or_true]
  · exact Or.inr ⟨herr ▸ hrx, herr ▸ htx, herr ▸ Nat.le_of_not_lt hn⟩

theorem covered_of_eq {d d' : UsbDev} {rx tx rx' tx' : Nat} (h : Covered ⟨d, rx, tx⟩)
    (hnr : d.surpriseRemoved = false) (herr : d'.usbStallErr = d.usbStallErr) (hrx : rx' ≤ rx)
    (htx : tx' ≤ tx) : Covered ⟨d', rx', tx'⟩ := by
  obtain ⟨h₁, h₂, h₃⟩ := h.resolve_left (Bool.eq_false_iff.mp hnr)
  refine Or.inr ⟨?_, ?_, ?_⟩
  · exact herr ▸ Nat.le_trans hrx h₁
  · exact herr ▸ Nat.le_trans htx h₂
  · exact herr ▸ h₃

theorem covered_zero (d : UsbDev) (h : d.usbStallErr ≤ maxUsbStallErr) : Covered ⟨d, 0, 0⟩ :=
  Or.inr ⟨Nat.zero_le _, Nat.zero_le _, h⟩

theorem rx_covered {d : UsbDev} {rx tx b : Nat} {st : RxStatus} {skb : Bool}
    (h : Covered ⟨d, rx, tx⟩) (hnr : d.surpriseRemoved = false) (hb : b ∈ d.submitted)
    (hC : KeepsCount ⟨d, rx, tx⟩ (.rx b st skb)) :
    Covered ⟨d.usbReadPortComplete b st skb, countRx rx st, tx⟩ := by
  have hC := hC.resolve_left (Bool.eq_false_iff.mp hnr)
  obtain ⟨hrx, htx, hle⟩ := h.resolve_left (Bool.eq_false_iff.mp hnr)
  cases hstop : d.drvStopped with
  | true =>
    have hrun : d.cannotRun = true := by rw [IoState.cannotRun, hstop, Bool.or_true]
    rw [UsbDev.usbReadPortComplete, if_pos hrun]
    cases st with
    | ok validLen => exact covered_of_eq h hnr rfl (Nat.zero_le _) (Nat.le_refl _)
    | epipe => exact absurd ((hC hb).symm.trans hstop) Bool.false_ne_true
    | shutdown => exact covered_of_eq h hnr rfl (Nat.le_refl _) (Nat.le_refl _)
    | eproto => exact covered_of_eq h hnr rfl (Nat.le_refl _) (Nat.le_refl _)
    | other => exact covered_of_eq h hnr rfl (Nat.le_refl _) (Nat.le_refl _)
  | false =>
    have hrun : ¬ d.cannotRun = true := by simp [IoState.cannotRun, hnr, hstop]
    rw [UsbDev.usbReadPortComplete, if_neg hrun]
    cases st with
    | ok validLen =>
      cases validLen with
      | false =>
        exact covered_of_eq h hnr (UsbDev.readPort_usbStallErr _ b true) (Nat.zero_le _) (Nat.le_refl _)
      | true =>
        -- the counter starts again, and the other direction has nothing to lose
        have hzero : tx = 0 := hC hb hstop
        subst hzero
        apply covered_zero
        rw [UsbDev.rxStatus, UsbDev.readPort_usbStallErr]
        exact Nat.zero_le _
    | epipe =>
      refine covered_of_inc (d := d.giveback b) ?_ ?_ (Nat.succ_le_succ hrx) (Nat.le_succ_of_le htx)
      · exact UsbDev.rtwEpResetSchedule_usbStallErr _ b
      · exact UsbDev.rtwEpResetSchedule_surpriseRemoved _ b
    | shutdown => exact covered_of_eq h hnr rfl (Nat.le_refl _) (Nat.le_refl _)
    | eproto =>
      exact covered_of_eq h hnr (UsbDev.readPort_usbStallErr _ b true) (Nat.le_refl _) (Nat.le_refl _)
    | other => exact covered_of_eq h hnr rfl (Nat.le_refl _) (Nat.le_refl _)

theorem tx_covered {d : UsbDev} {rx tx : Nat} {st : TxStatus} (h : Covered ⟨d, rx, tx⟩)
    (hnr : d.surpriseRemoved = false) (hC : KeepsCount ⟨d, rx, tx⟩ (.tx st)) :
    Covered ⟨d.usbWritePortComplete st, rx, countTx tx st⟩ := by
  have hC := hC.resolve_left (Bool.eq_false_iff.mp hnr)
  obtain ⟨hrx, htx, hle⟩ := h.resolve_left (Bool.eq_false_iff.mp hnr)
  cases hstop : d.drvStopped with
  | true =>
    have hrun : d.cannotRun = true := by rw [IoState.cannotRun, hstop, Bool.or_true]
    rw [UsbDev.usbWritePortComplete, if_pos hrun]
    cases st with
    | ok => exact covered_of_eq h hnr rfl (Nat.le_refl _) (Nat.zero_le _)
    | stall => exact absurd (hC.symm.trans hstop) Bool.false_ne_true
    | aborted => exact h
    | eshutdown => exact h
    | other => exact h
  | false =>
    have hrun : ¬ d.cannotRun = true := by simp [IoState.cannotRun, hnr, hstop]
    rw [UsbDev.usbWritePortComplete, if_neg hrun]
    cases st with
    | ok =>
      have hzero : rx = 0 := hC hstop
      subst hzero
      exact covered_zero _ (Nat.zero_le _)
    | stall =>
      rw [UsbDev.txStatus]
      split
      · exact covered_of_inc (d := d) rfl rfl (Nat.le_succ_of_le hrx) (Nat.succ_le_succ htx)
      · exact covered_of_inc (d := d) rfl rfl (Nat.le_succ_of_le hrx) (Nat.succ_le_succ htx)
    | aborted => exact h
    | eshutdown => exact covered_of_eq h hnr rfl (Nat.le_refl _) (Nat.le_refl _)
    | other => exact covered_of_eq h hnr rfl (Nat.le_refl _) (Nat.le_refl _)

theorem work_covered {d : UsbDev} {rx tx : Nat} {halt : Bool} (h : Covered ⟨d, rx, tx⟩)
    (hnr : d.surpriseRemoved = false) (hC : KeepsCount ⟨d, rx, tx⟩ (.work halt)) :
    Covered ⟨d.rtwEpResetWorker, rx, tx⟩ := by
  have hC := hC.resolve_left (Bool.eq_false_iff.mp hnr)
  by_cases hw : d.worker = some .resetCounters
  · obtain ⟨hrx, htx⟩ := hC hw
    dsimp only at hrx htx
    subst hrx htx
    apply covered_zero
    rw [UsbDev.rtwEpResetWorker, hw]
    exact Nat.zero_le _
  · exact covered_of_eq h hnr (UsbDev.rtwEpResetWorker_usbStallErr d hw) (Nat.le_refl _) (Nat.le_refl _)

/-- **A step keeps the counter above the stalls of both directions.** -/
theorem step_covered (s : StallRun) (e : UsbEvent) (h : s.Covered) (hC : s.KeepsCount e) :
    (s.step e).Covered := by
  cases hnr : s.dev.surpriseRemoved with
  | true => exact Or.inl (UsbDev.step_surpriseRemoved hnr e)
  | false =>
    cases e with
    | rx b st skb =>
      by_cases hb : b ∈ s.dev.submitted
      · simp only [step, UsbDev.step, if_pos hb]
        exact rx_covered h hnr hb hC
      · simp only [step, UsbDev.step, if_neg hb]
        exact h
    | tx st => exact tx_covered h hnr hC
    | tasklet skb =>
      exact covered_of_eq h hnr (UsbDev.usbRecvTasklet_usbStallErr s.dev skb) (Nat.le_refl _) (Nat.le_refl _)
    | work halt => exact work_covered h hnr hC

end StallRun

/-- **A permanently stalled endpoint is escalated** in a run that keeps the count. -/
theorem stall_run_escalated (bufs : List Nat) (es : List UsbEvent)
    (hes : Along StallRun.step StallRun.KeepsCount ⟨UsbDev.init bufs, 0, 0⟩ es) :
    (run StallRun.step ⟨UsbDev.init bufs, 0, 0⟩ es).Escalated := by
  have hinit : StallRun.Covered ⟨UsbDev.init bufs, 0, 0⟩ :=
    StallRun.covered_zero _ (Nat.zero_le _)
  exact (run_inv StallRun.step_covered _ es hinit hes).escalated

/-- transmit stalls alone are counted up to the threshold and over it -/
theorem stall_run_escalated_tx :
    (run StallRun.step ⟨UsbDev.init [0], 0, 0⟩ (List.replicate 201 (.tx .stall))).Escalated :=
  stall_run_escalated [0] _ (by decide +kernel)

/-- one stall of buffer `0`, and the work item that resets the endpoint in vain -/
def stallRound : List UsbEvent := .rx 0 .epipe true :: List.replicate 7 (.work false)

/-- the device between two rounds; the work item leaves `rtw_ep_reset_padapter` set -/
def stalledDev (adapter : Bool) : UsbDev := { submitted := [0], slotAdapter := adapter }

theorem run_stallRound (adapter : Bool) (n : Nat) :
    run StallRun.step ⟨stalledDev adapter, n, 0⟩ stallRound
      = ⟨stalledDev true, n + 1, 0⟩ := by
  cases adapter <;> rfl

theorem run_stallRounds (adapter : Bool) (n k : Nat) :
    run StallRun.step ⟨stalledDev adapter, n, 0⟩
        (List.replicate (k + 1) stallRound).flatten
      = ⟨stalledDev true, n + (k + 1), 0⟩ := by
  induction k generalizing adapter n with
  | zero => exact run_stallRound adapter n
  | succ k ih =>
    rw [List.replicate_succ, List.flatten_cons, run_append, run_stallRound, ih,
      Nat.add_right_comm n 1]
    rfl

/-- The work item resets the counter whether or not the halt was cleared. -/
theorem stall_run_not_escalated :
    ¬ ∀ (bufs : List Nat) (es : List UsbEvent),
      (run StallRun.step ⟨UsbDev.init bufs, 0, 0⟩ es).Escalated := by
  intro h
  have hrx := (h [0] (List.replicate (200 + 1) stallRound).flatten).1
  have hrun := run_stallRounds false 0 200
  rw [show UsbDev.init [0] = stalledDev false from rfl, hrun] at hrx
  exact absurd (hrx (by decide)) (by decide)

end Rtl8192eu
