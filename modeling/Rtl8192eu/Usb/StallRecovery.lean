import Mathlib.Data.List.Basic
import Rtl8192eu.Lib.Run

/-!
# Recovery of a stalled USB endpoint

The completions of bulk URBs and the work item that clears a halted endpoint, from
`os_dep/linux/usb_ops_linux.c`.  A completion handler runs as one step; the work item runs in
steps between which completions may come, and may be queued again while it runs.
`usb_submit_urb` does not fail.

* `usbReadPortComplete`, `usbWritePortComplete`   the two completion handlers;
* `rtwEpResetSchedule`, `rtwEpResetWorker`   the work item and its one-entry slot;
* `UsbDev.step`   one completion, one turn of the tasklet, or one step of the work item.
-/

namespace Rtl8192eu

open Run

def maxUsbStallErr : Nat := 200
def maxContinualIoErr : Nat := 80

/-! ## the state -/

/-- the status of a completed bulk-in URB -/
inductive RxStatus where
  /-- `0`; the length is between `RXDESC_SIZE` and `MAX_RECVBUF_SZ` or not -/
  | ok (validLen : Bool)
  | epipe
  /-- `-EINVAL`, `-ENODEV`, `-ESHUTDOWN`, `-ENOENT` -/
  | shutdown
  /-- `-EPROTO`, `-EILSEQ`, `-ETIME`, `-ECOMM`, `-EOVERFLOW` -/
  | eproto
  | other
  deriving DecidableEq, Repr

inductive TxStatus where
  | ok
  /-- `-EPIPE`, `-EPROTO` -/
  | stall
  /-- `-EINPROGRESS`, `-ENOENT`, `-ECONNRESET` -/
  | aborted
  | eshutdown
  | other
  deriving DecidableEq, Repr

inductive WorkerPc where
  | start | clearHalt | resetCounters | resubmit | clearSlot | clearPending
  deriving DecidableEq, Repr

/-- the error counters of `dvobj_priv` and the flags of the adapter that stop it -/
structure IoState where
  usbStallErr : Nat := 0
  continualIoError : Nat := 0
  surpriseRemoved : Bool := false
  drvStopped : Bool := false
  deriving DecidableEq, Repr

namespace IoState

/-- `RTW_CANNOT_RUN`, `RTW_CANNOT_RX` and `RTW_CANNOT_TX`; nothing here disables one direction -/
def cannotRun (s : IoState) : Bool := s.surpriseRemoved || s.drvStopped

def resetErr (s : IoState) : IoState := { s with continualIoError := 0, usbStallErr := 0 }

/-- `rtw_inc_and_chk_continual_io_error` and what its callers do with the result -/
def incContinualIoError (s : IoState) : IoState :=
  { s with continualIoError := s.continualIoError + 1
           surpriseRemoved := s.surpriseRemoved || decide (maxContinualIoErr < s.continualIoError + 1) }

def incUsbStallErr (s : IoState) : IoState :=
  { s with usbStallErr := s.usbStallErr + 1
           surpriseRemoved := s.surpriseRemoved || decide (maxUsbStallErr < s.usbStallErr + 1) }

end IoState

structure UsbDev extends IoState where
  /-- receive buffers whose URB is with the host controller -/
  submitted : List Nat
  /-- `recv_buf_pending_queue`: buffers that wait for an skb -/
  pendingQueue : List Nat := []
  /-- `rtw_ep_reset_recvbuf`, and whether `rtw_ep_reset_padapter` is set -/
  slot : Option Nat := none
  slotAdapter : Bool := false
  resetPending : Bool := false
  queued : Bool := false
  worker : Option WorkerPc := none
  deriving DecidableEq, Repr

namespace UsbDev

/-! ## the operations -/

/-- `usb_read_port` of a buffer that has an skb, or finds one, or else waits for one -/
def readPort (d : UsbDev) (b : Nat) (hasSkb : Bool) : UsbDev :=
  if d.cannotRun then d
  else if hasSkb then { d with submitted := b :: d.submitted }
  else { d with pendingQueue := d.pendingQueue ++ [b] }

/-- the counters and flags change, and nothing else -/
def io (d : UsbDev) (f : IoState → IoState) : UsbDev := { d with toIoState := f d.toIoState }

def rtwEpResetSchedule (d : UsbDev) (b : Nat) : UsbDev :=
  if d.cannotRun then d
  else if d.resetPending then d
  else { d with resetPending := true, slotAdapter := true, slot := some b, queued := true }

def giveback (d : UsbDev) (b : Nat) : UsbDev := { d with submitted := d.submitted.erase b }

/-- what `usb_read_port_complete` does after its flag test.  `skb`: an skb is found for the
buffer, after its own went to `rx_skb_queue` -/
def rxStatus (d : UsbDev) (b : Nat) (skb : Bool) (st : RxStatus) : UsbDev :=
  match st with
  | .ok false => d.readPort b true
  | .ok true => (d.io .resetErr).readPort b skb
  | .epipe => (d.io .incUsbStallErr).rtwEpResetSchedule b
  | .shutdown => { d.io .incContinualIoError with drvStopped := true }
  | .eproto => (d.io .incContinualIoError).readPort b true
  | .other => d.io .incContinualIoError

def usbReadPortComplete (d : UsbDev) (b : Nat) (st : RxStatus) (skb : Bool) : UsbDev :=
  if d.cannotRun then d.giveback b else (d.giveback b).rxStatus b skb st

def txStatus (d : UsbDev) : TxStatus → UsbDev
  | .ok => d.io .resetErr
  | .stall =>
    let d := d.io .incUsbStallErr
    if maxUsbStallErr < d.usbStallErr then d else { d with continualIoError := 0 }
  | .aborted => d
  | .eshutdown => { d with drvStopped := true }
  | .other => d.io .incContinualIoError

def usbWritePortComplete (d : UsbDev) (st : TxStatus) : UsbDev :=
  if d.cannotRun then d else d.txStatus st

/-- the turn of `usb_recv_tasklet` that resubmits a waiting buffer -/
def usbRecvTasklet (d : UsbDev) (skb : Bool) : UsbDev :=
  if d.cannotRun then d
  else
    match d.pendingQueue with
    | [] => d
    | b :: q => { d with pendingQueue := q }.readPort b skb

/-- the next step of `rtw_ep_reset_worker`; the results of `usb_clear_halt` are only logged -/
def rtwEpResetWorker (d : UsbDev) : UsbDev :=
  match d.worker with
  | none => if d.queued then { d with queued := false, worker := some .start } else d
  | some .start =>
    if !d.slotAdapter || d.slot = none || d.cannotRun then { d with worker := some .clearSlot }
    else { d with worker := some .clearHalt }
  | some .clearHalt => { d with worker := some .resetCounters }
  | some .resetCounters =>
    { d.io .resetErr with worker := some .resubmit }
  | some .resubmit =>
    let d' := match d.slot with
      | none => d
      | some b => d.readPort b true
    { d' with worker := some .clearSlot }
  | some .clearSlot => { d with slot := none, worker := some .clearPending }
  | some .clearPending => { d with resetPending := false, worker := none }

end UsbDev

/-! ## runs -/

inductive UsbEvent where
  | rx (b : Nat) (st : RxStatus) (skb : Bool)
  | tx (st : TxStatus)
  | tasklet (skb : Bool)
  /-- one step of the work item; `halt`: what `usb_clear_halt` returns, if it is called -/
  | work (halt : Bool)
  deriving DecidableEq, Repr

def UsbDev.init (bufs : List Nat) : UsbDev := { submitted := bufs }

def UsbDev.step (d : UsbDev) : UsbEvent → UsbDev
  | .rx b st skb => if b ∈ d.submitted then d.usbReadPortComplete b st skb else d
  | .tx st => d.usbWritePortComplete st
  | .tasklet skb => d.usbRecvTasklet skb
  | .work _ => d.rtwEpResetWorker

/-- a device that is removed or stopped stays as it is -/
theorem UsbDev.step_flags {d : UsbDev} (hr : d.cannotRun = true) (e : UsbEvent) :
    (d.step e).surpriseRemoved = d.surpriseRemoved ∧ (d.step e).drvStopped = d.drvStopped := by
  cases e with
  | rx b st skb =>
    rw [step]
    split
    · rw [usbReadPortComplete, if_pos hr]
      exact ⟨rfl, rfl⟩
    · exact ⟨rfl, rfl⟩
  | tx st =>
    rw [step, usbWritePortComplete, if_pos hr]
    exact ⟨rfl, rfl⟩
  | tasklet skb =>
    rw [step, usbRecvTasklet, if_pos hr]
    exact ⟨rfl, rfl⟩
  | work halt =>
    rw [step, rtwEpResetWorker]
    split
    · split <;> exact ⟨rfl, rfl⟩
    · split <;> exact ⟨rfl, rfl⟩
    · exact ⟨rfl, rfl⟩
    · exact ⟨rfl, rfl⟩
    · split
      · exact ⟨rfl, rfl⟩
      · rw [readPort, if_pos hr]
        exact ⟨rfl, rfl⟩
    · exact ⟨rfl, rfl⟩
    · exact ⟨rfl, rfl⟩

end Rtl8192eu
