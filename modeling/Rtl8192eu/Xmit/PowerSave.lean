import Mathlib.Algebra.Group.Nat.Defs
import Mathlib.Data.Finset.Basic
import Rtl8192eu.Xmit.DataPath

/-!
# Frames for sleeping stations

An access point with its stations: the pending queues of `core/rtw_xmit.c` with their counters, the
`sleep_q` of each station, the TIM and the bitmap of dozing stations.

* `rtwXmitClassifier`, `rtwDequeueXframe`, `aggTake`   the pending queues;
* `xmitframeEnqueueForSleepingSta`, `stopStaXmit`   frames go to a `sleep_q`;
* `wakeupStaToXmit`, `xmitDeliveryEnabledFrames`, `psPoll`   and leave it;
* `ApXmit.step`   the lock regions of all contexts, in any order.

A station is its association id, and 0 is the station of group frames.  A station that is not
associated is not found by `rtw_get_stainfo`.  Each accepted frame has a number of its own;
`written` and `dropped` are where frames end.
-/

namespace Rtl8192eu

/-! ## data -/

/-- a frame and the attributes that the power-save code writes -/
structure PsFrame extends XmitFrame where
  id : Nat
  triggered : Bool := false
  mdata : Bool := false
  eosp : Bool := false
  deriving DecidableEq, Repr

def bmcSta : Nat := 0

structure PsSta where
  asoc : Bool := false
  /-- `WIFI_SLEEP_STATE` -/
  sleep : Bool := false
  /-- `uapsd_vo`, `uapsd_vi`, `uapsd_be`, `uapsd_bk` -/
  uapsd : Ac → Nat := fun _ => 0
  hasLegacyAc : Bool := false
  sleepQ : List PsFrame := []
  sleepqLen : Nat := 0
  sleepqAcLen : Nat := 0

/-- `struct tx_servq` -/
structure TxServq where
  staPending : List PsFrame := []
  qcnt : Int := 0

structure TxQueues where
  servq : Nat × Ac → TxServq := fun _ => {}
  /-- the stations of each `sta_queue`, linked by their `tx_pending` -/
  staQueue : Ac → List Nat := fun _ => []
  accnt : Ac → Int := fun _ => 0

/-- a frame on its way to the bus, and whether its station was dozing when it was taken -/
structure Taken where
  frame : PsFrame
  dozing : Bool
  deriving DecidableEq, Repr

/-- where a transmit entry stands -/
inductive PostCtx where
  | idle
  /-- between the two lock regions of `rtw_xmit_posthandle` -/
  | checked (f : PsFrame)
  | direct (t : Taken)
  | packed (t : Taken)
  deriving DecidableEq, Repr

/-- where `rtl8192eu_xmitframe_complete` stands -/
inductive CompleteCtx where
  | idle
  | got (t : Taken)
  | first (t : Taken)
  | packed (ts : List Taken)
  deriving DecidableEq, Repr

structure ApXmit extends TxQueues where
  sta : Nat → PsSta
  /-- `tim_bitmap` -/
  tim : Finset Nat := ∅
  /-- `sta_dz_bitmap` -/
  dz : Finset Nat := ∅
  /-- the transmit entries that run -/
  os : Nat → PostCtx := fun _ => .idle
  task : CompleteCtx := .idle
  nextId : Nat := 0
  /-- what was handed to `rtw_write_port`, and whether the station was dozing then -/
  written : List (Taken × Bool) := []
  dropped : List PsFrame := []

/-- only the station of group frames is there -/
def ApXmit.init : ApXmit where
  sta := Function.update (fun _ => {}) bmcSta { asoc := true }

/-- a decrement of an `unsigned int` -/
def dec32 (n : Nat) : Nat := if n = 0 then 2 ^ 32 - 1 else n - 1

def wmmpsAc (st : PsSta) (bit priority : Nat) : Bool := (st.uapsd (acOf priority)).testBit bit

def acs : List Ac := [.vo, .vi, .be, .bk]

/-! ## association -/

/-- the bit of an access category in `qos_info` -/
def qosInfoBit : Ac → Nat
  | .vo => 0
  | .vi => 1
  | .bk => 2
  | .be => 3

/-- `rtw_ap_parse_sta_wmm_ie`; without a WMM element there is no `qos_info` -/
def rtwApParseStaWmmIe (qosInfo : Option Nat) : PsSta :=
  match qosInfo with
  | none => { asoc := true, hasLegacyAc := true }
  | some info =>
    { asoc := true
      hasLegacyAc := info % 16 ≠ 15
      uapsd := fun ac => if info.testBit (qosInfoBit ac) then 3 else 0 }

/-! ## pending queues -/

namespace TxQueues

/-- `rtw_xmit_classifier`, once the station is found -/
def insert (q : TxQueues) (f : PsFrame) : TxQueues :=
  let k := f.servq
  { servq := Function.update q.servq k
      ⟨(q.servq k).staPending ++ [f], (q.servq k).qcnt + 1⟩
    staQueue := if f.sta ∈ q.staQueue k.2 then q.staQueue
      else Function.update q.staQueue k.2 (q.staQueue k.2 ++ [f.sta])
    accnt := Function.update q.accnt k.2 (q.accnt k.2 + 1) }

/-- the first station with a frame, in the order of the access categories -/
def next (inx : List Ac) (q : TxQueues) : Option ((Nat × Ac) × PsFrame × List PsFrame) :=
  inx.findSome? fun ac =>
    (q.staQueue ac).findSome? fun sta =>
      match (q.servq (sta, ac)).staPending with
      | [] => none
      | f :: fs => some ((sta, ac), f, fs)

/-- `n` frames leave the queue `k`, and `rest` remain -/
def take (q : TxQueues) (k : Nat × Ac) (n : Nat) (rest : List PsFrame) (staQueue : Ac → List Nat) :
    TxQueues :=
  { servq := Function.update q.servq k ⟨rest, (q.servq k).qcnt - n⟩
    staQueue := staQueue
    accnt := Function.update q.accnt k.2 (q.accnt k.2 - n) }

/-- `rtw_dequeue_xframe` of the frame that `next` found -/
def dequeue (q : TxQueues) (k : Nat × Ac) (rest : List PsFrame) : TxQueues :=
  q.take k 1 rest (if rest = [] then Xmit.unlinkSta q.staQueue k else q.staQueue)

/-- the counters of a frame that goes to a `sleep_q` -/
def uncount (q : TxQueues) (k : Nat × Ac) : TxQueues :=
  { q with
    servq := Function.update q.servq k ⟨(q.servq k).staPending, (q.servq k).qcnt - 1⟩
    accnt := Function.update q.accnt k.2 (q.accnt k.2 - 1) }

def setPending (q : TxQueues) (k : Nat × Ac) (fs : List PsFrame) : TxQueues :=
  { q with servq := Function.update q.servq k ⟨fs, (q.servq k).qcnt⟩ }

def unlink (q : TxQueues) (k : Nat × Ac) : TxQueues :=
  { q with staQueue := Xmit.unlinkSta q.staQueue k }

/-- `rtw_free_stainfo`, one queue -/
def free (q : TxQueues) (k : Nat × Ac) : TxQueues :=
  { servq := Function.update q.servq k ⟨[], 0⟩
    staQueue := Xmit.unlinkSta q.staQueue k
    accnt := Function.update q.accnt k.2 (q.accnt k.2 - (q.servq k).qcnt) }

end TxQueues

/-- the loop of `rtl8192eu_xmitframe_complete` over the queue of the first frame: the frames it takes,
with the outcome of their copy, and what remains -/
def aggTake (conf : XmitConf) (qsel : Nat) :
    AggState → List PsFrame → List Bool → List (PsFrame × Bool) × List PsFrame
  | _, [], _ => ([], [])
  | st, f :: q, cs =>
    let len := f.pktSize + txdescSize
    if !busaggQselCheck conf qsel f.qsel then ([], f :: q)
    else if maxXmitbufSz < rnd8 (st.pbuf + len) then ([], f :: q)
    else if !cs.headD true then
      let r := aggTake conf qsel st q cs.tail
      ((f, false) :: r.1, r.2)
    else
      match aggNext conf st len with
      | none => ([(f, true)], q)
      | some st =>
        let r := aggTake conf qsel st q cs.tail
        ((f, true) :: r.1, r.2)

namespace ApXmit

def setSta (s : ApXmit) (x : Nat) (st : PsSta) : ApXmit := { s with sta := Function.update s.sta x st }

def setOs (s : ApXmit) (c : Nat) (p : PostCtx) : ApXmit := { s with os := Function.update s.os c p }

/-- `rtw_xmit_classifier` -/
def rtwXmitClassifier (s : ApXmit) (f : PsFrame) : Option ApXmit :=
  if (s.sta f.sta).asoc then some { s with toTxQueues := s.toTxQueues.insert f } else none

/-- `rtl8192eu_hal_xmitframe_enqueue`: a frame that finds no station is freed -/
def halXmitframeEnqueue (s : ApXmit) (f : PsFrame) : ApXmit :=
  (s.rtwXmitClassifier f).getD { s with dropped := s.dropped ++ [f] }

/-! ## to the sleep queue -/

/-- a frame to the station: its class decides whether the TIM announces it -/
def bufferUc (s : ApXmit) (f : PsFrame) : ApXmit :=
  let st := s.sta f.sta
  let w := wmmpsAc st 0 f.priority
  { s.setSta f.sta { st with
      sleepQ := st.sleepQ ++ [f]
      sleepqLen := st.sleepqLen + 1
      sleepqAcLen := if w then st.sleepqAcLen + 1 else st.sleepqAcLen } with
    tim := if (st.hasLegacyAc && !w) || (!st.hasLegacyAc && w) then insert f.sta s.tim else s.tim }

/-- a group frame -/
def bufferBmc (s : ApXmit) (f : PsFrame) : ApXmit :=
  let st := s.sta bmcSta
  { s.setSta bmcSta { st with
      sleepQ := st.sleepQ ++ [f]
      sleepqLen := st.sleepqLen + 1 } with
    tim := insert bmcSta s.tim
    dz := insert bmcSta s.dz }

/-- `none` for `_FALSE` -/
def xmitframeEnqueueForSleepingSta (s : ApXmit) (f : PsFrame) : Option ApXmit :=
  let st := s.sta f.sta
  if !st.asoc || f.triggered then none
  else if f.sta = bmcSta then if s.dz.Nonempty then some (s.bufferBmc f) else none
  else if st.sleep && f.sta ∈ s.dz then some (s.bufferUc f)
  else none

/-- `dequeue_xmitframes_to_sleeping_queue` over the frames that were in the queue `(x, ac)` -/
def dequeueLoop (x : Nat) (ac : Ac) : ApXmit → List PsFrame → ApXmit
  | s, [] => s
  | s, f :: fs =>
    let f := { f with triggered := false }
    match s.xmitframeEnqueueForSleepingSta f with
    | some s => dequeueLoop x ac { s with toTxQueues := s.toTxQueues.uncount (x, acOf f.priority) } fs
    | none =>
      dequeueLoop x ac { s with
        toTxQueues := s.toTxQueues.setPending (x, ac) ((s.servq (x, ac)).staPending ++ [f]) } fs

/-- one queue of `stop_sta_xmit` -/
def stopQueue (x : Nat) (s : ApXmit) (ac : Ac) : ApXmit :=
  let s := dequeueLoop x ac { s with toTxQueues := s.toTxQueues.setPending (x, ac) [] }
    (s.servq (x, ac)).staPending
  { s with toTxQueues := s.toTxQueues.unlink (x, ac) }

def stopStaXmit (s : ApXmit) (x : Nat) : ApXmit :=
  let s := { s.setSta x { s.sta x with sleep := true } with dz := insert x s.dz }
  acs.foldl (stopQueue bmcSta) (acs.foldl (stopQueue x) s)

end ApXmit

/-! ## from the sleep queue -/

/-- a frame that `wakeup_sta_to_xmit` releases -/
def wakeupOne (st : PsSta) (f : PsFrame) : PsSta × PsFrame :=
  let len := dec32 st.sleepqLen
  if wmmpsAc st 1 f.priority then
    let acLen := dec32 st.sleepqAcLen
    ({ st with sleepqLen := len, sleepqAcLen := acLen },
      { f with mdata := 0 < acLen, eosp := acLen = 0, triggered := true })
  else ({ st with sleepqLen := len }, { f with mdata := 0 < len, triggered := true })

/-- a group frame, or a frame for a PS-Poll: only `sleepq_len` counts -/
def releaseOne (st : PsSta) (f : PsFrame) : PsSta × PsFrame :=
  let len := dec32 st.sleepqLen
  ({ st with sleepqLen := len }, { f with mdata := 0 < len, triggered := true })

/-- the loops over a `sleep_q` that is emptied -/
def releaseLoop (one : PsSta → PsFrame → PsSta × PsFrame) :
    PsSta → List PsFrame → PsSta × List PsFrame
  | st, [] => (st, [])
  | st, f :: fs =>
    let r := one st f
    let r' := releaseLoop one r.1 fs
    (r'.1, r.2 :: r'.2)

/-- all frames leave the `sleep_q` -/
def emptySleepQ (one : PsSta → PsFrame → PsSta × PsFrame) (st : PsSta) : PsSta × List PsFrame :=
  releaseLoop one { st with sleepQ := [] } st.sleepQ

/-- the station, the frames released, and whether the TIM bit was cleared -/
structure Delivery where
  st : PsSta
  released : List PsFrame
  timClear : Bool

/-- the loop of `xmit_delivery_enabled_frames`; frames of other access categories stay -/
def deliverLoop : PsSta → List PsFrame → Delivery
  | st, [] => ⟨st, [], false⟩
  | st, f :: fs =>
    if !wmmpsAc st 1 f.priority then deliverLoop { st with sleepQ := st.sleepQ ++ [f] } fs
    else
      let acLen := dec32 st.sleepqAcLen
      let st := { st with sleepqLen := dec32 st.sleepqLen, sleepqAcLen := acLen }
      let r := deliverLoop st fs
      ⟨r.st, { f with mdata := 0 < acLen, eosp := acLen = 0, triggered := true } :: r.released,
        (acLen = 0 && !st.hasLegacyAc) || r.timClear⟩

namespace ApXmit

/-- nobody is left asleep -/
def wakeupBmc (s : ApXmit) : ApXmit :=
  let r := emptySleepQ releaseOne (s.sta bmcSta)
  let s := r.2.foldl halXmitframeEnqueue (s.setSta bmcSta r.1)
  if r.1.sleepqLen = 0 then { s with tim := s.tim.erase bmcSta, dz := s.dz.erase bmcSta } else s

/-- the frames of the station itself -/
def wakeupUc (s : ApXmit) (x : Nat) : ApXmit :=
  let r := emptySleepQ wakeupOne (s.sta x)
  let s := r.2.foldl halXmitframeEnqueue (s.setSta x r.1)
  if r.1.sleepqLen = 0 then
    { s.setSta x { r.1 with sleep := false } with tim := s.tim.erase x, dz := s.dz.erase x }
  else s

def wakeupStaToXmit (s : ApXmit) (x : Nat) : ApXmit :=
  let s := s.wakeupUc x
  if (s.dz.erase bmcSta).Nonempty then s else s.wakeupBmc

def delivery (s : ApXmit) (x : Nat) : Delivery :=
  deliverLoop { s.sta x with sleepQ := [] } (s.sta x).sleepQ

def xmitDeliveryEnabledFrames (s : ApXmit) (x : Nat) : ApXmit :=
  let r := s.delivery x
  let s := r.released.foldl halXmitframeEnqueue (s.setSta x r.st)
  if r.timClear then { s with tim := s.tim.erase x } else s

/-- a PS-Poll of `validate_recv_ctrl_frame`; `priority` is what the receive descriptor says -/
def psPoll (s : ApXmit) (x priority : Nat) : ApXmit :=
  let st := s.sta x
  if wmmpsAc st 0 priority then s
  else if st.sleep && x ∈ s.dz then
    match st.sleepQ with
    | f :: fs =>
      let r := releaseOne { st with sleepQ := fs } f
      let s := (s.setSta x r.1).halXmitframeEnqueue r.2
      if r.1.sleepqLen = 0 then { s with tim := s.tim.erase x } else s
    | [] =>
      if x ∈ s.tim then { s.setSta x { st with sleepqLen := 0 } with tim := s.tim.erase x } else s
  else s

/-! ## the transmit entry -/

/-- the first lock region of `rtw_xmit_posthandle` -/
def posthandle (s : ApXmit) (c : Nat) (req : XmitReq) : ApXmit :=
  match s.os c with
  | .idle =>
    if !(s.sta req.sta).asoc then s
    else
      let f : PsFrame :=
        { sta := req.sta
          priority := req.priority
          pn := 0
          pktSize := req.pktSize
          qsel := req.qsel
          id := s.nextId }
      let s := { s with nextId := s.nextId + 1 }
      (s.xmitframeEnqueueForSleepingSta f).getD (s.setOs c (.checked f))
  | _ => s

/-- the second one, `pre_xmitframe` -/
def preXmitframe (s : ApXmit) (c : Nat) (o : PreOracle) (noBuf : Bool) : ApXmit :=
  match s.os c with
  | .checked f =>
    if ((s.sta f.sta).asoc && 0 < (s.servq f.servq).qcnt) || o.acBlocked || o.staLgNum || noBuf then
      (s.halXmitframeEnqueue f).setOs c .idle
    else s.setOs c (.direct ⟨f, (s.sta f.sta).sleep⟩)
  | _ => s

def osCoalesce (s : ApXmit) (c : Nat) (ok : Bool) : ApXmit :=
  match s.os c with
  | .direct t =>
    if ok then s.setOs c (.packed t) else { s with dropped := s.dropped ++ [t.frame] }.setOs c .idle
  | _ => s

/-- a frame goes to `rtw_write_port` -/
def write (s : ApXmit) (t : Taken) : ApXmit :=
  { s with written := s.written ++ [(t, (s.sta t.frame.sta).sleep)] }

def osWrite (s : ApXmit) (c : Nat) : ApXmit :=
  match s.os c with
  | .packed t => (s.write t).setOs c .idle
  | _ => s

/-! ## the tasklet -/

def taskDequeue (conf : XmitConf) (s : ApXmit) : ApXmit :=
  match s.task with
  | .idle =>
    match s.toTxQueues.next conf.inx with
    | none => s
    | some (k, f, rest) =>
      { s with toTxQueues := s.toTxQueues.dequeue k rest, task := .got ⟨f, (s.sta f.sta).sleep⟩ }
  | _ => s

def taskCoalesce (s : ApXmit) (ok : Bool) : ApXmit :=
  match s.task with
  | .got t =>
    if ok then { s with task := .first t } else { s with task := .idle, dropped := s.dropped ++ [t.frame] }
  | _ => s

/-- the frames behind the first one, taken under the lock -/
def taskAgg (conf : XmitConf) (s : ApXmit) (cs : List Bool) : ApXmit :=
  match s.task with
  | .first t =>
    let k := t.frame.servq
    let r := aggTake conf t.frame.qsel (aggInit conf t.frame.toXmitFrame) (s.servq k).staPending cs
    { s with
      toTxQueues := s.toTxQueues.take k r.1.length r.2
        (Xmit.rearrange s.staQueue k (r.2.map PsFrame.toXmitFrame))
      task := .packed (t :: (r.1.filter (·.2)).map fun p => ⟨p.1, (s.sta p.1.sta).sleep⟩)
      dropped := s.dropped ++ (r.1.filter (!·.2)).map (·.1) }
  | _ => s

def taskWrite (s : ApXmit) : ApXmit :=
  match s.task with
  | .packed ts => { ts.foldl write s with task := .idle }
  | _ => s

/-! ## stations come and go -/

def rtwFreeStainfo (s : ApXmit) (x : Nat) : ApXmit :=
  { s with
    toTxQueues := acs.foldl (fun q ac => q.free (x, ac)) s.toTxQueues
    sta := Function.update s.sta x { sleep := (s.sta x).sleep }
    tim := s.tim.erase x
    dz := s.dz.erase x
    dropped := s.dropped ++ ((s.sta x).sleepQ ++ acs.flatMap fun ac => (s.servq (x, ac)).staPending) }

end ApXmit

inductive PsEvent where
  | assoc (x : Nat) (qosInfo : Option Nat)
  | freeStainfo (x : Nat)
  | posthandle (c : Nat) (req : XmitReq)
  | pre (c : Nat) (o : PreOracle) (noBuf : Bool)
  | osCoalesce (c : Nat) (ok : Bool)
  | osWrite (c : Nat)
  | taskDequeue
  | taskCoalesce (ok : Bool)
  | taskAgg (cs : List Bool)
  | taskWrite
  | stop (x : Nat)
  | wakeup (x : Nat)
  | deliver (x : Nat)
  | psPoll (x priority : Nat)

/-- an associated station, not that of group frames -/
def ApXmit.peer (s : ApXmit) (x : Nat) : Bool := (s.sta x).asoc && x ≠ bmcSta

/-- a frame from a station that is not found changes nothing -/
def ApXmit.step (conf : XmitConf) (s : ApXmit) : PsEvent → ApXmit
  | .assoc x info => if (s.sta x).asoc then s else s.setSta x (rtwApParseStaWmmIe info)
  | .freeStainfo x => if s.peer x then s.rtwFreeStainfo x else s
  | .posthandle c req => s.posthandle c req
  | .pre c o noBuf => s.preXmitframe c o noBuf
  | .osCoalesce c ok => s.osCoalesce c ok
  | .osWrite c => s.osWrite c
  | .taskDequeue => s.taskDequeue conf
  | .taskCoalesce ok => s.taskCoalesce ok
  | .taskAgg cs => s.taskAgg conf cs
  | .taskWrite => s.taskWrite
  | .stop x => if s.peer x then s.stopStaXmit x else s
  | .wakeup x => if s.peer x then s.wakeupStaToXmit x else s
  | .deliver x => if s.peer x then s.xmitDeliveryEnabledFrames x else s
  | .psPoll x priority => if s.peer x then s.psPoll x priority else s

/-! ## what the loops do -/

namespace ApXmit

variable {s : ApXmit} {x : Nat} {ac : Ac} {f : PsFrame} {fs : List PsFrame}

/-- the queues are replaced -/
def withQueues (s : ApXmit) (q : TxQueues) : ApXmit := { s with toTxQueues := q }

theorem halXmitframeEnqueue_of_asoc (h : (s.sta f.sta).asoc = true) :
    s.halXmitframeEnqueue f = s.withQueues (s.toTxQueues.insert f) := by
  rw [halXmitframeEnqueue, rtwXmitClassifier, if_pos h]
  rfl

theorem halXmitframeEnqueue_of_not_asoc (h : (s.sta f.sta).asoc = false) :
    s.halXmitframeEnqueue f = { s with dropped := s.dropped ++ [f] } := by
  rw [halXmitframeEnqueue, rtwXmitClassifier, h]
  rfl

theorem halXmitframeEnqueue_setOs (s : ApXmit) (f : PsFrame) (c : Nat) (p : PostCtx) :
    (s.setOs c p).halXmitframeEnqueue f = (s.halXmitframeEnqueue f).setOs c p := by
  cases ha : (s.sta f.sta).asoc with
  | true =>
    rw [halXmitframeEnqueue_of_asoc ha]
    exact halXmitframeEnqueue_of_asoc (s := s.setOs c p) ha
  | false =>
    rw [halXmitframeEnqueue_of_not_asoc ha]
    exact halXmitframeEnqueue_of_not_asoc (s := s.setOs c p) ha

/-- only the pending queues and `dropped` change -/
theorem foldl_halXmitframeEnqueue_frame (s : ApXmit) (fs : List PsFrame) :
    ∃ q d, fs.foldl halXmitframeEnqueue s = { s with toTxQueues := q, dropped := d } := by
  induction fs generalizing s with
  | nil => exact ⟨_, _, rfl⟩
  | cons f fs ih =>
    rw [List.foldl_cons]
    cases ha : (s.sta f.sta).asoc with
    | true =>
      rw [halXmitframeEnqueue_of_asoc ha]
      obtain ⟨q, d, h⟩ := ih (s.withQueues (s.toTxQueues.insert f))
      exact ⟨q, d, h⟩
    | false =>
      rw [halXmitframeEnqueue_of_not_asoc ha]
      obtain ⟨q, d, h⟩ := ih { s with dropped := s.dropped ++ [f] }
      exact ⟨q, d, h⟩

theorem halXmitframeEnqueue_frame (s : ApXmit) (f : PsFrame) :
    ∃ q d, s.halXmitframeEnqueue f = { s with toTxQueues := q, dropped := d } :=
  foldl_halXmitframeEnqueue_frame s [f]

theorem foldl_halXmitframeEnqueue_sta (s : ApXmit) (fs : List PsFrame) :
    (fs.foldl halXmitframeEnqueue s).sta = s.sta := by
  obtain ⟨q, d, h⟩ := foldl_halXmitframeEnqueue_frame s fs
  rw [h]

theorem foldl_halXmitframeEnqueue (h : ∀ f ∈ fs, (s.sta f.sta).asoc = true) :
    fs.foldl halXmitframeEnqueue s = s.withQueues (fs.foldl TxQueues.insert s.toTxQueues) := by
  induction fs generalizing s with
  | nil => rfl
  | cons f fs ih =>
    rw [List.foldl_cons, halXmitframeEnqueue_of_asoc (h f List.mem_cons_self)]
    exact ih (s := s.withQueues (s.toTxQueues.insert f)) fun g hg => h g (List.mem_cons_of_mem _ hg)

/-- a frame goes to the `sleep_q` of its station -/
def buffer (s : ApXmit) (f : PsFrame) : ApXmit :=
  if f.sta = bmcSta then s.bufferBmc { f with triggered := false }
  else s.bufferUc { f with triggered := false }

theorem buffer_withQueues (s : ApXmit) (q : TxQueues) (f : PsFrame) :
    (s.withQueues q).buffer f = (s.buffer f).withQueues q := by
  unfold buffer
  split <;> rfl

theorem foldl_buffer_withQueues (s : ApXmit) (q : TxQueues) (fs : List PsFrame) :
    fs.foldl buffer (s.withQueues q) = (fs.foldl buffer s).withQueues q := by
  induction fs generalizing s with
  | nil => rfl
  | cons f fs ih => rw [List.foldl_cons, buffer_withQueues, ih, List.foldl_cons]

theorem buffer_queues (s : ApXmit) (f : PsFrame) : (s.buffer f).toTxQueues = s.toTxQueues := by
  unfold buffer
  split <;> rfl

theorem foldl_buffer_queues (s : ApXmit) (fs : List PsFrame) :
    (fs.foldl buffer s).toTxQueues = s.toTxQueues := by
  induction fs generalizing s with
  | nil => rfl
  | cons f fs ih => rw [List.foldl_cons, ih, buffer_queues]

/-- frames to `x` are buffered -/
def Ready (s : ApXmit) (x : Nat) : Prop :=
  (s.sta x).asoc = true
    ∧ if x = bmcSta then s.dz.Nonempty else (s.sta x).sleep = true ∧ x ∈ s.dz

theorem Ready.enqueue (h : s.Ready x) (hf : f.sta = x) :
    s.xmitframeEnqueueForSleepingSta { f with triggered := false } = some (s.buffer f) := by
  subst hf
  obtain ⟨ha, hd⟩ := h
  unfold xmitframeEnqueueForSleepingSta buffer
  dsimp only
  rw [ha]
  by_cases hb : f.sta = bmcSta
  · rw [if_pos hb] at hd
    rw [if_pos hb, if_pos hb, if_pos hd]
    rfl
  · rw [if_neg hb] at hd
    rw [if_neg hb, if_neg hb, hd.1]
    simp [hd.2]

theorem xmitframeEnqueueForSleepingSta_cases (s : ApXmit) (f : PsFrame) :
    s.xmitframeEnqueueForSleepingSta f = none
      ∨ (s.Ready f.sta ∧ f.triggered = false
        ∧ s.xmitframeEnqueueForSleepingSta f = some (s.buffer f)) := by
  cases ht : f.triggered with
  | true =>
    left
    unfold xmitframeEnqueueForSleepingSta
    dsimp only
    rw [ht, Bool.or_true, if_pos rfl]
  | false =>
    have hf : { f with triggered := false } = f := by
      rw [← ht]
    by_cases hr : s.Ready f.sta
    · refine Or.inr ⟨hr, rfl, ?_⟩
      rw [← hr.enqueue rfl, hf]
    · left
      unfold xmitframeEnqueueForSleepingSta
      dsimp only
      split
      · rfl
      · rename_i ha
        rw [ht, Bool.or_false, Bool.not_eq_true, Bool.not_eq_false'] at ha
        split
        · rename_i hb
          split
          · rename_i hd
            exact absurd ⟨ha, by rw [if_pos hb]; exact hd⟩ hr
          · rfl
        · rename_i hb
          split
          · rename_i hd
            rw [Bool.and_eq_true, decide_eq_true_eq] at hd
            exact absurd ⟨ha, by rw [if_neg hb]; exact hd⟩ hr
          · rfl

/-- a frame gets its number -/
def accept (s : ApXmit) : ApXmit := { s with nextId := s.nextId + 1 }

/-- what the first lock region of `rtw_xmit_posthandle` does with a frame it accepts -/
theorem posthandle_cases (s : ApXmit) (c : Nat) (req : XmitReq) :
    s.posthandle c req = s
      ∨ ∃ f : PsFrame, s.os c = .idle ∧ (s.sta f.sta).asoc = true ∧ f.id = s.nextId
        ∧ f.triggered = false
        ∧ ((s.accept.xmitframeEnqueueForSleepingSta f = none
            ∧ s.posthandle c req = s.accept.setOs c (.checked f))
          ∨ (s.accept.Ready f.sta ∧ s.posthandle c req = s.accept.buffer f)) := by
  unfold posthandle
  split
  · rename_i hc
    split
    · exact Or.inl rfl
    · rename_i ha
      rw [Bool.not_eq_true, Bool.not_eq_false'] at ha
      refine Or.inr ⟨⟨⟨req.sta, req.priority, 0, req.pktSize, req.qsel⟩, s.nextId, false, false, false⟩,
        hc, ha, rfl, rfl, ?_⟩
      rcases xmitframeEnqueueForSleepingSta_cases s.accept
        ⟨⟨req.sta, req.priority, 0, req.pktSize, req.qsel⟩, s.nextId, false, false, false⟩
        with he | ⟨hr, -, he⟩
      · exact Or.inl ⟨he, congrArg (Option.getD · _) he⟩
      · exact Or.inr ⟨hr, congrArg (Option.getD · _) he⟩
  · exact Or.inl rfl

/-- nobody is woken or freed by it -/
theorem buffer_sta (s : ApXmit) (f : PsFrame) (y : Nat) :
    ((s.buffer f).sta y).asoc = (s.sta y).asoc ∧ ((s.buffer f).sta y).sleep = (s.sta y).sleep := by
  unfold buffer bufferBmc bufferUc setSta
  split <;> rename_i hb
  · by_cases hy : y = bmcSta
    · subst hy
      simp
    · simp [hy]
  · by_cases hy : y = f.sta
    · subst hy
      simp
    · simp [hy]

/-- only stations and bitmaps change -/
theorem foldl_buffer_frame (s : ApXmit) (fs : List PsFrame) :
    ∃ sta tim dz, fs.foldl buffer s = { s with sta := sta, tim := tim, dz := dz }
      ∧ ∀ y, (sta y).asoc = (s.sta y).asoc ∧ (sta y).sleep = (s.sta y).sleep := by
  induction fs generalizing s with
  | nil => exact ⟨_, _, _, rfl, fun _ => ⟨rfl, rfl⟩⟩
  | cons f fs ih =>
    obtain ⟨sta, tim, dz, h, hy⟩ := ih (s.buffer f)
    refine ⟨sta, tim, dz, ?_, fun y => ⟨?_, ?_⟩⟩
    · rw [List.foldl_cons, h]
      unfold buffer
      split <;> rfl
    · rw [(hy y).1, (buffer_sta s f y).1]
    · rw [(hy y).2, (buffer_sta s f y).2]

theorem subset_dz_buffer (s : ApXmit) (f : PsFrame) : s.dz ⊆ (s.buffer f).dz := by
  unfold buffer bufferBmc bufferUc setSta
  split
  · exact Finset.subset_insert _ _
  · exact Finset.Subset.refl _

theorem Ready.of_sta {s s' : ApXmit} (h : s.Ready x) (ha : (s'.sta x).asoc = (s.sta x).asoc)
    (hs : (s'.sta x).sleep = (s.sta x).sleep) (hd : s.dz ⊆ s'.dz) : s'.Ready x := by
  obtain ⟨h1, h2⟩ := h
  refine ⟨ha.trans h1, ?_⟩
  split <;> rename_i hx
  · rw [if_pos hx] at h2
    exact h2.mono hd
  · rw [if_neg hx] at h2
    exact ⟨hs.trans h2.1, hd h2.2⟩

theorem Ready.buffer (h : s.Ready x) (f : PsFrame) : (s.buffer f).Ready x :=
  h.of_sta (buffer_sta s f x).1 (buffer_sta s f x).2 (subset_dz_buffer s f)

theorem Ready.foldl_buffer (h : s.Ready x) (fs : List PsFrame) : (fs.foldl ApXmit.buffer s).Ready x := by
  induction fs generalizing s with
  | nil => exact h
  | cons f fs ih => exact ih (h.buffer f)

end ApXmit

/-- the whole queue `k` is taken -/
def TxQueues.clear (q : TxQueues) (k : Nat × Ac) : TxQueues :=
  q.take k (q.servq k).staPending.length [] (Xmit.unlinkSta q.staQueue k)

theorem TxQueues.clear_servq (q : TxQueues) {k j : Nat × Ac} (h : j ≠ k) :
    (q.clear k).servq j = q.servq j :=
  Function.update_of_ne h _ _

namespace ApXmit

variable {s : ApXmit} {x : Nat} {ac : Ac} {fs : List PsFrame}

theorem dequeueLoop_ready (h : s.Ready x) (hfs : ∀ f ∈ fs, f.servq = (x, ac)) :
    dequeueLoop x ac s fs = (fs.foldl buffer s).withQueues { s.toTxQueues with
      servq := Function.update s.servq (x, ac)
        ⟨(s.servq (x, ac)).staPending, (s.servq (x, ac)).qcnt - fs.length⟩
      accnt := Function.update s.accnt ac (s.accnt ac - fs.length) } := by
  induction fs generalizing s with
  | nil =>
    have h1 : (⟨(s.servq (x, ac)).staPending, (s.servq (x, ac)).qcnt - (([] : List PsFrame).length : Nat)⟩
        : TxServq) = s.servq (x, ac) := by
      rw [List.length_nil, Int.ofNat_zero, Int.sub_zero]
    rw [h1, List.length_nil, Int.ofNat_zero, Int.sub_zero, Function.update_eq_self,
      Function.update_eq_self]
    rfl
  | cons f fs ih =>
    have hf := hfs f List.mem_cons_self
    have hsta : f.sta = x := congrArg Prod.fst hf
    have hac : acOf f.priority = ac := congrArg Prod.snd hf
    rw [dequeueLoop]
    dsimp only
    rw [h.enqueue hsta]
    dsimp only
    rw [hac]
    have hr : ((s.buffer f).withQueues ((s.buffer f).toTxQueues.uncount (x, ac))).Ready x := h.buffer f
    rw [show ({ s.buffer f with toTxQueues := (s.buffer f).toTxQueues.uncount (x, ac) } : ApXmit)
      = (s.buffer f).withQueues ((s.buffer f).toTxQueues.uncount (x, ac)) from rfl,
      ih hr fun g hg => hfs g (List.mem_cons_of_mem _ hg), foldl_buffer_withQueues, buffer_queues,
      List.foldl_cons]
    unfold withQueues TxQueues.uncount
    dsimp only
    have hn : ((f :: fs).length : Int) = 1 + fs.length := by
      rw [List.length_cons]
      omega
    rw [Function.update_self, Function.update_idem, Function.update_self, Function.update_idem, hn,
      ← Int.sub_sub, ← Int.sub_sub]

/-- **One queue of `stop_sta_xmit`**: all its frames go to the `sleep_q`. -/
theorem stopQueue_ready (h : s.Ready x) (hp : ∀ f ∈ (s.servq (x, ac)).staPending, f.servq = (x, ac)) :
    stopQueue x s ac
      = ((s.servq (x, ac)).staPending.foldl buffer s).withQueues (s.toTxQueues.clear (x, ac)) := by
  unfold stopQueue
  have hr : (s.withQueues (s.toTxQueues.setPending (x, ac) [])).Ready x := h
  rw [show ({ s with toTxQueues := s.toTxQueues.setPending (x, ac) [] } : ApXmit)
    = s.withQueues (s.toTxQueues.setPending (x, ac) []) from rfl, dequeueLoop_ready hr hp,
    foldl_buffer_withQueues]
  unfold withQueues TxQueues.setPending TxQueues.unlink TxQueues.clear TxQueues.take
  dsimp only
  rw [Function.update_self, Function.update_idem]

/-- the frames that wait for `x`, in the order in which `stop_sta_xmit` finds them -/
def waiting (q : TxQueues) (x : Nat) (l : List Ac) : List PsFrame :=
  l.flatMap fun ac => (q.servq (x, ac)).staPending

theorem mem_waiting {q : TxQueues} {l : List Ac} {f : PsFrame} :
    f ∈ waiting q x l ↔ ∃ ac ∈ l, f ∈ (q.servq (x, ac)).staPending := List.mem_flatMap

theorem waiting_clear (q : TxQueues) {a : Ac} {l : List Ac} (ha : a ∉ l) :
    waiting (q.clear (x, a)) x l = waiting q x l := by
  apply List.flatMap_congr
  intro b hb
  rw [q.clear_servq]
  rintro e
  cases e
  exact ha hb

def clearAll (x : Nat) (l : List Ac) (q : TxQueues) : TxQueues :=
  l.foldl (fun q ac => q.clear (x, ac)) q

theorem clearAll_servq (q : TxQueues) {y : Nat} (l : List Ac) (h : y ≠ x) :
    (clearAll x l q).servq (y, ac) = q.servq (y, ac) := by
  induction l generalizing q with
  | nil => rfl
  | cons a l ih =>
    show (clearAll x l (q.clear (x, a))).servq (y, ac) = _
    rw [ih, TxQueues.clear_servq]
    intro e
    exact h (congrArg Prod.fst e)

theorem foldl_stopQueue {l : List Ac} (hnd : l.Nodup) (h : s.Ready x)
    (hp : ∀ ac, ∀ f ∈ (s.servq (x, ac)).staPending, f.servq = (x, ac)) :
    l.foldl (stopQueue x) s
      = ((waiting s.toTxQueues x l).foldl buffer s).withQueues (clearAll x l s.toTxQueues) := by
  induction l generalizing s with
  | nil => rfl
  | cons a l ih =>
    obtain ⟨ha, hnd⟩ := List.nodup_cons.mp hnd
    rw [List.foldl_cons, stopQueue_ready h (hp a)]
    have hq : ∀ b, b ≠ a → (s.toTxQueues.clear (x, a)).servq (x, b) = s.servq (x, b) := by
      intro b hb
      exact s.toTxQueues.clear_servq fun e => hb (congrArg Prod.snd e)
    have hr : (((s.servq (x, a)).staPending.foldl buffer s).withQueues
        (s.toTxQueues.clear (x, a))).Ready x := h.foldl_buffer _
    rw [ih hnd hr, foldl_buffer_withQueues]
    · show (((waiting (s.toTxQueues.clear (x, a)) x l).foldl buffer _).withQueues _).withQueues _ = _
      rw [waiting_clear _ ha, ← List.foldl_append]
      rfl
    · intro b f hf
      by_cases hb : b = a
      · subst hb
        rw [show (((s.servq (x, b)).staPending.foldl buffer s).withQueues
          (s.toTxQueues.clear (x, b))).servq (x, b) = ⟨[], _⟩ from Function.update_self ..] at hf
        cases hf
      · rw [show (((s.servq (x, a)).staPending.foldl buffer s).withQueues
          (s.toTxQueues.clear (x, a))).servq (x, b) = s.servq (x, b) from hq b hb] at hf
        exact hp b f hf

/-- the station goes to sleep, before its queues are emptied -/
def doze (s : ApXmit) (x : Nat) : ApXmit :=
  { s.setSta x { s.sta x with sleep := true } with dz := insert x s.dz }

theorem peer_iff : s.peer x = true ↔ (s.sta x).asoc = true ∧ x ≠ bmcSta := by simp [peer]

/-- **`stop_sta_xmit`**: every frame for the station and every group frame is buffered. -/
theorem stopStaXmit_eq (hx : s.peer x = true) (hb : (s.sta bmcSta).asoc = true)
    (hp : ∀ k, ∀ f ∈ (s.servq k).staPending, f.servq = k) :
    s.stopStaXmit x
      = ((waiting s.toTxQueues x acs ++ waiting s.toTxQueues bmcSta acs).foldl buffer
        (s.doze x)).withQueues (clearAll bmcSta acs (clearAll x acs s.toTxQueues)) := by
  obtain ⟨ha, hne⟩ := peer_iff.mp hx
  have hnd : acs.Nodup := by decide
  have hr : (s.doze x).Ready x := by
    refine ⟨?_, ?_⟩
    · show (Function.update s.sta x _ x).asoc = true
      rw [Function.update_self]
      exact ha
    · rw [if_neg hne]
      refine ⟨?_, Finset.mem_insert_self x s.dz⟩
      show (Function.update s.sta x _ x).sleep = true
      rw [Function.update_self]
  have hrb : (s.doze x).Ready bmcSta := by
    refine ⟨?_, ?_⟩
    · show (Function.update s.sta x _ bmcSta).asoc = true
      rw [Function.update_of_ne hne.symm]
      exact hb
    · rw [if_pos rfl]
      exact ⟨x, Finset.mem_insert_self x s.dz⟩
  have hw : waiting (clearAll x acs s.toTxQueues) bmcSta acs = waiting s.toTxQueues bmcSta acs := by
    apply List.flatMap_congr
    intro ac _
    rw [clearAll_servq _ _ hne.symm]
  show acs.foldl (stopQueue bmcSta) (acs.foldl (stopQueue x) (s.doze x)) = _
  have hrb' : (((waiting s.toTxQueues x acs).foldl buffer (s.doze x)).withQueues
      (clearAll x acs s.toTxQueues)).Ready bmcSta := hrb.foldl_buffer _
  rw [foldl_stopQueue hnd hr fun ac => hp (x, ac)]
  show acs.foldl (stopQueue bmcSta) (((waiting s.toTxQueues x acs).foldl buffer (s.doze x)).withQueues
      (clearAll x acs s.toTxQueues)) = _
  rw [foldl_stopQueue hnd hrb']
  · rw [foldl_buffer_withQueues]
    show (((waiting (clearAll x acs s.toTxQueues) bmcSta acs).foldl buffer _).withQueues _).withQueues _
      = _
    rw [hw, ← List.foldl_append]
    rfl
  · intro ac f hf
    replace hf : f ∈ ((clearAll x acs s.toTxQueues).servq (bmcSta, ac)).staPending := hf
    rw [clearAll_servq _ _ hne.symm] at hf
    exact hp _ f hf

end ApXmit

/-! ## what a release keeps -/

/-- the frame without the attributes that a release writes -/
def PsFrame.core (f : PsFrame) : XmitFrame × Nat := (f.toXmitFrame, f.id)

theorem core_sta {f g : PsFrame} (h : f.core = g.core) : f.sta = g.sta :=
  congrArg (fun p : XmitFrame × Nat => p.1.sta) h

/-- only the counters of the station change, and the frame stays what it is -/
structure KeepsFrame (one : PsSta → PsFrame → PsSta × PsFrame) : Prop where
  sta : ∀ st f, ∃ n m, (one st f).1 = { st with sleepqLen := n, sleepqAcLen := m }
  core : ∀ st f, (one st f).2.core = f.core
  triggered : ∀ st f, (one st f).2.triggered = true

theorem releaseOne_keeps : KeepsFrame releaseOne where
  sta _ _ := ⟨_, _, rfl⟩
  core _ _ := rfl
  triggered _ _ := rfl

theorem wakeupOne_keeps : KeepsFrame wakeupOne where
  sta st f := by
    unfold wakeupOne
    dsimp only
    split
    · exact ⟨_, _, rfl⟩
    · exact ⟨_, _, rfl⟩
  core st f := by
    unfold wakeupOne
    dsimp only
    split <;> rfl
  triggered st f := by
    unfold wakeupOne
    dsimp only
    split <;> rfl

namespace KeepsFrame

variable {one : PsSta → PsFrame → PsSta × PsFrame}

theorem loop_sta (h : KeepsFrame one) (st : PsSta) (fs : List PsFrame) :
    ∃ n m, (releaseLoop one st fs).1 = { st with sleepqLen := n, sleepqAcLen := m } := by
  induction fs generalizing st with
  | nil => exact ⟨_, _, rfl⟩
  | cons f fs ih =>
    obtain ⟨n, m, h1⟩ := h.sta st f
    obtain ⟨n', m', h2⟩ := ih (one st f).1
    refine ⟨n', m', ?_⟩
    rw [releaseLoop]
    dsimp only
    rw [h2, h1]

theorem loop_core (h : KeepsFrame one) (st : PsSta) (fs : List PsFrame) :
    (releaseLoop one st fs).2.map PsFrame.core = fs.map PsFrame.core := by
  induction fs generalizing st with
  | nil => rfl
  | cons f fs ih =>
    show (one st f).2.core :: (releaseLoop one (one st f).1 fs).2.map PsFrame.core = _
    rw [ih, h.core]
    rfl

theorem loop_triggered (h : KeepsFrame one) (st : PsSta) (fs : List PsFrame) :
    ∀ f ∈ (releaseLoop one st fs).2, f.triggered = true := by
  induction fs generalizing st with
  | nil =>
    intro f hf
    cases hf
  | cons f fs ih =>
    intro g hg
    rcases List.mem_cons.mp hg with rfl | hg
    · exact h.triggered st f
    · exact ih _ g hg

theorem empty_sta (h : KeepsFrame one) (st : PsSta) :
    ∃ n m, (emptySleepQ one st).1 = { st with sleepQ := [], sleepqLen := n, sleepqAcLen := m } :=
  h.loop_sta { st with sleepQ := [] } st.sleepQ

theorem empty_core (h : KeepsFrame one) (st : PsSta) :
    (emptySleepQ one st).2.map PsFrame.core = st.sleepQ.map PsFrame.core :=
  h.loop_core _ _

theorem empty_triggered (h : KeepsFrame one) (st : PsSta) :
    ∀ f ∈ (emptySleepQ one st).2, f.triggered = true :=
  h.loop_triggered _ _

end KeepsFrame

/-- frames with the same cores are for the same stations -/
theorem sta_of_core {fs gs : List PsFrame} {x : Nat} (h : fs.map PsFrame.core = gs.map PsFrame.core)
    (hx : ∀ f ∈ gs, f.sta = x) : ∀ f ∈ fs, f.sta = x := by
  intro f hf
  have hm : f.core ∈ gs.map PsFrame.core := by
    rw [← h]
    exact List.mem_map_of_mem hf
  obtain ⟨g, hg, he⟩ := List.mem_map.mp hm
  rw [← core_sta he]
  exact hx g hg

theorem ids_of_core {fs gs : List PsFrame} (h : fs.map PsFrame.core = gs.map PsFrame.core) :
    fs.map PsFrame.id = gs.map PsFrame.id := by
  have := congrArg (List.map Prod.snd) h
  rwa [List.map_map, List.map_map] at this

/-- what `xmit_delivery_enabled_frames` leaves of the station, and what it releases -/
theorem deliverLoop_keeps (st : PsSta) (fs : List PsFrame) :
    (∃ q n m, (deliverLoop st fs).st = { st with sleepQ := q, sleepqLen := n, sleepqAcLen := m })
      ∧ (deliverLoop st fs).st.sleepQ
        = st.sleepQ ++ fs.filter (fun f => !wmmpsAc st 1 f.priority)
      ∧ (deliverLoop st fs).released.map PsFrame.core
        = (fs.filter (fun f => wmmpsAc st 1 f.priority)).map PsFrame.core
      ∧ ∀ f ∈ (deliverLoop st fs).released, f.triggered = true := by
  induction fs generalizing st with
  | nil => exact ⟨⟨_, _, _, rfl⟩, (List.append_nil _).symm, rfl, fun f hf => nomatch hf⟩
  | cons f fs ih =>
    rw [deliverLoop]
    cases hw : wmmpsAc st 1 f.priority with
    | false =>
      rw [Bool.not_false, if_pos rfl]
      obtain ⟨⟨q, n, m, h1⟩, h2, h3, h4⟩ := ih { st with sleepQ := st.sleepQ ++ [f] }
      refine ⟨⟨q, n, m, h1⟩, ?_, ?_, h4⟩
      · rw [h2, List.filter_cons_of_pos (by rw [hw]; rfl), List.append_assoc]
        rfl
      · rw [h3, List.filter_cons_of_neg (by rw [hw]; exact Bool.false_ne_true)]
        rfl
    | true =>
      rw [Bool.not_true, if_neg Bool.false_ne_true]
      dsimp only
      obtain ⟨⟨q, n, m, h1⟩, h2, h3, h4⟩ := ih { st with
        sleepqLen := dec32 st.sleepqLen
        sleepqAcLen := dec32 st.sleepqAcLen }
      refine ⟨⟨q, n, m, h1⟩, ?_, ?_, ?_⟩
      · rw [h2, List.filter_cons_of_neg (by rw [hw]; exact Bool.false_ne_true)]
        rfl
      · rw [List.map_cons, h3, List.filter_cons_of_pos (by exact hw)]
        rfl
      · intro g hg
        rcases List.mem_cons.mp hg with rfl | hg
        · rfl
        · exact h4 g hg

end Rtl8192eu
