import Mathlib.Logic.Function.Basic
import Mathlib.Data.List.Basic

/-!
# Data frames on their way to the bus

The transmit path of `core/rtw_xmit.c` and `hal/rtl8192e/usb/rtl8192eu_xmit.c`.  A frame enters
through `rtw_xmit_posthandle`, which gives it its packet number, and is sent at once or put into the
queue of its station and access category.  The tasklet takes frames from the queues, packs several
of one queue into a buffer and writes it.

Each lock region is one step, and so is each stretch between two of them.  Transmit entries of one
station come one after the other, those of different stations in any order.

* `Xmit.preXmitframe`   sends directly or enqueues, under the lock;
* `Xmit.rtwDequeueXframe`   the first frame in the order of the access categories;
* `aggregate`   the frames that follow in the same queue, as far as they fit;
* `Xmit.step`   the steps of both contexts.

The counters of packet and sequence numbers are kept unwrapped: a frame carries them modulo `2 ^ 48`
and `2 ^ 12`.  `entered` and `written` record the order at both ends.
-/

namespace Rtl8192eu

/-! ## frames and queues -/

/-- `hwxmits`, in the order of the array -/
inductive Ac where
  | vo | vi | be | bk
  deriving DecidableEq, Repr

/-- `rtw_get_sta_pending` -/
def acOf (priority : Nat) : Ac :=
  match priority with
  | 1 | 2 => .bk
  | 4 | 5 => .vi
  | 6 | 7 => .vo
  | _ => .be

structure XmitFrame where
  sta : Nat
  priority : Nat
  pn : Nat
  /-- `rtw_wlan_pkt_size` -/
  pktSize : Nat
  qsel : Nat
  deriving DecidableEq, Repr

/-- station and priority -/
def XmitFrame.key (f : XmitFrame) : Nat × Nat := (f.sta, f.priority)

/-- the `tx_servq` of the frame -/
def XmitFrame.servq (f : XmitFrame) : Nat × Ac := (f.sta, acOf f.priority)

/-- a frame with its header, and the sequence number in it -/
structure TxHdr where
  frame : XmitFrame
  seq : Nat
  deriving DecidableEq, Repr

structure XmitConf where
  /-- `MLME_IS_AP` -/
  isAp : Bool := false
  /-- `UsbBulkOutSize` -/
  bulkSize : Nat := 512
  usbTxAggDescNum : Nat := 3
  /-- the order of the access categories; `wmm_para_seq` with `wifi_spec` -/
  inx : List Ac := [.vo, .vi, .be, .bk]

/-- where a transmit entry of a station stands -/
inductive OsCtx where
  | idle
  /-- `update_attrib` is done -/
  | entered (f : XmitFrame)
  /-- on the fast path, with a buffer -/
  | direct (f : XmitFrame)
  /-- before `rtw_write_port` -/
  | packed (h : TxHdr)
  deriving DecidableEq, Repr

/-- where the tasklet stands in `rtl8192eu_xmitframe_complete` -/
inductive TaskCtx where
  | idle
  | hasBuf
  /-- taken from its queue, not yet copied -/
  | got (f : XmitFrame)
  /-- `pfirstframe` is in the buffer -/
  | first (h : TxHdr)
  /-- before `rtw_write_port` -/
  | packed (hs : List TxHdr)
  deriving DecidableEq, Repr

structure Xmit where
  /-- `sta_pending` of each `tx_servq`; its length is `qcnt` -/
  servq : Nat × Ac → List XmitFrame := fun _ => []
  /-- the stations of each `sta_queue` -/
  staQueue : Ac → List Nat := fun _ => []
  freeXmitbuf : Nat
  dot11txpn : Nat → Nat
  txseqTid : Nat × Nat → Nat
  os : Nat → OsCtx := fun _ => .idle
  task : TaskCtx := .idle
  entered : List XmitFrame := []
  written : List TxHdr := []

/-! ## `rtw_xmitframe_coalesce` -/

/-- a failure before or after the header has its number -/
inductive Coalesce where
  | ok
  | fail (numbered : Bool)
  deriving DecidableEq, Repr

/-- `rtw_make_wlanhdr` counts, then takes the count -/
def makeWlanhdr (seq : Nat × Nat → Nat) (f : XmitFrame) : Nat × Nat → Nat :=
  Function.update seq f.key (seq f.key + 1)

def coalesce (seq : Nat × Nat → Nat) (f : XmitFrame) : Coalesce → (Nat × Nat → Nat) × Option TxHdr
  | .ok => (makeWlanhdr seq f, some ⟨f, seq f.key + 1⟩)
  | .fail true => (makeWlanhdr seq f, none)
  | .fail false => (seq, none)

/-! ## aggregation -/

def txdescSize : Nat := 40
def packetOffsetSz : Nat := 8
def maxXmitbufSz : Nat := 20480
def maxTxAggPacketNumber : Nat := 0xff
def qsltHigh : Nat := 0x11

/-- `_RND8` -/
def rnd8 (n : Nat) : Nat := (n + 7) / 8 * 8

theorem rnd8_ge (n : Nat) : n ≤ rnd8 n := by
  unfold rnd8
  omega

/-- `pbuf`, `descCount`, `bulkPtr` and `agg_num` of the first frame -/
structure AggState where
  pbuf : Nat
  descCount : Nat
  bulkPtr : Nat
  aggNum : Nat
  deriving DecidableEq, Repr

def aggInit (conf : XmitConf) (f : XmitFrame) : AggState :=
  let pbuf := rnd8 (f.pktSize + txdescSize + packetOffsetSz)
  if pbuf < conf.bulkSize then ⟨pbuf, 1, conf.bulkSize, 1⟩
  else ⟨pbuf, 0, (pbuf / conf.bulkSize + 1) * conf.bulkSize, 1⟩

/-- `rtw_hal_busagg_qsel_check` -/
def busaggQselCheck (conf : XmitConf) (pre next : Nat) : Bool :=
  !(conf.isAp && (pre = qsltHigh || next = qsltHigh) && pre ≠ next)

/-- after a frame: no room for another one, or where the next one goes -/
def aggNext (conf : XmitConf) (st : AggState) (len : Nat) : Option AggState :=
  let pbuf := rnd8 (st.pbuf + len)
  if st.aggNum + 1 = maxTxAggPacketNumber then none
  else if pbuf < st.bulkPtr then
    if st.descCount + 1 = conf.usbTxAggDescNum then none
    else some ⟨pbuf, st.descCount + 1, st.bulkPtr, st.aggNum + 1⟩
  else some ⟨pbuf, 0, (pbuf / conf.bulkSize + 1) * conf.bulkSize, st.aggNum + 1⟩

structure Agg where
  taken : List TxHdr
  rest : List XmitFrame
  seq : Nat × Nat → Nat

/-- the loop over the queue of the first frame; `cs` are the outcomes of the copies -/
def aggregate (conf : XmitConf) (qsel : Nat) :
    AggState → (Nat × Nat → Nat) → List XmitFrame → List Coalesce → Agg
  | _, seq, [], _ => ⟨[], [], seq⟩
  | st, seq, f :: q, cs =>
    let len := f.pktSize + txdescSize
    if !busaggQselCheck conf qsel f.qsel then ⟨[], f :: q, seq⟩
    else if maxXmitbufSz < rnd8 (st.pbuf + len) then ⟨[], f :: q, seq⟩
    else
      match coalesce seq f (cs.headD .ok) with
      | (seq, none) => aggregate conf qsel st seq q cs.tail
      | (seq, some h) =>
        match aggNext conf st len with
        | none => ⟨[h], q, seq⟩
        | some st =>
          let r := aggregate conf qsel st seq q cs.tail
          ⟨h :: r.taken, r.rest, r.seq⟩

/-! ## the transmit entry -/

structure XmitReq where
  sta : Nat
  priority : Nat
  pktSize : Nat
  qsel : Nat
  deriving DecidableEq, Repr

/-- what else `pre_xmitframe` asks: `rtw_xmit_ac_blocked` and `DEV_STA_LG_NUM` -/
structure PreOracle where
  acBlocked : Bool := false
  staLgNum : Bool := false
  deriving DecidableEq, Repr

namespace Xmit

def setOs (s : Xmit) (sta : Nat) (c : OsCtx) : Xmit := { s with os := Function.update s.os sta c }

/-- `update_attrib` -/
def enter (s : Xmit) (req : XmitReq) : Xmit :=
  match s.os req.sta with
  | .idle =>
    let pn := s.dot11txpn req.sta + 1
    let f := ⟨req.sta, req.priority, pn, req.pktSize, req.qsel⟩
    { s.setOs req.sta (.entered f) with
      dot11txpn := Function.update s.dot11txpn req.sta pn
      entered := s.entered ++ [f] }
  | _ => s

/-- `rtw_xmit_classifier` -/
def rtwXmitframeEnqueue (s : Xmit) (f : XmitFrame) : Xmit :=
  let ac := acOf f.priority
  { s with
    servq := Function.update s.servq f.servq (s.servq f.servq ++ [f])
    staQueue := if f.sta ∈ s.staQueue ac then s.staQueue
      else Function.update s.staQueue ac (s.staQueue ac ++ [f.sta]) }

/-- the frame is enqueued -/
def mustEnqueue (s : Xmit) (f : XmitFrame) (o : PreOracle) : Bool :=
  0 < (s.servq f.servq).length || o.acBlocked || o.staLgNum || s.freeXmitbuf = 0

def preXmitframe (s : Xmit) (sta : Nat) (o : PreOracle) : Xmit :=
  match s.os sta with
  | .entered f =>
    if s.mustEnqueue f o then (s.rtwXmitframeEnqueue f).setOs sta .idle
    else { s with freeXmitbuf := s.freeXmitbuf - 1 }.setOs sta (.direct f)
  | _ => s

/-- `xmitframe_direct`, the copy -/
def osCoalesce (s : Xmit) (sta : Nat) (c : Coalesce) : Xmit :=
  match s.os sta with
  | .direct f =>
    match coalesce s.txseqTid f c with
    | (seq, some h) => { s with txseqTid := seq }.setOs sta (.packed h)
    | (seq, none) => { s with txseqTid := seq, freeXmitbuf := s.freeXmitbuf + 1 }.setOs sta .idle
  | _ => s

/-- `rtw_dump_xframe` -/
def osWrite (s : Xmit) (sta : Nat) : Xmit :=
  match s.os sta with
  | .packed h => { s with written := s.written ++ [h] }.setOs sta .idle
  | _ => s

/-! ## the tasklet -/

def taskStart (s : Xmit) : Xmit :=
  match s.task with
  | .idle => if s.freeXmitbuf = 0 then s else { s with task := .hasBuf, freeXmitbuf := s.freeXmitbuf - 1 }
  | _ => s

/-- the first station with a frame, in the order of the access categories: its queue, the frame and
what remains -/
def rtwDequeueXframe (conf : XmitConf) (s : Xmit) : Option ((Nat × Ac) × XmitFrame × List XmitFrame) :=
  conf.inx.findSome? fun ac =>
    (s.staQueue ac).findSome? fun sta =>
      match s.servq (sta, ac) with
      | [] => none
      | f :: q => some ((sta, ac), f, q)

/-- a station without frames leaves `sta_queue` -/
def unlinkSta (staQueue : Ac → List Nat) (q : Nat × Ac) : Ac → List Nat :=
  Function.update staQueue q.2 ((staQueue q.2).filter (· ≠ q.1))

def taskDequeue (conf : XmitConf) (s : Xmit) : Xmit :=
  match s.task with
  | .hasBuf =>
    match s.rtwDequeueXframe conf with
    | none => { s with task := .idle, freeXmitbuf := s.freeXmitbuf + 1 }
    | some (k, f, q) =>
      { s with
        task := .got f
        servq := Function.update s.servq k q
        staQueue := if q = [] then unlinkSta s.staQueue k else s.staQueue }
  | _ => s

/-- outside the lock; a frame that cannot be copied is dropped, and the next one taken -/
def taskCoalesce (s : Xmit) (c : Coalesce) : Xmit :=
  match s.task with
  | .got f =>
    match coalesce s.txseqTid f c with
    | (seq, some h) => { s with txseqTid := seq, task := .first h }
    | (seq, none) => { s with txseqTid := seq, task := .hasBuf }
  | _ => s

/-- the station goes to the end of `sta_queue`, unless it is alone there -/
def rearrange (staQueue : Ac → List Nat) (k : Nat × Ac) (rest : List XmitFrame) : Ac → List Nat :=
  if rest = [] then unlinkSta staQueue k
  else if (staQueue k.2).length ≤ 1 then staQueue
  else Function.update staQueue k.2 ((staQueue k.2).filter (· ≠ k.1) ++ [k.1])

def taskAgg (conf : XmitConf) (s : Xmit) (cs : List Coalesce) : Xmit :=
  match s.task with
  | .first h =>
    let k := h.frame.servq
    let r := aggregate conf h.frame.qsel (aggInit conf h.frame) s.txseqTid (s.servq k) cs
    { s with
      task := .packed (h :: r.taken)
      servq := Function.update s.servq k r.rest
      txseqTid := r.seq
      staQueue := rearrange s.staQueue k r.rest }
  | _ => s

def taskWrite (s : Xmit) : Xmit :=
  match s.task with
  | .packed hs => { s with task := .idle, written := s.written ++ hs }
  | _ => s

end Xmit

/-! ## runs -/

inductive XmitEvent where
  | enter (req : XmitReq)
  | pre (sta : Nat) (o : PreOracle)
  | osCoalesce (sta : Nat) (c : Coalesce)
  | osWrite (sta : Nat)
  | taskStart
  | taskDequeue
  | taskCoalesce (c : Coalesce)
  | taskAgg (cs : List Coalesce)
  | taskWrite
  /-- the bus is done with a buffer -/
  | bufDone

def Xmit.step (conf : XmitConf) (s : Xmit) : XmitEvent → Xmit
  | .enter req => s.enter req
  | .pre sta o => s.preXmitframe sta o
  | .osCoalesce sta c => s.osCoalesce sta c
  | .osWrite sta => s.osWrite sta
  | .taskStart => s.taskStart
  | .taskDequeue => s.taskDequeue conf
  | .taskCoalesce c => s.taskCoalesce c
  | .taskAgg cs => s.taskAgg conf cs
  | .taskWrite => s.taskWrite
  | .bufDone => { s with freeXmitbuf := s.freeXmitbuf + 1 }

end Rtl8192eu
