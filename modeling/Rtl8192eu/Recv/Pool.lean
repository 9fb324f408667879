import Rtl8192eu.Lib.Ledger
import Rtl8192eu.Recv.Mgnt

/-!
# The pool of receive frames

`recv_func` of `core/rtw_recv.c` with the functions that own a frame on its way, and the queues
a frame can be in: the free queue, the defrag queue of a station, the pending queue of a reorder
control, and `uc_swdec_pending_queue`.

* `rtwFreeRecvframe`   unlinks a frame from the list it is in and puts it into the free queue;
* `recvFuncPrehandle`   the frame types up to `recv_func_prehandle`;
* `recvFuncPosthandle`   decryption, defragmentation, port control, reordering and delivery;
* `recvFunc`   one received frame, with the frames that waited for a key;
* `Place`, `RecvPriv.ids` where the frames are, in the terms of `Ledger`.

`recv_process_mpdu` hands the payload up or drops it, and frees the frame either way.  What
`mgt_dispatcher` does with a management frame is left out.
-/

namespace Rtl8192eu

open Run Ledger

/-! ## the state -/

/-- `struct recv_priv`; a frame in the free queue is known by its `id` only -/
structure RecvPriv where
  adapter : Adapter
  conf : RxConf
  nr : Nat
  freeQueue : List Nat
  freeCnt : Nat
  ucSwdec : List RecvFrame := []
  /-- some frame was freed while it was in the free queue -/
  freedTwice : Bool := false

def RecvPriv.init (n : Nat) (a : Adapter) (conf : RxConf) : RecvPriv where
  adapter := a
  conf := conf
  nr := n
  freeQueue := List.range n
  freeCnt := n

/-! ## the lists -/

def unlink (x : Nat) (q : List RecvFrame) : List RecvFrame := q.filter (·.id ≠ x)

def StaInfo.unlink (sta : StaInfo) (x : Nat) : StaInfo :=
  { sta with
    defragQ := Rtl8192eu.unlink x sta.defragQ
    recvreorderCtrl := fun t =>
      { sta.recvreorderCtrl t with pending := Rtl8192eu.unlink x (sta.recvreorderCtrl t).pending } }

namespace RecvPriv

/-- `rtw_list_delete`: the frame leaves the list it is in -/
def listDelete (s : RecvPriv) (x : Nat) : RecvPriv :=
  { s with
    adapter := { s.adapter with stations := fun key => (s.adapter.stations key).map (·.unlink x) }
    freeQueue := s.freeQueue.filter (· ≠ x)
    ucSwdec := unlink x s.ucSwdec }

def rtwFreeRecvframe (s : RecvPriv) (x : Nat) : RecvPriv :=
  { s.listDelete x with
    freeQueue := s.freeQueue.filter (· ≠ x) ++ [x]
    freeCnt := s.freeCnt + 1
    freedTwice := s.freedTwice || s.freeQueue.contains x }

def freeAll (s : RecvPriv) (l : List RecvFrame) : RecvPriv :=
  l.foldl (fun s f => s.rtwFreeRecvframe f.id) s

end RecvPriv

/-! ## `recv_func` -/

namespace RecvPriv

/-- `recvframe_chk_defrag` with the frames it frees -/
def chkDefrag (s : RecvPriv) (o : RxOracle) (f : RecvFrame) : RecvPriv × Option RecvFrame :=
  let ret := recvframeChkDefrag o.micOk s.adapter f
  ({ s with adapter := ret.adapter }.freeAll ret.freed, ret.frame)

def validateRecvMgntFrame (s : RecvPriv) (o : RxOracle) (f : RecvFrame) : RecvPriv :=
  match validateMgmtProtect o s.conf s.adapter f with
  | .drop => s
  | .freed => s.rtwFreeRecvframe f.id
  | .pass f => (s.chkDefrag o f).1

/-- the attributes `validate_recv_frame` takes from any header -/
def parseHdr (f : RecvFrame) : RecvFrame :=
  { parseFc f with attrib := { (parseFc f).attrib with qos := f.attrib.qos } }

def validateRecvFrame (s : RecvPriv) (o : RxOracle) (f : RecvFrame) : RxRet × RecvPriv × RecvFrame :=
  if f.byte 0 &&& 3 ≠ 0 then (.fail, s, f)
  else
    match getFrameType f with
    | .mgt => (.fail, s.validateRecvMgntFrame o (parseHdr f), f)
    | .ctrl => (.fail, { s with adapter := validateRecvCtrlFrame s.adapter f }, f)
    | .data =>
      let ret := validateRecvDataFrame s.adapter (parseFc f)
      (ret.1, { s with adapter := ret.2.1 }, ret.2.2)
    | .reserved => (.fail, s, f)

def recvFuncPrehandle (s : RecvPriv) (o : RxOracle) (f : RecvFrame) : RecvPriv × Option RecvFrame :=
  match s.validateRecvFrame o f with
  | (.success, s, f) => (s, some f)
  | (_, s, f) => (s.rtwFreeRecvframe f.id, none)

/-- `preorder_ctrl` of a frame: set for unicast QoS data -/
def reorderCtrl (s : RecvPriv) (f : RecvFrame) : Option StaInfo :=
  if f.attrib.qos && !isMcast f.attrib.ra then s.adapter.rtwGetStainfo f.attrib.ta else none

def setReorderCtrl (s : RecvPriv) (f : RecvFrame) (sta : StaInfo) (c : RecvReorderCtrl) : RecvPriv :=
  { s with adapter := s.adapter.setSta f.attrib.ta (sta.setCtrl f.attrib.priority c) }

/-- `recv_func_posthandle` up to the reordering -/
def recvFuncPort (s : RecvPriv) (o : RxOracle) (f : RecvFrame) : RecvPriv × Option RecvFrame :=
  match decryptor o.dec s.adapter f with
  | none => (s.rtwFreeRecvframe f.id, none)
  | some f =>
    match s.chkDefrag o f with
    | (s, none) => (s, none)
    | (s, some r) =>
      match portctrl s.adapter r with
      | none => (s.rtwFreeRecvframe r.id, none)
      | some r => (s, some r)

/-- the rest of `recv_func_posthandle`; a frame that is rejected here is freed as `orig`, the frame
that came in -/
def recvFuncIndicate (s : RecvPriv) (orig r : RecvFrame) : RecvPriv :=
  match s.reorderCtrl r with
  | none => s.rtwFreeRecvframe r.id
  | some sta =>
    match recvIndicatepktReorder (sta.recvreorderCtrl r.attrib.priority) r with
    | (.fail, c, _) => (s.setReorderCtrl r sta c).rtwFreeRecvframe orig.id
    | (.handled, c, up) => (s.setReorderCtrl r sta c).freeAll up
    | (.success, c, _) =>
      (s.setReorderCtrl r sta
        { c with indicateSeq := (orig.attrib.seqNum.val + 1) % 4096 }).rtwFreeRecvframe r.id

def recvFuncPosthandle (s : RecvPriv) (o : RxOracle) (f : RecvFrame) : RecvPriv :=
  match s.recvFuncPort o f with
  | (s, none) => s
  | (s, some r) => s.recvFuncIndicate f r

/-- the loop over `uc_swdec_pending_queue` once the key is there -/
def dequeueSwdec (o : RxOracle) : Nat → RecvPriv → RecvPriv
  | 0, s => s
  | n + 1, s =>
    match s.ucSwdec with
    | [] => s
    | f :: l => dequeueSwdec o n ({ s with ucSwdec := l }.recvFuncPosthandle o f)

def swdecPending (s : RecvPriv) (o : RxOracle) : RecvPriv :=
  if s.adapter.mode = .station && s.adapter.sec.busetkipkey then
    dequeueSwdec o s.ucSwdec.length s
  else s

def waitsForKey (s : RecvPriv) (f : RecvFrame) : Bool :=
  s.adapter.mode = .station && !isMcast f.attrib.ra && f.attrib.encrypt ≠ .noPrivacy
    && (!f.attrib.bdecrypted || s.conf.swDecrypt) && s.conf.wpapsk && !s.adapter.sec.busetkipkey

def enqueueSwdec (s : RecvPriv) (f : RecvFrame) : RecvPriv :=
  { s.listDelete f.id with ucSwdec := unlink f.id s.ucSwdec ++ [f] }

/-- a frame that passed `recv_func_prehandle`; when the pool is short of frames the first that
waits goes on without the key -/
def recvFuncQueue (s : RecvPriv) (o : RxOracle) (f : RecvFrame) : RecvPriv :=
  if s.waitsForKey f then
    let s := s.enqueueSwdec f
    if s.freeCnt < s.nr / 4 then
      match s.ucSwdec with
      | [] => s
      | g :: l => { s with ucSwdec := l }.recvFuncPosthandle o g
    else s
  else s.recvFuncPosthandle o f

def recvFunc (s : RecvPriv) (o : RxOracle) (f : RecvFrame) : RecvPriv :=
  if s.conf.monitor then s.rtwFreeRecvframe f.id
  else
    match (s.swdecPending o).recvFuncPrehandle o f with
    | (s, none) => s
    | (s, some f) => s.recvFuncQueue o f

end RecvPriv

/-! ## runs -/

inductive PoolEvent where
  /-- a frame is allocated, filled and passed to `recv_func` -/
  | recv (o : RxOracle) (f : RecvFrame)
  /-- `rtw_reordering_ctrl_timeout_handler` of a station and a TID -/
  | timeout (addr : Mac) (tid : Fin 16) (cannotRun : Bool)
  | config (sec : SecurityPriv) (conf : RxConf)

namespace RecvPriv

def reorderTimeout (s : RecvPriv) (addr : Mac) (tid : Fin 16) (cannotRun : Bool) : RecvPriv :=
  match s.adapter.rtwGetStainfo addr with
  | none => s
  | some sta =>
    let r := rtwReorderingCtrlTimeoutHandler (sta.recvreorderCtrl tid) cannotRun
    { s with adapter := s.adapter.setSta addr (sta.setCtrl tid r.1) }.freeAll r.2

def step (s : RecvPriv) : PoolEvent → RecvPriv
  | .recv o f =>
    match s.freeQueue with
    | [] => s
    | x :: l => { s with freeQueue := l, freeCnt := s.freeCnt - 1 }.recvFunc o { f with id := x }
  | .timeout addr tid cannotRun => s.reorderTimeout addr tid cannotRun
  | .config sec conf => { s with adapter := { s.adapter with sec := sec }, conf := conf }

end RecvPriv

/-! ## where the frames are -/

inductive Place where
  | free
  | swdec
  | defrag (key : Mac)
  | reorder (key : Mac) (tid : Fin 16)
  deriving DecidableEq

def RecvPriv.ids (s : RecvPriv) : Place → List Nat
  | .free => s.freeQueue
  | .swdec => s.ucSwdec.map RecvFrame.id
  | .defrag key => ((s.adapter.stations key).map fun sta => sta.defragQ.map RecvFrame.id).getD []
  | .reorder key tid =>
    ((s.adapter.stations key).map fun sta => (sta.recvreorderCtrl tid).pending.map RecvFrame.id).getD []

/-- every frame of the pool is in one place or in hand, the counter is right, and no frame was freed twice -/
structure RecvPriv.Held (s : RecvPriv) (n : Nat) (hand : List Nat) : Prop where
  accounted : Accounted (· < n) s.ids hand
  cnt : s.freeCnt = s.freeQueue.length
  once : s.freedTwice = false

namespace RecvPriv

variable {s : RecvPriv} {n x : Nat} {hand : List Nat}

/-! ## freeing a frame -/

theorem map_id_unlink (x : Nat) (q : List RecvFrame) :
    (unlink x q).map RecvFrame.id = (q.map RecvFrame.id).filter (· ≠ x) := by
  rw [unlink, List.filter_map]
  rfl

theorem ids_listDelete (s : RecvPriv) (x : Nat) (p : Place) :
    (s.listDelete x).ids p = (s.ids p).filter (· ≠ x) := by
  cases p with
  | free => rfl
  | swdec => exact map_id_unlink x s.ucSwdec
  | defrag key =>
    simp only [ids, listDelete, Option.map_map]
    cases s.adapter.stations key with
    | none => rfl
    | some sta => exact map_id_unlink x sta.defragQ
  | reorder key tid =>
    simp only [ids, listDelete, Option.map_map]
    cases s.adapter.stations key with
    | none => rfl
    | some sta => exact map_id_unlink x (sta.recvreorderCtrl tid).pending

theorem ids_rtwFreeRecvframe_of_ne (s : RecvPriv) (x : Nat) {p : Place} (hp : p ≠ .free) :
    (s.rtwFreeRecvframe x).ids p = (s.ids p).filter (· ≠ x) := by
  rw [← ids_listDelete]
  cases p with
  | free => exact absurd rfl hp
  | swdec => rfl
  | defrag key => rfl
  | reorder key tid => rfl

/-- a frame that is not in the free queue is freed, once it is out of its list -/
theorem Held.of_unlinked (h : s.Held n hand) (hfree : x ∉ s.freeQueue) {rest : List Nat}
    (hacc : Accounted (· < n) (fun p => (s.ids p).filter (· ≠ x)) (x :: rest)) :
    (s.rtwFreeRecvframe x).Held n rest where
  accounted := by
    refine hacc.exchange .free ?_ fun p hp => ids_rtwFreeRecvframe_of_ne s x hp
    show (rest ++ (s.freeQueue.filter (· ≠ x) ++ [x])).Perm (x :: rest ++ s.freeQueue.filter (· ≠ x))
    rw [← List.append_assoc]
    exact List.perm_append_singleton x (rest ++ s.freeQueue.filter (· ≠ x))
  cnt := by
    have hself : s.freeQueue.filter (· ≠ x) = s.freeQueue := by
      refine List.filter_eq_self.mpr fun y hy => decide_eq_true ?_
      rintro rfl
      exact hfree hy
    show s.freeCnt + 1 = (s.freeQueue.filter (· ≠ x) ++ [x]).length
    rw [hself, List.length_append, h.cnt, List.length_singleton]
  once := by
    show (s.freedTwice || s.freeQueue.contains x) = false
    rw [h.once, Bool.false_or]
    simpa using hfree

/-- **A frame in hand is freed.** -/
theorem Held.free (h : s.Held n (x :: hand)) : (s.rtwFreeRecvframe x).Held n hand := by
  have hnot := h.accounted.not_mem_place List.mem_cons_self
  refine h.of_unlinked (hnot .free) (h.accounted.congr ?_)
  intro p
  refine List.filter_eq_self.mpr fun y hy => decide_eq_true ?_
  rintro rfl
  exact hnot p hy

/-- **A frame in a list other than the free queue is freed.** -/
theorem Held.free_linked (h : s.Held n hand) (hx : x < n) (hhand : x ∉ hand)
    (hfree : x ∉ s.freeQueue) : (s.rtwFreeRecvframe x).Held n hand :=
  h.of_unlinked hfree (h.accounted.remove hx hhand)

theorem Held.freeAll {l : List RecvFrame} (h : s.Held n (l.map RecvFrame.id ++ hand)) :
    (s.freeAll l).Held n hand := by
  induction l generalizing s with
  | nil => exact h
  | cons f l ih => exact ih h.free

theorem Held.perm {hand' : List Nat} (h : s.Held n hand) (hp : hand'.Perm hand) : s.Held n hand' :=
  ⟨h.accounted.perm hp, h.cnt, h.once⟩

theorem Held.exchange {s' : RecvPriv} {hand' : List Nat} (h : s.Held n hand) (p : Place)
    (hp : (hand' ++ s'.ids p).Perm (hand ++ s.ids p)) (hne : ∀ q, q ≠ p → s'.ids q = s.ids q)
    (hq : s'.freeQueue = s.freeQueue) (hc : s'.freeCnt = s.freeCnt)
    (ht : s'.freedTwice = s.freedTwice) : s'.Held n hand' where
  accounted := h.accounted.exchange p hp hne
  cnt := by rw [hc, hq, h.cnt]
  once := ht.trans h.once

/-! ## writes to a station -/

section station

variable {addr : Mac} {sta : StaInfo}

theorem ids_defrag (hs : s.adapter.rtwGetStainfo addr = some sta) :
    s.ids (.defrag (staKey addr)) = sta.defragQ.map RecvFrame.id := by
  rw [ids, show s.adapter.stations (staKey addr) = some sta from hs]
  rfl

theorem ids_reorder (hs : s.adapter.rtwGetStainfo addr = some sta) (tid : Fin 16) :
    s.ids (.reorder (staKey addr) tid) = (sta.recvreorderCtrl tid).pending.map RecvFrame.id := by
  rw [ids, show s.adapter.stations (staKey addr) = some sta from hs]
  rfl

theorem stations_setSta (a : Adapter) (addr : Mac) (sta : StaInfo) (key : Mac) :
    (a.setSta addr sta).stations key = if key = staKey addr then some sta else a.stations key :=
  Function.update_apply a.stations (staKey addr) (some sta) key

theorem ids_setDefragQ_of_ne (hs : s.adapter.rtwGetStainfo addr = some sta) (q : List RecvFrame)
    {p : Place} (hp : p ≠ .defrag (staKey addr)) :
    { s with adapter := s.adapter.setSta addr { sta with defragQ := q } }.ids p = s.ids p := by
  have hs' : s.adapter.stations (staKey addr) = some sta := hs
  cases p with
  | free => rfl
  | swdec => rfl
  | defrag key =>
    have hkey : key ≠ staKey addr := fun e => hp (congrArg Place.defrag e)
    simp only [ids, stations_setSta, if_neg hkey]
  | reorder key tid =>
    simp only [ids, stations_setSta]
    by_cases hkey : key = staKey addr
    · rw [if_pos hkey, hkey, hs']
      rfl
    · rw [if_neg hkey]

theorem ids_setCtrl_of_ne (hs : s.adapter.rtwGetStainfo addr = some sta) (tid : Fin 16)
    (c : RecvReorderCtrl) {p : Place} (hp : p ≠ .reorder (staKey addr) tid) :
    { s with adapter := s.adapter.setSta addr (sta.setCtrl tid c) }.ids p = s.ids p := by
  have hs' : s.adapter.stations (staKey addr) = some sta := hs
  cases p with
  | free => rfl
  | swdec => rfl
  | defrag key =>
    simp only [ids, stations_setSta]
    by_cases hkey : key = staKey addr
    · rw [if_pos hkey, hkey, hs']
      rfl
    · rw [if_neg hkey]
  | reorder key t =>
    simp only [ids, stations_setSta]
    by_cases hkey : key = staKey addr
    · have ht : t ≠ tid := by
        rintro rfl
        exact hp (hkey ▸ rfl)
      rw [if_pos hkey, hkey, hs']
      simp only [Option.map_some, StaInfo.setCtrl, Function.update_of_ne ht]
    · rw [if_neg hkey]

theorem Held.setDefragQ {hand' : List Nat} (h : s.Held n hand)
    (hs : s.adapter.rtwGetStainfo addr = some sta) {q : List RecvFrame}
    (hp : (hand' ++ q.map RecvFrame.id).Perm (hand ++ sta.defragQ.map RecvFrame.id)) :
    { s with adapter := s.adapter.setSta addr { sta with defragQ := q } }.Held n hand' := by
  refine h.exchange (.defrag (staKey addr)) ?_ (fun p hp => ids_setDefragQ_of_ne hs q hp) rfl rfl rfl
  rw [ids_defrag hs, ids_defrag (Adapter.rtwGetStainfo_setSta ..)]
  exact hp

theorem Held.setCtrl {hand' : List Nat} (h : s.Held n hand)
    (hs : s.adapter.rtwGetStainfo addr = some sta) {tid : Fin 16} {c : RecvReorderCtrl}
    (hp : (hand' ++ c.pending.map RecvFrame.id).Perm
      (hand ++ (sta.recvreorderCtrl tid).pending.map RecvFrame.id)) :
    { s with adapter := s.adapter.setSta addr (sta.setCtrl tid c) }.Held n hand' := by
  refine h.exchange (.reorder (staKey addr) tid) ?_ (fun p hp => ids_setCtrl_of_ne hs tid c hp)
    rfl rfl rfl
  have hc : (sta.setCtrl tid c).recvreorderCtrl tid = c := Function.update_self ..
  rw [ids_reorder hs, ids_reorder (Adapter.rtwGetStainfo_setSta ..), hc]
  exact hp

end station

end RecvPriv

end Rtl8192eu
