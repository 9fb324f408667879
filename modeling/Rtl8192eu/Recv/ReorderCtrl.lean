import Rtl8192eu.Lib.Run
import Rtl8192eu.Recv.Frame

/-!
# A-MPDU reordering of one TID

`struct recv_reorder_ctrl` and the functions of `core/rtw_recv.c` that work on it.

* `checkIndicateSeq`   moves the window start, rejects a frame before the window;
* `enqueueReorderRecvframe`   insertion into the pending list, rejects a duplicate;
* `recvIndicatepktsInOrder`   hands frames to `recv_process_mpdu` from the head of the list;
* `recvIndicatepktReorder`   the three of them, for one received frame;
* `rtwReorderingCtrlTimeoutHandler`   opens the first gap.

Every function returns the frames it passed to `recv_process_mpdu`, in order.  The debug
counters of `recv_priv` are left out.
-/

namespace Rtl8192eu

/-- `SN_LESS(a, b)`: `((a-b) & 0x800) != 0` on `int` -/
def snLess (a b : Nat) : Bool :=
  (BitVec.ofNat 32 a - BitVec.ofNat 32 b) &&& 0x800#32 != 0#32

/-- the value of `indicate_seq` before the first frame -/
def seqInit : Nat := 0xFFFF

structure RecvReorderCtrl where
  enable : Bool
  indicateSeq : Nat
  wsizeB : Nat
  pending : List RecvFrame
  bReorderWaiting : Bool
  /-- the bit `RTW_RECV_ACK_OR_TIMEOUT` of `rec_abba_rsp_ack` -/
  recAbbaRspAck : Bool
  /-- `reordering_ctrl_timer` is armed -/
  timer : Bool
  deriving DecidableEq, Repr

/-- as `rtw_alloc_stainfo` leaves it, with window size `w`; `enable` is set by `add_ba_rsp_hdl` -/
def RecvReorderCtrl.init (w : Nat) (enable : Bool) : RecvReorderCtrl where
  enable := enable
  indicateSeq := seqInit
  wsizeB := w
  pending := []
  bReorderWaiting := false
  recAbbaRspAck := false
  timer := false

/-! ## the window -/

/-- `indicate_seq` when a frame lands past the window end: `seq_num + 1 - wsize`, across `0xFFF` -/
def windowShift (wsize seq : Nat) : Nat :=
  if wsize - 1 ≤ seq then seq + 1 - wsize else 0xFFF - (wsize - (seq + 1)) + 1

/-- `check_indicate_seq`: `none` for `_FALSE`, else the new `indicate_seq` -/
def checkIndicateSeq (c : RecvReorderCtrl) (seq : Nat) : Option RecvReorderCtrl :=
  let ind := if c.indicateSeq = seqInit then seq else c.indicateSeq
  -- (indicate_seq + wsize - 1) & 0xFFF, an `int` that may be -1
  let wend := (ind + c.wsizeB + 0xFFF) &&& 0xFFF
  if snLess seq ind then none
  else if seq = ind then some { c with indicateSeq := (ind + 1) &&& 0xFFF }
  else if snLess wend seq then some { c with indicateSeq := windowShift c.wsizeB seq }
  else some { c with indicateSeq := ind }

/-! ## the pending list -/

/-- the walk of `enqueue_reorder_recvframe`: `none` when a frame with this number is found -/
def reorderInsert (f : RecvFrame) : List RecvFrame → Option (List RecvFrame)
  | [] => some [f]
  | g :: l =>
    if snLess g.attrib.seqNum f.attrib.seqNum then (reorderInsert f l).map (g :: ·)
    else if g.attrib.seqNum = f.attrib.seqNum then none
    else some (f :: g :: l)

def enqueueReorderRecvframe (c : RecvReorderCtrl) (f : RecvFrame) : Option RecvReorderCtrl :=
  (reorderInsert f c.pending).map fun l => { c with pending := l }

/-- the `while` loop of `recv_indicatepkts_in_order`: the new `indicate_seq`, the frames handed
up and the frames left -/
def indicateLoop : Nat → List RecvFrame → Nat × List RecvFrame × List RecvFrame
  | ind, [] => (ind, [], [])
  | ind, f :: l =>
    if snLess ind f.attrib.seqNum then (ind, [], f :: l)
    else
      let r := indicateLoop (if ind = f.attrib.seqNum then (ind + 1) &&& 0xFFF else ind) l
      (r.1, f :: r.2.1, r.2.2)

/-- the result is the new control block, the frames handed up and `bPktInBuf` -/
def recvIndicatepktsInOrder (c : RecvReorderCtrl) (bforced : Bool) :
    RecvReorderCtrl × List RecvFrame × Bool :=
  match bforced, c.pending with
  | true, [] => (c, [], true)
  | _, l =>
    let ind := if bforced then (l.head?.map fun f => f.attrib.seqNum.val).getD c.indicateSeq
      else c.indicateSeq
    let r := indicateLoop ind l
    ({ c with indicateSeq := r.1, pending := r.2.2 }, r.2.1, !r.2.2.isEmpty)

/-! ## the two entries -/

inductive RxRet where
  | success | fail | handled
  deriving DecidableEq, Repr

def recvIndicatepktReorder (c : RecvReorderCtrl) (f : RecvFrame) :
    RxRet × RecvReorderCtrl × List RecvFrame :=
  if !f.attrib.qos || !c.enable then (.success, c, [])
  else
    let c := if c.recAbbaRspAck then { c with recAbbaRspAck := false, indicateSeq := seqInit } else c
    match checkIndicateSeq c f.attrib.seqNum with
    | none => (.fail, c, [])
    | some c₁ =>
      match enqueueReorderRecvframe c₁ f with
      | none => (.fail, c₁, [])
      | some c₂ =>
        let (c₃, up, inBuf) := recvIndicatepktsInOrder c₂ false
        if inBuf then
          (.handled, if c₃.bReorderWaiting then c₃ else { c₃ with bReorderWaiting := true, timer := true }, up)
        else (.handled, { c₃ with bReorderWaiting := false, timer := false }, up)

def rtwReorderingCtrlTimeoutHandler (c : RecvReorderCtrl) (cannotRun : Bool) :
    RecvReorderCtrl × List RecvFrame :=
  if cannotRun then (c, [])
  else
    let (c', up, inBuf) := recvIndicatepktsInOrder { c with bReorderWaiting := false } true
    ({ c' with timer := inBuf || c'.timer }, up)

/-! ## what the two entries do to the list and the window start -/

/-- the parts of the control block that neither entry changes -/
def RecvReorderCtrl.Same (c c' : RecvReorderCtrl) : Prop :=
  c'.enable = c.enable ∧ c'.wsizeB = c.wsizeB ∧ c'.recAbbaRspAck = c.recAbbaRspAck

theorem recvIndicatepktsInOrder_false (c : RecvReorderCtrl) :
    recvIndicatepktsInOrder c false =
      ({ c with indicateSeq := (indicateLoop c.indicateSeq c.pending).1,
                pending := (indicateLoop c.indicateSeq c.pending).2.2 },
        (indicateLoop c.indicateSeq c.pending).2.1,
        !(indicateLoop c.indicateSeq c.pending).2.2.isEmpty) := by
  unfold recvIndicatepktsInOrder
  cases c.pending <;> rfl

/-- a frame that is accepted: the list with the frame in it is handed up as far as it goes -/
theorem recvIndicatepktReorder_handled {c c₁ : RecvReorderCtrl} {f : RecvFrame}
    {l : List RecvFrame} (hq : f.attrib.qos = true) (he : c.enable = true)
    (ha : c.recAbbaRspAck = false) (h₁ : checkIndicateSeq c f.attrib.seqNum = some c₁)
    (hs : c.Same c₁) (hl : reorderInsert f c₁.pending = some l) :
    ∃ c', recvIndicatepktReorder c f = (.handled, c', (indicateLoop c₁.indicateSeq l).2.1)
      ∧ c.Same c' ∧ c'.indicateSeq = (indicateLoop c₁.indicateSeq l).1
      ∧ c'.pending = (indicateLoop c₁.indicateSeq l).2.2 := by
  unfold recvIndicatepktReorder enqueueReorderRecvframe
  simp only [hq, he, ha, h₁, hl, Bool.not_true, Bool.or_self, Bool.false_eq_true, ↓reduceIte,
    Option.map_some, recvIndicatepktsInOrder_false]
  cases hb : (indicateLoop c₁.indicateSeq l).2.2.isEmpty
  · cases hw : c₁.bReorderWaiting
    · exact ⟨_, rfl, hs, rfl, rfl⟩
    · exact ⟨_, rfl, hs, rfl, rfl⟩
  · exact ⟨_, rfl, hs, rfl, rfl⟩

theorem recvIndicatepktReorder_fail {c : RecvReorderCtrl} {f : RecvFrame}
    (hq : f.attrib.qos = true) (he : c.enable = true) (ha : c.recAbbaRspAck = false)
    (h : checkIndicateSeq c f.attrib.seqNum = none ∨
      checkIndicateSeq c f.attrib.seqNum = some c ∧ reorderInsert f c.pending = none) :
    recvIndicatepktReorder c f = (.fail, c, []) := by
  unfold recvIndicatepktReorder enqueueReorderRecvframe
  rcases h with h | ⟨h, hl⟩
  · simp [hq, he, ha, h]
  · simp [hq, he, ha, h, hl]

theorem timeout_nil {c : RecvReorderCtrl} (hp : c.pending = []) :
    ∃ c', rtwReorderingCtrlTimeoutHandler c false = (c', []) ∧ c.Same c'
      ∧ c'.indicateSeq = c.indicateSeq ∧ c'.pending = [] := by
  unfold rtwReorderingCtrlTimeoutHandler recvIndicatepktsInOrder
  simp only [hp]
  exact ⟨_, rfl, ⟨rfl, rfl, rfl⟩, rfl, rfl⟩

theorem timeout_cons {c : RecvReorderCtrl} {f : RecvFrame} {l : List RecvFrame}
    (hp : c.pending = f :: l) :
    ∃ c', rtwReorderingCtrlTimeoutHandler c false
        = (c', (indicateLoop f.attrib.seqNum (f :: l)).2.1) ∧ c.Same c'
      ∧ c'.indicateSeq = (indicateLoop f.attrib.seqNum (f :: l)).1
      ∧ c'.pending = (indicateLoop f.attrib.seqNum (f :: l)).2.2 := by
  unfold rtwReorderingCtrlTimeoutHandler recvIndicatepktsInOrder
  simp only [hp, Bool.false_eq_true, ↓reduceIte, List.head?_cons, Option.map_some, Option.getD_some]
  exact ⟨_, rfl, ⟨rfl, rfl, rfl⟩, rfl, rfl⟩

/-! ## the critical section -/

/-- after an ADDBA response the window start is forgotten -/
def RecvReorderCtrl.reset (c : RecvReorderCtrl) : RecvReorderCtrl :=
  if c.recAbbaRspAck then { c with recAbbaRspAck := false, indicateSeq := seqInit } else c

/-- what `recv_indicatepkt_reorder` does with the lock held; `true` at the end: the timer is
cancelled once the lock is free -/
def reorderLocked (c : RecvReorderCtrl) (f : RecvFrame) :
    RxRet × RecvReorderCtrl × List RecvFrame × Bool :=
  match checkIndicateSeq c.reset f.attrib.seqNum with
  | none => (.fail, c.reset, [], false)
  | some c₁ =>
    match enqueueReorderRecvframe c₁ f with
    | none => (.fail, c₁, [], false)
    | some c₂ =>
      let (c₃, up, inBuf) := recvIndicatepktsInOrder c₂ false
      if inBuf then
        (.handled, if c₃.bReorderWaiting then c₃ else { c₃ with bReorderWaiting := true, timer := true },
          up, false)
      else (.handled, { c₃ with bReorderWaiting := false }, up, true)

def RecvReorderCtrl.cancelTimer (c : RecvReorderCtrl) : RecvReorderCtrl := { c with timer := false }

/-- run without interruption, the critical section and the cancel are `recv_indicatepkt_reorder` -/
theorem recvIndicatepktReorder_on {c : RecvReorderCtrl} {f : RecvFrame} (hq : f.attrib.qos = true)
    (he : c.enable = true) :
    recvIndicatepktReorder c f = ((reorderLocked c f).1,
      if (reorderLocked c f).2.2.2 then (reorderLocked c f).2.1.cancelTimer
        else (reorderLocked c f).2.1,
      (reorderLocked c f).2.2.1) := by
  have hon : (!f.attrib.qos || !c.enable) = false := by rw [hq, he]; rfl
  unfold recvIndicatepktReorder reorderLocked
  rw [hon, if_neg Bool.false_ne_true]
  change (match checkIndicateSeq c.reset f.attrib.seqNum with
    | none => (RxRet.fail, c.reset, [])
    | some c₁ => _) = _
  cases h₁ : checkIndicateSeq c.reset f.attrib.seqNum with
  | none => rfl
  | some c₁ =>
    cases h₂ : enqueueReorderRecvframe c₁ f with
    | none => simp only [h₂, Bool.false_eq_true, ↓reduceIte]
    | some c₂ =>
      cases h₃ : (recvIndicatepktsInOrder c₂ false).2.2 with
      | true => simp only [h₂, h₃, Bool.false_eq_true, ↓reduceIte]
      | false =>
        simp only [h₂, h₃, Bool.false_eq_true, ↓reduceIte]
        rfl

/-! ## no frame is lost -/

theorem reorderInsert_perm {f : RecvFrame} {l l' : List RecvFrame}
    (h : reorderInsert f l = some l') : l'.Perm (f :: l) := by
  induction l generalizing l' with
  | nil =>
    cases h
    exact List.Perm.refl _
  | cons g l ih =>
    unfold reorderInsert at h
    split at h
    · obtain ⟨m, hm, rfl⟩ := Option.map_eq_some_iff.mp h
      exact ((ih hm).cons g).trans (List.Perm.swap f g l)
    split at h
    · cases h
    · cases h
      exact List.Perm.refl _

theorem indicateLoop_append (ind : Nat) (l : List RecvFrame) :
    (indicateLoop ind l).2.1 ++ (indicateLoop ind l).2.2 = l := by
  induction l generalizing ind with
  | nil => rfl
  | cons f l ih =>
    unfold indicateLoop
    split
    · rfl
    · exact congrArg (f :: ·) (ih _)

theorem recvIndicatepktsInOrder_append (c : RecvReorderCtrl) (bforced : Bool) :
    (recvIndicatepktsInOrder c bforced).2.1 ++ (recvIndicatepktsInOrder c bforced).1.pending
      = c.pending := by
  unfold recvIndicatepktsInOrder
  split
  · exact List.nil_append c.pending
  · exact indicateLoop_append _ c.pending

theorem checkIndicateSeq_pending {c c' : RecvReorderCtrl} {seq : Nat}
    (h : checkIndicateSeq c seq = some c') : c'.pending = c.pending := by
  unfold checkIndicateSeq at h
  dsimp only at h
  generalize (if c.indicateSeq = seqInit then seq else c.indicateSeq) = ind at h
  split at h
  · cases h
  split at h
  · cases h
    rfl
  split at h
  · cases h
    rfl
  · cases h
    rfl

/-- **The reorder control keeps every frame**: one that is accepted is queued or handed up, with
those that waited, and one that is not leaves the queue alone. -/
theorem recvIndicatepktReorder_perm (c : RecvReorderCtrl) (f : RecvFrame) :
    match recvIndicatepktReorder c f with
    | (.handled, c', up) => (up ++ c'.pending).Perm (f :: c.pending)
    | (_, c', _) => c'.pending = c.pending := by
  unfold recvIndicatepktReorder
  by_cases hoff : (!f.attrib.qos || !c.enable) = true
  · rw [if_pos hoff]
  rw [if_neg hoff]
  -- a reset of the window start does not touch the queue
  have hack : (if c.recAbbaRspAck then { c with recAbbaRspAck := false, indicateSeq := seqInit }
      else c).pending = c.pending := by
    split <;> rfl
  dsimp only
  cases hseq : checkIndicateSeq
      (if c.recAbbaRspAck then { c with recAbbaRspAck := false, indicateSeq := seqInit } else c)
      f.attrib.seqNum with
  | none => exact hack
  | some c₁ =>
    have hc₁ : c₁.pending = c.pending := (checkIndicateSeq_pending hseq).trans hack
    cases hins : reorderInsert f c₁.pending with
    | none =>
      simp only [enqueueReorderRecvframe, hins, Option.map_none]
      exact hc₁
    | some l =>
      have hl := reorderInsert_perm hins
      have happ := recvIndicatepktsInOrder_append { c₁ with pending := l } false
      simp only [enqueueReorderRecvframe, hins, Option.map_some]
      rcases hr : recvIndicatepktsInOrder { c₁ with pending := l } false with ⟨c₃, up, inBuf⟩
      rw [hr] at happ
      have hup : (up ++ c₃.pending).Perm (f :: c.pending) := by
        rw [show up ++ c₃.pending = l from happ, ← hc₁]
        exact hl
      cases inBuf with
      | false => exact hup
      | true =>
        cases hw : c₃.bReorderWaiting with
        | false => simpa [hw] using hup
        | true => simpa [hw] using hup

end Rtl8192eu
