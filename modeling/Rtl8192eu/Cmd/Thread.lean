import Mathlib.Data.List.Count
import Mathlib.Logic.Function.Basic
import Rtl8192eu.Lib.Run

/-!
# The command thread

`rtw_enqueue_cmd` tests whether commands are taken, inserts the command under the lock of the queue
and raises the semaphore: three steps, and the command thread runs between them.  A caller that wants
the result waits on a `submit_ctx` of its stack, for two seconds at most.

* `Obj`            a command and its caller, with what was done to it so far;
* `CmdPriv.step`   one step of a caller or of the thread;
* `Life`           where a command is, and what was done to it when it is there;
* `CmdCond`        the steps in which a command is not lost;
* `Safe`           every accepted command completes once.
-/

namespace Rtl8192eu

open Run

namespace Cmd

/-! ## commands -/

/-- `res` of a command -/
inductive Res where
  | h2cSuccess | h2cParametersError | h2cDropped | other
  deriving DecidableEq, Repr

structure CmdObj where
  cmdcode : Nat
  cmdsz : Nat
  noIo : Bool
  /-- `RTW_CMDF_WAIT_ACK` -/
  waitAck : Bool

def maxCmdsz : Nat := 1536
def cmdDisconnect : Nat := 1
def cmdSetChanplan : Nat := 13

/-- the number of entries of `wlancmds`; each has a handler -/
def wlancmdsLen : Nat := 23

/-- `rtw_cmd_filter`; the result is `_SUCCESS` -/
def rtwCmdFilter (cmdthdRunning hwInitCompleted : Bool) (o : CmdObj) : Bool :=
  let bAllow := o.cmdcode == cmdSetChanplan || o.noIo
  !((!hwInitCompleted && !bAllow) || !cmdthdRunning)

/-- whether `wlancmds[cmdcode].callback`, or the thread where there is none, frees the command:
`rtw_disassoc_cmd_callback` returns early -/
def callbackFrees (o : CmdObj) (res : Res) : Bool :=
  !(o.cmdcode == cmdDisconnect && res != .h2cSuccess)

/-! ## callers -/

inductive Phase where
  | idle
  /-- `rtw_cmd_filter` said yes -/
  | passed
  | inserted
  /-- `rtw_enqueue_cmd` returned `_SUCCESS`, and the caller is in `rtw_sctx_wait` -/
  | waiting
  | woken
  /-- the caller returned, and its `submit_ctx` is gone -/
  | returned (success : Bool)
  deriving DecidableEq, Repr

namespace Phase

def inCall : Phase → Bool
  | passed | inserted | waiting | woken => true
  | _ => false

/-- `rtw_enqueue_cmd` returned `_SUCCESS` -/
def accepted : Phase → Bool
  | waiting | woken | returned true => true
  | _ => false

def entered : Phase → Bool
  | inserted | waiting | woken | returned true => true
  | _ => false

def gone : Phase → Bool
  | returned _ => true
  | _ => false

/-- in `rtw_sctx_wait`, or behind it -/
def waits : Phase → Bool
  | waiting | woken => true
  | _ => false

end Phase

/-- a `cmd_obj`, its caller, and what was done to it -/
structure Obj where
  phase : Phase := .idle
  /-- `sctx` is not `NULL` -/
  sctx : Bool
  /-- the status of the `submit_ctx` is `RTW_SCTX_SUBMITTED` -/
  submitted : Bool := true
  executed : Nat := 0
  dropped : Nat := 0
  freed : Nat := 0
  /-- it was used after it was freed, or its `submit_ctx` after the caller returned -/
  late : Bool := false
  deriving DecidableEq, Repr

namespace Obj

def access (o : Obj) : Obj := { o with late := o.late || o.freed != 0 }

/-- `rtw_free_cmd_obj` -/
def free (o : Obj) : Obj := { o.access with freed := o.freed + 1 }

/-- `rtw_sctx_done_err` under `sctx_mutex` -/
def sctxDone (o : Obj) : Obj :=
  let o := o.access
  if o.sctx then { o with sctx := false, submitted := false, late := o.late || o.phase.gone } else o

/-- the caller after `rtw_sctx_wait`, under `sctx_mutex` -/
def detach (o : Obj) : Obj :=
  let o := if o.submitted then { o.access with sctx := false } else o
  { o with phase := .returned true }

def done (o : Obj) : Nat := o.executed + o.dropped

end Obj

/-! ## the thread -/

/-- the statement that is next in `rtw_cmd_thread` -/
inductive Thread where
  | down
  | check
  | empty
  | next
  | dequeue
  | exec (c : Nat)
  | post (c : Nat) (res : Res)
  | callback (c : Nat) (res : Res)
  | clear
  | drain
  | drop (c : Nat)
  | dropFree (c : Nat)
  | exited
  deriving DecidableEq, Repr

/-- `struct cmd_priv`, the thread and all commands -/
structure CmdPriv where
  obj : Nat → Obj
  cmdQueue : List Nat := []
  cmdQueueSema : Nat := 0
  cmdthdRunning : Bool := true
  thread : Thread := .down

/-- what the thread finds outside: a signal, `RTW_CANNOT_RUN`, `rtw_is_hw_init_completed`, and the
result of the handler -/
structure Env where
  signal : Bool := false
  cannotRun : Bool := false
  hwInit : Bool := true
  ret : Res := .h2cSuccess

variable (conf : Nat → CmdObj)

namespace CmdPriv

def init : CmdPriv where
  obj c := { sctx := (conf c).waitAck }

def upd (s : CmdPriv) (c : Nat) (f : Obj → Obj) : CmdPriv :=
  { s with obj := Function.update s.obj c (f (s.obj c)) }

/-- from `pcmd->cmdsz` to `post_process` -/
def execCmd (s : CmdPriv) (c : Nat) (o : Env) : CmdPriv :=
  let drop (res : Res) : CmdPriv :=
    { s.upd c fun o => { o.access with dropped := o.dropped + 1 } with thread := .post c res }
  if maxCmdsz < (conf c).cmdsz then drop .h2cParametersError
  else if wlancmdsLen ≤ (conf c).cmdcode then drop .h2cParametersError
  else if !rtwCmdFilter s.cmdthdRunning o.hwInit (conf c) then drop .h2cDropped
  else { s.upd c fun o => { o.access with executed := o.executed + 1 } with thread := .post c o.ret }

def threadStep (s : CmdPriv) (o : Env) : CmdPriv :=
  match s.thread with
  | .down =>
    if 0 < s.cmdQueueSema then { s with cmdQueueSema := s.cmdQueueSema - 1, thread := .check }
    else if o.signal then { s with thread := .clear }
    else s
  | .check => { s with thread := if o.cannotRun then .clear else .empty }
  | .empty => { s with thread := if s.cmdQueue.isEmpty then .down else .next }
  | .next => { s with thread := if o.cannotRun then .clear else .dequeue }
  | .dequeue =>
    match s.cmdQueue with
    | [] => { s with thread := .down }
    | c :: rest => { s.upd c Obj.access with cmdQueue := rest, thread := .exec c }
  | .exec c => s.execCmd conf c o
  | .post c res => { s.upd c Obj.sctxDone with thread := .callback c res }
  | .callback c res =>
    { s.upd c (if callbackFrees (conf c) res then Obj.free else Obj.access) with thread := .next }
  | .clear => { s with cmdthdRunning := false, thread := .drain }
  | .drain =>
    match s.cmdQueue with
    | [] => { s with thread := .exited }
    | c :: rest => { s.upd c Obj.access with cmdQueue := rest, thread := .drop c }
  | .drop c =>
    { s.upd c fun o => { o.sctxDone with dropped := o.dropped + 1 } with thread := .dropFree c }
  | .dropFree c => { s.upd c Obj.free with thread := .drain }
  | .exited => s

end CmdPriv

inductive Ev where
  /-- `rtw_enqueue_cmd` begins, and finds `rtw_is_hw_init_completed` -/
  | filter (c : Nat) (hwInit : Bool)
  | insert (c : Nat)
  | up (c : Nat)
  /-- `rtw_sctx_wait` returns, completed or timed out -/
  | wake (c : Nat)
  | detach (c : Nat)
  /-- `rtw_stop_cmd_thread` -/
  | stop
  | thread (o : Env)

def CmdPriv.step (s : CmdPriv) : Ev → CmdPriv
  | .filter c hwInit =>
    if (s.obj c).phase = .idle then
      if rtwCmdFilter s.cmdthdRunning hwInit (conf c) && (conf c).cmdsz ≤ maxCmdsz then
        s.upd c fun o => { o.access with phase := .passed }
      else s.upd c fun o => { o.free with phase := .returned false }
    else s
  | .insert c =>
    if (s.obj c).phase = .passed then
      { s.upd c fun o => { o.access with phase := .inserted } with cmdQueue := s.cmdQueue ++ [c] }
    else s
  | .up c =>
    if (s.obj c).phase = .inserted then
      { s.upd c fun o =>
          { o with phase := if (conf c).waitAck then .waiting else .returned true } with
        cmdQueueSema := s.cmdQueueSema + 1 }
    else s
  | .wake c => if (s.obj c).phase = .waiting then s.upd c fun o => { o with phase := .woken } else s
  | .detach c => if (s.obj c).phase = .woken then s.upd c Obj.detach else s
  | .stop => { s with cmdQueueSema := s.cmdQueueSema + 1 }
  | .thread o => s.threadStep conf o

/-! ## what is asked -/

/-- the thread has taken the command and not freed it yet -/
def Thread.holds : Thread → Nat → Bool
  | .exec d, c | .post d _, c | .callback d _, c | .drop d, c | .dropFree d, c => d == c
  | _, _ => false

/-- **Every accepted command completes exactly once.** -/
structure Safe (s : CmdPriv) : Prop where
  /-- an accepted command is on its way, or was executed or dropped once and freed once -/
  once : ∀ c, (s.obj c).phase.accepted = true →
    (s.cmdQueue.count c + (if s.thread.holds c then 1 else 0) = 1 ∧ (s.obj c).done ≤ 1
        ∧ (s.obj c).freed = 0)
      ∨ (s.cmdQueue.count c = 0 ∧ s.thread.holds c = false ∧ (s.obj c).done = 1
        ∧ (s.obj c).freed = 1)
  /-- no command is used after it was freed, and no `submit_ctx` after its caller returned -/
  late : ∀ c, (s.obj c).late = false
  /-- a caller returns when its `submit_ctx` is completed or detached, or the command is freed -/
  sctx : ∀ c res, (s.obj c).phase = .returned res → (s.obj c).sctx = false ∨ (s.obj c).freed = 1
  sleeps : s.thread = .down → s.cmdQueueSema = 0 →
    ∀ c ∈ s.cmdQueue, (s.obj c).phase.accepted = false
  exited : s.thread = .exited → (∀ c, (s.obj c).phase.inCall = false) → s.cmdQueue = []

/-- the next statement is not a callback that keeps its command -/
def Thread.frees : Thread → Bool
  | .callback c res => callbackFrees (conf c) res
  | _ => true

/-- a command is inserted while the thread still looks at the queue, and `CMD_DISCONNECT` succeeds -/
def CmdCond (s : CmdPriv) : Ev → Prop
  | .insert c => (s.obj c).phase = .passed → s.thread ≠ .exited
  | .thread _ => s.thread.frees conf = true
  | _ => True

instance decidableCmdCond (s : CmdPriv) : ∀ e, Decidable (CmdCond conf s e)
  | .insert c => inferInstanceAs (Decidable ((s.obj c).phase = .passed → s.thread ≠ .exited))
  | .thread _ => inferInstanceAs (Decidable (s.thread.frees conf = true))
  | .filter .. | .up _ | .wake _ | .detach _ | .stop => isTrue trivial

/-! ## the life of a command -/

inductive Place where
  | queue | exec | post | callback | drop | dropFree
  deriving DecidableEq, Repr

def Thread.places : Thread → Nat → List Place
  | .exec d, c => if d = c then [.exec] else []
  | .post d _, c => if d = c then [.post] else []
  | .callback d _, c => if d = c then [.callback] else []
  | .drop d, c => if d = c then [.drop] else []
  | .dropFree d, c => if d = c then [.dropFree] else []
  | _, _ => []

def CmdPriv.places (s : CmdPriv) (c : Nat) : List Place :=
  List.replicate (s.cmdQueue.count c) .queue ++ s.thread.places c

/-- the command points at a `submit_ctx` that waits for it -/
def Linked (w : Bool) (o : Obj) : Prop := o.sctx = (w && !o.phase.gone && o.submitted)

/-- what was done to a command, by where it is -/
inductive Life (w : Bool) (o : Obj) : List Place → Prop
  | fresh (hp : o.phase = .idle ∨ o.phase = .passed) (hd : o.done = 0) (hf : o.freed = 0)
      (hl : Linked w o) : Life w o []
  | refused (hp : o.phase = .returned false) (hf : o.freed = 1) : Life w o []
  | pending {p : Place} (hq : p = .queue ∨ p = .exec ∨ p = .drop) (hp : o.phase.entered = true)
      (hd : o.done = 0) (hf : o.freed = 0) (hl : Linked w o) : Life w o [p]
  | post (hp : o.phase.entered = true) (hd : o.done = 1) (hf : o.freed = 0) (hl : Linked w o) :
      Life w o [.post]
  | finishing {p : Place} (hq : p = .callback ∨ p = .dropFree) (hp : o.phase.entered = true)
      (hd : o.done = 1) (hf : o.freed = 0) (hl : Linked w o) (hs : o.sctx = false) : Life w o [p]
  | finished (hp : o.phase.entered = true) (hd : o.done = 1) (hf : o.freed = 1) (hl : Linked w o)
      (hs : o.sctx = false) : Life w o []

structure Good (w : Bool) (o : Obj) (ps : List Place) : Prop where
  late : o.late = false
  waits : o.phase.waits = true → w = true
  life : Life w o ps

variable {conf} {w : Bool} {o o' : Obj} {ps : List Place} {s : CmdPriv} {c : Nat} {res : Res}

theorem Obj.access_eq (hl : o.late = false) (hf : o.freed = 0) : o.access = o := by
  obtain ⟨phase, sctx, submitted, executed, dropped, freed, late⟩ := o
  cases hl
  cases hf
  rfl

/-- a command whose caller is still in front of the insertion -/
theorem Good.fresh (h : Good w o ps) (hp : o.phase = .idle ∨ o.phase = .passed) :
    ps = [] ∧ o.done = 0 ∧ o.freed = 0 ∧ o.access = o ∧ o.sctx = (w && o.submitted) := by
  obtain ⟨hlate, -, hlife⟩ := h
  have hgone : o.phase.gone = false := by rcases hp with hp | hp <;> rw [hp] <;> rfl
  have hnot : o.phase.entered = false := by rcases hp with hp | hp <;> rw [hp] <;> rfl
  cases hlife with
  | fresh _ hd hf hl =>
    rw [Linked, hgone, Bool.not_false, Bool.and_true] at hl
    exact ⟨rfl, hd, hf, Obj.access_eq hlate hf, hl⟩
  | refused hp' => rw [hp'] at hgone; cases hgone
  | pending _ he | post he | finishing _ he | finished he => rw [hnot] at he; cases he

/-- a command that was inserted -/
theorem Good.linked (h : Good w o ps) (he : o.phase.entered = true) : Linked w o := by
  cases h.life with
  | fresh hp => rcases hp with hp | hp <;> rw [hp] at he <;> cases he
  | refused hp => rw [hp] at he; cases he
  | pending _ _ _ _ hl | post _ _ _ hl | finishing _ _ _ _ hl | finished _ _ _ hl => exact hl

/-- a command that still points at a `submit_ctx` is not freed -/
theorem Good.freed_of_sctx (h : Good w o ps) (he : o.phase.entered = true) (hs : o.sctx = true) :
    o.freed = 0 := by
  cases h.life with
  | fresh hp => rcases hp with hp | hp <;> rw [hp] at he <;> cases he
  | refused hp => rw [hp] at he; cases he
  | pending _ _ _ hf | post _ _ hf => exact hf
  | finishing _ _ _ _ _ h0 | finished _ _ _ _ h0 => rw [hs] at h0; cases h0

/-! ## the caller -/

theorem Good.pass (h : Good w o ps) (hp : o.phase = .idle) :
    Good w { o.access with phase := .passed } ps := by
  obtain ⟨rfl, hd, hf, hacc, hl⟩ := h.fresh (Or.inl hp)
  rw [hacc]
  refine ⟨h.late, Bool.noConfusion, .fresh (Or.inr rfl) hd hf ?_⟩
  rw [Linked, hl]
  cases w <;> rfl

theorem Good.refuse (h : Good w o ps) (hp : o.phase = .idle) :
    Good w { o.free with phase := .returned false } ps := by
  obtain ⟨rfl, hd, hf, hacc, hl⟩ := h.fresh (Or.inl hp)
  rw [Obj.free, hacc, hf]
  exact ⟨h.late, Bool.noConfusion, .refused rfl rfl⟩

theorem Good.insert (h : Good w o ps) (hp : o.phase = .passed) :
    Good w { o.access with phase := .inserted } (.queue :: ps) := by
  obtain ⟨rfl, hd, hf, hacc, hl⟩ := h.fresh (Or.inr hp)
  rw [hacc]
  refine ⟨h.late, Bool.noConfusion, .pending (Or.inl rfl) rfl hd hf ?_⟩
  rw [Linked, hl]
  cases w <;> rfl

/-- a caller goes on, and the command stays where it is -/
theorem Good.advance (h : Good w o ps) {phase : Phase} {sctx : Bool} (he : o.phase.entered = true)
    (he' : phase.entered = true) (hw : phase.waits = true → w = true)
    (hs : sctx = (w && !phase.gone && o.submitted)) (hle : sctx = true → o.sctx = true) :
    Good w { o with phase := phase, sctx := sctx } ps := by
  refine ⟨h.late, hw, ?_⟩
  have hno : o.sctx = false → sctx = false := by
    intro h0
    cases sctx with
    | false => rfl
    | true => rw [hle rfl] at h0; cases h0
  cases h.life with
  | fresh hp => rcases hp with hp | hp <;> rw [hp] at he <;> cases he
  | refused hp => rw [hp] at he; cases he
  | pending hq _ hd hf _ => exact .pending hq he' hd hf hs
  | post _ hd hf _ => exact .post he' hd hf hs
  | finishing hq _ hd hf _ h0 => exact .finishing hq he' hd hf hs (hno h0)
  | finished _ hd hf _ h0 => exact .finished he' hd hf hs (hno h0)

theorem Good.up (h : Good w o ps) (hp : o.phase = .inserted) :
    Good w { o with phase := if w then .waiting else .returned true } ps := by
  have he : o.phase.entered = true := by rw [hp]; rfl
  have hl := h.linked he
  rw [Linked, hp] at hl
  cases w with
  | true => exact h.advance he rfl (fun _ => rfl) hl id
  | false => exact h.advance he rfl Bool.noConfusion hl id

theorem Good.wake (h : Good w o ps) (hp : o.phase = .waiting) :
    Good w { o with phase := .woken } ps := by
  have he : o.phase.entered = true := by rw [hp]; rfl
  have hl := h.linked he
  rw [Linked, hp] at hl
  exact h.advance he rfl (fun _ => h.waits (by rw [hp]; rfl)) hl id

theorem Good.detach (h : Good w o ps) (hp : o.phase = .woken) : Good w o.detach ps := by
  have he : o.phase.entered = true := by rw [hp]; rfl
  have hw : w = true := h.waits (by rw [hp]; rfl)
  have hl := h.linked he
  rw [Linked, hp, hw] at hl
  have hgone : false = (w && !(Phase.returned true).gone && o.submitted) := by rw [hw]; rfl
  unfold Obj.detach
  cases hsub : o.submitted with
  | true =>
    -- the command waits for its completion, and is still there
    rw [hsub] at hl
    rw [if_pos rfl, Obj.access_eq h.late (h.freed_of_sctx he hl)]
    exact h.advance he rfl Bool.noConfusion hgone (fun h0 => nomatch h0)
  | false =>
    rw [hsub] at hl
    rw [if_neg Bool.false_ne_true]
    have hgood : Good w { o with phase := .returned true, sctx := false } ps :=
      h.advance he rfl Bool.noConfusion hgone (fun h0 => nomatch h0)
    rw [← show o.sctx = false from hl] at hgood
    exact hgood

/-! ## the thread -/

/-- a command that nothing was done to yet -/
theorem Good.pending {p : Place} (h : Good w o [p]) (hp : p = .queue ∨ p = .exec ∨ p = .drop) :
    o.phase.entered = true ∧ o.done = 0 ∧ o.freed = 0 ∧ o.access = o ∧ Linked w o := by
  obtain ⟨hlate, -, hlife⟩ := h
  cases hlife with
  | pending _ he hd hf hl => exact ⟨he, hd, hf, Obj.access_eq hlate hf, hl⟩
  | post => rcases hp with hp | hp | hp <;> cases hp
  | finishing hq => rcases hp with rfl | rfl | rfl <;> rcases hq with hq | hq <;> cases hq

theorem Good.take (h : Good w o [.queue]) {p : Place} (hp : p = .exec ∨ p = .drop) :
    Good w o.access [p] := by
  obtain ⟨he, hd, hf, hacc, hl⟩ := h.pending (Or.inl rfl)
  rw [hacc]
  exact ⟨h.late, h.waits, .pending (Or.inr hp) he hd hf hl⟩

theorem Good.exec (h : Good w o [.exec]) (ran : Bool) :
    Good w (if ran then { o.access with executed := o.executed + 1 }
      else { o.access with dropped := o.dropped + 1 }) [.post] := by
  obtain ⟨he, hd, hf, hacc, hl⟩ := h.pending (Or.inr (Or.inl rfl))
  rw [hacc]
  unfold Obj.done at hd
  cases ran with
  | true => exact ⟨h.late, h.waits, .post he (by show o.executed + 1 + o.dropped = 1; omega) hf hl⟩
  | false => exact ⟨h.late, h.waits, .post he (by show o.executed + (o.dropped + 1) = 1; omega) hf hl⟩

/-- `rtw_sctx_done_err` comes before the caller returns -/
theorem Obj.sctxDone_spec (hlate : o.late = false) (hf : o.freed = 0) (hl : Linked w o) :
    o.sctxDone.late = false ∧ o.sctxDone.sctx = false ∧ Linked w o.sctxDone
      ∧ o.sctxDone.phase = o.phase ∧ o.sctxDone.executed = o.executed
      ∧ o.sctxDone.dropped = o.dropped ∧ o.sctxDone.freed = 0 := by
  have hdone : o.sctxDone = if o.sctx then
      { o with sctx := false, submitted := false, late := o.late || o.phase.gone } else o := by
    unfold Obj.sctxDone
    rw [Obj.access_eq hlate hf]
  rw [hdone]
  cases hs : o.sctx with
  | true =>
    rw [Linked, hs] at hl
    have hgone : o.phase.gone = false := by
      cases hg : o.phase.gone with
      | false => rfl
      | true => rw [hg] at hl; cases w <;> cases hl
    rw [if_pos rfl]
    refine ⟨by rw [hlate, hgone]; rfl, rfl, ?_, rfl, rfl, rfl, hf⟩
    exact (Bool.and_false _).symm
  | false =>
    rw [if_neg Bool.false_ne_true]
    exact ⟨hlate, hs, hl, rfl, rfl, rfl, hf⟩

theorem Good.post (h : Good w o [.post]) : Good w o.sctxDone [.callback] := by
  obtain ⟨hlate, hw, hlife⟩ := h
  cases hlife with
  | post he hd hf hl =>
    obtain ⟨h1, h2, h3, h4, h5, h6, h7⟩ := Obj.sctxDone_spec hlate hf hl
    refine ⟨h1, by rw [h4]; exact hw, .finishing (Or.inl rfl) (by rw [h4]; exact he) ?_ h7 h3 h2⟩
    rw [Obj.done, h5, h6]
    exact hd
  | pending hq => rcases hq with hq | hq | hq <;> cases hq
  | finishing hq => rcases hq with hq | hq <;> cases hq

theorem Good.drop (h : Good w o [.drop]) :
    Good w { o.sctxDone with dropped := o.dropped + 1 } [.dropFree] := by
  obtain ⟨he, hd, hf, -, hl⟩ := h.pending (Or.inr (Or.inr rfl))
  obtain ⟨h1, h2, h3, h4, h5, h6, h7⟩ := Obj.sctxDone_spec h.late hf hl
  refine ⟨h1, fun hp => h.waits (h4 ▸ hp),
    .finishing (Or.inr rfl) (show o.sctxDone.phase.entered = true by rw [h4]; exact he) ?_ h7 h3 h2⟩
  show o.sctxDone.executed + (o.dropped + 1) = 1
  unfold Obj.done at hd
  rw [h5]
  omega

theorem Good.finish {p : Place} (h : Good w o [p]) (hp : p = .callback ∨ p = .dropFree) :
    Good w o.free [] := by
  obtain ⟨hlate, hw, hlife⟩ := h
  cases hlife with
  | finishing _ he hd hf hl hs =>
    rw [Obj.free, Obj.access_eq hlate hf, hf]
    exact ⟨hlate, hw, .finished he hd rfl hl hs⟩
  | pending hq => rcases hp with rfl | rfl <;> rcases hq with hq | hq | hq <;> cases hq
  | post => rcases hp with hp | hp <;> cases hp

/-! ## every step -/

structure Inv (conf : Nat → CmdObj) (s : CmdPriv) : Prop where
  good : ∀ c, Good (conf c).waitAck (s.obj c) (s.places c)
  sleeps : s.thread = .down → s.cmdQueueSema = 0 → ∀ c ∈ s.cmdQueue, (s.obj c).phase = .inserted
  exited : s.thread = .exited → s.cmdQueue = []

variable {s' : CmdPriv} {d : Nat} {p : Place} {t : Thread} {rest : List Nat} {f : Obj → Obj}

theorem good_upd (s' : CmdPriv) (h : ∀ c, Good (conf c).waitAck (s.obj c) (s.places c))
    (hobj : s'.obj = Function.update s.obj d o)
    (hother : ∀ c, c ≠ d → s'.places c = s.places c)
    (hd : Good (conf d).waitAck o (s'.places d)) (c : Nat) :
    Good (conf c).waitAck (s'.obj c) (s'.places c) := by
  rw [hobj]
  by_cases hc : c = d
  · subst hc
    rw [Function.update_self]
    exact hd
  · rw [Function.update_of_ne hc, hother c hc]
    exact h c

/-- the thread takes the first command -/
theorem good_take (h : ∀ c, Good (conf c).waitAck (s.obj c) (s.places c))
    (hq : s.cmdQueue = d :: rest) (ht : ∀ c, s.thread.places c = [])
    (ht' : ∀ c, t.places c = if d = c then [p] else []) (hp : p = .exec ∨ p = .drop) (c : Nat) :
    Good (conf c).waitAck ({ s.upd d Obj.access with cmdQueue := rest, thread := t }.obj c)
      ({ s.upd d Obj.access with cmdQueue := rest, thread := t }.places c) := by
  have hplaces : s.places d = .queue :: List.replicate (rest.count d) .queue := by
    rw [CmdPriv.places, ht, hq, List.count_cons_self, List.append_nil]
    rfl
  have hd := h d
  rw [hplaces] at hd
  -- a command is in the queue once
  have hcount : rest.count d = 0 := by
    cases hn : rest.count d with
    | zero => rfl
    | succ n => rw [hn] at hd; exact nomatch hd.life
  refine good_upd _ h rfl ?_ ?_ c
  · intro c hc
    show List.replicate (rest.count c) _ ++ t.places c = List.replicate _ _ ++ s.thread.places c
    rw [ht, ht', hq, if_neg (Ne.symm hc), List.count_cons_of_ne (Ne.symm hc)]
  · show Good _ _ (List.replicate (rest.count d) _ ++ t.places d)
    rw [hcount] at hd ⊢
    rw [ht', if_pos rfl]
    exact hd.take hp

/-- the thread works on the command it holds -/
theorem good_held {ps : List Place} (h : ∀ c, Good (conf c).waitAck (s.obj c) (s.places c))
    (ht : ∀ c, s.thread.places c = if d = c then [p] else [])
    (ht' : ∀ c, t.places c = if d = c then ps else [])
    (hf : ∀ o, Good (conf d).waitAck o [p] → Good (conf d).waitAck (f o) ps) (c : Nat) :
    Good (conf c).waitAck ({ s.upd d f with thread := t }.obj c)
      ({ s.upd d f with thread := t }.places c) := by
  have hd := h d
  rw [CmdPriv.places, ht, if_pos rfl] at hd
  have hcount : s.cmdQueue.count d = 0 := by
    cases hn : s.cmdQueue.count d with
    | zero => rfl
    | succ n => rw [hn] at hd; cases n <;> exact nomatch hd.life
  rw [hcount] at hd
  refine good_upd _ h rfl ?_ ?_ c
  · intro c hc
    show List.replicate _ _ ++ t.places c = List.replicate _ _ ++ s.thread.places c
    rw [ht, ht', if_neg (Ne.symm hc), if_neg (Ne.symm hc)]
    rfl
  · show Good _ _ (List.replicate (s.cmdQueue.count d) _ ++ t.places d)
    rw [hcount, ht', if_pos rfl]
    exact hf _ hd

/-- what a step of a caller does -/
inductive CallStep (conf : Nat → CmdObj) (s : CmdPriv) : CmdPriv → Prop
  | stay : CallStep conf s s
  | pass (d : Nat) (hp : (s.obj d).phase = .idle) :
      CallStep conf s (s.upd d fun o => { o.access with phase := .passed })
  | refuse (d : Nat) (hp : (s.obj d).phase = .idle) :
      CallStep conf s (s.upd d fun o => { o.free with phase := .returned false })
  | insert (d : Nat) (hp : (s.obj d).phase = .passed) (hth : s.thread ≠ .exited) :
      CallStep conf s { s.upd d fun o => { o.access with phase := .inserted } with
        cmdQueue := s.cmdQueue ++ [d] }
  | up (d : Nat) (hp : (s.obj d).phase = .inserted) :
      CallStep conf s { s.upd d fun o =>
          { o with phase := if (conf d).waitAck then .waiting else .returned true } with
        cmdQueueSema := s.cmdQueueSema + 1 }
  | wake (d : Nat) (hp : (s.obj d).phase = .waiting) :
      CallStep conf s (s.upd d fun o => { o with phase := .woken })
  | detach (d : Nat) (hp : (s.obj d).phase = .woken) : CallStep conf s (s.upd d Obj.detach)
  | stop : CallStep conf s { s with cmdQueueSema := s.cmdQueueSema + 1 }

/-- what a step of the thread does: it goes on without a command, takes the first one, or works on
the one it holds -/
inductive ThreadStep (conf : Nat → CmdObj) (s : CmdPriv) : CmdPriv → Prop
  | stay : ThreadStep conf s s
  | move (t : Thread) (sema : Nat) (running : Bool) (ht : ∀ c, s.thread.places c = [])
      (ht' : ∀ c, t.places c = []) (hq : t = .down ∨ t = .exited → s.cmdQueue = []) :
      ThreadStep conf s
        { s with thread := t, cmdQueueSema := sema, cmdthdRunning := running }
  | take (d : Nat) (rest : List Nat) (p : Place) (t : Thread) (hq : s.cmdQueue = d :: rest)
      (ht : ∀ c, s.thread.places c = []) (ht' : ∀ c, t.places c = if d = c then [p] else [])
      (hp : p = .exec ∨ p = .drop) :
      ThreadStep conf s { s.upd d Obj.access with cmdQueue := rest, thread := t }
  | held (d : Nat) (p : Place) (ps : List Place) (t : Thread) (f : Obj → Obj)
      (ht : ∀ c, s.thread.places c = if d = c then [p] else [])
      (ht' : ∀ c, t.places c = if d = c then ps else []) (hne : t ≠ .down ∧ t ≠ .exited)
      (hf : ∀ o, Good (conf d).waitAck o [p] → Good (conf d).waitAck (f o) ps) :
      ThreadStep conf s { s.upd d f with thread := t }

theorem execCmd_cases (o : Env) (hth : s.thread = .exec d) :
    ThreadStep conf s (s.execCmd conf d o) := by
  have hran : ∀ (ran : Bool) (res : Res), ThreadStep conf s
      { s.upd d (fun o => if ran then { o.access with executed := o.executed + 1 }
          else { o.access with dropped := o.dropped + 1 }) with thread := .post d res } :=
    fun ran res => .held d .exec [.post] _ _ (by rw [hth]; exact fun _ => rfl) (fun _ => rfl)
      ⟨Thread.noConfusion, Thread.noConfusion⟩ fun o ho => ho.exec ran
  unfold CmdPriv.execCmd
  dsimp only
  split
  · exact hran false _
  split
  · exact hran false _
  split
  · exact hran false _
  · exact hran true _

theorem threadStep_cases (o : Env) (hC : CmdCond conf s (.thread o)) :
    ThreadStep conf s (s.threadStep conf o) := by
  have hne : ∀ {t : Thread}, t ≠ .down → t ≠ .exited → t = .down ∨ t = .exited → s.cmdQueue = [] := by
    rintro t h1 h2 (h | h)
    · exact absurd h h1
    · exact absurd h h2
  unfold CmdPriv.threadStep
  cases hth : s.thread with
  | down =>
    have ht : ∀ c, s.thread.places c = [] := by rw [hth]; exact fun _ => rfl
    dsimp only
    split
    · exact .move .check _ _ ht (fun _ => rfl) (hne Thread.noConfusion Thread.noConfusion)
    split
    · exact .move .clear _ _ ht (fun _ => rfl) (hne Thread.noConfusion Thread.noConfusion)
    · exact .stay
  | check =>
    have ht : ∀ c, s.thread.places c = [] := by rw [hth]; exact fun _ => rfl
    cases o.cannotRun with
    | true => exact .move .clear _ _ ht (fun _ => rfl) (hne Thread.noConfusion Thread.noConfusion)
    | false => exact .move .empty _ _ ht (fun _ => rfl) (hne Thread.noConfusion Thread.noConfusion)
  | empty =>
    have ht : ∀ c, s.thread.places c = [] := by rw [hth]; exact fun _ => rfl
    cases hq : s.cmdQueue.isEmpty with
    | true => exact .move .down _ _ ht (fun _ => rfl) fun _ => List.isEmpty_iff.mp hq
    | false => exact .move .next _ _ ht (fun _ => rfl) (hne Thread.noConfusion Thread.noConfusion)
  | next =>
    have ht : ∀ c, s.thread.places c = [] := by rw [hth]; exact fun _ => rfl
    cases o.cannotRun with
    | true => exact .move .clear _ _ ht (fun _ => rfl) (hne Thread.noConfusion Thread.noConfusion)
    | false => exact .move .dequeue _ _ ht (fun _ => rfl) (hne Thread.noConfusion Thread.noConfusion)
  | dequeue =>
    have ht : ∀ c, s.thread.places c = [] := by rw [hth]; exact fun _ => rfl
    dsimp only
    split
    · rename_i hq
      exact .move .down _ _ ht (fun _ => rfl) fun _ => hq
    · rename_i d rest hq
      exact .take d rest .exec _ hq ht (fun _ => rfl) (Or.inl rfl)
  | exec d => exact execCmd_cases o hth
  | post d res =>
    exact .held d .post [.callback] _ _ (by rw [hth]; exact fun _ => rfl) (fun _ => rfl)
      ⟨Thread.noConfusion, Thread.noConfusion⟩ fun o ho => ho.post
  | callback d res =>
    have hfrees : callbackFrees (conf d) res = true := by
      have h := hC
      rw [CmdCond, hth] at h
      exact h
    dsimp only
    rw [hfrees, if_pos rfl]
    exact .held d .callback [] .next _ (by rw [hth]; exact fun _ => rfl) (fun _ => (ite_self _).symm)
      ⟨Thread.noConfusion, Thread.noConfusion⟩ fun o ho => ho.finish (Or.inl rfl)
  | clear =>
    exact .move .drain _ _ (by rw [hth]; exact fun _ => rfl) (fun _ => rfl)
      (hne Thread.noConfusion Thread.noConfusion)
  | drain =>
    have ht : ∀ c, s.thread.places c = [] := by rw [hth]; exact fun _ => rfl
    dsimp only
    split
    · rename_i hq
      exact .move .exited _ _ ht (fun _ => rfl) fun _ => hq
    · rename_i d rest hq
      exact .take d rest .drop _ hq ht (fun _ => rfl) (Or.inr rfl)
  | drop d =>
    exact .held d .drop [.dropFree] _ _ (by rw [hth]; exact fun _ => rfl) (fun _ => rfl)
      ⟨Thread.noConfusion, Thread.noConfusion⟩ fun o ho => ho.drop
  | dropFree d =>
    exact .held d .dropFree [] .drain _ (by rw [hth]; exact fun _ => rfl)
      (fun _ => (ite_self _).symm) ⟨Thread.noConfusion, Thread.noConfusion⟩
      fun o ho => ho.finish (Or.inr rfl)
  | exited => exact .stay

theorem step_cases (e : Ev) (hC : CmdCond conf s e) :
    CallStep conf s (s.step conf e) ∨ ThreadStep conf s (s.step conf e) := by
  cases e with
  | thread o => exact Or.inr (threadStep_cases o hC)
  | stop => exact Or.inl .stop
  | filter d hwInit =>
    rw [CmdPriv.step]
    split
    · rename_i hp
      split
      · exact Or.inl (.pass d hp)
      · exact Or.inl (.refuse d hp)
    · exact Or.inl .stay
  | insert d =>
    rw [CmdPriv.step]
    split
    · rename_i hp
      exact Or.inl (.insert d hp (hC hp))
    · exact Or.inl .stay
  | up d =>
    rw [CmdPriv.step]
    split
    · rename_i hp
      exact Or.inl (.up d hp)
    · exact Or.inl .stay
  | wake d =>
    rw [CmdPriv.step]
    split
    · rename_i hp
      exact Or.inl (.wake d hp)
    · exact Or.inl .stay
  | detach d =>
    rw [CmdPriv.step]
    split
    · rename_i hp
      exact Or.inl (.detach d hp)
    · exact Or.inl .stay

/-- a caller that is not at the semaphore goes on, and the thread still has nothing to sleep over -/
theorem Inv.upd (h : Inv conf s) (hd : (s.obj d).phase ≠ .inserted)
    (hgood : Good (conf d).waitAck (s.obj d) (s.places d) →
      Good (conf d).waitAck (f (s.obj d)) (s.places d)) : Inv conf (s.upd d f) := by
  refine ⟨good_upd (s.upd d f) h.good rfl (fun _ _ => rfl) (hgood (h.good d)), ?_, h.exited⟩
  intro hth h0 c hc
  have hp := h.sleeps hth h0 c hc
  show (Function.update s.obj d (f (s.obj d)) c).phase = .inserted
  rw [Function.update_of_ne]
  · exact hp
  · rintro rfl
    exact hd hp

theorem Inv.call (h : Inv conf s) (hs : CallStep conf s s') : Inv conf s' := by
  cases hs with
  | stay => exact h
  | stop => exact ⟨h.good, (fun _ h0 => nomatch h0), h.exited⟩
  | pass d hp => exact h.upd (by rw [hp]; exact Phase.noConfusion) fun hd => hd.pass hp
  | refuse d hp => exact h.upd (by rw [hp]; exact Phase.noConfusion) fun hd => hd.refuse hp
  | wake d hp => exact h.upd (by rw [hp]; exact Phase.noConfusion) fun hd => hd.wake hp
  | detach d hp => exact h.upd (by rw [hp]; exact Phase.noConfusion) fun hd => hd.detach hp
  | up d hp =>
    exact ⟨good_upd _ h.good rfl (fun _ _ => rfl) ((h.good d).up hp), (fun _ h0 => nomatch h0), h.exited⟩
  | insert d hp hth =>
    refine ⟨good_upd _ h.good rfl ?_ ?_, ?_, fun ht => absurd ht hth⟩
    · intro c hc
      show List.replicate ((s.cmdQueue ++ [d]).count c) _ ++ s.thread.places c = _
      rw [List.count_append, List.count_singleton, beq_eq_false_iff_ne.mpr (Ne.symm hc)]
      rfl
    · have hd := (h.good d).insert hp
      show Good _ _ (List.replicate ((s.cmdQueue ++ [d]).count d) _ ++ s.thread.places d)
      rw [List.count_append, List.count_singleton_self, List.replicate_succ, List.cons_append]
      exact hd
    · intro ht h0 c hc
      show (Function.update s.obj d _ c).phase = .inserted
      by_cases hcd : c = d
      · subst hcd
        rw [Function.update_self]
      · rw [Function.update_of_ne hcd]
        rcases List.mem_append.mp hc with hold | hnew
        · exact h.sleeps ht h0 c hold
        · exact absurd (List.mem_singleton.mp hnew) hcd

theorem Inv.thread (h : Inv conf s) (hs : ThreadStep conf s s') : Inv conf s' := by
  cases hs with
  | stay => exact h
  | move t sema running ht ht' hq =>
    refine ⟨?_, ?_, fun hx => hq (Or.inr hx)⟩
    · intro c
      have hplaces : CmdPriv.places { s with
          thread := t, cmdQueueSema := sema, cmdthdRunning := running } c = s.places c := by
        rw [CmdPriv.places, CmdPriv.places, ht, ht']
      rw [hplaces]
      exact h.good c
    · intro hx _ c hc
      have hnil : s.cmdQueue = [] := hq (Or.inl hx)
      rw [hnil] at hc
      cases hc
  | take d rest p t hq ht ht' hp =>
    have hd := ht' d
    rw [if_pos rfl] at hd
    refine ⟨good_take h.good hq ht ht' hp, ?_, ?_⟩
    · intro hx
      rw [show t = .down from hx] at hd
      cases hd
    · intro hx
      rw [show t = .exited from hx] at hd
      cases hd
  | held d p ps t f ht ht' hne hf =>
    exact ⟨good_held h.good ht ht' hf, fun hx => absurd hx hne.1, fun hx => absurd hx hne.2⟩

theorem step_inv (s : CmdPriv) (e : Ev) (h : Inv conf s) (hC : CmdCond conf s e) :
    Inv conf (s.step conf e) := by
  rcases step_cases e hC with hs | hs
  · exact h.call hs
  · exact h.thread hs

theorem init_inv (conf : Nat → CmdObj) : Inv conf (.init conf) := by
  refine ⟨fun c => ⟨rfl, Bool.noConfusion, ?_⟩, (fun _ _ c hc => nomatch hc), fun _ => rfl⟩
  refine .fresh (Or.inl rfl) rfl rfl ?_
  show (conf c).waitAck = _
  cases (conf c).waitAck <;> rfl

/-! ## what follows -/

theorem length_places (t : Thread) (c : Nat) :
    (t.places c).length = if t.holds c then 1 else 0 := by
  cases t with
  | exec d | post d | callback d | drop d | dropFree d =>
    simp only [Thread.places, Thread.holds, beq_iff_eq]
    split <;> rfl
  | _ => rfl

theorem length_places_add (s : CmdPriv) (c : Nat) :
    (s.places c).length = s.cmdQueue.count c + if s.thread.holds c then 1 else 0 := by
  rw [CmdPriv.places, List.length_append, List.length_replicate, length_places]

theorem Inv.safe (h : Inv conf s) : Safe s := by
  refine ⟨?_, fun c => (h.good c).late, ?_, ?_, fun hx _ => h.exited hx⟩
  · intro c hacc
    have he : (s.obj c).phase.entered = true := by
      revert hacc
      cases (s.obj c).phase with
      | returned r => cases r <;> exact id
      | waiting | woken => exact id
      | inserted => exact fun _ => rfl
      | idle | passed => exact Bool.noConfusion
    have hlen := length_places_add s c
    have hlife := (h.good c).life
    generalize s.places c = ps at hlen hlife
    cases hlife with
    | fresh hp => rcases hp with hp | hp <;> rw [hp] at he <;> cases he
    | refused hp => rw [hp] at he; cases he
    | pending _ _ hd hf => exact Or.inl ⟨hlen.symm, by omega, hf⟩
    | post _ hd hf => exact Or.inl ⟨hlen.symm, by omega, hf⟩
    | finishing _ _ hd hf => exact Or.inl ⟨hlen.symm, by omega, hf⟩
    | finished _ hd hf =>
      rw [List.length_nil] at hlen
      cases hh : s.thread.holds c with
      | true => rw [hh, if_pos rfl] at hlen; omega
      | false => rw [hh] at hlen; exact Or.inr ⟨hlen.symm, rfl, hd, hf⟩
  · intro c res hp
    have hgood := h.good c
    cases res with
    | true =>
      have hl := hgood.linked (by rw [hp]; rfl)
      rw [Linked, hp] at hl
      rw [hl]
      exact Or.inl (by cases (conf c).waitAck <;> rfl)
    | false =>
      have hlife := hgood.life
      generalize s.places c = ps at hlife
      cases hlife with
      | fresh hp' => rcases hp' with hp' | hp' <;> rw [hp] at hp' <;> cases hp'
      | refused _ hf => exact Or.inr hf
      | pending _ he | post he | finishing _ he | finished he => rw [hp] at he; cases he
  · intro hth h0 c hc
    rw [h.sleeps hth h0 c hc]
    rfl

end Cmd

open Cmd

/-- **Accepted commands complete once**, when none comes too late and `CMD_DISCONNECT` succeeds. -/
theorem cmds_complete {conf : Nat → CmdObj} (es : List Ev)
    (hC : Along (CmdPriv.step conf) (CmdCond conf) (.init conf) es) :
    Safe (run (CmdPriv.step conf) (.init conf) es) :=
  (run_inv step_inv _ es (init_inv conf) hC).safe

namespace Cmd

/-- the thread makes `n` steps -/
def steps (o : Env) (n : Nat) : List Ev := List.replicate n (.thread o)

/-- `CMD_CREATE_BSS`, and its caller waits -/
def createbss (_ : Nat) : CmdObj := ⟨2, 48, false, true⟩

/-- one command from its insertion to its end, while its caller times out -/
def ackRun : List Ev :=
  [.filter 0 true, .insert 0, .up 0] ++ steps {} 6 ++ [.wake 0] ++ steps {} 2 ++ [.detach 0]
    ++ [.stop] ++ steps { cannotRun := true } 8

def disconnect (_ : Nat) : CmdObj := ⟨cmdDisconnect, 4, false, false⟩

/-- the test is made, the thread is stopped and ends, and the command is inserted -/
def lostRun : List Ev :=
  [.filter 0 true, .stop] ++ steps { cannotRun := true } 4
    ++ [.insert 0, .up 0, .wake 0, .detach 0]

/-- the hardware is not up when the thread comes to the command -/
def leakRun : List Ev :=
  [.filter 0 true, .insert 0, .up 0] ++ steps { hwInit := false } 9

end Cmd

theorem cmds_complete_ackRun :
    Safe (run (CmdPriv.step createbss) (.init createbss) ackRun)
      ∧ (run (CmdPriv.step createbss) (.init createbss) ackRun).thread = .exited :=
  ⟨cmds_complete ackRun (by decide), by decide⟩

/-- a command stays in the queue for ever, and another is never freed -/
theorem cmds_lost :
    ¬ Safe (run (CmdPriv.step createbss) (.init createbss) lostRun)
      ∧ ¬ Safe (run (CmdPriv.step disconnect) (.init disconnect) leakRun) := by
  constructor
  · intro h
    have hcalls : ∀ c, ((run (CmdPriv.step createbss) (.init createbss) lostRun).obj c).phase.inCall
        = false := by
      intro c
      cases c with
      | zero => decide
      | succ c => rfl
    exact absurd (h.exited (by decide) hcalls) (by decide)
  · intro h
    rcases h.once 0 (by decide) with h1 | h2
    · revert h1
      decide
    · revert h2
      decide

end Rtl8192eu
