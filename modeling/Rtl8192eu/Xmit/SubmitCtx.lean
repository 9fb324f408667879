import Mathlib.Logic.Function.Basic
import Rtl8192eu.Lib.Run

/-!
# Waiting for a management frame

`dump_mgntframe_and_wait` of `core/rtw_mlme_ext.c` puts a pointer to its `submit_ctx` into the
transmit buffer, and `usb_write_port_complete` completes what it finds there.  The buffer goes back to
the pool before the caller has run again; the caller then clears the pointer of whoever has the buffer.

* `Waiters.step`   one part of a call, a completion, or a free, in any order;
* `Waiters.doneErr`   `rtw_sctx_done_err`;
* `Fate`           what a caller should learn;
* `fate_iff`       the runs in which it does.

`usb_submit_urb` succeeds.  A call of `dump_mgntframe` uses the pool without waiting.
-/

namespace Rtl8192eu

/-- `RTW_SCTX_...` -/
inductive SctxStatus where
  | submitted | doneSuccess | doneBufAlloc | doneBufFree | doneWritePortErr | doneCcxPktFail
  deriving DecidableEq, Repr

/-- `struct submit_ctx`; `done` is its completion -/
structure SubmitCtx where
  status : SctxStatus := .submitted
  done : Bool := false
  deriving DecidableEq, Repr

/-- `rtw_sctx_wait` of a completed context: `_SUCCESS` or not -/
def SubmitCtx.waitResult (x : SubmitCtx) : Bool := x.status == .doneSuccess

/-- the status a completed URB gives -/
def SctxStatus.ofUrb (ok : Bool) : SctxStatus := if ok then .doneSuccess else .doneWritePortErr

theorem SctxStatus.waitResult_ofUrb (ok : Bool) : SubmitCtx.waitResult ⟨ofUrb ok, true⟩ = ok := by
  cases ok <;> rfl

/-- where a call stands; the result is known from `woken` on -/
inductive CallPhase where
  | idle | allocated | inited | linked | waiting
  | woken (ret : Bool)
  | cleared (ret : Bool)
  | returned (ret : Bool)
  /-- a frame of `dump_mgntframe` -/
  | sent
  deriving DecidableEq, Repr

inductive MgntUrb where
  | none | active
  | completed (ok : Bool)
  deriving DecidableEq, Repr

structure MgntCall where
  phase : CallPhase := .idle
  buf : Nat := 0
  sctx : SubmitCtx := {}
  urb : MgntUrb := .none
  /-- the URB completed with status 0 while the call was waiting -/
  inTime : Bool := false
  /-- another call cleared the pointer of this one -/
  wiped : Bool := false
  deriving DecidableEq, Repr

/-- a management `xmit_buf` -/
structure ExtBuf where
  free : Bool := true
  sctx : Option Nat := none
  /-- the call it was allocated for -/
  holder : Nat := 0
  deriving DecidableEq, Repr

structure Waiters where
  calls : Nat → MgntCall := fun _ => {}
  bufs : Nat → ExtBuf := fun _ => {}
  /-- the context of a call that has returned was written -/
  lateWrite : Bool := false

inductive WaitEvent where
  /-- `rtw_alloc_xmitbuf_ext` for the call, which gets this buffer -/
  | alloc (c b : Nat)
  | init (c : Nat)
  /-- `pxmitbuf->sctx = &sctx` -/
  | link (c : Nat)
  | submit (c : Nat)
  /-- `dump_mgntframe` -/
  | dump (c : Nat)
  /-- `usb_write_port_complete` up to the end of the lock -/
  | complete (b : Nat) (ok : Bool)
  /-- its `rtw_free_xmitbuf` -/
  | free (b : Nat)
  | wake (c : Nat)
  | timeout (c : Nat)
  /-- `pxmitbuf->sctx = NULL` under `lock_sctx` -/
  | clear (c : Nat)
  | ret (c : Nat)
  deriving DecidableEq, Repr

def CallPhase.isReturned : CallPhase → Bool
  | .returned _ => true
  | _ => false

namespace Waiters

def setCall (s : Waiters) (c : Nat) (x : MgntCall) : Waiters :=
  { s with calls := Function.update s.calls c x }

def setBuf (s : Waiters) (b : Nat) (x : ExtBuf) : Waiters :=
  { s with bufs := Function.update s.bufs b x }

/-- `rtw_sctx_done_err` of the pointer in a buffer -/
def doneErr (s : Waiters) (b : Nat) (status : SctxStatus) : Waiters :=
  match (s.bufs b).sctx with
  | none => s
  | some a =>
    { (s.setCall a { s.calls a with sctx := ⟨status, true⟩ }).setBuf b { s.bufs b with sctx := none } with
      lateWrite := s.lateWrite || (s.calls a).phase.isReturned }

def alloc (s : Waiters) (c b : Nat) : Waiters :=
  let s := s.doneErr b .doneBufAlloc
  (s.setCall c { s.calls c with phase := .allocated, buf := b }).setBuf b
    { s.bufs b with free := false, holder := c }

def complete (s : Waiters) (b : Nat) (ok : Bool) : Waiters :=
  let c := (s.bufs b).holder
  let s := s.setCall c { s.calls c with
    urb := .completed ok
    inTime := ok && (s.calls c).phase == .waiting }
  s.doneErr b (.ofUrb ok)

def freeBuf (s : Waiters) (b : Nat) : Waiters :=
  let s := s.doneErr b .doneBufFree
  s.setBuf b { s.bufs b with free := true }

/-- call `c` is about to clear the pointer in the buffer -/
def markWiped (s : Waiters) (c b : Nat) : Waiters :=
  match (s.bufs b).sctx with
  | none => s
  | some a => if a = c then s else s.setCall a { s.calls a with wiped := true }

/-- the pointer that is cleared may be another call's -/
def clear (s : Waiters) (c : Nat) (ret : Bool) : Waiters :=
  ((s.markWiped c (s.calls c).buf).setBuf (s.calls c).buf { s.bufs (s.calls c).buf with sctx := none }).setCall c
    { s.calls c with phase := .cleared ret }

/-- the URB of the buffer's call -/
def urbOf (s : Waiters) (b : Nat) : MgntUrb := (s.calls (s.bufs b).holder).urb

def step (s : Waiters) : WaitEvent → Waiters
  | .alloc c b => if (s.calls c).phase = .idle ∧ (s.bufs b).free = true then s.alloc c b else s
  | .init c =>
    if (s.calls c).phase = .allocated then s.setCall c { s.calls c with phase := .inited, sctx := {} } else s
  | .link c =>
    if (s.calls c).phase = .inited then
      (s.setCall c { s.calls c with phase := .linked }).setBuf (s.calls c).buf
        { s.bufs (s.calls c).buf with sctx := some c }
    else s
  | .submit c =>
    if (s.calls c).phase = .linked then s.setCall c { s.calls c with phase := .waiting, urb := .active } else s
  | .dump c =>
    if (s.calls c).phase = .allocated then s.setCall c { s.calls c with phase := .sent, urb := .active } else s
  | .complete b ok =>
    if (s.bufs b).free = false ∧ s.urbOf b = .active then s.complete b ok else s
  | .free b =>
    match s.urbOf b with
    | .completed _ => if (s.bufs b).free = false then s.freeBuf b else s
    | _ => s
  | .wake c =>
    if (s.calls c).phase = .waiting ∧ (s.calls c).sctx.done = true then
      s.setCall c { s.calls c with phase := .woken (s.calls c).sctx.waitResult }
    else s
  | .timeout c =>
    if (s.calls c).phase = .waiting ∧ (s.calls c).sctx.done = false then
      s.setCall c { s.calls c with phase := .woken false }
    else s
  | .clear c =>
    match (s.calls c).phase with
    | .woken ret => s.clear c ret
    | _ => s
  | .ret c =>
    match (s.calls c).phase with
    | .cleared ret => s.setCall c { s.calls c with phase := .returned ret }
    | _ => s

end Waiters

/-! ## what holds in every run -/

/-- the URB has been submitted -/
def CallPhase.submitted : CallPhase → Bool
  | .waiting | .woken _ | .cleared _ | .returned _ | .sent => true
  | _ => false

/-- the result, once it is known -/
def CallPhase.ret? : CallPhase → Option Bool
  | .woken r | .cleared r | .returned r => some r
  | _ => none

/-- the pointer has been set and not been cleared by the call itself -/
def CallPhase.points : CallPhase → Bool
  | .linked | .waiting | .woken _ => true
  | _ => false

/-- the URB has not completed -/
def MgntUrb.pending : MgntUrb → Bool
  | .none | .active => true
  | .completed _ => false

namespace Waiters

/-- of call `a`, which is `x` -/
structure CallInv (bufs : Nat → ExtBuf) (a : Nat) (x : MgntCall) : Prop where
  urb : x.phase.submitted = true ↔ x.urb ≠ .none
  hold : x.phase ≠ .idle → x.urb.pending = true → (bufs x.buf).free = false ∧ (bufs x.buf).holder = a
  done : x.sctx.done = true → ∃ ok, x.urb = .completed ok ∧ x.sctx.waitResult = ok
  link : x.phase = .linked ∨ x.phase = .waiting → x.urb.pending = true →
    (bufs x.buf).sctx = some a ∨ x.wiped = true
  wiped : x.wiped = true → (x.phase.points = true ∨ x.phase.submitted = true) ∧
    (x.urb.pending = true → (bufs x.buf).sctx ≠ some a)
  inTime : x.inTime = true → x.urb = .completed true
  result : x.phase.ret? = some true → x.urb = .completed true

/-- of a buffer with a pointer to call `a`, which is `x` -/
structure BufInv (b a : Nat) (y : ExtBuf) (x : MgntCall) : Prop where
  buf : x.buf = b
  holder : y.holder = a
  free : y.free = false
  pending : x.urb.pending = true
  points : x.phase.points = true

structure Inv (s : Waiters) : Prop where
  call : ∀ a, CallInv s.bufs a (s.calls a)
  buf : ∀ b a, (s.bufs b).sctx = some a → BufInv b a (s.bufs b) (s.calls a)
  held : ∀ b, (s.bufs b).free = false →
    (s.calls (s.bufs b).holder).buf = b ∧ (s.calls (s.bufs b).holder).phase ≠ .idle
  lateWrite : s.lateWrite = false

variable {s : Waiters} {a b c : Nat} {x : MgntCall} {y : ExtBuf}

theorem inv_init : ({} : Waiters).Inv where
  call _ := ⟨⟨nofun, fun h => absurd rfl h⟩, fun h => absurd rfl h, nofun, nofun, nofun, nofun, nofun⟩
  buf _ _ h := nomatch h
  held _ h := nomatch h
  lateWrite := rfl

theorem calls_setCall_self : (s.setCall c x).calls c = x := Function.update_self ..

theorem calls_setCall_ne (h : a ≠ c) : (s.setCall c x).calls a = s.calls a := Function.update_of_ne h ..

theorem bufs_setBuf_self : (s.setBuf b y).bufs b = y := Function.update_self ..

theorem doneErr_none {st : SctxStatus} (h : (s.bufs b).sctx = none) : s.doneErr b st = s := by
  unfold doneErr
  rw [h]

theorem Inv.sctx_of_free (h : s.Inv) (hf : (s.bufs b).free = true) : (s.bufs b).sctx = none := by
  cases hs : (s.bufs b).sctx with
  | none => rfl
  | some a =>
    have hfree := (h.buf b a hs).free
    rw [hf] at hfree
    cases hfree

/-- a step that only moves a call on -/
theorem Inv.setCall (h : s.Inv) (hbuf : x.buf = (s.calls c).buf) (hidle : x.phase ≠ .idle)
    (hx : CallInv s.bufs c x)
    (hptr : (s.bufs (s.calls c).buf).sctx = some c → x.urb.pending = true ∧ x.phase.points = true) :
    (s.setCall c x).Inv := by
  refine ⟨fun a => ?_, fun b a hs => ?_, fun b hf => ?_, h.lateWrite⟩
  · by_cases ha : a = c
    · subst ha
      rw [calls_setCall_self]
      exact hx
    · rw [calls_setCall_ne ha]
      exact h.call a
  · have hb := h.buf b a hs
    by_cases ha : a = c
    · subst ha
      rw [calls_setCall_self]
      obtain ⟨hp, hq⟩ := hptr (by rw [hb.buf]; exact hs)
      exact ⟨hbuf.trans hb.buf, hb.holder, hb.free, hp, hq⟩
    · rw [calls_setCall_ne ha]
      exact hb
  · obtain ⟨hb, hp⟩ := h.held b hf
    change ((s.setCall c x).calls (s.bufs b).holder).buf = b ∧ ((s.setCall c x).calls (s.bufs b).holder).phase ≠ .idle
    by_cases ha : (s.bufs b).holder = c
    · rw [ha, calls_setCall_self]
      rw [ha] at hb
      exact ⟨hbuf.trans hb, hidle⟩
    · rw [calls_setCall_ne ha]
      exact ⟨hb, hp⟩

/-- before the submission nothing has happened to the context and the URB -/
theorem CallInv.unsubmitted {bufs : Nat → ExtBuf} (h : CallInv bufs a x) (hp : x.phase.submitted = false) :
    x.urb = .none ∧ x.sctx.done = false ∧ x.inTime = false := by
  have hu : x.urb = .none := by
    by_contra hne
    rw [h.urb.mpr hne] at hp
    cases hp
  refine ⟨hu, ?_, ?_⟩
  · rw [← Bool.not_eq_true]
    intro hd
    obtain ⟨ok, hok, -⟩ := h.done hd
    rw [hu] at hok
    cases hok
  · rw [← Bool.not_eq_true]
    intro ht
    have hok := h.inTime ht
    rw [hu] at hok
    cases hok

theorem CallInv.not_wiped {bufs : Nat → ExtBuf} (h : CallInv bufs a x) (hp : x.phase.submitted = false)
    (hq : x.phase.points = false) : x.wiped = false := by
  rw [← Bool.not_eq_true]
  intro hw
  rcases (h.wiped hw).1 with h' | h'
  · rw [hq] at h'
    cases h'
  · rw [hp] at h'
    cases h'

/-- the pointer in its buffer is not this call's -/
theorem Inv.not_pointed (h : s.Inv) (hq : (s.calls c).phase.points = false) :
    (s.bufs b).sctx ≠ some c := by
  intro hs
  have hp := (h.buf b c hs).points
  rw [hq] at hp
  cases hp

theorem Inv.init (h : s.Inv) (hp : (s.calls c).phase = .allocated) :
    (s.setCall c { s.calls c with phase := .inited, sctx := {} }).Inv := by
  have hc := h.call c
  obtain ⟨hu, -, ht⟩ := hc.unsubmitted (by rw [hp]; rfl)
  have hw := hc.not_wiped (by rw [hp]; rfl) (by rw [hp]; rfl)
  refine h.setCall rfl nofun ⟨?_, fun _ => hc.hold (by rw [hp]; exact nofun), nofun, fun hl => ?_, fun hw' => ?_,
    hc.inTime, nofun⟩ fun hs => absurd hs (h.not_pointed (by rw [hp]; rfl))
  · exact ⟨nofun, fun hne => absurd hu hne⟩
  · rcases hl with hl | hl <;> cases hl
  · exact absurd (hw.symm.trans hw') Bool.false_ne_true

theorem Inv.submit (h : s.Inv) (hp : (s.calls c).phase = .linked) :
    (s.setCall c { s.calls c with phase := .waiting, urb := .active }).Inv := by
  have hc := h.call c
  obtain ⟨hu, hd, ht⟩ := hc.unsubmitted (by rw [hp]; rfl)
  have hpend : (s.calls c).urb.pending = true := by rw [hu]; rfl
  refine h.setCall rfl nofun ⟨⟨fun _ => nofun, fun _ => rfl⟩, fun _ _ => hc.hold (by rw [hp]; decide) hpend, fun hd' => ?_,
    fun _ _ => hc.link (Or.inl hp) hpend, fun hw => ⟨Or.inl rfl, fun _ => (hc.wiped hw).2 hpend⟩, fun ht' => ?_,
    nofun⟩ fun _ => ⟨rfl, rfl⟩
  · exact absurd (hd.symm.trans hd') Bool.false_ne_true
  · exact absurd (ht.symm.trans ht') Bool.false_ne_true

theorem Inv.dump (h : s.Inv) (hp : (s.calls c).phase = .allocated) :
    (s.setCall c { s.calls c with phase := .sent, urb := .active }).Inv := by
  have hc := h.call c
  obtain ⟨hu, hd, ht⟩ := hc.unsubmitted (by rw [hp]; rfl)
  have hw := hc.not_wiped (by rw [hp]; rfl) (by rw [hp]; rfl)
  have hpend : (s.calls c).urb.pending = true := by rw [hu]; rfl
  refine h.setCall rfl nofun ⟨⟨fun _ => nofun, fun _ => rfl⟩, fun _ _ => hc.hold (by rw [hp]; decide) hpend, fun hd' => ?_,
    fun hl => ?_, fun hw' => ?_, fun ht' => ?_, nofun⟩
    fun hs => absurd hs (h.not_pointed (by rw [hp]; rfl))
  · exact absurd (hd.symm.trans hd') Bool.false_ne_true
  · rcases hl with hl | hl <;> cases hl
  · exact absurd (hw.symm.trans hw') Bool.false_ne_true
  · exact absurd (ht.symm.trans ht') Bool.false_ne_true

/-- the wait is over -/
theorem Inv.woken {r : Bool} (h : s.Inv) (hp : (s.calls c).phase = .waiting)
    (hr : r = true → (s.calls c).sctx.done = true ∧ (s.calls c).sctx.waitResult = true) :
    (s.setCall c { s.calls c with phase := .woken r }).Inv := by
  have hc := h.call c
  have hu : (s.calls c).urb ≠ .none := hc.urb.mp (by rw [hp]; rfl)
  refine h.setCall rfl nofun ⟨⟨fun _ => hu, fun _ => rfl⟩, fun _ => hc.hold (by rw [hp]; exact nofun), hc.done, fun hl => ?_,
    fun hw => ⟨Or.inl rfl, (hc.wiped hw).2⟩, hc.inTime, fun hr' => ?_⟩
    fun hs => ⟨(h.buf _ c hs).pending, rfl⟩
  · rcases hl with hl | hl <;> cases hl
  · obtain ⟨hd, hres⟩ := hr (Option.some.inj hr')
    obtain ⟨ok, hok, hok'⟩ := hc.done hd
    rw [hok, ← hok', hres]

theorem Inv.ret {r : Bool} (h : s.Inv) (hp : (s.calls c).phase = .cleared r) :
    (s.setCall c { s.calls c with phase := .returned r }).Inv := by
  have hc := h.call c
  have hu : (s.calls c).urb ≠ .none := hc.urb.mp (by rw [hp]; rfl)
  refine h.setCall rfl nofun ⟨⟨fun _ => hu, fun _ => rfl⟩, fun _ => hc.hold (by rw [hp]; exact nofun), hc.done, fun hl => ?_,
    fun hw => ⟨Or.inr rfl, (hc.wiped hw).2⟩, hc.inTime, fun hr => hc.result ?_⟩
    fun hs => absurd hs (h.not_pointed (by rw [hp]; rfl))
  · rcases hl with hl | hl <;> cases hl
  · rw [hp]
    exact hr

/-- a step that writes a buffer keeps what it says of the call it is for -/
theorem CallInv.setBuf {bufs : Nat → ExtBuf} (h : CallInv bufs a x)
    (hy : x.buf = b → x.phase ≠ .idle → x.urb.pending = true →
      (y.free = false ∧ y.holder = a) ∧ ((bufs b).sctx = some a → y.sctx = some a))
    (hn : y.sctx = some a → (bufs b).sctx = some a) : CallInv (Function.update bufs b y) a x := by
  refine ⟨h.urb, fun hp hu => ?_, h.done, fun hl hu => ?_, fun hw => ⟨(h.wiped hw).1, fun hu => ?_⟩, h.inTime, h.result⟩
  · by_cases hb : x.buf = b
    · rw [hb, Function.update_self]
      exact (hy hb hp hu).1
    · rw [Function.update_of_ne hb]
      exact h.hold hp hu
  · by_cases hb : x.buf = b
    · have hidle : x.phase ≠ .idle := by rcases hl with hl | hl <;> rw [hl] <;> exact nofun
      have hlink := h.link hl hu
      rw [hb] at hlink ⊢
      rw [Function.update_self]
      exact hlink.imp_left (hy hb hidle hu).2
    · rw [Function.update_of_ne hb]
      exact h.link hl hu
  · have hold := (h.wiped hw).2 hu
    by_cases hb : x.buf = b
    · rw [hb, Function.update_self]
      rw [hb] at hold
      exact fun hs => hold (hn hs)
    · rw [Function.update_of_ne hb]
      exact hold

/-- what the buffer of a call in flight says of another call -/
theorem Inv.not_holder (h : s.Inv) (ha : (s.bufs b).holder ≠ a) (hb : (s.calls a).buf = b)
    (hp : (s.calls a).phase ≠ .idle) (hu : (s.calls a).urb.pending = true) : False := by
  have hold := ((h.call a).hold hp hu).2
  rw [hb] at hold
  exact ha hold

/-- a step that moves a call on and writes a buffer -/
theorem Inv.setCallBuf (h : s.Inv) (hx : CallInv (Function.update s.bufs b y) c x)
    (hcalls : ∀ a, a ≠ c → CallInv (Function.update s.bufs b y) a (s.calls a))
    (hsctx : ∀ a, y.sctx = some a → BufInv b a y (Function.update s.calls c x a))
    (hptr : ∀ b', b' ≠ b → (s.bufs b').sctx ≠ some c)
    (hfree : y.free = false → (Function.update s.calls c x y.holder).buf = b
      ∧ (Function.update s.calls c x y.holder).phase ≠ .idle)
    (hidle : x.phase ≠ .idle) (hbuf : x.buf = (s.calls c).buf ∨ (s.calls c).phase = .idle) :
    ((s.setCall c x).setBuf b y).Inv := by
  refine ⟨fun a => ?_, fun b' a hs => ?_, fun b' hf => ?_, h.lateWrite⟩
  · show CallInv (Function.update s.bufs b y) a (Function.update s.calls c x a)
    by_cases ha : a = c
    · subst ha
      rw [Function.update_self]
      exact hx
    · rw [Function.update_of_ne ha]
      exact hcalls a ha
  · change (Function.update s.bufs b y b').sctx = some a at hs
    show BufInv b' a (Function.update s.bufs b y b') (Function.update s.calls c x a)
    by_cases hb : b' = b
    · subst hb
      rw [Function.update_self] at hs ⊢
      exact hsctx a hs
    · rw [Function.update_of_ne hb] at hs ⊢
      have ha : a ≠ c := fun ha => hptr b' hb (ha ▸ hs)
      rw [Function.update_of_ne ha]
      exact h.buf b' a hs
  · change (Function.update s.bufs b y b').free = false at hf
    show (Function.update s.calls c x (Function.update s.bufs b y b').holder).buf = b'
      ∧ (Function.update s.calls c x (Function.update s.bufs b y b').holder).phase ≠ .idle
    by_cases hb : b' = b
    · subst hb
      rw [Function.update_self] at hf ⊢
      exact hfree hf
    · rw [Function.update_of_ne hb] at hf ⊢
      obtain ⟨hb', hp⟩ := h.held b' hf
      by_cases ha : (s.bufs b').holder = c
      · rw [ha] at hb' hp ⊢
        rw [Function.update_self]
        exact ⟨(hbuf.resolve_right hp).trans hb', hidle⟩
      · rw [Function.update_of_ne ha]
        exact ⟨hb', hp⟩

theorem Inv.alloc (h : s.Inv) (hp : (s.calls c).phase = .idle) (hf : (s.bufs b).free = true) :
    (s.alloc c b).Inv := by
  have hs := h.sctx_of_free hf
  have hc := h.call c
  obtain ⟨hu, hd, ht⟩ := hc.unsubmitted (by rw [hp]; rfl)
  have hw := hc.not_wiped (by rw [hp]; rfl) (by rw [hp]; rfl)
  unfold Waiters.alloc
  rw [doneErr_none hs]
  refine h.setCallBuf ⟨⟨nofun, fun hne => absurd hu hne⟩, fun _ _ => ?_, fun hd' => ?_, fun hl => ?_, fun hw' => ?_,
    fun ht' => ?_, nofun⟩ (fun a ha => ?_) (fun a hs' => ?_) (fun b' _ => h.not_pointed (by rw [hp]; rfl))
    (fun _ => ?_) nofun (Or.inr hp)
  · rw [Function.update_self]
    exact ⟨rfl, rfl⟩
  · exact absurd (hd.symm.trans hd') Bool.false_ne_true
  · rcases hl with hl | hl <;> cases hl
  · exact absurd (hw.symm.trans hw') Bool.false_ne_true
  · exact absurd (ht.symm.trans ht') Bool.false_ne_true
  · refine (h.call a).setBuf (fun hb hidle hpend => ?_) id
    have hfree := ((h.call a).hold hidle hpend).1
    rw [hb, hf] at hfree
    cases hfree
  · exact nomatch hs.symm.trans hs'
  · rw [Function.update_self]
    exact ⟨rfl, nofun⟩

theorem Inv.link (h : s.Inv) (hp : (s.calls c).phase = .inited) :
    ((s.setCall c { s.calls c with phase := .linked }).setBuf (s.calls c).buf
      { s.bufs (s.calls c).buf with sctx := some c }).Inv := by
  have hc := h.call c
  obtain ⟨hu, hd, ht⟩ := hc.unsubmitted (by rw [hp]; rfl)
  have hw := hc.not_wiped (by rw [hp]; rfl) (by rw [hp]; rfl)
  have hpend : (s.calls c).urb.pending = true := by rw [hu]; rfl
  obtain ⟨hfree, hold⟩ := hc.hold (by rw [hp]; exact nofun) hpend
  refine h.setCallBuf ⟨⟨nofun, fun hne => absurd hu hne⟩, fun _ _ => ?_, hc.done, fun _ _ => Or.inl ?_, fun hw' => ?_,
    hc.inTime, nofun⟩ (fun a ha => ?_) (fun a hs => ?_) (fun b' _ => h.not_pointed (by rw [hp]; rfl))
    (fun _ => ?_) nofun (Or.inl rfl)
  · rw [Function.update_self]
    exact ⟨hfree, hold⟩
  · rw [Function.update_self]
  · exact absurd (hw.symm.trans hw') Bool.false_ne_true
  · refine (h.call a).setBuf (fun hb hidle hpend' => (h.not_holder ?_ hb hidle hpend').elim) fun hs => ?_
    · rw [hold]
      exact fun hca => ha hca.symm
    · exact absurd (Option.some.inj hs).symm ha
  · obtain rfl : c = a := Option.some.inj hs
    rw [Function.update_self]
    exact ⟨rfl, hold, hfree, hpend, rfl⟩
  · show (Function.update s.calls c _ (s.bufs (s.calls c).buf).holder).buf = (s.calls c).buf
      ∧ (Function.update s.calls c _ (s.bufs (s.calls c).buf).holder).phase ≠ .idle
    rw [hold, Function.update_self]
    exact ⟨rfl, nofun⟩

theorem complete_none {ok : Bool} (hs : (s.bufs b).sctx = none) :
    s.complete b ok = s.setCall (s.bufs b).holder { s.calls (s.bufs b).holder with
      urb := .completed ok
      inTime := ok && (s.calls (s.bufs b).holder).phase == .waiting } :=
  doneErr_none hs

/-- the pointer that is found is the one of the call the URB is for -/
theorem Inv.complete_some {ok : Bool} (h : s.Inv) (hs : (s.bufs b).sctx = some a) :
    s.complete b ok = (s.setCall a { s.calls a with
      urb := .completed ok
      inTime := ok && (s.calls a).phase == .waiting
      sctx := ⟨.ofUrb ok, true⟩ }).setBuf b { s.bufs b with sctx := none } := by
  have hb := h.buf b a hs
  have hnot : (s.calls a).phase.isReturned = false := by
    have hp := hb.points
    cases hph : (s.calls a).phase <;> rw [hph] at hp <;> first | rfl | cases hp
  simp only [Waiters.complete, doneErr, hb.holder, Waiters.setCall, setBuf, hs, Function.update_self,
    Function.update_idem, hnot, Bool.or_false]

theorem Inv.complete {ok : Bool} (h : s.Inv) (hf : (s.bufs b).free = false) (hu : s.urbOf b = .active) :
    (s.complete b ok).Inv := by
  obtain ⟨hbuf, hidle⟩ := h.held b hf
  have hc := h.call (s.bufs b).holder
  change (s.calls (s.bufs b).holder).urb = .active at hu
  have hsub : (s.calls (s.bufs b).holder).phase.submitted = true := hc.urb.mpr (by rw [hu]; exact nofun)
  have hin : (ok && (s.calls (s.bufs b).holder).phase == .waiting) = true → ok = true := by
    rintro hin
    rw [Bool.and_eq_true] at hin
    exact hin.1
  have hret : (s.calls (s.bufs b).holder).phase.ret? ≠ some true := by
    intro hr
    have hok := hc.result hr
    rw [hu] at hok
    cases hok
  cases hs : (s.bufs b).sctx with
  | none =>
    rw [complete_none hs]
    refine h.setCall rfl hidle ⟨⟨fun _ => nofun, fun _ => hsub⟩, nofun, fun hd => ?_, nofun,
      fun _ => ⟨Or.inr hsub, nofun⟩, fun ht => by rw [hin ht], fun hr => absurd hr hret⟩ fun hs' => ?_
    · obtain ⟨ok', hok, -⟩ := hc.done hd
      rw [hu] at hok
      cases hok
    · rw [hbuf, hs] at hs'
      cases hs'
  | some a =>
    have hb := h.buf b a hs
    have hold := hb.holder
    rw [hold] at hbuf hidle hc hsub hin hret
    rw [h.complete_some hs]
    refine h.setCallBuf ⟨⟨fun _ => nofun, fun _ => hsub⟩, nofun, fun _ => ⟨ok, rfl, SctxStatus.waitResult_ofUrb ok⟩, nofun,
      fun _ => ⟨Or.inr hsub, nofun⟩, fun ht => by rw [hin ht], fun hr => absurd hr hret⟩ (fun a' ha => ?_) nofun
      (fun b' hb' hs' => hb' ?_) (fun _ => ?_) hidle (Or.inl rfl)
    · refine (h.call a').setBuf (fun hb' hp hpend => (h.not_holder ?_ hb' hp hpend).elim) nofun
      rw [hold]
      exact fun haa => ha haa.symm
    · exact (h.buf b' a hs').buf.symm.trans hbuf
    · show (Function.update s.calls a _ (s.bufs b).holder).buf = b
        ∧ (Function.update s.calls a _ (s.bufs b).holder).phase ≠ .idle
      rw [hold, Function.update_self]
      exact ⟨hbuf, hidle⟩

/-- a buffer goes back without a pointer -/
theorem Inv.sctx_of_completed {ok : Bool} (h : s.Inv) (hu : s.urbOf b = .completed ok) : (s.bufs b).sctx = none := by
  cases hs : (s.bufs b).sctx with
  | none => rfl
  | some a =>
    have hb := h.buf b a hs
    change (s.calls (s.bufs b).holder).urb = .completed ok at hu
    have hp := hb.pending
    rw [← hb.holder, hu] at hp
    cases hp

theorem Inv.free {ok : Bool} (h : s.Inv) (hu : s.urbOf b = .completed ok) : (s.freeBuf b).Inv := by
  have hs := h.sctx_of_completed hu
  unfold freeBuf
  rw [doneErr_none hs]
  refine ⟨fun a => ?_, fun b' a hs' => ?_, fun b' hf => ?_, h.lateWrite⟩
  · refine (h.call a).setBuf (fun hb hp hpend => ?_) id
    have hold := ((h.call a).hold hp hpend).2
    rw [hb] at hold
    change (s.calls (s.bufs b).holder).urb = .completed ok at hu
    rw [hold] at hu
    rw [hu] at hpend
    cases hpend
  · change (Function.update s.bufs b _ b').sctx = some a at hs'
    show BufInv b' a (Function.update s.bufs b _ b') (s.calls a)
    have hb : b' ≠ b := by
      rintro rfl
      rw [Function.update_self] at hs'
      exact nomatch hs.symm.trans hs'
    rw [Function.update_of_ne hb] at hs' ⊢
    exact h.buf b' a hs'
  · change (Function.update s.bufs b _ b').free = false at hf
    show (s.calls (Function.update s.bufs b _ b').holder).buf = b'
      ∧ (s.calls (Function.update s.bufs b _ b').holder).phase ≠ .idle
    have hb : b' ≠ b := by
      rintro rfl
      rw [Function.update_self] at hf
      cases hf
    rw [Function.update_of_ne hb] at hf ⊢
    exact h.held b' hf

/-- the pointer to call `a` is taken out of its buffer -/
theorem Inv.unlink {w : Bool} (h : s.Inv) (hs : (s.bufs b).sctx = some a)
    (hw : w = true ∨ ∃ r, (s.calls a).phase = .woken r) :
    ((s.setCall a { s.calls a with wiped := w || (s.calls a).wiped }).setBuf b
      { s.bufs b with sctx := none }).Inv := by
  have hb := h.buf b a hs
  have ha := h.call a
  have hidle : (s.calls a).phase ≠ .idle := by
    intro hp
    have hpts := hb.points
    rw [hp] at hpts
    cases hpts
  refine h.setCallBuf ⟨ha.urb, fun _ _ => ?_, ha.done, fun hl _ => Or.inr ?_, fun _ => ⟨Or.inl hb.points, fun _ => ?_⟩,
    ha.inTime, ha.result⟩ (fun a' ha' => ?_) nofun (fun b' hb' hs' => hb' ?_) (fun _ => ?_) hidle (Or.inl rfl)
  · show (Function.update s.bufs b _ (s.calls a).buf).free = false
      ∧ (Function.update s.bufs b _ (s.calls a).buf).holder = a
    rw [hb.buf, Function.update_self]
    exact ⟨hb.free, hb.holder⟩
  · rcases hw with rfl | ⟨r, hr⟩
    · rfl
    · change (s.calls a).phase = .linked ∨ (s.calls a).phase = .waiting at hl
      rw [hr] at hl
      rcases hl with hl | hl <;> cases hl
  · show (Function.update s.bufs b _ (s.calls a).buf).sctx ≠ some a
    rw [hb.buf, Function.update_self]
    exact nofun
  · refine (h.call a').setBuf (fun hb' hp hpend => (h.not_holder ?_ hb' hp hpend).elim) nofun
    rw [hb.holder]
    exact fun haa => ha' haa.symm
  · exact (h.buf b' a hs').buf.symm.trans hb.buf
  · show (Function.update s.calls a _ (s.bufs b).holder).buf = b
      ∧ (Function.update s.calls a _ (s.bufs b).holder).phase ≠ .idle
    rw [hb.holder, Function.update_self]
    exact ⟨hb.buf, hidle⟩

/-- a call whose wait is over and whose buffer has no pointer -/
theorem Inv.cleared {r : Bool} (h : s.Inv) (hp : (s.calls c).phase = .woken r)
    (hs : (s.bufs (s.calls c).buf).sctx = none) :
    (s.setCall c { s.calls c with phase := .cleared r }).Inv := by
  have hc := h.call c
  have hu : (s.calls c).urb ≠ .none := hc.urb.mp (by rw [hp]; rfl)
  refine h.setCall rfl nofun ⟨⟨fun _ => hu, fun _ => rfl⟩, fun _ => hc.hold (by rw [hp]; exact nofun), hc.done,
    fun hl => ?_, fun hw => ⟨Or.inr rfl, (hc.wiped hw).2⟩, hc.inTime, fun hr => hc.result ?_⟩
    fun hs' => nomatch hs.symm.trans hs'
  · rcases hl with hl | hl <;> cases hl
  · rw [hp]
    exact hr

theorem calls_markWiped : (s.markWiped c b).calls c = s.calls c := by
  unfold markWiped
  cases (s.bufs b).sctx with
  | none => rfl
  | some a =>
    show (if a = c then s else s.setCall a _).calls c = s.calls c
    split
    · rfl
    · next hac => exact calls_setCall_ne (Ne.symm hac)

theorem Inv.markWiped {r : Bool} (h : s.Inv) (hp : (s.calls c).phase = .woken r) :
    ((s.markWiped c b).setBuf b { s.bufs b with sctx := none }).Inv := by
  unfold Waiters.markWiped
  cases hs : (s.bufs b).sctx with
  | none =>
    have hbuf : { s.bufs b with sctx := none } = s.bufs b := by rw [← hs]
    show (s.setBuf b { s.bufs b with sctx := none }).Inv
    rw [hbuf, Waiters.setBuf, Function.update_eq_self]
    exact h
  | some a =>
    show ((if a = c then s else s.setCall a { s.calls a with wiped := true }).setBuf b
      { s.bufs b with sctx := none }).Inv
    by_cases hac : a = c
    · subst hac
      rw [if_pos rfl]
      have hinv := h.unlink (w := false) hs (Or.inr ⟨r, hp⟩)
      have hcall : s.setCall a (s.calls a) = s := by rw [Waiters.setCall, Function.update_eq_self]
      rw [← hcall]
      exact hinv
    · rw [if_neg hac]
      exact h.unlink (w := true) hs (Or.inl rfl)

theorem Inv.clear {r : Bool} (h : s.Inv) (hp : (s.calls c).phase = .woken r) : (s.clear c r).Inv := by
  have hinv := h.markWiped (b := (s.calls c).buf) hp
  have hcall : ((s.markWiped c (s.calls c).buf).setBuf (s.calls c).buf
      { s.bufs (s.calls c).buf with sctx := none }).calls c = s.calls c := calls_markWiped
  have hnone : (((s.markWiped c (s.calls c).buf).setBuf (s.calls c).buf
      { s.bufs (s.calls c).buf with sctx := none }).bufs (s.calls c).buf).sctx = none := by
    rw [bufs_setBuf_self]
  have hres := hinv.cleared (c := c) (by rw [hcall]; exact hp) (by rw [hcall]; exact hnone)
  rw [hcall] at hres
  exact hres

theorem inv_step (e : WaitEvent) (h : s.Inv) : (s.step e).Inv := by
  cases e with
  | alloc c b =>
    show (if (s.calls c).phase = .idle ∧ (s.bufs b).free = true then s.alloc c b else s).Inv
    split
    · next hc => exact h.alloc hc.1 hc.2
    · exact h
  | init c =>
    show (if _ then _ else s).Inv
    split
    · next hp => exact h.init hp
    · exact h
  | link c =>
    show (if _ then _ else s).Inv
    split
    · next hp => exact h.link hp
    · exact h
  | submit c =>
    show (if _ then _ else s).Inv
    split
    · next hp => exact h.submit hp
    · exact h
  | dump c =>
    show (if _ then _ else s).Inv
    split
    · next hp => exact h.dump hp
    · exact h
  | complete b ok =>
    show (if _ then _ else s).Inv
    split
    · next hc => exact h.complete hc.1 hc.2
    · exact h
  | free b =>
    show (match s.urbOf b with | .completed _ => _ | _ => s).Inv
    split
    · next ok hu =>
      split
      · exact h.free hu
      · exact h
    · exact h
  | wake c =>
    show (if _ then _ else s).Inv
    split
    · next hc => exact h.woken hc.1 fun hr => ⟨hc.2, hr⟩
    · exact h
  | timeout c =>
    show (if _ then _ else s).Inv
    split
    · next hc => exact h.woken hc.1 nofun
    · exact h
  | clear c =>
    show (match (s.calls c).phase with | .woken ret => s.clear c ret | _ => s).Inv
    split
    · next ret hp => exact h.clear hp
    · exact h
  | ret c =>
    show (match (s.calls c).phase with | .cleared ret => _ | _ => s).Inv
    split
    · next ret hp => exact h.ret hp
    · exact h

end Waiters

/-! ## the fate of a transfer -/

/-- the call has returned `_SUCCESS`, or will: its wait ends at once, with that -/
def MgntCall.learns (x : MgntCall) : Prop :=
  match x.phase.ret? with
  | some r => r = true
  | none => x.sctx.done = true ∧ x.sctx.waitResult = true

/-- what each caller should learn -/
structure Fate (s : Waiters) : Prop where
  delivered : ∀ c, (s.calls c).inTime = true → (s.calls c).learns
  result : ∀ c, (s.calls c).phase.ret? = some true → (s.calls c).urb = .completed true
  lateWrite : s.lateWrite = false

namespace Waiters

/-- no other call cleared the pointer of a call whose URB completes in time -/
def unwiped (s : Waiters) : WaitEvent → Prop
  | .complete b true =>
    (s.bufs b).free = false ∧ s.urbOf b = .active → (s.calls (s.bufs b).holder).phase = .waiting →
      (s.calls (s.bufs b).holder).wiped = false
  | _ => True

def Delivered (s : Waiters) : Prop := ∀ c, (s.calls c).inTime = true → (s.calls c).learns

variable {s : Waiters} {b c : Nat} {x : MgntCall} {y : ExtBuf}

theorem Delivered.setCall (h : s.Delivered) (hx : x.inTime = true → x.learns) : (s.setCall c x).Delivered := by
  intro a
  by_cases ha : a = c
  · subst ha
    rw [calls_setCall_self]
    exact hx
  · rw [calls_setCall_ne ha]
    exact h a

theorem Delivered.setBuf (h : s.Delivered) : (s.setBuf b y).Delivered := h

/-- before the submission -/
theorem Inv.not_inTime (h : s.Inv) (hp : (s.calls c).phase.submitted = false) : (s.calls c).inTime ≠ true := by
  rw [((h.call c).unsubmitted hp).2.2]
  exact nofun

theorem Inv.done_of_active (h : s.Inv) (hu : (s.calls c).urb = .active) : (s.calls c).sctx.done = false := by
  rw [← Bool.not_eq_true]
  intro hd
  obtain ⟨ok, hok, -⟩ := (h.call c).done hd
  rw [hu] at hok
  cases hok

theorem Delivered.complete {ok : Bool} (h : s.Delivered) (hI : s.Inv) (hf : (s.bufs b).free = false)
    (hu : s.urbOf b = .active) (hC : s.unwiped (.complete b ok)) : (s.complete b ok).Delivered := by
  cases hs : (s.bufs b).sctx with
  | some a =>
    rw [hI.complete_some hs]
    refine (h.setCall fun hin => ?_).setBuf
    obtain ⟨rfl, hph⟩ := Bool.and_eq_true_iff.mp hin
    have hret : (s.calls a).phase.ret? = none := by rw [eq_of_beq hph]; rfl
    show match (s.calls a).phase.ret? with | some r => r = true | none => true = true ∧ _ = true
    rw [hret]
    exact ⟨rfl, rfl⟩
  | none =>
    rw [complete_none hs]
    refine h.setCall fun hin => ?_
    -- then another call has cleared the pointer
    obtain ⟨rfl, hph⟩ := Bool.and_eq_true_iff.mp hin
    have hwait := eq_of_beq hph
    have hpend : (s.calls (s.bufs b).holder).urb.pending = true := by
      change (s.calls (s.bufs b).holder).urb = .active at hu
      rw [hu]
      rfl
    have hlink := (hI.call (s.bufs b).holder).link (Or.inr hwait) hpend
    rw [(hI.held b hf).1, hs, hC ⟨hf, hu⟩ hwait] at hlink
    rcases hlink with hlink | hlink <;> cases hlink

theorem Delivered.wake (h : s.Delivered) (hp : (s.calls c).phase = .waiting) :
    (s.setCall c { s.calls c with phase := .woken (s.calls c).sctx.waitResult }).Delivered := by
  refine h.setCall fun hin => ?_
  have hl := h c hin
  unfold MgntCall.learns at hl
  rw [hp] at hl
  exact hl.2

theorem Delivered.timeout (h : s.Delivered) (hp : (s.calls c).phase = .waiting) (hd : (s.calls c).sctx.done = false) :
    (s.setCall c { s.calls c with phase := .woken false }).Delivered := by
  refine h.setCall fun hin => ?_
  have hl := h c hin
  unfold MgntCall.learns at hl
  rw [hp] at hl
  exact absurd (hd.symm.trans hl.1) Bool.false_ne_true

/-- a step of the caller that keeps its result -/
theorem Delivered.move {p : CallPhase} (h : s.Delivered) (hp : p.ret? = (s.calls c).phase.ret?) :
    (s.setCall c { s.calls c with phase := p }).Delivered := by
  refine h.setCall fun hin => ?_
  have hl := h c hin
  unfold MgntCall.learns at hl ⊢
  rw [← hp] at hl
  exact hl

theorem Delivered.markWiped (h : s.Delivered) : (s.markWiped c b).Delivered := by
  unfold Waiters.markWiped
  split
  · exact h
  · next a _ =>
    split
    · exact h
    · exact h.setCall (h a)

theorem delivered_step (e : WaitEvent) (hI : s.Inv) (h : s.Delivered) (hC : s.unwiped e) : (s.step e).Delivered := by
  cases e with
  | alloc c b =>
    show (if (s.calls c).phase = .idle ∧ (s.bufs b).free = true then s.alloc c b else s).Delivered
    split
    · next hc =>
      unfold Waiters.alloc
      rw [doneErr_none (hI.sctx_of_free hc.2)]
      refine Delivered.setBuf (h.setCall fun hin => ?_)
      exact absurd hin (hI.not_inTime (by rw [hc.1]; rfl))
    · exact h
  | init c =>
    show (if _ then _ else s).Delivered
    split
    · next hp => exact h.setCall fun hin => absurd hin (hI.not_inTime (by rw [hp]; rfl))
    · exact h
  | link c =>
    show (if _ then _ else s).Delivered
    split
    · next hp =>
      refine Delivered.setBuf (h.setCall fun hin => ?_)
      exact absurd hin (hI.not_inTime (by rw [hp]; rfl))
    · exact h
  | submit c =>
    show (if _ then _ else s).Delivered
    split
    · next hp => exact h.setCall fun hin => absurd hin (hI.not_inTime (by rw [hp]; rfl))
    · exact h
  | dump c =>
    show (if _ then _ else s).Delivered
    split
    · next hp => exact h.setCall fun hin => absurd hin (hI.not_inTime (by rw [hp]; rfl))
    · exact h
  | complete b ok =>
    show (if _ then _ else s).Delivered
    split
    · next hc => exact h.complete hI hc.1 hc.2 hC
    · exact h
  | free b =>
    show (match s.urbOf b with | .completed _ => _ | _ => s).Delivered
    split
    · next ok hu =>
      split
      · unfold freeBuf
        rw [doneErr_none (hI.sctx_of_completed hu)]
        exact h.setBuf
      · exact h
    · exact h
  | wake c =>
    show (if _ then _ else s).Delivered
    split
    · next hc => exact h.wake hc.1
    · exact h
  | timeout c =>
    show (if _ then _ else s).Delivered
    split
    · next hc => exact h.timeout hc.1 hc.2
    · exact h
  | clear c =>
    show (match (s.calls c).phase with | .woken ret => s.clear c ret | _ => s).Delivered
    split
    · next ret hp =>
      unfold Waiters.clear
      have hm : ((s.markWiped c (s.calls c).buf).setBuf (s.calls c).buf
          { s.bufs (s.calls c).buf with sctx := none }).Delivered := h.markWiped.setBuf
      refine hm.setCall fun hin => ?_
      have hl := h c hin
      unfold MgntCall.learns at hl
      rw [hp] at hl
      exact hl
    · exact h
  | ret c =>
    show (match (s.calls c).phase with | .cleared ret => _ | _ => s).Delivered
    split
    · next ret hp => exact h.move (by rw [hp]; rfl)
    · exact h

/-- a completion in time that finds no pointer is lost -/
theorem Inv.lost (h : s.Inv) (hf : (s.bufs b).free = false) (hu : s.urbOf b = .active)
    (hp : (s.calls (s.bufs b).holder).phase = .waiting) (hw : (s.calls (s.bufs b).holder).wiped = true) :
    ¬ (s.complete b true).Delivered := by
  intro hd
  have hpend : (s.calls (s.bufs b).holder).urb.pending = true := by
    change (s.calls (s.bufs b).holder).urb = .active at hu
    rw [hu]
    rfl
  have hne := ((h.call _).wiped hw).2 hpend
  rw [(h.held b hf).1] at hne
  have hs : (s.bufs b).sctx = none := by
    cases hs : (s.bufs b).sctx with
    | none => rfl
    | some a => exact absurd ((h.buf b a hs).holder ▸ hs) hne
  have hl := hd (s.bufs b).holder
  rw [complete_none hs, calls_setCall_self] at hl
  replace hl := hl (by rw [hp]; rfl)
  unfold MgntCall.learns at hl
  rw [hp] at hl
  exact absurd ((h.done_of_active hu).symm.trans hl.1) Bool.false_ne_true

end Waiters

theorem Waiters.Inv.fate {s : Waiters} (h : s.Inv) (hd : s.Delivered) : Fate s :=
  ⟨hd, fun c => (h.call c).result, h.lateWrite⟩

theorem delivered_run (es : List WaitEvent) (hC : Run.Along Waiters.step Waiters.unwiped {} es) :
    (Run.run Waiters.step {} es).Inv ∧ (Run.run Waiters.step {} es).Delivered :=
  Run.run_inv (I := fun s => s.Inv ∧ s.Delivered)
    (fun _ e h hC => ⟨Waiters.inv_step e h.1, Waiters.delivered_step e h.1 h.2 hC⟩) _ es
    ⟨Waiters.inv_init, nofun⟩ hC

/-- **Every caller learns the fate of its transfer in exactly the runs in which no call clears the
pointer of a call whose URB is about to complete in time.** -/
theorem fate_iff (es : List WaitEvent) :
    (∀ es', es' <+: es → Fate (Run.run Waiters.step {} es'))
      ↔ Run.Along Waiters.step Waiters.unwiped {} es := by
  refine Run.always_iff_along Waiters.inv_init (fun _ => Waiters.inv_step) (fun es hC => ?_)
    (fun s e hI _ hF => ?_) es
  · obtain ⟨hI, hd⟩ := delivered_run es hC
    exact hI.fate hd
  · cases e with
    | complete b ok =>
      cases ok with
      | false => exact trivial
      | true =>
        intro hc hp
        rw [← Bool.not_eq_true]
        intro hw
        have hstep : s.step (.complete b true) = s.complete b true := if_pos hc
        rw [hstep] at hF
        exact hI.lost hc.1 hc.2 hp hw hF.delivered
    | _ => exact trivial

/-- two calls get the same buffer; the first clears the pointer of the second -/
theorem fate_lost : ¬ ∀ es, Fate (Run.run Waiters.step {} es) := by
  intro h
  have hf := h [.alloc 0 7, .init 0, .link 0, .submit 0, .complete 7 true, .free 7,
    .alloc 1 7, .init 1, .link 1, .wake 0, .clear 0, .submit 1, .complete 7 true, .free 7,
    .timeout 1, .clear 1, .ret 1]
  exact absurd (hf.delivered 1 rfl) Bool.false_ne_true

end Rtl8192eu
