import Mathlib.Data.List.Basic
import Rtl8192eu.Xmit.SubmitCtx

/-!
# Waiting for the report of a management frame

`dump_mgntframe_and_wait_ack_timeout` of `core/rtw_mlme_ext.c` waits on the one `ack_tx_ops` of the
primary adapter, under `ack_tx_mutex`.  `C2HTxFeedbackHandler_8192E` completes it for any report that
comes while `ack_tx` is set.

* `AckTx.step`     one part of a call, or one report;
* `AckTx.report`   `c2h_handler_8192e`, `rtw_ack_tx_done`;
* `Answered`       the answers are those of the call's own frame;
* `answered_iff`   the runs in which they are.

The firmware reports the frames in the order of their submission, once each, at any time.
-/

namespace Rtl8192eu

/-- `GET_8192E_C2H_TX_RPT_RETRY_OVER` or `.._LIFE_TIME_OVER` -/
def txRptFailed (cmdBuf : List Nat) : Bool :=
  (cmdBuf.headD 0).testBit 7 || (cmdBuf.headD 0).testBit 6

/-- the status `C2HTxFeedbackHandler_8192E` gives to `rtw_ack_tx_done` -/
def txFeedbackStatus (cmdBuf : List Nat) : SctxStatus :=
  if txRptFailed cmdBuf then .doneCcxPktFail else .doneSuccess

inductive AckPhase where
  /-- no call has the mutex -/
  | idle
  /-- `ack_tx` and `seq_no` are set -/
  | opened
  /-- after `rtw_sctx_init` -/
  | inited
  | waiting
  | woken (ret : Bool)
  deriving DecidableEq, Repr

structure AckTx where
  ackTx : Bool := false
  seqNo : UInt8 := 0
  /-- the static counter of `dump_mgntframe_and_wait_ack_timeout` -/
  nextSeqNo : UInt8 := 0
  ackTxOps : SubmitCtx := {}
  phase : AckPhase := .idle
  /-- the number of the call that has the mutex, or of the next one -/
  call : Nat := 0
  /-- the calls whose frame has not been reported -/
  inFlight : List Nat := []
  /-- the report of a call's frame: acknowledged or not -/
  reported : Nat → Option Bool := fun _ => none
  /-- what a call returned -/
  returned : Nat → Option Bool := fun _ => none

inductive AckEvent where
  | begin
  | init
  /-- `rtw_hal_mgnt_xmit`, with its result -/
  | submit (ok : Bool)
  /-- a `C2H_CCX_TX_RPT` for the next frame -/
  | report (cmdBuf : List Nat)
  | wake
  | timeout
  /-- `ack_tx` is reset and the mutex released -/
  | finish
  deriving DecidableEq, Repr

namespace AckTx

/-- `rtw_ack_tx_done` -/
def ackTxDone (s : AckTx) (status : SctxStatus) : AckTx :=
  if s.ackTx = true then { s with ackTxOps := ⟨status, true⟩ } else s

def begin (s : AckTx) : AckTx :=
  { s with phase := .opened, ackTx := true, seqNo := s.nextSeqNo, nextSeqNo := s.nextSeqNo + 1 }

def submit (s : AckTx) (ok : Bool) : AckTx :=
  if ok = true then { s with phase := .waiting, inFlight := s.inFlight ++ [s.call] }
  else { s with phase := .woken false }

/-- the report of frame `c`, which does not say that it is of frame `c` -/
def report (s : AckTx) (cmdBuf : List Nat) (c : Nat) (rest : List Nat) : AckTx :=
  { s with inFlight := rest, reported := Function.update s.reported c (some (!txRptFailed cmdBuf)) }.ackTxDone
    (txFeedbackStatus cmdBuf)

def finish (s : AckTx) (ret : Bool) : AckTx :=
  { s with
    phase := .idle
    ackTx := false
    call := s.call + 1
    returned := Function.update s.returned s.call (some ret) }

def step (s : AckTx) : AckEvent → AckTx
  | .begin => if s.phase = .idle then s.begin else s
  | .init => if s.phase = .opened then { s with phase := .inited, ackTxOps := {} } else s
  | .submit ok => if s.phase = .inited then s.submit ok else s
  | .report cmdBuf =>
    match s.inFlight with
    | [] => s
    | c :: rest => s.report cmdBuf c rest
  | .wake =>
    if s.phase = .waiting ∧ s.ackTxOps.done = true then { s with phase := .woken s.ackTxOps.waitResult } else s
  | .timeout =>
    if s.phase = .waiting ∧ s.ackTxOps.done = false then { s with phase := .woken false } else s
  | .finish =>
    match s.phase with
    | .woken ret => s.finish ret
    | _ => s

end AckTx

/-! ## the frames in flight -/

/-- the context is the one the call will read -/
def AckPhase.listening : AckPhase → Bool
  | .inited | .waiting => true
  | _ => false

/-- the frame has been given to the hardware -/
def AckPhase.submitted : AckPhase → Bool
  | .waiting | .woken _ => true
  | _ => false

namespace AckTx

structure Inv (s : AckTx) : Prop where
  sorted : s.inFlight.Pairwise (· < ·)
  bound : ∀ c ∈ s.inFlight, c < s.call ∨ c = s.call ∧ s.phase.submitted = true
  fresh : ∀ c ∈ s.inFlight, s.reported c = none
  later : ∀ c, s.call ≤ c → (c = s.call → s.phase.submitted = false) → s.reported c = none
  /-- the report of the last frame is the last -/
  last : s.reported s.call ≠ none → s.inFlight = []
  flag : s.ackTx = true ↔ s.phase ≠ .idle
  past : ∀ c, s.returned c ≠ none → c < s.call

variable {s : AckTx}

theorem inv_init : ({} : AckTx).Inv where
  sorted := List.Pairwise.nil
  bound _ h := nomatch h
  fresh _ h := nomatch h
  later _ _ _ := rfl
  last h := absurd rfl h
  flag := ⟨nofun, fun h => absurd rfl h⟩
  past _ h := absurd rfl h

/-- the call moves on; it has not submitted its frame and does not -/
theorem Inv.early (h : s.Inv) {x : SubmitCtx} {p : AckPhase} (hs : s.phase.submitted = false) (hi : s.phase ≠ .idle)
    (hp : p ≠ .idle) : ({ s with phase := p, ackTxOps := x } : AckTx).Inv where
  sorted := h.sorted
  bound c hc := by
    rcases h.bound c hc with hlt | ⟨-, hsub⟩
    · exact Or.inl hlt
    · exact absurd (hs.symm.trans hsub) Bool.false_ne_true
  fresh := h.fresh
  later c hc _ := h.later c hc fun _ => hs
  last := h.last
  flag := ⟨fun _ => hp, fun _ => h.flag.mpr hi⟩
  past := h.past

/-- the call moves on after its submission -/
theorem Inv.late (h : s.Inv) {r : Bool} (hs : s.phase.submitted = true) :
    ({ s with phase := .woken r } : AckTx).Inv where
  sorted := h.sorted
  bound c hc := (h.bound c hc).imp_right fun hb => ⟨hb.1, rfl⟩
  fresh := h.fresh
  later c hc hn := h.later c hc fun he => nomatch hn he
  last := h.last
  flag := ⟨fun _ => nofun, fun _ => h.flag.mpr fun hi => by rw [hi] at hs; cases hs⟩
  past := h.past

theorem Inv.begin (h : s.Inv) (hp : s.phase = .idle) : s.begin.Inv where
  sorted := h.sorted
  bound c hc := by
    rcases h.bound c hc with hlt | ⟨-, hsub⟩
    · exact Or.inl hlt
    · rw [hp] at hsub
      cases hsub
  fresh := h.fresh
  later c hc _ := h.later c hc fun _ => by rw [hp]; rfl
  last := h.last
  flag := ⟨fun _ => nofun, fun _ => rfl⟩
  past := h.past

theorem Inv.submit (h : s.Inv) {ok : Bool} (hp : s.phase = .inited) : (s.submit ok).Inv := by
  have hlt : ∀ c ∈ s.inFlight, c < s.call := by
    intro c hc
    rcases h.bound c hc with hlt | ⟨-, hsub⟩
    · exact hlt
    · rw [hp] at hsub
      cases hsub
  have hnone : s.reported s.call = none := h.later s.call (Nat.le_refl _) fun _ => by rw [hp]; rfl
  have hflag : s.ackTx = true := h.flag.mpr (by rw [hp]; exact nofun)
  unfold AckTx.submit
  split
  · refine ⟨?_, fun c hc => ?_, fun c hc => ?_, fun c hc hn => ?_, fun hr => absurd hnone hr, ⟨fun _ => nofun, fun _ => hflag⟩,
      h.past⟩
    · refine List.pairwise_append.mpr ⟨h.sorted, List.pairwise_singleton .., fun c hc c' hc' => ?_⟩
      rw [List.mem_singleton.mp hc']
      exact hlt c hc
    · rcases List.mem_append.mp hc with hc | hc
      · exact Or.inl (hlt c hc)
      · exact Or.inr ⟨List.mem_singleton.mp hc, rfl⟩
    · rcases List.mem_append.mp hc with hc | hc
      · exact h.fresh c hc
      · rw [List.mem_singleton.mp hc]
        exact hnone
    · exact h.later c hc fun _ => by rw [hp]; rfl
  · exact ⟨h.sorted, fun c hc => Or.inl (hlt c hc), h.fresh, fun c hc hn => h.later c hc fun _ => by rw [hp]; rfl,
      h.last, ⟨fun _ => nofun, fun _ => hflag⟩, h.past⟩

theorem Inv.finish (h : s.Inv) {r : Bool} : (s.finish r).Inv where
  sorted := h.sorted
  bound c hc := by
    refine Or.inl (Nat.lt_succ_of_le ?_)
    rcases h.bound c hc with hlt | ⟨he, -⟩
    · exact Nat.le_of_lt hlt
    · exact Nat.le_of_eq he
  fresh := h.fresh
  later c hc _ := h.later c (Nat.le_of_succ_le hc) fun he => absurd hc (by rw [he]; exact Nat.not_succ_le_self _)
  last hr := absurd (h.later (s.call + 1) (Nat.le_succ _) fun he => absurd he (Nat.succ_ne_self _)) hr
  flag := ⟨nofun, fun hi => absurd rfl hi⟩
  past c hr := by
    change Function.update s.returned s.call (some r) c ≠ none at hr
    by_cases hc : c = s.call
    · rw [hc]
      exact Nat.lt_succ_self _
    · rw [Function.update_of_ne hc] at hr
      exact Nat.lt_succ_of_lt (h.past c hr)

/-- what a report changes -/
theorem report_eq {cmdBuf : List Nat} {c : Nat} {rest : List Nat} : s.report cmdBuf c rest =
    { s with
      inFlight := rest
      reported := Function.update s.reported c (some (!txRptFailed cmdBuf))
      ackTxOps := if s.ackTx = true then ⟨txFeedbackStatus cmdBuf, true⟩ else s.ackTxOps } := by
  unfold report ackTxDone
  split <;> rfl

theorem Inv.report (h : s.Inv) {cmdBuf : List Nat} {c : Nat} {rest : List Nat} (hf : s.inFlight = c :: rest) :
    (s.report cmdBuf c rest).Inv := by
  have hsorted := h.sorted
  rw [hf, List.pairwise_cons] at hsorted
  have hmem : ∀ a ∈ rest, a ∈ s.inFlight := fun a ha => hf ▸ List.mem_cons_of_mem c ha
  have hc : c ∈ s.inFlight := hf ▸ List.mem_cons_self
  rw [report_eq]
  refine ⟨hsorted.2, fun a ha => h.bound a (hmem a ha), fun a ha => ?_, fun a ha hn => ?_, fun hr => ?_, h.flag, h.past⟩
  · have hne : a ≠ c := Nat.ne_of_gt (hsorted.1 a ha)
    exact (Function.update_of_ne hne ..).trans (h.fresh a (hmem a ha))
  · have hne : a ≠ c := by
      rintro rfl
      rcases h.bound a hc with hlt | ⟨he, hsub⟩
      · exact absurd ha (Nat.not_le_of_lt hlt)
      · rw [hn he] at hsub
        cases hsub
    exact (Function.update_of_ne hne ..).trans (h.later a ha hn)
  · refine List.eq_nil_iff_forall_not_mem.mpr fun a ha => ?_
    change Function.update s.reported c _ s.call ≠ none at hr
    -- the frame of the call is the last one
    have hca : c < a := hsorted.1 a ha
    have hle : a ≤ s.call := by
      rcases h.bound a (hmem a ha) with hlt | ⟨he, -⟩
      · exact Nat.le_of_lt hlt
      · exact Nat.le_of_eq he
    have hne : s.call ≠ c := Nat.ne_of_gt (Nat.lt_of_lt_of_le hca hle)
    rw [Function.update_of_ne hne] at hr
    have hnil := h.last hr
    rw [hf] at hnil
    cases hnil

theorem inv_step (e : AckEvent) (h : s.Inv) : (s.step e).Inv := by
  cases e with
  | begin =>
    show (if s.phase = .idle then s.begin else s).Inv
    split
    · next hp => exact h.begin hp
    · exact h
  | init =>
    show (if _ then _ else s).Inv
    split
    · next hp => exact h.early (by rw [hp]; rfl) (by rw [hp]; exact nofun) nofun
    · exact h
  | submit ok =>
    show (if _ then _ else s).Inv
    split
    · next hp => exact h.submit hp
    · exact h
  | report cmdBuf =>
    show (match s.inFlight with | [] => s | c :: rest => s.report cmdBuf c rest).Inv
    split
    · exact h
    · next c rest hf => exact h.report hf
  | wake =>
    show (if _ then _ else s).Inv
    split
    · next hc => exact h.late (by rw [hc.1]; rfl)
    · exact h
  | timeout =>
    show (if _ then _ else s).Inv
    split
    · next hc => exact h.late (by rw [hc.1]; rfl)
    · exact h
  | finish =>
    show (match s.phase with | .woken ret => s.finish ret | _ => s).Inv
    split
    · exact h.finish
    · exact h

end AckTx

/-! ## the answers -/

/-- what a call returns, or would return now, is `_SUCCESS` only for a frame that was acknowledged -/
structure Answered (s : AckTx) : Prop where
  returned : ∀ c, s.returned c = some true → s.reported c = some true
  woken : s.phase = .woken true → s.reported s.call = some true
  listening : s.phase.listening = true → s.ackTxOps.done = true → s.ackTxOps.waitResult = true →
    s.reported s.call = some true

namespace AckTx

/-- a report that comes while a call listens, and says that a frame was acknowledged, is of its frame -/
def ownReport (s : AckTx) : AckEvent → Prop
  | .report cmdBuf =>
    s.phase.listening = true → txRptFailed cmdBuf = false → ∀ c, s.inFlight.head? = some c → c = s.call
  | _ => True

variable {s : AckTx}

/-- a report says nothing new of a call that has been answered -/
theorem Answered.kept (cmdBuf : List Nat) {c a : Nat} {rest : List Nat} (hI : s.Inv) (hf : s.inFlight = c :: rest)
    (ha : s.reported a = some true) : (s.report cmdBuf c rest).reported a = some true := by
  have hne : a ≠ c := by
    rintro rfl
    have hnone := hI.fresh a (hf ▸ List.mem_cons_self)
    rw [ha] at hnone
    cases hnone
  rw [report_eq]
  exact (Function.update_of_ne hne ..).trans ha

theorem txFeedbackStatus_waitResult {cmdBuf : List Nat} :
    SubmitCtx.waitResult ⟨txFeedbackStatus cmdBuf, true⟩ = !txRptFailed cmdBuf := by
  unfold txFeedbackStatus
  cases txRptFailed cmdBuf <;> rfl

theorem Inv.active (h : s.Inv) (hp : s.phase.listening = true) : s.ackTx = true :=
  h.flag.mpr fun hi => by rw [hi] at hp; cases hp

theorem Answered.report {cmdBuf : List Nat} {c : Nat} {rest : List Nat} (h : Answered s) (hI : s.Inv)
    (hf : s.inFlight = c :: rest) (hC : s.ownReport (.report cmdBuf)) : Answered (s.report cmdBuf c rest) := by
  refine ⟨fun a ha => ?_, fun hp => ?_, fun hl hd hr => ?_⟩
  · rw [report_eq] at ha
    exact Answered.kept cmdBuf hI hf (h.returned a ha)
  · rw [report_eq] at hp
    have hrep := Answered.kept cmdBuf hI hf (h.woken hp)
    rw [report_eq] at hrep ⊢
    exact hrep
  · rw [report_eq] at hl hr ⊢
    change (if s.ackTx = true then SubmitCtx.mk (txFeedbackStatus cmdBuf) true else s.ackTxOps).waitResult = true at hr
    rw [if_pos (hI.active hl), txFeedbackStatus_waitResult, Bool.not_eq_true'] at hr
    have hc : c = s.call := hC hl hr c (by rw [hf]; rfl)
    show Function.update s.reported c (some (!txRptFailed cmdBuf)) s.call = some true
    rw [hc, Function.update_self, hr]
    rfl

theorem Answered.step (e : AckEvent) (h : Answered s) (hI : s.Inv) (hC : s.ownReport e) : Answered (s.step e) := by
  cases e with
  | begin =>
    show Answered (if s.phase = .idle then s.begin else s)
    split
    · exact ⟨h.returned, nofun, nofun⟩
    · exact h
  | init =>
    show Answered (if _ then _ else s)
    split
    · exact ⟨h.returned, nofun, nofun⟩
    · exact h
  | submit ok =>
    show Answered (if _ then s.submit ok else s)
    split
    · next hp =>
      unfold AckTx.submit
      split
      · exact ⟨h.returned, nofun, fun _ => h.listening (by rw [hp]; rfl)⟩
      · exact ⟨h.returned, nofun, nofun⟩
    · exact h
  | report cmdBuf =>
    show Answered (match s.inFlight with | [] => s | c :: rest => s.report cmdBuf c rest)
    split
    · exact h
    · next c rest hf => exact Answered.report h hI hf hC
  | wake =>
    show Answered (if _ then _ else s)
    split
    · next hc =>
      refine ⟨h.returned, fun hw => ?_, nofun⟩
      exact h.listening (by rw [hc.1]; rfl) hc.2 (AckPhase.woken.inj hw)
    · exact h
  | timeout =>
    show Answered (if _ then _ else s)
    split
    · exact ⟨h.returned, nofun, nofun⟩
    · exact h
  | finish =>
    show Answered (match s.phase with | .woken ret => s.finish ret | _ => s)
    split
    · next ret hp =>
      refine ⟨fun c hc => ?_, nofun, nofun⟩
      change Function.update s.returned s.call (some ret) c = some true at hc
      by_cases hcc : c = s.call
      · rw [hcc, Function.update_self] at hc
        rw [hcc]
        exact h.woken (by rw [hp, Option.some.inj hc])
      · rw [Function.update_of_ne hcc] at hc
        exact h.returned c hc
    · exact h

/-- the report of another frame is taken for the one of the call's -/
theorem Answered.own {cmdBuf : List Nat} (hI : s.Inv) (h : Answered (s.step (.report cmdBuf))) :
    s.ownReport (.report cmdBuf) := by
  intro hl hr c hc
  obtain ⟨rest, hf⟩ := List.head?_eq_some_iff.mp hc
  have hstep : s.step (.report cmdBuf) = s.report cmdBuf c rest := by
    unfold AckTx.step
    rw [hf]
  rw [hstep, report_eq] at h
  have hown := h.listening hl (by rw [if_pos (hI.active hl)]) (by
    rw [if_pos (hI.active hl), txFeedbackStatus_waitResult, hr]
    rfl)
  by_contra hne
  change Function.update s.reported c _ s.call = some true at hown
  rw [Function.update_of_ne (Ne.symm hne)] at hown
  have hnil := hI.last (by rw [hown]; exact nofun)
  rw [hf] at hnil
  cases hnil

end AckTx

theorem answered_init : Answered {} := ⟨nofun, nofun, nofun⟩

/-- **A call returns `_SUCCESS` only for its own acknowledged frame, in exactly the runs in which no
late report of an earlier frame says "acknowledged" while a call listens.** -/
theorem answered_iff (es : List AckEvent) :
    (∀ es', es' <+: es → Answered (Run.run AckTx.step {} es'))
      ↔ Run.Along AckTx.step AckTx.ownReport {} es := by
  refine Run.always_iff_along AckTx.inv_init (fun _ => AckTx.inv_step) (fun es hC => ?_) (fun s e hI _ hA => ?_) es
  · exact (Run.run_inv (I := fun s => s.Inv ∧ Answered s)
      (fun _ e h hC => ⟨AckTx.inv_step e h.1, AckTx.Answered.step e h.2 h.1 hC⟩) _ es
      ⟨AckTx.inv_init, answered_init⟩ hC).2
  · cases e with
    | report cmdBuf => exact AckTx.Answered.own hI hA
    | _ => exact trivial

/-- the first frame is reported after its wait; the report ends the wait for the second -/
theorem answered_late : ¬ ∀ es c, (Run.run AckTx.step {} es).returned c = some true →
    (Run.run AckTx.step {} es).reported c = some true := by
  intro h
  have hc := h [.begin, .init, .submit true, .timeout, .finish,
    .begin, .init, .submit true, .report [0], .wake, .finish, .report [128]] 1 rfl
  cases hc

end Rtl8192eu
