import Mathlib.Data.List.Nodup
import Mathlib.Logic.Function.Basic
import Rtl8192eu.Lib.Run

/-!
# Stopping and waking the queues of the system

`rtw_alloc_xmitframe` takes a frame under the lock of the free queue and then looks whether the
subqueue of the packet has to stop; `rtw_free_xmitframe` returns the frame under the lock and then
looks whether its subqueue may wake.  What happens behind the lock is cut into steps.

* `XmitPriv.step`   one step of one context;
* `Owed s q`       somebody will wake the subqueue `q`;
* `WakeCond`       a frame is freed as it was taken, and its subqueue not left stopped;
* `stopped_owed`   the invariant of the runs in which that is so.
-/

namespace Rtl8192eu

open Run

namespace OsQueue

def nrXmitframe : Nat := 256

/-- `WMM_XMIT_THRESHOLD` -/
def wmmXmitThreshold : Int := nrXmitframe * 2 / 5

inductive Place where
  | free
  /-- `rtw_alloc_xmitframe` of this context has not returned it yet -/
  | inAlloc (k : Nat)
  | owned
  /-- in the pending queue of an access category -/
  | pending (ac : Nat)
  deriving DecidableEq, Repr

structure Frame where
  place : Place := .free
  osQid : Nat := 0
  deriving DecidableEq, Repr

/-- where a context is, behind a lock -/
inductive Call where
  | idle
  | checkStop (f q : Nat)
  | stop (f q : Nat)
  /-- `rtw_free_xmitframe` has returned `f`, which was taken for `q`, and reads its `os_qid` next -/
  | readQid (f q : Nat)
  | needWake (q : Nat)
  | wake (q : Nat)
  deriving DecidableEq, Repr

/-- `struct xmit_priv` and the queues of the system -/
structure XmitPriv where
  freeXmitQueue : List Nat := List.range nrXmitframe
  freeXmitframeCnt : Int := nrXmitframe
  frame : Nat → Frame := fun _ => {}
  /-- `hwxmits[ac].accnt` -/
  accnt : Nat → Int := fun _ => 0
  stopped : Nat → Bool := fun _ => false
  call : Nat → Call := fun _ => .idle

variable (wifiSpec : Bool)

def rtwOsNeedStopQueue (s : XmitPriv) (q : Nat) : Bool :=
  if wifiSpec then decide (wmmXmitThreshold < s.accnt q) else decide (s.freeXmitframeCnt ≤ 4)

def rtwOsNeedWakeQueue (s : XmitPriv) (q : Nat) : Bool :=
  if wifiSpec then decide (s.accnt q < wmmXmitThreshold) else true

namespace XmitPriv

def setCall (s : XmitPriv) (k : Nat) (c : Call) : XmitPriv :=
  { s with call := Function.update s.call k c }

def setPlace (s : XmitPriv) (f : Nat) (p : Place) : XmitPriv :=
  { s with frame := Function.update s.frame f { s.frame f with place := p } }

end XmitPriv

inductive Ev where
  /-- `rtw_alloc_xmitframe` -/
  | alloc (k q : Nat)
  /-- `rtw_xmit_classifier`, after `do_queue_select` -/
  | classify (f ac : Nat)
  | dequeue (f : Nat)
  /-- `rtw_free_xmitframe` -/
  | free (k f : Nat)
  /-- the context goes on behind the lock -/
  | go (k : Nat)
  deriving DecidableEq, Repr

def XmitPriv.step (s : XmitPriv) : Ev → XmitPriv
  | .alloc k q =>
    if s.call k = .idle then
      match s.freeXmitQueue with
      | [] => s
      | f :: rest =>
        { s with
          freeXmitQueue := rest
          freeXmitframeCnt := s.freeXmitframeCnt - 1
          frame := Function.update s.frame f ⟨.inAlloc k, q⟩
          call := Function.update s.call k (.checkStop f q) }
    else s
  | .classify f ac =>
    if (s.frame f).place = .owned then
      { s.setPlace f (.pending ac) with accnt := Function.update s.accnt ac (s.accnt ac + 1) }
    else s
  | .dequeue f =>
    match (s.frame f).place with
    | .pending ac =>
      { s.setPlace f .owned with accnt := Function.update s.accnt ac (s.accnt ac - 1) }
    | _ => s
  | .free k f =>
    if s.call k = .idle ∧ (s.frame f).place = .owned then
      { (s.setPlace f .free).setCall k (.readQid f (s.frame f).osQid) with
        freeXmitQueue := s.freeXmitQueue ++ [f]
        freeXmitframeCnt := s.freeXmitframeCnt + 1 }
    else s
  | .go k =>
    match s.call k with
    | .idle => s
    | .checkStop f q =>
      if rtwOsNeedStopQueue wifiSpec s q then s.setCall k (.stop f q)
      else (s.setPlace f .owned).setCall k .idle
    | .stop f q =>
      { (s.setPlace f .owned).setCall k .idle with stopped := Function.update s.stopped q true }
    | .readQid f _ => s.setCall k (.needWake (s.frame f).osQid)
    | .needWake q => s.setCall k (if rtwOsNeedWakeQueue wifiSpec s q then .wake q else .idle)
    | .wake q => { s.setCall k .idle with stopped := Function.update s.stopped q false }

/-! ## what is asked -/

/-- a frame that was taken for `q` and is not in the free queue -/
def Taken (s : XmitPriv) (f q : Nat) : Prop := (s.frame f).place ≠ .free ∧ (s.frame f).osQid = q

/-- **A stopped subqueue has a frame that will wake it.** -/
def StoppedOwed (s : XmitPriv) : Prop :=
  (∀ k, s.call k = .idle) → ∀ q, s.stopped q = true → ∃ f, Taken s f q

/-- a context that is about to wake `q` -/
def Call.wakes : Call → Nat → Prop
  | .readQid _ q, q' => q = q'
  | .needWake q, q' => q = q'
  | .wake q, q' => q = q'
  | _, _ => False

/-- somebody else than the context `k` will wake `q` -/
def OwedBut (k : Nat) (s : XmitPriv) (q : Nat) : Prop :=
  (∃ f, Taken s f q) ∨ ∃ k', k' ≠ k ∧ (s.call k').wakes q

/-- a frame is freed for the subqueue it was taken for, and a subqueue that stays stopped is left to
somebody else -/
def WakeCond (s : XmitPriv) : Ev → Prop
  | .go k =>
    match s.call k with
    | .readQid f q => (s.frame f).osQid = q
    | .needWake q => rtwOsNeedWakeQueue wifiSpec s q = true ∨ s.stopped q = false ∨ OwedBut k s q
    | _ => True
  | _ => True

/-! ## the invariant -/

def Owed (s : XmitPriv) (q : Nat) : Prop := (∃ f, Taken s f q) ∨ ∃ k, (s.call k).wakes q

/-- the frame and the subqueue of a context in `rtw_alloc_xmitframe` -/
def Call.allocs : Call → Nat → Nat → Prop
  | .checkStop f q, f', q' => f = f' ∧ q = q'
  | .stop f q, f', q' => f = f' ∧ q = q'
  | _, _, _ => False

/-- a context in `rtw_alloc_xmitframe` has its frame -/
def AllocOk (frame : Nat → Frame) (call : Nat → Call) : Prop :=
  ∀ k f q, (call k).allocs f q → (frame f).place = .inAlloc k ∧ (frame f).osQid = q

def FreeOk (queue : List Nat) (frame : Nat → Frame) : Prop :=
  ∀ f ∈ queue, (frame f).place = .free

structure Inv (s : XmitPriv) : Prop where
  nodup : s.freeXmitQueue.Nodup
  free : FreeOk s.freeXmitQueue s.frame
  alloc : AllocOk s.frame s.call
  owed : ∀ q, s.stopped q = true → Owed s q

def XmitPriv.init : XmitPriv := {}

theorem init_inv : Inv .init where
  nodup := by
    simp only [XmitPriv.init, List.nodup_range]
  free _ _ := rfl
  alloc _ _ _ h := False.elim h
  owed _ h := Bool.noConfusion h

variable {wifiSpec} {s s' : XmitPriv} {k f q : Nat} {rest : List Nat} {c : Call} {p : Place}

/-- what a step does -/
inductive Step (s : XmitPriv) : XmitPriv → Prop
  | stay : Step s s
  | take (k q f : Nat) (rest : List Nat) (cnt : Int) (hk : s.call k = .idle)
      (hq : s.freeXmitQueue = f :: rest) :
      Step s { s with
        freeXmitQueue := rest
        freeXmitframeCnt := cnt
        frame := Function.update s.frame f ⟨.inAlloc k, q⟩
        call := Function.update s.call k (.checkStop f q) }
  /-- a frame is put into a pending queue, or taken out -/
  | move (f : Nat) (p : Place) (accnt : Nat → Int) (hf : (s.frame f).place ≠ .free)
      (hk : ∀ k, (s.frame f).place ≠ .inAlloc k) (hp : p ≠ .free) :
      Step s { s.setPlace f p with accnt := accnt }
  | mustStop (k f q : Nat) (hk : s.call k = .checkStop f q) : Step s (s.setCall k (.stop f q))
  /-- `rtw_alloc_xmitframe` returns, and has stopped its subqueue or not -/
  | allocated (k f q : Nat) (stopped : Nat → Bool) (hk : (s.call k).allocs f q)
      (hs : ∀ q', stopped q' = true → s.stopped q' = true ∨ q' = q) :
      Step s { (s.setPlace f .owned).setCall k .idle with stopped := stopped }
  | free (k f : Nat) (cnt : Int) (hk : s.call k = .idle) (hf : (s.frame f).place = .owned) :
      Step s { (s.setPlace f .free).setCall k (.readQid f (s.frame f).osQid) with
        freeXmitQueue := s.freeXmitQueue ++ [f]
        freeXmitframeCnt := cnt }
  | goOn (k q : Nat) (c : Call) (hk : (s.call k).wakes q) (hc : c.wakes q) : Step s (s.setCall k c)
  | leave (k q : Nat) (hk : s.call k = .needWake q) (hq : s.stopped q = false ∨ OwedBut k s q) :
      Step s (s.setCall k .idle)
  | wake (k q : Nat) (hk : s.call k = .wake q) :
      Step s { s.setCall k .idle with stopped := Function.update s.stopped q false }

theorem step_cases (s : XmitPriv) (e : Ev) (hC : WakeCond wifiSpec s e) :
    Step s (s.step wifiSpec e) := by
  cases e with
  | alloc k q =>
    rw [XmitPriv.step]
    split
    · rename_i hk
      split
      · exact .stay
      · rename_i f rest hq
        exact .take k q f rest _ hk hq
    · exact .stay
  | classify f ac =>
    rw [XmitPriv.step]
    split
    · rename_i hf
      exact .move f _ _ (by rw [hf]; exact Place.noConfusion) (by rw [hf]; exact fun _ => Place.noConfusion)
        Place.noConfusion
    · exact .stay
  | dequeue f =>
    rw [XmitPriv.step]
    split
    · rename_i ac hf
      exact .move f _ _ (by rw [hf]; exact Place.noConfusion) (by rw [hf]; exact fun _ => Place.noConfusion)
        Place.noConfusion
    · exact .stay
  | free k f =>
    rw [XmitPriv.step]
    split
    · rename_i h
      exact .free k f _ h.1 h.2
    · exact .stay
  | go k =>
    unfold WakeCond at hC
    dsimp only at hC
    rw [XmitPriv.step]
    cases hk : s.call k with
    | idle => exact .stay
    | checkStop f q =>
      dsimp only
      split
      · exact .mustStop k f q hk
      · exact .allocated k f q s.stopped (by rw [hk]; exact ⟨rfl, rfl⟩) fun _ h => Or.inl h
    | stop f q =>
      refine .allocated k f q _ (by rw [hk]; exact ⟨rfl, rfl⟩) ?_
      intro q' h
      by_cases hq : q' = q
      · exact Or.inr hq
      · rw [Function.update_of_ne hq] at h
        exact Or.inl h
    | readQid f q =>
      rw [hk] at hC
      exact .goOn k q _ (by rw [hk]; exact rfl) hC
    | needWake q =>
      rw [hk] at hC
      dsimp only
      split
      · exact .goOn k q _ (by rw [hk]; exact rfl) rfl
      · rename_i hno
        exact .leave k q hk (hC.resolve_left hno)
    | wake q => exact .wake k q hk

/-! ## who owes a wake -/

theorem Owed.setCall {k q : Nat} (h : Owed s q) (hk : (s.call k).wakes q → c.wakes q) :
    Owed (s.setCall k c) q := by
  rcases h with hf | ⟨k', hk'⟩
  · exact Or.inl hf
  · refine Or.inr ⟨k', ?_⟩
    show (Function.update s.call k c k').wakes q
    by_cases hkk : k' = k
    · subst hkk
      rw [Function.update_self]
      exact hk hk'
    · rw [Function.update_of_ne hkk]
      exact hk'

/-- a frame that is not returned is still owed -/
theorem Owed.setFrame {q : Nat} {fr : Frame} (h : Owed s q)
    (hfr : Taken s f q → fr.place ≠ .free ∧ fr.osQid = q) :
    Owed { s with frame := Function.update s.frame f fr } q := by
  rcases h with ⟨f', hf'⟩ | hk
  · refine Or.inl ⟨f', ?_⟩
    show (Function.update s.frame f fr f').place ≠ .free ∧ (Function.update s.frame f fr f').osQid = q
    by_cases hff : f' = f
    · subst hff
      rw [Function.update_self]
      exact hfr hf'
    · rw [Function.update_of_ne hff]
      exact hf'
  · exact Or.inr hk

theorem AllocOk.setCall {frame : Nat → Frame} {call : Nat → Call} (h : AllocOk frame call)
    (hc : ∀ f q, c.allocs f q → (frame f).place = .inAlloc k ∧ (frame f).osQid = q) :
    AllocOk frame (Function.update call k c) := by
  intro k' f q ha
  by_cases hkk : k' = k
  · subst hkk
    rw [Function.update_self] at ha
    exact hc f q ha
  · rw [Function.update_of_ne hkk] at ha
    exact h k' f q ha

/-- a frame changes that no context has -/
theorem AllocOk.setFrame {frame : Nat → Frame} {call : Nat → Call} {fr : Frame}
    (h : AllocOk frame call)
    (hf : ∀ k, (frame f).place = .inAlloc k → ∀ f' q, ¬ (call k).allocs f' q) :
    AllocOk (Function.update frame f fr) call := by
  intro k' f' q ha
  rw [Function.update_of_ne]
  · exact h k' f' q ha
  · rintro rfl
    exact hf k' (h k' f' q ha).1 f' q ha

theorem FreeOk.setFrame {queue : List Nat} {frame : Nat → Frame} {fr : Frame}
    (h : FreeOk queue frame) (hf : f ∉ queue) : FreeOk queue (Function.update frame f fr) := by
  intro f' hf'
  rw [Function.update_of_ne]
  · exact h f' hf'
  · rintro rfl
    exact hf hf'

theorem Inv.not_mem (h : Inv s) (hf : (s.frame f).place ≠ .free) : f ∉ s.freeXmitQueue :=
  fun hin => hf (h.free f hin)

/-- **Every step keeps the invariant.** -/
theorem Inv.of_step (h : Inv s) (hs : Step s s') : Inv s' := by
  cases hs with
  | stay => exact h
  | take k q f rest cnt hk hq =>
    have hnd := h.nodup
    have hfree : (s.frame f).place = .free := h.free f (by rw [hq]; exact List.mem_cons_self)
    rw [hq] at hnd
    obtain ⟨hnot, hnd'⟩ := List.nodup_cons.mp hnd
    have hrest : FreeOk rest s.frame := fun f' hf' => h.free f' (by
      rw [hq]
      exact List.mem_cons_of_mem _ hf')
    refine ⟨hnd', hrest.setFrame hnot, ?_, ?_⟩
    · refine (h.alloc.setFrame fun k' hk' => ?_).setCall ?_
      · rw [hfree] at hk'
        cases hk'
      · rintro f' q' ⟨rfl, rfl⟩
        rw [Function.update_self]
        exact ⟨rfl, rfl⟩
    · intro q' hst
      have ho : Owed (s.setCall k (.checkStop f q)) q' :=
        (h.owed q' hst).setCall fun hw => by rw [hk] at hw; exact hw.elim
      exact ho.setFrame fun ht => absurd hfree ht.1
  | move f p accnt hf hk hp =>
    refine ⟨h.nodup, h.free.setFrame (h.not_mem hf), ?_, ?_⟩
    · exact h.alloc.setFrame fun k hk' => absurd hk' (hk k)
    · intro q' hst
      exact (h.owed q' hst).setFrame fun ht => ⟨hp, ht.2⟩
  | mustStop k f q hk =>
    refine ⟨h.nodup, h.free, h.alloc.setCall fun f' q' ha => ?_, fun q' hst => ?_⟩
    · exact h.alloc k f' q' (by rw [hk]; exact ha)
    · exact (h.owed q' hst).setCall fun hw => by rw [hk] at hw; exact hw.elim
  | allocated k f q stopped hk hs =>
    obtain ⟨hplace, hqid⟩ := h.alloc k f q hk
    have hnw : ∀ q', ¬ (s.call k).wakes q' := by
      intro q' hw
      cases hc : s.call k with
      | checkStop | stop => rw [hc] at hw; exact hw
      | idle | readQid | needWake | wake => rw [hc] at hk; exact hk
    have hne : (s.frame f).place ≠ .free := by rw [hplace]; exact Place.noConfusion
    refine ⟨h.nodup, h.free.setFrame (h.not_mem hne), ?_, ?_⟩
    · refine (h.alloc.setCall (c := .idle) fun f' q' ha => ha.elim).setFrame
        fun k' hk' f' q' ha => ?_
      rw [hplace] at hk'
      cases hk'
      rw [Function.update_self] at ha
      exact ha
    · intro q' hst
      rcases hs q' hst with hold | rfl
      · have ho : Owed (s.setCall k .idle) q' :=
          (h.owed q' hold).setCall fun hw => (hnw q' hw).elim
        exact ho.setFrame fun ht => ⟨Place.noConfusion, ht.2⟩
      · refine Or.inl ⟨f, ?_⟩
        show (Function.update s.frame f _ f).place ≠ _ ∧ (Function.update s.frame f _ f).osQid = _
        rw [Function.update_self]
        exact ⟨Place.noConfusion, hqid⟩
  | free k f cnt hk hf =>
    have hnot := h.not_mem (f := f) (by rw [hf]; exact Place.noConfusion)
    refine ⟨?_, ?_, ?_, ?_⟩
    · refine List.nodup_append.mpr ⟨h.nodup, List.nodup_singleton f, ?_⟩
      rintro a ha b hb rfl
      exact hnot (List.mem_singleton.mp hb ▸ ha)
    · intro f' hf'
      rcases List.mem_append.mp hf' with hold | hnew
      · exact h.free.setFrame hnot f' hold
      · rw [List.mem_singleton.mp hnew]
        show (Function.update s.frame f _ f).place = _
        rw [Function.update_self]
    · refine (h.alloc.setFrame fun k' hk' => ?_).setCall fun f' q' ha => False.elim ha
      rw [hf] at hk'
      cases hk'
    · intro q' hst
      by_cases hq : (s.frame f).osQid = q'
      · -- the context owes what the frame owed
        refine Or.inr ⟨k, ?_⟩
        show (Function.update s.call k _ k).wakes q'
        rw [Function.update_self]
        exact hq
      · have ho : Owed (s.setCall k (.readQid f (s.frame f).osQid)) q' :=
          (h.owed q' hst).setCall fun hw => by rw [hk] at hw; exact hw.elim
        exact ho.setFrame fun ht => absurd ht.2 hq
  | goOn k q c hk hc =>
    refine ⟨h.nodup, h.free, h.alloc.setCall fun f' q' ha => ?_, fun q' hst => ?_⟩
    · cases c with
      | checkStop | stop => exact hc.elim
      | idle | readQid | needWake | wake => exact ha.elim
    · refine (h.owed q' hst).setCall fun hw => ?_
      have hqq : q = q' := by
        cases hck : s.call k with
        | readQid | needWake | wake => rw [hck] at hk hw; exact hk.symm.trans hw
        | idle | checkStop | stop => rw [hck] at hk; exact hk.elim
      rw [← hqq]
      exact hc
  | leave k q hk hq =>
    refine ⟨h.nodup, h.free, h.alloc.setCall fun f' q' ha => ha.elim, fun q' hst => ?_⟩
    by_cases hqq : q' = q
    · subst hqq
      rcases hq with hno | ⟨f, hf⟩ | ⟨k', hkk, hw⟩
      · exact absurd (show s.stopped q' = true from hst) (by rw [hno]; exact Bool.false_ne_true)
      · exact Or.inl ⟨f, hf⟩
      · refine Or.inr ⟨k', ?_⟩
        show (Function.update s.call k _ k').wakes q'
        rw [Function.update_of_ne hkk]
        exact hw
    · refine (h.owed q' hst).setCall fun hw => ?_
      rw [hk] at hw
      exact absurd hw.symm hqq
  | wake k q hk =>
    refine ⟨h.nodup, h.free, h.alloc.setCall fun f' q' ha => ha.elim, fun q' hst => ?_⟩
    have hst' : Function.update s.stopped q false q' = true := hst
    by_cases hqq : q' = q
    · rw [hqq, Function.update_self] at hst'
      cases hst'
    · rw [Function.update_of_ne hqq] at hst'
      have ho : Owed (s.setCall k .idle) q' := (h.owed q' hst').setCall fun hw => by
        rw [hk] at hw
        exact absurd hw.symm hqq
      exact ho

theorem Inv.stoppedOwed (h : Inv s) : StoppedOwed s := by
  intro hidle q hst
  rcases h.owed q hst with hf | ⟨k, hk⟩
  · exact hf
  · rw [hidle k] at hk
    exact hk.elim

end OsQueue

open OsQueue

/-- **A stopped subqueue has a frame that will wake it**, in both modes. -/
theorem stopped_owed {wifiSpec : Bool} (es : List OsQueue.Ev)
    (hC : Along (XmitPriv.step wifiSpec) (WakeCond wifiSpec) .init es) :
    StoppedOwed (run (XmitPriv.step wifiSpec) .init es) :=
  (run_inv (fun s e hs he => hs.of_step (step_cases s e he)) _ es init_inv hC).stoppedOwed

namespace OsQueue

variable {s : XmitPriv}

/-- a frame for subqueue 0 is taken, returned and wakes it -/
def oneFrame : List Ev := [.alloc 0 0, .go 0, .free 0 0, .go 0, .go 0, .go 0]

/-- frames of subqueue 1 with the priority of subqueue 0 -/
def fill (n : Nat) : List Ev :=
  (List.range n).flatMap fun f => [.alloc 0 1, .go 0, .classify f 0]

/-- one frame of subqueue 0 comes behind `n` of them and is dropped -/
def stuckRun (n : Nat) : List Ev :=
  fill n ++ [.alloc 0 0, .go 0, .go 0, .free 0 n, .go 0, .go 0]

/-- after `fill n` -/
structure Filled (n : Nat) (s : XmitPriv) : Prop where
  queue : s.freeXmitQueue = (List.range nrXmitframe).drop n
  idle : ∀ k, s.call k = .idle
  accnt : s.accnt 0 = n ∧ s.accnt 1 = 0
  other : ∀ f, (s.frame f).place ≠ .free → (s.frame f).osQid = 1

theorem drop_range {n : Nat} (h : n < nrXmitframe) :
    (List.range nrXmitframe).drop n = n :: (List.range nrXmitframe).drop (n + 1) := by
  have hlen : n < (List.range nrXmitframe).length := by rw [List.length_range]; exact h
  rw [List.drop_eq_getElem_cons hlen, List.getElem_range]

theorem Filled.take {n : Nat} (h : Filled n s) (hn : n < nrXmitframe) (q : Nat) :
    s.step true (.alloc 0 q) = { s with
      freeXmitQueue := (List.range nrXmitframe).drop (n + 1)
      freeXmitframeCnt := s.freeXmitframeCnt - 1
      frame := Function.update s.frame n ⟨.inAlloc 0, q⟩
      call := Function.update s.call 0 (.checkStop n q) } := by
  rw [XmitPriv.step, if_pos (h.idle 0), h.queue, drop_range hn]

theorem update_idle (h : ∀ k, s.call k = .idle) (k : Nat) :
    Function.update s.call 0 .idle k = .idle := by
  by_cases hk : k = 0
  · rw [hk, Function.update_self]
  · rw [Function.update_of_ne hk, h k]

theorem Filled.round {n : Nat} (h : Filled n s) (hn : n < nrXmitframe) :
    Filled (n + 1) (run (XmitPriv.step true) s [.alloc 0 1, .go 0, .classify n 0]) := by
  have hstop : ∀ s' : XmitPriv, s'.accnt = s.accnt → rtwOsNeedStopQueue true s' 1 = false := by
    intro s' ha
    refine decide_eq_false ?_
    rw [ha, h.accnt.2]
    decide
  rw [run, h.take hn 1]
  simp only [run, XmitPriv.step, XmitPriv.setCall, XmitPriv.setPlace, Function.update_self, hstop,
    Function.update_idem, Bool.false_eq_true, if_false, if_true]
  refine ⟨rfl, update_idle h.idle, ⟨?_, ?_⟩, ?_⟩
  · show Function.update s.accnt 0 (s.accnt 0 + 1) 0 = _
    rw [Function.update_self, h.accnt.1]
    omega
  · show Function.update s.accnt 0 (s.accnt 0 + 1) 1 = 0
    rw [Function.update_of_ne (by decide), h.accnt.2]
  · intro f hf
    by_cases hfn : f = n
    · rw [hfn]
      simp only [Function.update_self]
    · simp only [Function.update_of_ne hfn] at hf ⊢
      exact h.other f hf

theorem filled (n : Nat) (hn : n ≤ nrXmitframe) :
    Filled n (run (XmitPriv.step true) .init (fill n)) := by
  induction n with
  | zero =>
    refine ⟨?_, fun _ => rfl, ⟨rfl, rfl⟩, fun f hf => absurd rfl hf⟩
    show XmitPriv.init.freeXmitQueue = _
    simp only [XmitPriv.init, List.drop_zero]
  | succ n ih =>
    have hround := (ih (by omega)).round hn
    rw [← run_append] at hround
    have hfill : fill (n + 1) = fill n ++ [.alloc 0 1, .go 0, .classify n 0] := by
      unfold fill
      rw [List.range_succ, List.flatMap_append]
      rfl
    rw [hfill]
    exact hround

/-- the subqueue stops, and its frame is freed above the threshold -/
theorem Filled.stuck {n : Nat} (h : Filled n s) (hn : n < nrXmitframe) (hT : wmmXmitThreshold < n) :
    ¬ StoppedOwed (run (XmitPriv.step true) s
      [.alloc 0 0, .go 0, .go 0, .free 0 n, .go 0, .go 0]) := by
  have hstop : ∀ s' : XmitPriv, s'.accnt = s.accnt → rtwOsNeedStopQueue true s' 0 = true
      ∧ rtwOsNeedWakeQueue true s' 0 = false := by
    intro s' ha
    have hacc : s'.accnt 0 = n := by rw [ha, h.accnt.1]
    exact ⟨decide_eq_true (by rw [hacc]; exact hT), decide_eq_false (by rw [hacc]; omega)⟩
  rw [run, h.take hn 0]
  simp only [run, XmitPriv.step, XmitPriv.setCall, XmitPriv.setPlace, Function.update_self, hstop,
    Function.update_idem, Bool.false_eq_true, if_false, if_true, and_self]
  intro hsafe
  have hst : Function.update s.stopped 0 true 0 = true := Function.update_self ..
  obtain ⟨f, hf, hq⟩ := hsafe (update_idle h.idle) 0 hst
  by_cases hfn : f = n
  · rw [hfn] at hf
    simp only [Function.update_self] at hf
    exact hf rfl
  · simp only [Function.update_of_ne hfn] at hf hq
    rw [h.other f hf] at hq
    cases hq

end OsQueue

theorem stopped_owed_oneFrame :
    StoppedOwed (run (XmitPriv.step false) .init oneFrame)
      ∧ (run (XmitPriv.step false) .init oneFrame).freeXmitframeCnt = 256 :=
  ⟨stopped_owed oneFrame ⟨trivial, trivial, trivial, rfl, Or.inl rfl, trivial, trivial⟩, by decide⟩

/-- 103 frames are enough: 102 is the threshold -/
theorem stopped_forever :
    ¬ StoppedOwed (run (XmitPriv.step true) .init (stuckRun 103)) := by
  unfold stuckRun
  rw [run_append]
  exact (filled 103 (by decide)).stuck (by decide) (by decide)

end Rtl8192eu
