import Mathlib.Data.List.Nodup
import Rtl8192eu.Lib.Ledger
import Rtl8192eu.Lib.Run

/-!
# Transmit buffers

The data buffers of `free_xmitbuf_queue` and everything that hands them on: `pre_xmitframe` and
`rtl8192eu_xmitframe_complete` take one, `usb_write_port` submits its URB, and
`usb_write_port_complete` gives it back.  `rtw_dump_xframe` calls `usb_write_port` once for each
fragment, each time with the same buffer and the same URB.

* `XmitBufs.step`   one call or callback, in any order;
* `XmitBufs.Exact`   every buffer is in one place, and none is freed while it is elsewhere;
* `xmitBufs_exact_iff`   the runs in which this holds.

The host controller refuses an URB that is active (`-EBUSY`).  Buffers of management frames are not
in this queue.
-/

namespace Rtl8192eu

open Ledger Run

/-- `NR_XMITBUFF` -/
def nrXmitbuff : Nat := 4

/-- where a context that sends stands; it holds the buffer `b` -/
inductive Sender where
  | idle
  /-- `pre_xmitframe`, before `rtw_xmitframe_coalesce` -/
  | direct (b : Nat)
  /-- `rtl8192eu_xmitframe_complete`, picking frames -/
  | tasklet (b : Nat)
  /-- before `usb_write_port`, with `more` fragments behind this one -/
  | dump (b more : Nat)
  /-- `usb_write_port` has failed and will free the buffer -/
  | failed (b more : Nat)
  deriving DecidableEq, Repr

structure XmitBufs where
  /-- `free_xmitbuf_queue` -/
  free : List Nat := List.range nrXmitbuff
  freeXmitbufCnt : Int := nrXmitbuff
  /-- the buffers whose URB is active -/
  inflight : List Nat := []
  sender : Nat → Sender := fun _ => .idle
  /-- `rtw_free_xmitbuf` was given a buffer that was free already, or whose URB was active -/
  misfreed : Bool := false

namespace XmitBufs

def setSender (s : XmitBufs) (c : Nat) (p : Sender) : XmitBufs :=
  { s with sender := Function.update s.sender c p }

def rtwAllocXmitbuf (s : XmitBufs) : Option (Nat × XmitBufs) :=
  match s.free with
  | [] => none
  | b :: bs => some (b, { s with free := bs, freeXmitbufCnt := s.freeXmitbufCnt - 1 })

/-- `rtw_list_delete`, then `rtw_list_insert_tail` -/
def rtwFreeXmitbuf (s : XmitBufs) (b : Nat) : XmitBufs :=
  { s with
    free := s.free.erase b ++ [b]
    freeXmitbufCnt := s.freeXmitbufCnt + 1
    misfreed := s.misfreed || decide (b ∈ s.free) || decide (b ∈ s.inflight) }

/-- up to `exit`; `none` when it fails -/
def usbWritePort (s : XmitBufs) (b : Nat) (cannotTx submitOk : Bool) : Option XmitBufs :=
  if cannotTx then none
  else if b ∈ s.inflight then none
  else if !submitOk then none
  else some { s with inflight := s.inflight ++ [b] }

/-- the loop of `rtw_dump_xframe` goes on, whatever `usb_write_port` returned -/
def nextFragment (b : Nat) : Nat → Sender
  | 0 => .idle
  | more + 1 => .dump b more

end XmitBufs

inductive BufEvent where
  | preXmitframe (c : Nat)
  | xmitframeComplete (c : Nat)
  /-- `rtw_xmitframe_coalesce` fails, or makes a first fragment and `more` others -/
  | coalesce (c : Nat) (more : Option Nat)
  /-- `rtw_dequeue_xframe` finds nothing -/
  | noFrame (c : Nat)
  | writePort (c : Nat) (cannotTx submitOk : Bool)
  /-- `exit` of `usb_write_port` after a failure -/
  | writeExit (c : Nat)
  /-- `usb_write_port_complete` -/
  | complete (b : Nat)
  deriving DecidableEq, Repr

namespace XmitBufs

def step (s : XmitBufs) : BufEvent → XmitBufs
  | .preXmitframe c =>
    match s.sender c, s.rtwAllocXmitbuf with
    | .idle, some (b, s) => s.setSender c (.direct b)
    | _, _ => s
  | .xmitframeComplete c =>
    match s.sender c, s.rtwAllocXmitbuf with
    | .idle, some (b, s) => s.setSender c (.tasklet b)
    | _, _ => s
  | .coalesce c more =>
    match s.sender c, more with
    | .direct b, some more => s.setSender c (.dump b more)
    | .direct b, none => (s.rtwFreeXmitbuf b).setSender c .idle
    -- the transfer is written once, and a frame that fails is left out
    | .tasklet b, some _ => s.setSender c (.dump b 0)
    | _, _ => s
  | .noFrame c =>
    match s.sender c with
    | .tasklet b => (s.rtwFreeXmitbuf b).setSender c .idle
    | _ => s
  | .writePort c cannotTx submitOk =>
    match s.sender c with
    | .dump b more =>
      match s.usbWritePort b cannotTx submitOk with
      | some s => s.setSender c (nextFragment b more)
      | none => s.setSender c (.failed b more)
    | _ => s
  | .writeExit c =>
    match s.sender c with
    | .failed b more => (s.rtwFreeXmitbuf b).setSender c (nextFragment b more)
    | _ => s
  | .complete b =>
    if b ∈ s.inflight then rtwFreeXmitbuf { s with inflight := s.inflight.erase b } b else s

end XmitBufs

/-- when `usb_write_port` gives the buffer away, to the URB or to the free queue, no fragment is
left -/
def XmitBufs.lastGiven (s : XmitBufs) : BufEvent → Bool
  | .writePort c cannotTx submitOk =>
    match s.sender c with
    | .dump b more => more == 0 || cannotTx || decide (b ∈ s.inflight) || !submitOk
    | _ => true
  | .writeExit c =>
    match s.sender c with
    | .failed _ more => more == 0
    | _ => true
  | _ => true

/-- a data frame of `pre_xmitframe` makes one fragment -/
def XmitBufs.unsplit (s : XmitBufs) : BufEvent → Bool
  | .coalesce c (some more) =>
    match s.sender c with
    | .direct _ => more == 0
    | _ => true
  | _ => true

/-! ## places -/

inductive BufPlace where
  | free
  | inflight
  | sender (c : Nat)
  deriving DecidableEq, Repr

/-- the buffer that the context will still submit or free -/
def Sender.owned : Sender → List Nat
  | .idle => []
  | .direct b | .tasklet b | .dump b _ | .failed b _ => [b]

/-- the fragments behind the one that the context works on -/
def Sender.more : Sender → Nat
  | .dump _ more | .failed _ more => more
  | _ => 0

namespace XmitBufs

def place (s : XmitBufs) : BufPlace → List Nat
  | .free => s.free
  | .inflight => s.inflight
  | .sender c => (s.sender c).owned

/-- **The transmit buffers are accounted for**; those of `hand` are on their way from one place to
another. -/
structure Exact (s : XmitBufs) (hand : List Nat) : Prop where
  /-- each buffer is in the free queue, with one context that sends, or carried by one URB -/
  one : Accounted (· < nrXmitbuff) s.place hand
  cnt : s.freeXmitbufCnt = s.free.length
  misfreed : s.misfreed = false

variable {s : XmitBufs} {b c : Nat} {p : Sender}

theorem place_setSender (s : XmitBufs) (c : Nat) (p : Sender) (o : BufPlace) :
    (s.setSender c p).place o = Function.update s.place (.sender c) p.owned o := by
  by_cases ho : o = .sender c
  · subst ho
    rw [Function.update_self]
    show (Function.update s.sender c p c).owned = _
    rw [Function.update_self]
  · rw [Function.update_of_ne ho]
    cases o with
    | sender d =>
      show (Function.update s.sender c p d).owned = _
      rw [Function.update_of_ne fun e => ho (congrArg BufPlace.sender e)]
      rfl
    | free => rfl
    | inflight => rfl

namespace Exact

/-- the context takes the buffer in hand -/
theorem hold (h : s.Exact [b]) (hc : s.sender c = .idle) (hp : p.owned = [b]) :
    (s.setSender c p).Exact [] := by
  refine ⟨?_, h.cnt, h.misfreed⟩
  refine (Accounted.put [b] h.one (.sender c)).congr fun o => ?_
  rw [place_setSender, hp, show s.place (.sender c) = [] by rw [place, hc]; rfl]
  rfl

/-- the context lets its buffer go -/
theorem letGo (h : s.Exact []) (hb : (s.sender c).owned = [b]) : (s.setSender c .idle).Exact [b] := by
  refine ⟨?_, h.cnt, h.misfreed⟩
  exact (Accounted.take [b] [] h.one (.sender c) (by rw [place, hb]; rfl)).congr
    (place_setSender s c .idle)

/-- the context keeps it -/
theorem keep (h : s.Exact []) (hp : p.owned = (s.sender c).owned) : (s.setSender c p).Exact [] := by
  refine ⟨h.one.congr fun o => ?_, h.cnt, h.misfreed⟩
  rw [place_setSender, hp]
  by_cases ho : o = .sender c
  · subst ho
    rw [Function.update_self]
    rfl
  · rw [Function.update_of_ne ho]

theorem rtwAllocXmitbuf {s' : XmitBufs} (h : s.Exact []) (ha : s.rtwAllocXmitbuf = some (b, s')) :
    s'.Exact [b] ∧ s'.sender = s.sender := by
  unfold XmitBufs.rtwAllocXmitbuf at ha
  split at ha
  · cases ha
  · rename_i b' bs hf
    cases ha
    refine ⟨⟨?_, ?_, h.misfreed⟩, rfl⟩
    · refine (Accounted.take [b] bs h.one .free (by rw [place, hf]; rfl)).congr ?_
      intro o
      cases o <;> rfl
    · show s.freeXmitbufCnt - 1 = bs.length
      rw [h.cnt, hf, List.length_cons]
      omega

theorem rtwFreeXmitbuf (h : s.Exact [b]) : (s.rtwFreeXmitbuf b).Exact [] := by
  have hfree : b ∉ s.free := h.one.not_mem_place List.mem_cons_self .free
  have hfly : b ∉ s.inflight := h.one.not_mem_place List.mem_cons_self .inflight
  have herase : s.free.erase b = s.free := List.erase_of_not_mem hfree
  refine ⟨?_, ?_, ?_⟩
  · refine (Accounted.put [b] h.one .free).congr fun o => ?_
    cases o with
    | free =>
      rw [Function.update_self]
      show s.free.erase b ++ [b] = s.free ++ [b]
      rw [herase]
    | inflight => rfl
    | sender d => rfl
  · show s.freeXmitbufCnt + 1 = (s.free.erase b ++ [b]).length
    rw [herase, h.cnt, List.length_append]
    rfl
  · show (s.misfreed || decide (b ∈ s.free) || decide (b ∈ s.inflight)) = false
    rw [h.misfreed, decide_eq_false hfree, decide_eq_false hfly]
    rfl

theorem submit (h : s.Exact [b]) : ({ s with inflight := s.inflight ++ [b] } : XmitBufs).Exact [] := by
  refine ⟨?_, h.cnt, h.misfreed⟩
  refine (Accounted.put [b] h.one .inflight).congr fun o => ?_
  cases o <;> rfl

theorem giveback (h : s.Exact []) (hb : b ∈ s.inflight) :
    ({ s with inflight := s.inflight.erase b } : XmitBufs).Exact [b] := by
  refine ⟨?_, h.cnt, h.misfreed⟩
  refine (Accounted.take [b] (s.inflight.erase b) h.one .inflight
    (List.perm_cons_erase hb)).congr fun o => ?_
  cases o <;> rfl

/-- the buffer of a context that has no fragment left goes to the free queue -/
theorem release (h : s.Exact []) (hb : (s.sender c).owned = [b]) :
    ((s.rtwFreeXmitbuf b).setSender c .idle).Exact [] :=
  (h.letGo hb).rtwFreeXmitbuf

theorem alloc {f : Nat → Sender} (h : s.Exact []) (hf : ∀ b, (f b).owned = [b]) :
    (match s.sender c, s.rtwAllocXmitbuf with
      | .idle, some (b, s) => s.setSender c (f b)
      | _, _ => s).Exact [] := by
  split
  · rename_i b s' hc ha
    obtain ⟨h', hs⟩ := h.rtwAllocXmitbuf ha
    exact h'.hold (by rw [hs]; exact hc) (hf b)
  · exact h

end Exact

theorem usbWritePort_some {s' : XmitBufs} {cannotTx submitOk : Bool}
    (h : s.usbWritePort b cannotTx submitOk = some s') :
    cannotTx = false ∧ b ∉ s.inflight ∧ submitOk = true
      ∧ s' = { s with inflight := s.inflight ++ [b] } := by
  unfold usbWritePort at h
  split at h
  · cases h
  · rename_i hc
    split at h
    · cases h
    · rename_i hb
      split at h
      · cases h
      · rename_i ho
        refine ⟨Bool.not_eq_true _ ▸ hc, hb, ?_, (Option.some.inj h).symm⟩
        rwa [Bool.not_eq_true, Bool.not_eq_false'] at ho

/-- **One call or callback**, when the buffer is given away with the last fragment. -/
theorem Exact.step (h : s.Exact []) (e : BufEvent) (hC : s.lastGiven e = true) :
    (s.step e).Exact [] := by
  cases e with
  | preXmitframe c => exact h.alloc fun _ => rfl
  | xmitframeComplete c => exact h.alloc fun _ => rfl
  | coalesce c more =>
    unfold XmitBufs.step
    dsimp only
    split
    · rename_i b more hc
      exact h.keep (by rw [hc]; rfl)
    · rename_i b hc
      exact h.release (by rw [hc]; rfl)
    · rename_i b _ hc
      exact h.keep (by rw [hc]; rfl)
    · exact h
  | noFrame c =>
    unfold XmitBufs.step
    dsimp only
    split
    · rename_i b hc
      exact h.release (by rw [hc]; rfl)
    · exact h
  | writePort c cannotTx submitOk =>
    unfold XmitBufs.step
    dsimp only
    split
    · rename_i b more hc
      split
      · rename_i s' hw
        obtain ⟨hcan, hfly, hok, rfl⟩ := usbWritePort_some hw
        have hmore : more = 0 := by
          unfold lastGiven at hC
          dsimp only at hC
          rw [hc] at hC
          simpa [hcan, hfly, hok] using hC
        subst hmore
        exact (h.letGo (by rw [hc]; rfl)).submit
      · exact h.keep (by rw [hc]; rfl)
    · exact h
  | writeExit c =>
    unfold XmitBufs.step
    dsimp only
    split
    · rename_i b more hc
      have hmore : more = 0 := by
        unfold lastGiven at hC
        dsimp only at hC
        rw [hc] at hC
        exact beq_iff_eq.mp hC
      subst hmore
      exact h.release (by rw [hc]; rfl)
    · exact h
  | complete b =>
    unfold XmitBufs.step
    dsimp only
    split <;> rename_i hb
    · exact (h.giveback hb).rtwFreeXmitbuf
    · exact h

theorem init_exact : ({} : XmitBufs).Exact [] := by
  refine ⟨⟨?_, ?_⟩, rfl, rfl⟩
  · intro x hx
    refine ⟨some .free, rfl, ?_⟩
    intro p
    cases p with
    | free =>
      rw [if_pos rfl]
      exact List.count_eq_one_of_mem List.nodup_range (List.mem_range.mpr hx)
    | inflight => rfl
    | sender c => rfl
  · intro x hx
    refine ⟨List.not_mem_nil, ?_⟩
    intro p
    cases p with
    | free => exact fun h => hx (List.mem_range.mp h)
    | inflight => exact List.not_mem_nil
    | sender c => exact List.not_mem_nil

/-! ## the condition is exact -/

/-- a context that still has a fragment to write holds the buffer -/
theorem mem_place_setSender (s : XmitBufs) (b c more : Nat) :
    b ∈ (s.setSender c (nextFragment b (more + 1))).place (.sender c) := by
  rw [place_setSender, Function.update_self]
  exact List.mem_singleton.mpr rfl

/-- a buffer that is given away with a fragment left is in two places -/
theorem lastGiven_of_exact (e : BufEvent) (h : (s.step e).Exact []) : s.lastGiven e = true := by
  cases e with
  | writePort c cannotTx submitOk =>
    unfold lastGiven
    dsimp only
    split
    · rename_i b more hc
      cases more with
      | zero => rfl
      | succ more =>
        by_contra hno
        simp only [Bool.or_eq_true, decide_eq_true_eq, Bool.not_eq_true', not_or] at hno
        obtain ⟨⟨⟨-, hcan⟩, hfly⟩, hok⟩ := hno
        have hw : s.usbWritePort b cannotTx submitOk = some { s with inflight := s.inflight ++ [b] } := by
          rw [usbWritePort, if_neg hcan, if_neg hfly, if_neg (by simpa using hok)]
        have hs : s.step (.writePort c cannotTx submitOk)
            = setSender { s with inflight := s.inflight ++ [b] } c (nextFragment b (more + 1)) := by
          unfold XmitBufs.step
          dsimp only
          rw [hc]
          dsimp only
          rw [hw]
        rw [hs] at h
        have hin : b ∈ (setSender { s with inflight := s.inflight ++ [b] } c
            (nextFragment b (more + 1))).place .inflight :=
          List.mem_append_right _ List.mem_cons_self
        have hsame := (h.one.one_place hin).2 _ (mem_place_setSender _ b c more)
        cases hsame
    · rfl
  | writeExit c =>
    unfold lastGiven
    dsimp only
    split
    · rename_i b more hc
      cases more with
      | zero => rfl
      | succ more =>
        have hs : s.step (.writeExit c)
            = (s.rtwFreeXmitbuf b).setSender c (nextFragment b (more + 1)) := by
          unfold XmitBufs.step
          dsimp only
          rw [hc]
        rw [hs] at h
        have hin : b ∈ ((s.rtwFreeXmitbuf b).setSender c (nextFragment b (more + 1))).place .free :=
          List.mem_append_right _ List.mem_cons_self
        have hsame := (h.one.one_place hin).2 _ (mem_place_setSender _ b c more)
        cases hsame
    · rfl
  | _ => rfl

/-! ## frames that are not split -/

def Short (s : XmitBufs) : Prop := ∀ c, (s.sender c).more = 0

theorem Short.setSender (h : s.Short) (hp : p.more = 0) : (s.setSender c p).Short := by
  intro d
  by_cases hd : d = c
  · subst hd
    rw [show (s.setSender d p).sender d = p from Function.update_self ..]
    exact hp
  · rw [show (s.setSender c p).sender d = s.sender d from Function.update_of_ne hd _ _]
    exact h d

theorem Short.lastGiven (h : s.Short) (e : BufEvent) : s.lastGiven e = true := by
  cases e with
  | writePort c cannotTx submitOk =>
    unfold XmitBufs.lastGiven
    dsimp only
    split
    · rename_i b more hc
      have hm := h c
      rw [hc] at hm
      rw [show more = 0 from hm]
      rfl
    · rfl
  | writeExit c =>
    unfold XmitBufs.lastGiven
    dsimp only
    split
    · rename_i b more hc
      have hm := h c
      rw [hc] at hm
      rw [show more = 0 from hm]
      rfl
    · rfl
  | _ => rfl

theorem Short.alloc {f : Nat → Sender} (h : s.Short) (hf : ∀ b, (f b).more = 0) :
    (match s.sender c, s.rtwAllocXmitbuf with
      | .idle, some (b, s) => s.setSender c (f b)
      | _, _ => s).Short := by
  split
  · rename_i b s' hc ha
    have hs : s'.Short := by
      unfold XmitBufs.rtwAllocXmitbuf at ha
      split at ha
      · cases ha
      · cases ha
        exact h
    exact hs.setSender (hf b)
  · exact h

theorem Short.step (h : s.Short) (e : BufEvent) (hU : s.unsplit e = true) : (s.step e).Short := by
  cases e with
  | preXmitframe c => exact h.alloc fun _ => rfl
  | xmitframeComplete c => exact h.alloc fun _ => rfl
  | coalesce c more =>
    unfold XmitBufs.step
    dsimp only
    split
    · rename_i b more hc
      unfold unsplit at hU
      dsimp only at hU
      rw [hc] at hU
      exact h.setSender (beq_iff_eq.mp hU)
    · exact Short.setSender (by exact h) rfl
    · exact h.setSender rfl
    · exact h
  | noFrame c =>
    unfold XmitBufs.step
    dsimp only
    split
    · exact Short.setSender (by exact h) rfl
    · exact h
  | writePort c cannotTx submitOk =>
    unfold XmitBufs.step
    dsimp only
    split
    · rename_i b more hc
      have hm := h c
      rw [hc] at hm
      replace hm : more = 0 := hm
      subst hm
      split
      · rename_i s' hw
        obtain ⟨-, -, -, rfl⟩ := usbWritePort_some hw
        exact Short.setSender (by exact h) rfl
      · exact h.setSender rfl
    · exact h
  | writeExit c =>
    unfold XmitBufs.step
    dsimp only
    split
    · rename_i b more hc
      have hm := h c
      rw [hc] at hm
      replace hm : more = 0 := hm
      subst hm
      exact Short.setSender (by exact h) rfl
    · exact h
  | complete b =>
    unfold XmitBufs.step
    dsimp only
    split <;> exact h

end XmitBufs

/-- **The transmit buffers are accounted for in exactly the runs where `usb_write_port` gives a
buffer away with the last fragment**: in all runs without a frame that is split. -/
theorem xmitBufs_exact_iff (es : List BufEvent) :
    ((∀ es', es' <+: es → (run XmitBufs.step {} es').Exact [])
        ↔ Along XmitBufs.step (fun s e => s.lastGiven e = true) {} es)
      ∧ (Along XmitBufs.step (fun s e => s.unsplit e = true) {} es →
        Along XmitBufs.step (fun s e => s.lastGiven e = true) {} es) := by
  constructor
  · refine always_iff_along (P := fun s : XmitBufs => s.Exact []) (I := fun _ => True) trivial
      (fun _ _ h => h) ?_ ?_ es
    · intro es hC
      exact run_inv (I := fun s : XmitBufs => s.Exact []) (fun s e h hc => h.step e hc) {} es
        XmitBufs.init_exact hC
    · intro s e _ _ h
      exact XmitBufs.lastGiven_of_exact e h
  · intro hU
    refine along_of_forall_prefix fun es' e hp => ?_
    have hshort : (run XmitBufs.step {} es').Short :=
      run_inv (I := XmitBufs.Short) (fun s e h hu => h.step e hu) {} es' (fun _ => rfl)
        (hU.of_prefix ((List.prefix_append es' [e]).trans hp))
    exact hshort.lastGiven e

/-- a frame of two fragments, and the first is complete before the second is submitted -/
def splitRun : List BufEvent :=
  [.preXmitframe 0, .coalesce 0 (some 1), .writePort 0 false true, .complete 0, .writePort 0 false true]

/-- the buffer is in the free queue while its URB is active, and is freed again -/
theorem xmitBufs_splitRun :
    ¬ (run XmitBufs.step {} splitRun).Exact []
      ∧ (run XmitBufs.step {} splitRun).free = [1, 2, 3, 0]
      ∧ (run XmitBufs.step {} splitRun).inflight = [0]
      ∧ (run XmitBufs.step {} (splitRun ++ [.complete 0])).misfreed = true
      ∧ (run XmitBufs.step {} (splitRun ++ [.complete 0])).freeXmitbufCnt = 5 := by
  have hfree : (run XmitBufs.step {} splitRun).free = [1, 2, 3, 0] := by decide
  have hfly : (run XmitBufs.step {} splitRun).inflight = [0] := by decide
  refine ⟨?_, hfree, hfly, by decide, by decide⟩
  intro h
  have h1 : 0 ∈ (run XmitBufs.step {} splitRun).place .free := by
    rw [XmitBufs.place, hfree]
    decide
  have h2 : 0 ∈ (run XmitBufs.step {} splitRun).place .inflight := by
    rw [XmitBufs.place, hfly]
    decide
  cases (h.one.one_place h1).2 _ h2

end Rtl8192eu
