import Rtl8192eu.Lib.Ledger
import Rtl8192eu.Lib.Run
import Rtl8192eu.Lib.Tally
import Rtl8192eu.Xmit.PowerSave

/-!
# Accounting of the pending queues

Each frame that waits is counted three times: in `sta_pending`, in `qcnt` of its station and in
`accnt` of the hardware queue; and a station is linked into the hardware queue while it has frames.

* `TxQueues.Exact`   the counters and the link agree with the lists;
* `TxQueues.Exact.take`   every way in which frames leave a queue;
* `ApXmit.stopQueue_queues`   `stop_sta_xmit` is one of them;
* `ApXmit.ids`   where each accepted frame is;
* `pending_exact`   all of it, after every run.
-/

namespace Rtl8192eu

open Ledger Run Tally

structure TxQueues.Exact (q : TxQueues) : Prop where
  qcnt : ∀ k, (q.servq k).qcnt = (q.servq k).staPending.length
  link : ∀ x ac, x ∈ q.staQueue ac ↔ (q.servq (x, ac)).staPending ≠ []
  nodup : ∀ ac, (q.staQueue ac).Nodup
  accnt : ∀ ac, Total (fun x => (q.servq (x, ac)).qcnt) (q.accnt ac)

/-! ## the links -/

theorem mem_unlinkSta {sq : Ac → List Nat} {k : Nat × Ac} {x : Nat} {ac : Ac} :
    x ∈ Xmit.unlinkSta sq k ac ↔ x ∈ sq ac ∧ (x, ac) ≠ k := by
  obtain ⟨y, ac'⟩ := k
  by_cases hac : ac = ac'
  · subst hac
    simp [Xmit.unlinkSta]
  · simp [Xmit.unlinkSta, hac]

theorem nodup_unlinkSta {sq : Ac → List Nat} (h : ∀ ac, (sq ac).Nodup) (k : Nat × Ac) (ac : Ac) :
    (Xmit.unlinkSta sq k ac).Nodup := by
  by_cases hac : ac = k.2
  · subst hac
    rw [Xmit.unlinkSta, Function.update_self]
    exact (h _).filter _
  · rw [Xmit.unlinkSta, Function.update_of_ne hac]
    exact h ac

/-- **The rotation keeps the links.** -/
theorem mem_rearrange {sq : Ac → List Nat} {k : Nat × Ac} {rest : List XmitFrame} {x : Nat} {ac : Ac}
    (hk : rest ≠ [] → k.1 ∈ sq k.2) :
    x ∈ Xmit.rearrange sq k rest ac ↔ if (x, ac) = k then rest ≠ [] else x ∈ sq ac := by
  unfold Xmit.rearrange
  by_cases hr : rest = []
  · rw [if_pos hr, mem_unlinkSta]
    split <;> rename_i hx <;> simp [hr, hx]
  · rw [if_neg hr]
    have hmem := hk hr
    obtain ⟨y, ac'⟩ := k
    split
    · split <;> rename_i hx
      · cases hx
        simp [hr, hmem]
      · rfl
    · by_cases hac : ac = ac'
      · subst hac
        by_cases hxy : x = y
        · subst hxy
          simp [hr]
        · simp [hxy]
      · simp [hac]

theorem nodup_rearrange {sq : Ac → List Nat} (h : ∀ ac, (sq ac).Nodup) (k : Nat × Ac)
    (rest : List XmitFrame) (ac : Ac) : (Xmit.rearrange sq k rest ac).Nodup := by
  unfold Xmit.rearrange
  split
  · exact nodup_unlinkSta h k ac
  · split
    · exact h ac
    · by_cases hac : ac = k.2
      · subst hac
        rw [Function.update_self, List.nodup_append]
        refine ⟨(h _).filter _, List.nodup_singleton _, ?_⟩
        intro a ha b hb
        rw [List.mem_singleton.mp hb]
        simpa using (List.mem_filter.mp ha).2
      · rw [Function.update_of_ne hac]
        exact h ac

namespace TxQueues

variable {q q' : TxQueues} {k : Nat × Ac} {f : PsFrame} {n : Nat} {rest : List PsFrame}

/-! ## one queue changes -/

theorem Exact.replace (h : q.Exact) (k : Nat × Ac) (rest : List PsFrame) (hk : q'.servq k = ⟨rest, rest.length⟩)
    (hne : ∀ j, j ≠ k → q'.servq j = q.servq j)
    (hacc : q'.accnt = Function.update q.accnt k.2
      (q.accnt k.2 + ((rest.length : Int) - (q.servq k).qcnt)))
    (hlink : ∀ x ac, x ∈ q'.staQueue ac ↔ if (x, ac) = k then rest ≠ [] else x ∈ q.staQueue ac)
    (hnd : ∀ ac, (q'.staQueue ac).Nodup) : q'.Exact where
  qcnt j := by
    by_cases hj : j = k
    · subst hj
      rw [hk]
    · rw [hne j hj]
      exact h.qcnt j
  link x ac := by
    rw [hlink]
    split <;> rename_i hx
    · rw [hx, hk]
    · rw [hne _ hx]
      exact h.link x ac
  nodup := hnd
  accnt ac := by
    obtain ⟨y, ac'⟩ := k
    rw [hacc]
    by_cases hac : ac = ac'
    · subst hac
      have hfun : (fun x => (q'.servq (x, ac)).qcnt)
          = Function.update (fun x => (q.servq (x, ac)).qcnt) y rest.length := by
        funext x
        by_cases hx : x = y
        · subst hx
          rw [hk, Function.update_self]
        · rw [Function.update_of_ne hx, hne _ (fun e => hx (congrArg Prod.fst e))]
      rw [hfun, Function.update_self]
      exact (h.accnt ac).update y _
    · have hfun : (fun x => (q'.servq (x, ac)).qcnt) = fun x => (q.servq (x, ac)).qcnt := by
        funext x
        rw [hne _ (fun e => hac (congrArg Prod.snd e))]
      rw [hfun, Function.update_of_ne hac]
      exact h.accnt ac

/-- **A frame comes in.** -/
theorem Exact.insert (h : q.Exact) (f : PsFrame) : (q.insert f).Exact := by
  have hlen : (q.servq f.servq).qcnt + 1 = ((q.servq f.servq).staPending ++ [f]).length := by
    rw [h.qcnt, List.length_append]
    rfl
  refine h.replace f.servq ((q.servq f.servq).staPending ++ [f]) ?_ ?_ ?_ ?_ ?_
  · show Function.update q.servq f.servq _ f.servq = _
    rw [Function.update_self, hlen]
  · intro j hj
    exact Function.update_of_ne hj _ _
  · show Function.update q.accnt f.servq.2 _ = _
    congr 1
    rw [← hlen]
    omega
  · intro x ac
    have hne : (q.servq f.servq).staPending ++ [f] ≠ [] := by simp
    show x ∈ (if f.sta ∈ q.staQueue f.servq.2 then q.staQueue
      else Function.update q.staQueue f.servq.2 (q.staQueue f.servq.2 ++ [f.sta])) ac ↔ _
    split <;> rename_i hin
    · split <;> rename_i hx
      · have hx' : f.sta = x ∧ f.servq.2 = ac := ⟨(congrArg Prod.fst hx).symm, (congrArg Prod.snd hx).symm⟩
        rw [hx'.1, hx'.2] at hin
        exact ⟨fun _ => hne, fun _ => hin⟩
      · rfl
    · by_cases hac : ac = f.servq.2
      · subst hac
        rw [Function.update_self, List.mem_append, List.mem_singleton]
        by_cases hx : x = f.sta
        · subst hx
          rw [if_pos (show (f.sta, f.servq.2) = f.servq from rfl)]
          exact ⟨fun _ => hne, fun _ => Or.inr rfl⟩
        · rw [if_neg (fun e => hx (congrArg Prod.fst e))]
          simp [hx]
      · rw [Function.update_of_ne hac, if_neg (fun e => hac (congrArg Prod.snd e))]
  · intro ac
    show ((if f.sta ∈ q.staQueue f.servq.2 then q.staQueue
      else Function.update q.staQueue f.servq.2 (q.staQueue f.servq.2 ++ [f.sta])) ac).Nodup
    split <;> rename_i hin
    · exact h.nodup ac
    · by_cases hac : ac = f.servq.2
      · subst hac
        rw [Function.update_self, List.nodup_append]
        refine ⟨h.nodup _, List.nodup_singleton _, ?_⟩
        intro a ha b hb
        rw [List.mem_singleton.mp hb]
        rintro rfl
        exact hin ha
      · rw [Function.update_of_ne hac]
        exact h.nodup ac

/-- **Frames leave a queue.** -/
theorem Exact.take (h : q.Exact) (hlen : (q.servq k).staPending.length = n + rest.length)
    {sq : Ac → List Nat}
    (hlink : ∀ x ac, x ∈ sq ac ↔ if (x, ac) = k then rest ≠ [] else x ∈ q.staQueue ac)
    (hnd : ∀ ac, (sq ac).Nodup) : (q.take k n rest sq).Exact := by
  have hq := h.qcnt k
  refine h.replace k rest ?_ ?_ ?_ hlink hnd
  · show Function.update q.servq k _ k = _
    rw [Function.update_self]
    congr 1
    omega
  · intro j hj
    exact Function.update_of_ne hj _ _
  · show Function.update q.accnt k.2 _ = _
    congr 1
    omega

/-- the whole queue is taken -/
theorem Exact.take_all (h : q.Exact) (hn : (q.servq k).staPending.length = n) :
    (q.take k n [] (Xmit.unlinkSta q.staQueue k)).Exact := by
  refine h.take hn ?_ (nodup_unlinkSta h.nodup k)
  intro x ac
  rw [mem_unlinkSta]
  split <;> rename_i hx <;> simp [hx]

theorem Exact.dequeue (h : q.Exact) (hk : (q.servq k).staPending = f :: rest) :
    (q.dequeue k rest).Exact := by
  have hlen : (q.servq k).staPending.length = 1 + rest.length := by
    rw [hk, List.length_cons, Nat.add_comm]
  unfold TxQueues.dequeue
  split <;> rename_i hr
  · subst hr
    exact h.take_all hlen
  · refine h.take hlen ?_ h.nodup
    intro x ac
    split <;> rename_i hx
    · have hl := h.link x ac
      rw [hx, hk] at hl
      simp [hl, hr]
    · rfl

/-- **The aggregation, with its rotation.** -/
theorem Exact.aggregate (h : q.Exact) (hlen : (q.servq k).staPending.length = n + rest.length) :
    (q.take k n rest (Xmit.rearrange q.staQueue k (rest.map PsFrame.toXmitFrame))).Exact := by
  have hmap : rest.map PsFrame.toXmitFrame ≠ [] ↔ rest ≠ [] := by simp
  refine h.take hlen ?_ (nodup_rearrange h.nodup k _)
  intro x ac
  rw [mem_rearrange, hmap]
  intro hr
  rw [hmap] at hr
  rw [h.link k.1 k.2]
  show (q.servq k).staPending ≠ []
  rw [← List.length_pos_iff] at hr ⊢
  omega

end TxQueues

/-! ## where the frames are -/

inductive PsPlace where
  | pending (k : Nat × Ac)
  | sleepQ (x : Nat)
  | os (c : Nat)
  | task
  | written
  | dropped
  deriving DecidableEq

def PostCtx.ids : PostCtx → List Nat
  | .idle => []
  | .checked f => [f.id]
  | .direct t | .packed t => [t.frame.id]

def CompleteCtx.ids : CompleteCtx → List Nat
  | .idle => []
  | .got t | .first t => [t.frame.id]
  | .packed ts => ts.map (·.frame.id)

def ApXmit.ids (s : ApXmit) : PsPlace → List Nat
  | .pending k => (s.servq k).staPending.map PsFrame.id
  | .sleepQ x => (s.sta x).sleepQ.map PsFrame.id
  | .os c => (s.os c).ids
  | .task => s.task.ids
  | .written => s.written.map (·.1.frame.id)
  | .dropped => s.dropped.map PsFrame.id

/-- every accepted frame is in one place, or in `hand` -/
def ApXmit.Held (s : ApXmit) (hand : List Nat) : Prop := Accounted (· < s.nextId) s.ids hand

namespace ApXmit

variable {s s' : ApXmit} {hand : List Nat} {f : PsFrame} {fs : List PsFrame} {x c : Nat}

/-- frames leave the place `p` -/
theorem Held.take (xs ys : List Nat) (h : s.Held hand) (p : PsPlace) (hp : (s.ids p).Perm (xs ++ ys))
    (hn : s'.nextId = s.nextId) (hids : ∀ o, s'.ids o = Function.update s.ids p ys o) :
    s'.Held (xs ++ hand) := by
  unfold Held
  rw [hn]
  exact (Accounted.take xs ys h p hp).congr hids

/-- frames come to the place `p` -/
theorem Held.put (xs : List Nat) (h : s.Held (xs ++ hand)) (p : PsPlace)
    (hn : s'.nextId = s.nextId) (hids : ∀ o, s'.ids o = Function.update s.ids p (s.ids p ++ xs) o) :
    s'.Held hand := by
  unfold Held
  rw [hn]
  exact (Accounted.put xs h p).congr hids

theorem Held.congr (h : s.Held hand) (hn : s'.nextId = s.nextId) (hids : ∀ o, s'.ids o = s.ids o) :
    s'.Held hand := by
  unfold Held
  rw [hn]
  exact Accounted.congr h hids

theorem ids_withQueues (s : ApXmit) (q : TxQueues) (k : Nat × Ac) {fs : List PsFrame}
    (hk : (q.servq k).staPending = fs) (hne : ∀ j, j ≠ k → q.servq j = s.servq j) (o : PsPlace) :
    (s.withQueues q).ids o = Function.update s.ids (.pending k) (fs.map PsFrame.id) o := by
  by_cases ho : o = .pending k
  · subst ho
    rw [Function.update_self, ← hk]
    rfl
  · rw [Function.update_of_ne ho]
    cases o with
    | pending j =>
      show (q.servq j).staPending.map _ = _
      rw [hne j fun e => ho (congrArg PsPlace.pending e)]
      rfl
    | sleepQ x => rfl
    | os c => rfl
    | task => rfl
    | written => rfl
    | dropped => rfl

theorem ids_setSta (s : ApXmit) (x : Nat) (st : PsSta) (o : PsPlace) :
    (s.setSta x st).ids o = Function.update s.ids (.sleepQ x) (st.sleepQ.map PsFrame.id) o := by
  by_cases ho : o = .sleepQ x
  · subst ho
    rw [Function.update_self]
    show (Function.update s.sta x st x).sleepQ.map _ = _
    rw [Function.update_self]
  · rw [Function.update_of_ne ho]
    cases o with
    | sleepQ y =>
      show (Function.update s.sta x st y).sleepQ.map _ = _
      rw [Function.update_of_ne fun e => ho (congrArg PsPlace.sleepQ e)]
      rfl
    | pending k => rfl
    | os c => rfl
    | task => rfl
    | written => rfl
    | dropped => rfl

theorem ids_setOs (s : ApXmit) (c : Nat) (p : PostCtx) (o : PsPlace) :
    (s.setOs c p).ids o = Function.update s.ids (.os c) p.ids o := by
  by_cases ho : o = .os c
  · subst ho
    rw [Function.update_self]
    show (Function.update s.os c p c).ids = _
    rw [Function.update_self]
  · rw [Function.update_of_ne ho]
    cases o with
    | os d =>
      show (Function.update s.os c p d).ids = _
      rw [Function.update_of_ne fun e => ho (congrArg PsPlace.os e)]
      rfl
    | pending k => rfl
    | sleepQ x => rfl
    | task => rfl
    | written => rfl
    | dropped => rfl

theorem ids_setTask (s : ApXmit) (t : CompleteCtx) (o : PsPlace) :
    ({ s with task := t } : ApXmit).ids o = Function.update s.ids .task t.ids o := by
  cases o <;> rfl

theorem ids_dropped (s : ApXmit) (fs : List PsFrame) (o : PsPlace) :
    ({ s with dropped := s.dropped ++ fs } : ApXmit).ids o
      = Function.update s.ids .dropped (s.ids .dropped ++ fs.map PsFrame.id) o := by
  cases o with
  | dropped => exact List.map_append
  | _ => rfl

/-! ## moves -/

theorem Held.insert (h : s.Held (f.id :: hand)) : (s.withQueues (s.toTxQueues.insert f)).Held hand := by
  have hk : ((s.toTxQueues.insert f).servq f.servq).staPending = (s.servq f.servq).staPending ++ [f] :=
    congrArg TxServq.staPending (Function.update_self f.servq _ s.servq)
  refine Held.put [f.id] h (.pending f.servq) rfl ?_
  intro o
  rw [ids_withQueues s _ f.servq hk, List.map_append]
  · rfl
  · intro j hj
    exact Function.update_of_ne hj _ _

theorem Held.drop (fs : List PsFrame) (h : s.Held (fs.map PsFrame.id ++ hand)) :
    ({ s with dropped := s.dropped ++ fs } : ApXmit).Held hand :=
  Held.put _ h .dropped rfl (ids_dropped s fs)

theorem Held.halXmitframeEnqueue (h : s.Held (f.id :: hand)) : (s.halXmitframeEnqueue f).Held hand := by
  cases ha : (s.sta f.sta).asoc with
  | true =>
    rw [halXmitframeEnqueue_of_asoc ha]
    exact h.insert
  | false =>
    rw [halXmitframeEnqueue_of_not_asoc ha]
    exact Held.drop [f] h

theorem Held.clear (h : s.Held hand) (k : Nat × Ac) :
    (s.withQueues (s.toTxQueues.clear k)).Held ((s.servq k).staPending.map PsFrame.id ++ hand) := by
  have hk : ((s.toTxQueues.clear k).servq k).staPending = [] :=
    congrArg TxServq.staPending (Function.update_self k _ s.servq)
  refine Held.take _ [] h (.pending k) ?_ rfl ?_
  · rw [List.append_nil]
    rfl
  · intro o
    exact ids_withQueues s _ k hk (fun j hj => s.toTxQueues.clear_servq hj) o

theorem Held.buffer (h : s.Held (f.id :: hand)) : (s.buffer f).Held hand := by
  unfold ApXmit.buffer
  split <;> rename_i hb
  · refine Held.put [f.id] h (.sleepQ bmcSta) rfl ?_
    intro o
    show (s.setSta bmcSta _).ids o = _
    rw [ids_setSta, List.map_append]
    rfl
  · refine Held.put [f.id] h (.sleepQ f.sta) rfl ?_
    intro o
    show (s.setSta f.sta _).ids o = _
    rw [ids_setSta, List.map_append]
    rfl

theorem Held.bufferAll (h : s.Held (fs.map PsFrame.id ++ hand)) : (fs.foldl ApXmit.buffer s).Held hand := by
  induction fs generalizing s with
  | nil => exact h
  | cons f fs ih =>
    have h1 : (s.buffer f).Held (fs.map PsFrame.id ++ hand) := Held.buffer h
    exact ih h1

theorem Held.setSta (xs : List Nat) (h : s.Held hand) (st : PsSta)
    (hp : ((s.sta x).sleepQ.map PsFrame.id).Perm (xs ++ st.sleepQ.map PsFrame.id)) :
    (s.setSta x st).Held (xs ++ hand) :=
  Held.take _ _ h (.sleepQ x) hp rfl (ids_setSta s x st)

theorem Held.setOs (xs : List Nat) (h : s.Held hand) (p : PostCtx)
    (hp : (s.os c).ids.Perm (xs ++ p.ids)) : (s.setOs c p).Held (xs ++ hand) :=
  Held.take _ _ h (.os c) hp rfl (ids_setOs s c p)

theorem Held.setTask (xs : List Nat) (h : s.Held hand) (t : CompleteCtx)
    (hp : s.task.ids.Perm (xs ++ t.ids)) : ({ s with task := t } : ApXmit).Held (xs ++ hand) :=
  Held.take _ _ h .task hp rfl (ids_setTask s t)

end ApXmit

/-! ## the invariant -/

structure TxQueues.Ok (q : TxQueues) : Prop where
  exact : q.Exact
  placed : ∀ k, ∀ f ∈ (q.servq k).staPending, f.servq = k

structure StasOk (sta : Nat → PsSta) : Prop where
  slept : ∀ x, ∀ f ∈ (sta x).sleepQ, f.sta = x ∧ (sta x).asoc = true
  bmc : (sta bmcSta).asoc = true

/-- the frames of `hand` are on their way from one list to another -/
structure ApXmit.Ok (s : ApXmit) (hand : List Nat) : Prop where
  queues : s.toTxQueues.Ok
  stas : StasOk s.sta
  held : s.Held hand

namespace TxQueues

variable {q : TxQueues} {k : Nat × Ac} {f : PsFrame}

theorem Ok.insert (h : q.Ok) (f : PsFrame) : (q.insert f).Ok where
  exact := h.exact.insert f
  placed j g hg := by
    by_cases hj : j = f.servq
    · subst hj
      rw [show (q.insert f).servq f.servq = ⟨(q.servq f.servq).staPending ++ [f], _⟩ from
        Function.update_self ..] at hg
      rcases List.mem_append.mp hg with hg | hg
      · exact h.placed _ g hg
      · rw [List.mem_singleton.mp hg]
    · rw [show (q.insert f).servq j = q.servq j from Function.update_of_ne hj _ _] at hg
      exact h.placed j g hg

theorem placed_take {n : Nat} {rest : List PsFrame} {sq : Ac → List Nat}
    (h : ∀ k, ∀ f ∈ (q.servq k).staPending, f.servq = k)
    (hr : ∀ f ∈ rest, f ∈ (q.servq k).staPending) (j : Nat × Ac) :
    ∀ f ∈ ((q.take k n rest sq).servq j).staPending, f.servq = j := by
  intro g hg
  by_cases hj : j = k
  · subst hj
    rw [show (q.take j n rest sq).servq j = ⟨rest, _⟩ from Function.update_self ..] at hg
    exact h j g (hr g hg)
  · rw [show (q.take k n rest sq).servq j = q.servq j from Function.update_of_ne hj _ _] at hg
    exact h j g hg

theorem Ok.clear (h : q.Ok) (k : Nat × Ac) : (q.clear k).Ok :=
  ⟨h.exact.take_all rfl, placed_take h.placed fun _ hf => nomatch hf⟩

theorem Ok.clearAll (h : q.Ok) (x : Nat) (l : List Ac) : (ApXmit.clearAll x l q).Ok := by
  induction l generalizing q with
  | nil => exact h
  | cons a l ih => exact ih (h.clear (x, a))

/-- `rtw_free_stainfo` empties the queues -/
theorem free_eq_clear (h : q.Exact) (k : Nat × Ac) : q.free k = q.clear k := by
  unfold TxQueues.free TxQueues.clear TxQueues.take
  rw [h.qcnt k, Int.sub_self]

theorem foldl_free (h : q.Ok) (x : Nat) (l : List Ac) :
    l.foldl (fun q ac => q.free (x, ac)) q = ApXmit.clearAll x l q := by
  induction l generalizing q with
  | nil => rfl
  | cons a l ih =>
    rw [List.foldl_cons, free_eq_clear h.exact]
    exact ih (h.clear (x, a))

theorem Ok.dequeue {rest : List PsFrame} (h : q.Ok) (hk : (q.servq k).staPending = f :: rest) :
    (q.dequeue k rest).Ok := by
  refine ⟨h.exact.dequeue hk, placed_take h.placed ?_⟩
  intro g hg
  rw [hk]
  exact List.mem_cons_of_mem _ hg

theorem Ok.aggregate {n : Nat} {taken rest : List PsFrame} (h : q.Ok)
    (hk : (q.servq k).staPending = taken ++ rest) (hn : n = taken.length) :
    (q.take k n rest (Xmit.rearrange q.staQueue k (rest.map PsFrame.toXmitFrame))).Ok := by
  refine ⟨h.exact.aggregate (by rw [hk, hn, List.length_append]), placed_take h.placed ?_⟩
  intro g hg
  rw [hk]
  exact List.mem_append_right _ hg

end TxQueues

theorem StasOk.update {sta : Nat → PsSta} (h : StasOk sta) {x : Nat} {st : PsSta}
    (hq : ∀ f ∈ st.sleepQ, f.sta = x ∧ st.asoc = true) (hb : x = bmcSta → st.asoc = true) :
    StasOk (Function.update sta x st) where
  slept y f hf := by
    by_cases hy : y = x
    · subst hy
      rw [Function.update_self] at hf ⊢
      exact hq f hf
    · rw [Function.update_of_ne hy] at hf ⊢
      exact h.slept y f hf
  bmc := by
    by_cases hx : bmcSta = x
    · subst hx
      rw [Function.update_self]
      exact hb rfl
    · rw [Function.update_of_ne hx]
      exact h.bmc

namespace ApXmit

variable {s : ApXmit} {f : PsFrame} {x : Nat} {fs : List PsFrame}

theorem stasOk_buffer (h : StasOk s.sta) (ha : (s.sta f.sta).asoc = true) : StasOk (s.buffer f).sta := by
  unfold buffer
  split <;> rename_i hb
  · refine h.update ?_ fun _ => h.bmc
    intro g hg
    rcases List.mem_append.mp hg with hg | hg
    · exact h.slept _ g hg
    · rw [List.mem_singleton.mp hg]
      exact ⟨hb, h.bmc⟩
  · refine h.update ?_ fun e => absurd e hb
    intro g hg
    rcases List.mem_append.mp hg with hg | hg
    · exact h.slept _ g hg
    · rw [List.mem_singleton.mp hg]
      exact ⟨rfl, ha⟩

theorem stasOk_bufferAll (h : StasOk s.sta) (ha : ∀ f ∈ fs, (s.sta f.sta).asoc = true) :
    StasOk (fs.foldl buffer s).sta := by
  induction fs generalizing s with
  | nil => exact h
  | cons f fs ih =>
    refine ih (stasOk_buffer h (ha f List.mem_cons_self)) ?_
    intro g hg
    rw [(buffer_sta s f g.sta).1]
    exact ha g (List.mem_cons_of_mem _ hg)

theorem Held.clearAll {hand : List Nat} (h : s.Held hand) (x : Nat) {l : List Ac} (hnd : l.Nodup) :
    (s.withQueues (ApXmit.clearAll x l s.toTxQueues)).Held
      ((waiting s.toTxQueues x l).map PsFrame.id ++ hand) := by
  induction l generalizing s hand with
  | nil => exact h
  | cons a l ih =>
    obtain ⟨ha, hnd⟩ := List.nodup_cons.mp hnd
    have h1 := ih (h.clear (x, a)) hnd
    refine Accounted.perm h1 ?_
    show List.Perm _ ((waiting (s.toTxQueues.clear (x, a)) x l).map PsFrame.id ++ _)
    rw [waiting_clear _ ha]
    show List.Perm (((s.servq (x, a)).staPending ++ waiting s.toTxQueues x l).map PsFrame.id ++ hand) _
    rw [List.map_append, ← List.append_assoc]
    exact List.perm_append_comm.append_right hand

theorem Held.fresh (h : s.Held []) : ({ s with nextId := s.nextId + 1 } : ApXmit).Held [s.nextId] := by
  have h1 := Accounted.fresh h (Nat.lt_irrefl s.nextId)
  have hU : (fun y => y < s.nextId ∨ y = s.nextId) = fun y => y < s.nextId + 1 := by
    funext y
    exact propext (by omega)
  rw [hU] at h1
  exact h1

variable {hand : List Nat} {c : Nat}

theorem Ok.maps (h : s.Ok hand) (tim dz : Finset Nat) : ({ s with tim := tim, dz := dz } : ApXmit).Ok hand :=
  ⟨h.queues, h.stas, h.held.congr rfl fun o => by cases o <;> rfl⟩

theorem Ok.enqueue (h : s.Ok (f.id :: hand)) : (s.halXmitframeEnqueue f).Ok hand := by
  refine ⟨?_, ?_, h.held.halXmitframeEnqueue⟩
  · cases ha : (s.sta f.sta).asoc with
    | true =>
      rw [halXmitframeEnqueue_of_asoc ha]
      exact h.queues.insert f
    | false =>
      rw [halXmitframeEnqueue_of_not_asoc ha]
      exact h.queues
  · cases ha : (s.sta f.sta).asoc with
    | true =>
      rw [halXmitframeEnqueue_of_asoc ha]
      exact h.stas
    | false =>
      rw [halXmitframeEnqueue_of_not_asoc ha]
      exact h.stas

theorem Ok.enqueueAll (h : s.Ok (fs.map PsFrame.id ++ hand)) :
    (fs.foldl ApXmit.halXmitframeEnqueue s).Ok hand := by
  induction fs generalizing s with
  | nil => exact h
  | cons f fs ih =>
    have h1 : (s.halXmitframeEnqueue f).Ok (fs.map PsFrame.id ++ hand) := Ok.enqueue h
    exact ih h1

theorem Ok.drop (fs : List PsFrame) (h : s.Ok (fs.map PsFrame.id ++ hand)) :
    ({ s with dropped := s.dropped ++ fs } : ApXmit).Ok hand :=
  ⟨h.queues, h.stas, Held.drop fs h.held⟩

theorem Ok.setSta (xs : List Nat) (h : s.Ok hand) (st : PsSta)
    (hp : ((s.sta x).sleepQ.map PsFrame.id).Perm (xs ++ st.sleepQ.map PsFrame.id))
    (hq : ∀ f ∈ st.sleepQ, f.sta = x ∧ st.asoc = true) (hb : x = bmcSta → st.asoc = true) :
    (s.setSta x st).Ok (xs ++ hand) :=
  ⟨h.queues, h.stas.update hq hb, Held.setSta xs h.held st hp⟩

theorem Ok.setOs (xs : List Nat) (h : s.Ok hand) (p : PostCtx) (hp : (s.os c).ids = xs ++ p.ids) :
    (s.setOs c p).Ok (xs ++ hand) :=
  ⟨h.queues, h.stas, Held.setOs xs h.held p (by rw [hp])⟩

theorem Ok.setTask (xs : List Nat) (h : s.Ok hand) (t : CompleteCtx) (ht : s.task.ids = xs ++ t.ids) :
    ({ s with task := t } : ApXmit).Ok (xs ++ hand) :=
  ⟨h.queues, h.stas, Held.setTask xs h.held t (by rw [ht])⟩

/-! ## the steps -/

theorem Ok.assoc (h : s.Ok []) (info : Option Nat) (ha : (s.sta x).asoc = false) :
    (s.setSta x (rtwApParseStaWmmIe info)).Ok [] := by
  have hnew : (rtwApParseStaWmmIe info).sleepQ = [] ∧ (rtwApParseStaWmmIe info).asoc = true := by
    cases info <;> exact ⟨rfl, rfl⟩
  have hold : (s.sta x).sleepQ = [] := by
    rw [List.eq_nil_iff_forall_not_mem]
    intro f hf
    rw [(h.stas.slept x f hf).2] at ha
    cases ha
  refine Ok.setSta [] h _ ?_ ?_ fun _ => hnew.2
  · rw [hold, hnew.1]
    rfl
  · intro f hf
    rw [hnew.1] at hf
    cases hf

theorem Ok.rtwFreeStainfo (h : s.Ok []) (hx : s.peer x = true) : (s.rtwFreeStainfo x).Ok [] := by
  obtain ⟨-, hne⟩ := peer_iff.mp hx
  have h1 : (s.setSta x { sleep := (s.sta x).sleep }).Ok ((s.sta x).sleepQ.map PsFrame.id ++ []) :=
    Ok.setSta _ h _ (by rw [List.map_nil, List.append_nil]) (fun _ hf => nomatch hf)
      fun e => absurd e hne
  have h2 : (((s.setSta x { sleep := (s.sta x).sleep }).withQueues (clearAll x acs s.toTxQueues))).Ok
      (((s.sta x).sleepQ ++ waiting s.toTxQueues x acs).map PsFrame.id ++ []) := by
    refine ⟨h.queues.clearAll x acs, h1.stas, ?_⟩
    refine Accounted.perm (h1.held.clearAll x (show acs.Nodup by decide)) ?_
    rw [List.map_append, List.append_nil, List.append_nil]
    exact List.perm_append_comm
  unfold ApXmit.rtwFreeStainfo
  rw [TxQueues.foldl_free h.queues]
  exact (Ok.drop _ h2).maps _ _

theorem Ok.posthandle (h : s.Ok []) (c : Nat) (req : XmitReq) : (s.posthandle c req).Ok [] := by
  rcases posthandle_cases s c req with he | ⟨f, hc, ha, hid, -, ⟨-, he⟩ | ⟨-, he⟩⟩ <;> rw [he]
  · exact h
  · refine ⟨h.queues, h.stas, ?_⟩
    refine Held.put [s.nextId] h.held.fresh (.os c) rfl ?_
    intro o
    have hos : s.accept.ids (.os c) = [] := by
      show (s.os c).ids = []
      rw [hc]
      rfl
    rw [ids_setOs]
    show _ = Function.update s.accept.ids _ (s.accept.ids (.os c) ++ _) o
    rw [hos, ← hid]
    rfl
  · have hf : s.accept.Held [f.id] := by
      rw [hid]
      exact h.held.fresh
    refine ⟨?_, stasOk_buffer h.stas ha, Held.buffer hf⟩
    rw [buffer_queues]
    exact h.queues

theorem Ok.preXmitframe (h : s.Ok []) (c : Nat) (o : PreOracle) (noBuf : Bool) :
    (s.preXmitframe c o noBuf).Ok [] := by
  unfold ApXmit.preXmitframe
  split
  · rename_i f hc
    split
    · -- the frame leaves the context before it is queued; the two do not touch each other
      have h1 : (s.setOs c .idle).Ok [f.id] := Ok.setOs [f.id] h .idle (by rw [hc]; rfl)
      have h2 : ((s.setOs c .idle).halXmitframeEnqueue f).Ok [] := h1.enqueue
      rw [halXmitframeEnqueue_setOs] at h2
      exact h2
    · exact Ok.setOs [] h _ (by rw [hc]; rfl)
  · exact h

theorem Ok.osCoalesce (h : s.Ok []) (c : Nat) (ok : Bool) : (s.osCoalesce c ok).Ok [] := by
  unfold ApXmit.osCoalesce
  split
  · rename_i t hc
    split
    · exact Ok.setOs [] h _ (by rw [hc]; rfl)
    · have h1 : (s.setOs c .idle).Ok [t.frame.id] := Ok.setOs [t.frame.id] h .idle (by rw [hc]; rfl)
      exact Ok.drop [t.frame] h1
  · exact h

theorem Held.write {t : Taken} (h : s.Held (t.frame.id :: hand)) : (s.write t).Held hand := by
  refine Held.put [t.frame.id] h .written rfl ?_
  intro o
  cases o with
  | written => exact List.map_append
  | _ => rfl

theorem Ok.write {t : Taken} (h : s.Ok (t.frame.id :: hand)) : (s.write t).Ok hand :=
  ⟨h.queues, h.stas, h.held.write⟩

theorem Ok.writeAll {ts : List Taken} (h : s.Ok (ts.map (·.frame.id) ++ hand)) :
    (ts.foldl ApXmit.write s).Ok hand := by
  induction ts generalizing s with
  | nil => exact h
  | cons t ts ih =>
    have h1 : (s.write t).Ok (ts.map (·.frame.id) ++ hand) := Ok.write h
    exact ih h1

theorem foldl_write_task (ts : List Taken) (t : CompleteCtx) (s : ApXmit) :
    ts.foldl ApXmit.write { s with task := t } = { ts.foldl ApXmit.write s with task := t } := by
  induction ts generalizing s with
  | nil => rfl
  | cons u ts ih => exact ih (s.write u)

theorem Ok.osWrite (h : s.Ok []) (c : Nat) : (s.osWrite c).Ok [] := by
  unfold ApXmit.osWrite
  split
  · rename_i t hc
    have h1 : (s.setOs c .idle).Ok [t.frame.id] := Ok.setOs [t.frame.id] h .idle (by rw [hc]; rfl)
    exact h1.write
  · exact h

/-! ### tasklet -/

theorem next_some {inx : List Ac} {q : TxQueues} {k : Nat × Ac} {rest : List PsFrame}
    (h : q.next inx = some (k, f, rest)) : (q.servq k).staPending = f :: rest := by
  unfold TxQueues.next at h
  obtain ⟨ac, -, h⟩ := List.exists_of_findSome?_eq_some h
  obtain ⟨y, -, h⟩ := List.exists_of_findSome?_eq_some h
  split at h
  · cases h
  · rename_i hq
    cases h
    exact hq

theorem Held.takeQueue (taken : List PsFrame) {n : Nat} {rest : List PsFrame} {k : Nat × Ac}
    (sq : Ac → List Nat) (h : s.Held hand) (hk : (s.servq k).staPending = taken ++ rest) :
    (s.withQueues (s.toTxQueues.take k n rest sq)).Held (taken.map PsFrame.id ++ hand) := by
  refine Held.take _ (rest.map PsFrame.id) h (.pending k) ?_ rfl ?_
  · show ((s.servq k).staPending.map PsFrame.id).Perm _
    rw [hk, List.map_append]
  · intro o
    refine ids_withQueues s _ k ?_ (fun j hj => Function.update_of_ne hj _ _) o
    exact congrArg TxServq.staPending (Function.update_self k _ s.servq)

theorem Ok.taskDequeue (h : s.Ok []) (conf : XmitConf) : (s.taskDequeue conf).Ok [] := by
  unfold ApXmit.taskDequeue
  split
  · rename_i ht
    split
    · exact h
    · rename_i k f rest hn
      have hk := next_some hn
      refine ⟨h.queues.dequeue hk, h.stas, ?_⟩
      have h1 : (s.withQueues (s.toTxQueues.dequeue k rest)).Held ([f].map PsFrame.id ++ []) :=
        Held.takeQueue [f] _ h.held hk
      refine Held.put [f.id] h1 .task rfl ?_
      intro o
      have hids : (s.withQueues (s.toTxQueues.dequeue k rest)).ids .task = [] := by
        show s.task.ids = []
        rw [ht]
        rfl
      rw [hids]
      exact ids_setTask (s.withQueues (s.toTxQueues.dequeue k rest)) _ o
  · exact h

theorem Ok.taskCoalesce (h : s.Ok []) (ok : Bool) : (s.taskCoalesce ok).Ok [] := by
  unfold ApXmit.taskCoalesce
  split
  · rename_i t ht
    split
    · exact Ok.setTask [] h _ (by rw [ht]; rfl)
    · have h1 : ({ s with task := .idle } : ApXmit).Ok [t.frame.id] :=
        Ok.setTask [t.frame.id] h .idle (by rw [ht]; rfl)
      exact Ok.drop [t.frame] h1
  · exact h

theorem Ok.taskWrite (h : s.Ok []) : s.taskWrite.Ok [] := by
  unfold ApXmit.taskWrite
  split
  · rename_i ts ht
    have h1 : ({ s with task := .idle } : ApXmit).Ok (ts.map (·.frame.id) ++ []) :=
      Ok.setTask _ h .idle (by rw [ht]; exact (List.append_nil _).symm)
    rw [← foldl_write_task]
    exact h1.writeAll
  · exact h

/-- what the aggregation takes, and what remains, is the queue -/
theorem aggTake_split (conf : XmitConf) (qsel : Nat) (st : AggState) (fs : List PsFrame)
    (cs : List Bool) :
    (aggTake conf qsel st fs cs).1.map (·.1) ++ (aggTake conf qsel st fs cs).2 = fs := by
  induction fs generalizing st cs with
  | nil => rfl
  | cons f fs ih =>
    rw [aggTake]
    dsimp only
    split
    · rfl
    · split
      · rfl
      · split
        · exact congrArg (f :: ·) (ih _ _)
        · split
          · rfl
          · exact congrArg (f :: ·) (ih _ _)

/-- the frames that were copied and those that were not -/
theorem perm_copied (l : List (PsFrame × Bool)) :
    ((l.map (·.1)).map PsFrame.id).Perm
      ((l.filter (·.2)).map (·.1.id) ++ (l.filter (!·.2)).map (·.1.id)) := by
  rw [List.map_map, ← List.map_append]
  exact (List.filter_append_perm (·.2) l).symm.map _

theorem Ok.taskAgg (h : s.Ok []) (conf : XmitConf) (cs : List Bool) : (s.taskAgg conf cs).Ok [] := by
  unfold ApXmit.taskAgg
  split
  · rename_i t ht
    have hsplit := aggTake_split conf t.frame.qsel (aggInit conf t.frame.toXmitFrame)
      (s.servq t.frame.servq).staPending cs
    dsimp only
    generalize aggTake conf t.frame.qsel (aggInit conf t.frame.toXmitFrame)
      (s.servq t.frame.servq).staPending cs = r at hsplit ⊢
    refine ⟨h.queues.aggregate hsplit.symm (List.length_map _).symm, h.stas, ?_⟩
    have h1 := Held.takeQueue (n := r.1.length) _
      (Xmit.rearrange s.staQueue t.frame.servq (r.2.map PsFrame.toXmitFrame)) h.held hsplit.symm
    have h2 : (s.withQueues (s.toTxQueues.take t.frame.servq r.1.length r.2
        (Xmit.rearrange s.staQueue t.frame.servq (r.2.map PsFrame.toXmitFrame)))).Held
          (((r.1.filter (!·.2)).map (·.1)).map PsFrame.id ++ ((r.1.filter (·.2)).map (·.1.id) ++ [])) := by
      refine Accounted.perm h1 ?_
      rw [List.append_nil, List.append_nil, List.map_map]
      exact List.perm_append_comm.trans (perm_copied r.1).symm
    refine Held.put _ (Held.drop _ h2) .task rfl ?_
    intro o
    cases o with
    | task =>
      rw [Function.update_self]
      show t.frame.id :: List.map _ (List.map _ _) = s.task.ids ++ _
      rw [ht, List.map_map]
      rfl
    | _ => rfl
  · exact h

/-! ### power save -/

/-- the frames of `stop_sta_xmit` are for associated stations -/
theorem asoc_of_waiting (h : s.Ok hand) (hx : s.peer x = true) :
    ∀ f ∈ waiting s.toTxQueues x acs ++ waiting s.toTxQueues bmcSta acs,
      ((s.doze x).sta f.sta).asoc = true := by
  have hasoc : ∀ y, ((s.doze x).sta y).asoc = (s.sta y).asoc := by
    intro y
    by_cases hy : y = x
    · subst hy
      show (Function.update s.sta y _ y).asoc = _
      rw [Function.update_self]
    · exact congrArg PsSta.asoc (Function.update_of_ne hy _ s.sta)
  intro f hf
  rw [hasoc]
  rcases List.mem_append.mp hf with hf | hf
  · obtain ⟨ac, -, hf⟩ := mem_waiting.mp hf
    rw [show f.sta = x from congrArg Prod.fst (h.queues.placed _ f hf)]
    exact (peer_iff.mp hx).1
  · obtain ⟨ac, -, hf⟩ := mem_waiting.mp hf
    rw [show f.sta = bmcSta from congrArg Prod.fst (h.queues.placed _ f hf)]
    exact h.stas.bmc

theorem Ok.doze (h : s.Ok hand) (hx : s.peer x = true) : (s.doze x).Ok hand := by
  have hst : ∀ f ∈ (s.sta x).sleepQ, f.sta = x ∧ (s.sta x).asoc = true := h.stas.slept x
  have h1 : (s.setSta x { s.sta x with sleep := true }).Ok ([] ++ hand) :=
    Ok.setSta [] h _ (List.Perm.refl _) hst fun e => absurd e (peer_iff.mp hx).2
  exact h1.maps s.tim (Insert.insert x s.dz)

theorem Ok.stopStaXmit (h : s.Ok []) (hx : s.peer x = true) : (s.stopStaXmit x).Ok [] := by
  have hne := (peer_iff.mp hx).2
  rw [stopStaXmit_eq hx h.stas.bmc h.queues.placed, ← foldl_buffer_withQueues]
  refine ⟨?_, ?_, ?_⟩
  · rw [foldl_buffer_queues]
    exact (h.queues.clearAll x acs).clearAll bmcSta acs
  · exact stasOk_bufferAll (s := (s.doze x).withQueues _) (h.doze hx).stas (asoc_of_waiting h hx)
  · have hnd : acs.Nodup := by decide
    have h1 := (h.doze hx).held.clearAll x hnd
    have h2 := h1.clearAll bmcSta hnd
    refine Held.bufferAll ?_
    refine Accounted.perm h2 ?_
    have hw : waiting (clearAll x acs s.toTxQueues) bmcSta acs = waiting s.toTxQueues bmcSta acs := by
      apply List.flatMap_congr
      intro ac _
      rw [clearAll_servq _ _ hne.symm]
    show List.Perm _ ((waiting (clearAll x acs s.toTxQueues) bmcSta acs).map PsFrame.id
      ++ ((waiting s.toTxQueues x acs).map PsFrame.id ++ []))
    rw [hw, List.append_nil, List.append_nil, List.map_append]
    exact List.perm_append_comm

/-- a `sleep_q` is emptied into the pending queues -/
theorem Ok.release {one : PsSta → PsFrame → PsSta × PsFrame} (hone : KeepsFrame one) (h : s.Ok [])
    (ha : (s.sta x).asoc = true) :
    ((emptySleepQ one (s.sta x)).2.foldl ApXmit.halXmitframeEnqueue
      (s.setSta x (emptySleepQ one (s.sta x)).1)).Ok [] := by
  obtain ⟨n, m, hst⟩ := hone.empty_sta (s.sta x)
  refine Ok.enqueueAll ?_
  rw [ids_of_core (hone.empty_core (s.sta x)), hst]
  refine Ok.setSta _ h _ ?_ (fun _ hf => nomatch hf) fun _ => ha
  rw [List.map_nil, List.append_nil]

theorem Ok.wakeupBmc (h : s.Ok []) : s.wakeupBmc.Ok [] := by
  have h1 := h.release releaseOne_keeps h.stas.bmc
  unfold ApXmit.wakeupBmc
  dsimp only
  split
  · exact h1.maps _ _
  · exact h1

theorem Ok.wakeupUc (h : s.Ok []) (hx : s.peer x = true) : (s.wakeupUc x).Ok [] := by
  obtain ⟨ha, hne⟩ := peer_iff.mp hx
  have h1 := h.release wakeupOne_keeps ha
  obtain ⟨n, m, hst⟩ := wakeupOne_keeps.empty_sta (s.sta x)
  unfold ApXmit.wakeupUc
  dsimp only
  split
  · refine Ok.maps (Ok.setSta [] h1 _ ?_ ?_ fun e => absurd e hne) _ _
    · rw [foldl_halXmitframeEnqueue_sta]
      show List.Perm ((Function.update s.sta x _ x).sleepQ.map _) _
      rw [Function.update_self]
      exact List.Perm.refl _
    · rw [hst]
      exact fun _ hf => nomatch hf
  · exact h1

theorem Ok.wakeupStaToXmit (h : s.Ok []) (hx : s.peer x = true) : (s.wakeupStaToXmit x).Ok [] := by
  unfold ApXmit.wakeupStaToXmit
  dsimp only
  split
  · exact h.wakeupUc hx
  · exact (h.wakeupUc hx).wakeupBmc

theorem Ok.xmitDeliveryEnabledFrames (h : s.Ok []) (hx : s.peer x = true) :
    (s.xmitDeliveryEnabledFrames x).Ok [] := by
  obtain ⟨ha, hne⟩ := peer_iff.mp hx
  obtain ⟨⟨q, n, m, hst⟩, hq, hrel, -⟩ :=
    deliverLoop_keeps { s.sta x with sleepQ := [] } (s.sta x).sleepQ
  have hasoc : (s.delivery x).st.asoc = true := by
    show (deliverLoop _ _).st.asoc = true
    rw [hst]
    exact ha
  have hkeep : (s.delivery x).st.sleepQ
      = (s.sta x).sleepQ.filter (fun f => !wmmpsAc (s.sta x) 1 f.priority) := hq
  have hids : (s.delivery x).released.map PsFrame.id
      = ((s.sta x).sleepQ.filter (fun f => wmmpsAc (s.sta x) 1 f.priority)).map PsFrame.id :=
    ids_of_core hrel
  have h1 : (s.setSta x (s.delivery x).st).Ok ((s.delivery x).released.map PsFrame.id ++ []) := by
    refine Ok.setSta _ h _ ?_ ?_ fun e => absurd e hne
    · rw [hids, hkeep, ← List.map_append]
      exact (List.filter_append_perm (fun f : PsFrame => wmmpsAc (s.sta x) 1 f.priority) _).symm.map _
    · intro f hf
      rw [hkeep] at hf
      exact ⟨(h.stas.slept x f (List.mem_of_mem_filter hf)).1, hasoc⟩
  have h2 := Ok.enqueueAll h1
  unfold ApXmit.xmitDeliveryEnabledFrames
  dsimp only
  split
  · exact h2.maps _ _
  · exact h2

theorem Ok.psPoll (h : s.Ok []) (hx : s.peer x = true) (priority : Nat) : (s.psPoll x priority).Ok [] := by
  obtain ⟨ha, hne⟩ := peer_iff.mp hx
  unfold ApXmit.psPoll
  dsimp only
  split
  · exact h
  · split
    · split
      · rename_i f fs hq
        have h1 : (s.setSta x (releaseOne { s.sta x with sleepQ := fs } f).1).Ok [f.id] := by
          refine Ok.setSta [f.id] h _ ?_ ?_ fun e => absurd e hne
          · rw [hq]
            exact List.Perm.refl _
          · intro g hg
            refine ⟨(h.stas.slept x g ?_).1, ha⟩
            rw [hq]
            exact List.mem_cons_of_mem _ hg
        have h2 : ((s.setSta x (releaseOne { s.sta x with sleepQ := fs } f).1).halXmitframeEnqueue
            (releaseOne { s.sta x with sleepQ := fs } f).2).Ok [] := Ok.enqueue h1
        split
        · exact h2.maps _ _
        · exact h2
      · rename_i hq
        split
        · have h1 : (s.setSta x { s.sta x with sleepqLen := 0 }).Ok [] :=
            Ok.setSta [] h _ (List.Perm.refl _) (h.stas.slept x) fun e => absurd e hne
          exact h1.maps _ _
        · exact h
    · exact h

theorem Ok.step (conf : XmitConf) (h : s.Ok []) (e : PsEvent) : (s.step conf e).Ok [] := by
  cases e with
  | assoc x info =>
    show (if (s.sta x).asoc then s else _ : ApXmit).Ok []
    split
    · exact h
    · rename_i ha
      exact h.assoc info (by simpa using ha)
  | freeStainfo x =>
    show (if s.peer x then _ else s : ApXmit).Ok []
    split
    · exact h.rtwFreeStainfo ‹_›
    · exact h
  | posthandle c req => exact h.posthandle c req
  | pre c o noBuf => exact h.preXmitframe c o noBuf
  | osCoalesce c ok => exact h.osCoalesce c ok
  | osWrite c => exact h.osWrite c
  | taskDequeue => exact h.taskDequeue conf
  | taskCoalesce ok => exact h.taskCoalesce ok
  | taskAgg cs => exact h.taskAgg conf cs
  | taskWrite => exact h.taskWrite
  | stop x =>
    show (if s.peer x then _ else s : ApXmit).Ok []
    split
    · exact h.stopStaXmit ‹_›
    · exact h
  | wakeup x =>
    show (if s.peer x then _ else s : ApXmit).Ok []
    split
    · exact h.wakeupStaToXmit ‹_›
    · exact h
  | deliver x =>
    show (if s.peer x then _ else s : ApXmit).Ok []
    split
    · exact h.xmitDeliveryEnabledFrames ‹_›
    · exact h
  | psPoll x priority =>
    show (if s.peer x then _ else s : ApXmit).Ok []
    split
    · exact h.psPoll ‹_› priority
    · exact h

theorem init_sta (x : Nat) : init.sta x = if x = bmcSta then { asoc := true } else {} := by
  simp only [init, Function.update_apply]

theorem init_sleepQ (x : Nat) : (init.sta x).sleepQ = [] := by
  rw [init_sta]
  split <;> rfl

theorem init_ok : init.Ok [] where
  queues := by
    refine ⟨⟨fun _ => rfl, fun _ _ => ⟨fun h => (nomatch h), fun h => absurd rfl h⟩,
      fun _ => List.nodup_nil, fun _ => total_zero⟩, ?_⟩
    intro k f hf
    cases hf
  stas := by
    refine ⟨?_, by rw [init_sta, if_pos rfl]⟩
    intro x f hf
    rw [init_sleepQ] at hf
    cases hf
  held := by
    have hids : ∀ o, init.ids o = [] := by
      intro o
      cases o with
      | sleepQ x => exact congrArg (List.map PsFrame.id) (init_sleepQ x)
      | _ => rfl
    refine ⟨fun x hx => absurd hx (Nat.not_lt_zero x), fun x _ => ⟨List.not_mem_nil, ?_⟩⟩
    intro o
    rw [hids o]
    exact List.not_mem_nil

theorem run_ok (conf : XmitConf) (es : List PsEvent) : (run (ApXmit.step conf) init es).Ok [] :=
  run_inv_all (I := fun s : ApXmit => s.Ok []) (fun _ e h => Ok.step conf h e) _ es init_ok

end ApXmit

/-- the counters are those of the lists, a station is linked just while it has frames, and no frame
is in two of the lists, or twice in one -/
structure ApXmit.PendingExact (s : ApXmit) : Prop where
  qcnt : ∀ k, (s.servq k).qcnt = (s.servq k).staPending.length
  link : ∀ x ac, x ∈ s.staQueue ac ↔ (s.servq (x, ac)).staPending ≠ []
  linkedOnce : ∀ ac, (s.staQueue ac).Nodup
  accnt : ∀ ac, Total (fun x => (s.servq (x, ac)).qcnt) (s.accnt ac)
  once : ∀ f p, f ∈ s.ids p → (s.ids p).count f = 1 ∧ ∀ o, f ∈ s.ids o → o = p

/-- **The accounting of the pending queues is exact after every run.** -/
theorem pending_exact (conf : XmitConf) (es : List PsEvent) :
    (run (ApXmit.step conf) ApXmit.init es).PendingExact := by
  have h := ApXmit.run_ok conf es
  exact ⟨h.queues.exact.qcnt, h.queues.exact.link, h.queues.exact.nodup, h.queues.exact.accnt,
    fun _ _ hf => Accounted.one_place h.held hf⟩

end Rtl8192eu
