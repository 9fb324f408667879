import Rtl8192eu.Xmit.Pending

/-!
# What is sent to a dozing station

The two lock regions of `rtw_xmit_posthandle` interleave with `stop_sta_xmit`, `wakeup_sta_to_xmit`
and the tasklet.  A frame that passed the check of `xmitframe_enqueue_for_sleeping_sta` before the
station went to sleep reaches `pre_xmitframe` after it.

* `ApXmit.Quiet`   nothing that was taken from a dozing station goes out unasked;
* `preAwake`       the condition: no frame for a dozing station reaches `pre_xmitframe`;
* `ApXmit.Kept`    no frame is freed while stations stay and copies succeed;
* `os_idle`, `task_idle`   every context comes to its end, whatever runs in between;
* `doze_safe`      all of it, over every run.
-/

namespace Rtl8192eu

open Ledger Run

/-! ## the invariant -/

/-- taken while its station was awake, or at its request -/
def Taken.Asked (t : Taken) : Prop :=
  t.frame.sta ≠ bmcSta → t.dozing = true → t.frame.triggered = true

def PostCtx.taken : PostCtx → List Taken
  | .direct t | .packed t => [t]
  | _ => []

def CompleteCtx.taken : CompleteCtx → List Taken
  | .idle => []
  | .got t | .first t => [t]
  | .packed ts => ts

namespace ApXmit

structure Quiet (s : ApXmit) : Prop where
  pending : ∀ k, k.1 ≠ bmcSta → (s.sta k.1).sleep = true →
    ∀ f ∈ (s.servq k).staPending, f.triggered = true
  os : ∀ c, ∀ t ∈ (s.os c).taken, t.Asked
  task : ∀ t ∈ s.task.taken, t.Asked
  written : ∀ p ∈ s.written, p.1.Asked

variable {s s' : ApXmit} {x c : Nat} {f : PsFrame} {fs : List PsFrame}

namespace Quiet

/-- nobody falls asleep, and the queues lose frames at most -/
theorem shrink (h : s.Quiet) (hsl : ∀ y, (s'.sta y).sleep = true → (s.sta y).sleep = true)
    (hq : ∀ k, ∀ f ∈ (s'.servq k).staPending, f ∈ (s.servq k).staPending) (ho : s'.os = s.os)
    (ht : s'.task = s.task) (hw : s'.written = s.written) : s'.Quiet where
  pending k hk hs f hf := h.pending k hk (hsl _ hs) f (hq k f hf)
  os := ho ▸ h.os
  task := ht ▸ h.task
  written := hw ▸ h.written

theorem setSta (h : s.Quiet) {st : PsSta} (hst : st.sleep = true → (s.sta x).sleep = true) :
    (s.setSta x st).Quiet := by
  refine h.shrink ?_ (fun _ _ hf => hf) rfl rfl rfl
  intro y hy
  by_cases hyx : y = x
  · subst hyx
    rw [show (s.setSta y st).sta y = st from Function.update_self ..] at hy
    exact hst hy
  · rwa [show (s.setSta x st).sta y = s.sta y from Function.update_of_ne hyx _ _] at hy

theorem setOs (h : s.Quiet) {p : PostCtx} (hp : ∀ t ∈ p.taken, t.Asked) : (s.setOs c p).Quiet where
  pending := h.pending
  os d := by
    by_cases hd : d = c
    · subst hd
      rw [show (s.setOs d p).os d = p from Function.update_self ..]
      exact hp
    · rw [show (s.setOs c p).os d = s.os d from Function.update_of_ne hd _ _]
      exact h.os d
  task := h.task
  written := h.written

theorem setTask (h : s.Quiet) {p : CompleteCtx} (hp : ∀ t ∈ p.taken, t.Asked) :
    ({ s with task := p } : ApXmit).Quiet :=
  ⟨h.pending, h.os, hp, h.written⟩

theorem insert (h : s.Quiet)
    (hf : f.sta ≠ bmcSta → (s.sta f.sta).sleep = true → f.triggered = true) :
    (s.withQueues (s.toTxQueues.insert f)).Quiet where
  pending k hk hs g hg := by
    by_cases hkf : k = f.servq
    · subst hkf
      rw [show (s.withQueues (s.toTxQueues.insert f)).servq f.servq
        = ⟨(s.servq f.servq).staPending ++ [f], _⟩ from Function.update_self ..] at hg
      rcases List.mem_append.mp hg with hg | hg
      · exact h.pending _ hk hs g hg
      · rw [List.mem_singleton.mp hg]
        exact hf hk hs
    · rw [show (s.withQueues (s.toTxQueues.insert f)).servq k = s.servq k from
        Function.update_of_ne hkf _ _] at hg
      exact h.pending k hk hs g hg
  os := h.os
  task := h.task
  written := h.written

theorem enqueue (h : s.Quiet)
    (hf : f.sta ≠ bmcSta → (s.sta f.sta).sleep = true → f.triggered = true) :
    (s.halXmitframeEnqueue f).Quiet := by
  cases ha : (s.sta f.sta).asoc with
  | true =>
    rw [halXmitframeEnqueue_of_asoc ha]
    exact h.insert hf
  | false =>
    rw [halXmitframeEnqueue_of_not_asoc ha]
    exact h.shrink (fun _ hy => hy) (fun _ _ hg => hg) rfl rfl rfl

theorem enqueueAll (h : s.Quiet) (hfs : ∀ f ∈ fs, f.triggered = true) :
    (fs.foldl halXmitframeEnqueue s).Quiet := by
  induction fs generalizing s with
  | nil => exact h
  | cons f fs ih =>
    exact ih (h.enqueue fun _ _ => hfs f List.mem_cons_self)
      fun g hg => hfs g (List.mem_cons_of_mem _ hg)

theorem write (h : s.Quiet) {t : Taken} (ht : t.Asked) : (s.write t).Quiet := by
  refine ⟨h.pending, h.os, h.task, ?_⟩
  intro p hp
  rcases List.mem_append.mp hp with hp | hp
  · exact h.written p hp
  · rw [List.mem_singleton.mp hp]
    exact ht

theorem writeAll (h : s.Quiet) {ts : List Taken} (ht : ∀ t ∈ ts, t.Asked) :
    (ts.foldl ApXmit.write s).Quiet := by
  induction ts generalizing s with
  | nil => exact h
  | cons t ts ih =>
    exact ih (h.write (ht t List.mem_cons_self)) fun u hu => ht u (List.mem_cons_of_mem _ hu)

end Quiet

/-! ## the events -/

/-- the station sleeps, and nothing waits for it -/
theorem stopStaXmit_frame (hs : s.Ok []) (hx : s.peer x = true) :
    (s.stopStaXmit x).os = s.os ∧ (s.stopStaXmit x).task = s.task
      ∧ (s.stopStaXmit x).written = s.written ∧ (s.stopStaXmit x).dropped = s.dropped
      ∧ (∀ y, ((s.stopStaXmit x).sta y).asoc = (s.sta y).asoc)
      ∧ (∀ y, y ≠ x → ((s.stopStaXmit x).sta y).sleep = (s.sta y).sleep)
      ∧ (s.stopStaXmit x).toTxQueues = clearAll bmcSta acs (clearAll x acs s.toTxQueues) := by
  rw [stopStaXmit_eq hx hs.stas.bmc hs.queues.placed]
  obtain ⟨sta, tim, dz, h, hy⟩ := foldl_buffer_frame (s.doze x)
    (waiting s.toTxQueues x acs ++ waiting s.toTxQueues bmcSta acs)
  rw [h]
  refine ⟨rfl, rfl, rfl, rfl, ?_, ?_, rfl⟩
  · intro y
    refine (hy y).1.trans ?_
    by_cases hyx : y = x
    · subst hyx
      show (Function.update s.sta y _ y).asoc = _
      rw [Function.update_self]
    · exact congrArg PsSta.asoc (Function.update_of_ne hyx _ s.sta)
  · intro y hyx
    exact (hy y).2.trans (congrArg PsSta.sleep (Function.update_of_ne hyx _ s.sta))

theorem mem_clearAll {q : TxQueues} {l : List Ac} {k : Nat × Ac}
    (hf : f ∈ ((clearAll x l q).servq k).staPending) :
    f ∈ (q.servq k).staPending ∧ (k.1 = x → k.2 ∉ l) := by
  induction l generalizing q with
  | nil => exact ⟨hf, fun _ => List.not_mem_nil⟩
  | cons a l ih =>
    obtain ⟨h1, h2⟩ := ih (q := q.clear (x, a)) hf
    by_cases hk : k = (x, a)
    · subst hk
      rw [show (q.clear (x, a)).servq (x, a) = ⟨[], _⟩ from Function.update_self ..] at h1
      cases h1
    · rw [q.clear_servq hk] at h1
      refine ⟨h1, fun hx => ?_⟩
      rw [List.mem_cons, not_or]
      exact ⟨fun ha => hk (Prod.ext hx ha), h2 hx⟩

theorem mem_acs (ac : Ac) : ac ∈ acs := by
  cases ac <;> decide

theorem Quiet.stopStaXmit (h : s.Quiet) (hs : s.Ok []) (hx : s.peer x = true) :
    (s.stopStaXmit x).Quiet := by
  obtain ⟨ho, ht, hw, -, -, hsl, hq⟩ := stopStaXmit_frame hs hx
  refine ⟨?_, by rw [ho]; exact h.os, by rw [ht]; exact h.task, by rw [hw]; exact h.written⟩
  intro k hk hs f hf
  rw [hq] at hf
  obtain ⟨hf1, -⟩ := mem_clearAll hf
  obtain ⟨hf2, hne⟩ := mem_clearAll hf1
  have hkx : k.1 ≠ x := fun e => hne e (mem_acs k.2)
  rw [hsl k.1 hkx] at hs
  exact h.pending k hk hs f hf2

theorem Quiet.release {one : PsSta → PsFrame → PsSta × PsFrame} (hone : KeepsFrame one) (h : s.Quiet)
    (x : Nat) :
    ((emptySleepQ one (s.sta x)).2.foldl halXmitframeEnqueue
      (s.setSta x (emptySleepQ one (s.sta x)).1)).Quiet := by
  obtain ⟨n, m, he⟩ := hone.empty_sta (s.sta x)
  refine Quiet.enqueueAll (h.setSta ?_) (hone.empty_triggered (s.sta x))
  rw [he]
  exact id

theorem Quiet.maps (h : s.Quiet) (tim dz : Finset Nat) : ({ s with tim := tim, dz := dz } : ApXmit).Quiet :=
  ⟨h.pending, h.os, h.task, h.written⟩

theorem Quiet.wakeupStaToXmit (h : s.Quiet) (x : Nat) : (s.wakeupStaToXmit x).Quiet := by
  have h1 : (s.wakeupUc x).Quiet := by
    have hr := Quiet.release wakeupOne_keeps h x
    unfold wakeupUc
    dsimp only
    split
    · exact (hr.setSta fun e => Bool.noConfusion e).maps _ _
    · exact hr
  unfold ApXmit.wakeupStaToXmit
  dsimp only
  split
  · exact h1
  · have hr := Quiet.release releaseOne_keeps h1 bmcSta
    unfold wakeupBmc
    dsimp only
    split
    · exact hr.maps _ _
    · exact hr

theorem Quiet.xmitDeliveryEnabledFrames (h : s.Quiet) (x : Nat) :
    (s.xmitDeliveryEnabledFrames x).Quiet := by
  obtain ⟨⟨q, n, m, he⟩, -, -, ht⟩ := deliverLoop_keeps { s.sta x with sleepQ := [] } (s.sta x).sleepQ
  have hr : ((s.delivery x).released.foldl halXmitframeEnqueue (s.setSta x (s.delivery x).st)).Quiet := by
    refine Quiet.enqueueAll (h.setSta ?_) ht
    rw [delivery, he]
    exact id
  unfold ApXmit.xmitDeliveryEnabledFrames
  dsimp only
  split
  · exact hr.maps _ _
  · exact hr

theorem Quiet.psPoll (h : s.Quiet) (x priority : Nat) : (s.psPoll x priority).Quiet := by
  unfold ApXmit.psPoll
  dsimp only
  split
  · exact h
  · split
    · split
      · rename_i f fs hq
        have hr : ((s.setSta x (releaseOne { s.sta x with sleepQ := fs } f).1).halXmitframeEnqueue
            (releaseOne { s.sta x with sleepQ := fs } f).2).Quiet :=
          Quiet.enqueue (h.setSta id) fun _ _ => rfl
        split
        · exact hr.maps _ _
        · exact hr
      · split
        · refine Quiet.maps (Quiet.setSta h ?_) _ _
          exact id
        · exact h
    · exact h

/-- no frame for a dozing station is in the second lock region of `rtw_xmit_posthandle` -/
def preAwake (s : ApXmit) : PsEvent → Bool
  | .pre c _ _ =>
    match s.os c with
    | .checked f => decide (f.sta = bmcSta) || !(s.sta f.sta).sleep
    | _ => true
  | _ => true

theorem sleep_of_preAwake {o : PreOracle} {noBuf : Bool} (hA : s.preAwake (.pre c o noBuf) = true)
    (hc : s.os c = .checked f) (hf : f.sta ≠ bmcSta) : (s.sta f.sta).sleep = false := by
  unfold preAwake at hA
  dsimp only at hA
  rw [hc] at hA
  dsimp only at hA
  rw [decide_eq_false hf, Bool.false_or, Bool.not_eq_true'] at hA
  exact hA

theorem Quiet.preXmitframe (h : s.Quiet) {o : PreOracle} {noBuf : Bool}
    (hA : s.preAwake (.pre c o noBuf) = true) : (s.preXmitframe c o noBuf).Quiet := by
  unfold ApXmit.preXmitframe
  split
  · rename_i f hc
    split
    · refine Quiet.setOs (h.enqueue ?_) fun t ht => (nomatch ht)
      intro hf hs
      rw [sleep_of_preAwake hA hc hf] at hs
      cases hs
    · refine h.setOs ?_
      intro t ht hf hs
      rw [List.mem_singleton.mp ht] at hf hs
      rw [show (⟨f, (s.sta f.sta).sleep⟩ : Taken).dozing = false from sleep_of_preAwake hA hc hf] at hs
      cases hs
  · exact h

theorem Quiet.posthandle (h : s.Quiet) (c : Nat) (req : XmitReq) : (s.posthandle c req).Quiet := by
  have ha : s.accept.Quiet := ⟨h.pending, h.os, h.task, h.written⟩
  rcases posthandle_cases s c req with he | ⟨f, -, -, -, -, ⟨-, he⟩ | ⟨-, he⟩⟩ <;> rw [he]
  · exact h
  · exact ha.setOs fun t ht => (nomatch ht)
  · obtain ⟨sta, tim, dz, hb, hy⟩ := foldl_buffer_frame s.accept [f]
    rw [show s.accept.buffer f = _ from hb]
    exact ha.shrink (fun y hs => (hy y).2 ▸ hs) (fun _ _ hg => hg) rfl rfl rfl

theorem Quiet.osCoalesce (h : s.Quiet) (c : Nat) (ok : Bool) : (s.osCoalesce c ok).Quiet := by
  unfold ApXmit.osCoalesce
  split
  · rename_i t hc
    have ht : t.Asked := h.os c t (by rw [hc]; exact List.mem_singleton.mpr rfl)
    split
    · refine h.setOs ?_
      intro u hu
      rw [List.mem_singleton.mp hu]
      exact ht
    · refine Quiet.setOs ?_ fun u hu => (nomatch hu)
      exact ⟨h.pending, h.os, h.task, h.written⟩
  · exact h

theorem Quiet.osWrite (h : s.Quiet) (c : Nat) : (s.osWrite c).Quiet := by
  unfold ApXmit.osWrite
  split
  · rename_i t hc
    have ht : t.Asked := h.os c t (by rw [hc]; exact List.mem_singleton.mpr rfl)
    exact (h.write ht).setOs fun u hu => (nomatch hu)
  · exact h

/-- a frame that is taken from its queue -/
theorem Quiet.asked (h : s.Quiet) (hs : s.Ok []) {k : Nat × Ac} (hf : f ∈ (s.servq k).staPending) :
    (⟨f, (s.sta f.sta).sleep⟩ : Taken).Asked := by
  intro hne hd
  have hk : f.servq = k := hs.queues.placed k f hf
  subst hk
  exact h.pending f.servq hne hd f hf

theorem Quiet.takeQueue (h : s.Quiet) (k : Nat × Ac) (n : Nat) (rest : List PsFrame)
    (sq : Ac → List Nat) (hr : ∀ f ∈ rest, f ∈ (s.servq k).staPending) :
    (s.withQueues (s.toTxQueues.take k n rest sq)).Quiet := by
  refine h.shrink (fun _ hy => hy) ?_ rfl rfl rfl
  intro j g hg
  by_cases hj : j = k
  · subst hj
    rw [show (s.withQueues (s.toTxQueues.take j n rest sq)).servq j = ⟨rest, _⟩ from
      Function.update_self ..] at hg
    exact hr g hg
  · rwa [show (s.withQueues (s.toTxQueues.take k n rest sq)).servq j = s.servq j from
      Function.update_of_ne hj _ _] at hg

theorem Quiet.taskDequeue (h : s.Quiet) (hs : s.Ok []) (conf : XmitConf) :
    (s.taskDequeue conf).Quiet := by
  unfold ApXmit.taskDequeue
  split
  · split
    · exact h
    · rename_i k f rest hn
      have hk := next_some hn
      have hq : (s.withQueues (s.toTxQueues.dequeue k rest)).Quiet := by
        refine h.takeQueue k 1 rest _ fun g hg => ?_
        rw [hk]
        exact List.mem_cons_of_mem _ hg
      refine hq.setTask ?_
      intro t ht
      rw [List.mem_singleton.mp ht]
      exact h.asked hs (by rw [hk]; exact List.mem_cons_self)
  · exact h

theorem Quiet.taskCoalesce (h : s.Quiet) (ok : Bool) : (s.taskCoalesce ok).Quiet := by
  unfold ApXmit.taskCoalesce
  split
  · rename_i t ht
    split
    · refine h.setTask ?_
      have ha := h.task
      rw [ht] at ha
      exact ha
    · exact ⟨h.pending, h.os, fun u hu => (nomatch hu), h.written⟩
  · exact h

theorem Quiet.taskAgg (h : s.Quiet) (hs : s.Ok []) (conf : XmitConf) (cs : List Bool) :
    (s.taskAgg conf cs).Quiet := by
  unfold ApXmit.taskAgg
  split
  · rename_i t ht
    have hsplit := aggTake_split conf t.frame.qsel (aggInit conf t.frame.toXmitFrame)
      (s.servq t.frame.servq).staPending cs
    dsimp only
    generalize aggTake conf t.frame.qsel (aggInit conf t.frame.toXmitFrame)
      (s.servq t.frame.servq).staPending cs = r at hsplit ⊢
    have hq := h.takeQueue t.frame.servq r.1.length r.2
      (Xmit.rearrange s.staQueue t.frame.servq (r.2.map PsFrame.toXmitFrame))
      fun g hg => by rw [← hsplit]; exact List.mem_append_right _ hg
    refine ⟨hq.pending, h.os, ?_, h.written⟩
    intro u hu
    rcases List.mem_cons.mp hu with rfl | hu
    · exact h.task u (by rw [ht]; exact List.mem_singleton.mpr rfl)
    · obtain ⟨p, hp, rfl⟩ := List.mem_map.mp hu
      refine h.asked hs (k := t.frame.servq) ?_
      rw [← hsplit]
      exact List.mem_append_left _ (List.mem_map_of_mem (List.mem_filter.mp hp).1)
  · exact h

theorem Quiet.taskWrite (h : s.Quiet) : s.taskWrite.Quiet := by
  unfold ApXmit.taskWrite
  split
  · rename_i ts ht
    have ha := h.task
    rw [ht] at ha
    exact (h.writeAll ha).setTask fun u hu => (nomatch hu)
  · exact h

/-- **One event**: nothing goes out unasked, if `pre_xmitframe` finds no frame for a dozing station. -/
theorem Quiet.step (conf : XmitConf) (h : s.Quiet) (hs : s.Ok []) (e : PsEvent)
    (hA : s.preAwake e = true) : (s.step conf e).Quiet := by
  cases e with
  | assoc y info =>
    unfold ApXmit.step
    dsimp only
    split
    · exact h
    · refine h.setSta fun hsl => ?_
      cases info <;> cases hsl
  | freeStainfo y =>
    unfold ApXmit.step
    dsimp only
    split
    · refine h.shrink ?_ ?_ rfl rfl rfl
      · intro z hz
        by_cases hzy : z = y
        · subst hzy
          rw [show (s.rtwFreeStainfo z).sta z = { sleep := (s.sta z).sleep } from
            Function.update_self ..] at hz
          exact hz
        · rwa [show (s.rtwFreeStainfo y).sta z = s.sta z from Function.update_of_ne hzy _ _] at hz
      · intro k g hg
        rw [show (s.rtwFreeStainfo y).toTxQueues = clearAll y acs s.toTxQueues from
          TxQueues.foldl_free hs.queues y acs] at hg
        exact (mem_clearAll hg).1
    · exact h
  | posthandle c req => exact h.posthandle c req
  | pre c o noBuf => exact h.preXmitframe hA
  | osCoalesce c ok => exact h.osCoalesce c ok
  | osWrite c => exact h.osWrite c
  | taskDequeue => exact h.taskDequeue hs conf
  | taskCoalesce ok => exact h.taskCoalesce ok
  | taskAgg cs => exact h.taskAgg hs conf cs
  | taskWrite => exact h.taskWrite
  | stop y =>
    unfold ApXmit.step
    dsimp only
    split <;> rename_i hy
    · exact h.stopStaXmit hs hy
    · exact h
  | wakeup y =>
    unfold ApXmit.step
    dsimp only
    split
    · exact h.wakeupStaToXmit y
    · exact h
  | deliver y =>
    unfold ApXmit.step
    dsimp only
    split
    · exact h.xmitDeliveryEnabledFrames y
    · exact h
  | psPoll y priority =>
    unfold ApXmit.step
    dsimp only
    split
    · exact h.psPoll y priority
    · exact h

end ApXmit

/-! ## no frame is freed -/

/-- stations stay and frames are copied -/
def PsEvent.lossless : PsEvent → Bool
  | .freeStainfo _ => false
  | .osCoalesce _ ok | .taskCoalesce ok => ok
  | .taskAgg cs => cs.all id
  | _ => true

namespace ApXmit

variable {s s' : ApXmit} {x c : Nat} {f : PsFrame} {fs : List PsFrame}

structure Kept (s : ApXmit) : Prop where
  dropped : s.dropped = []
  checked : ∀ c f, s.os c = .checked f → (s.sta f.sta).asoc = true

theorem Kept.frame (h : s.Kept) (hd : s'.dropped = s.dropped) (ho : s'.os = s.os)
    (ha : ∀ y, (s.sta y).asoc = true → (s'.sta y).asoc = true) : s'.Kept := by
  refine ⟨hd.trans h.dropped, ?_⟩
  intro c f hc
  rw [ho] at hc
  exact ha _ (h.checked c f hc)

theorem Kept.setOs (h : s.Kept) {p : PostCtx} (hp : ∀ f, p = .checked f → (s.sta f.sta).asoc = true) :
    (s.setOs c p).Kept := by
  refine ⟨h.dropped, ?_⟩
  intro d f hd
  by_cases hdc : d = c
  · subst hdc
    rw [show (s.setOs d p).os d = p from Function.update_self ..] at hd
    exact hp f hd
  · rw [show (s.setOs c p).os d = s.os d from Function.update_of_ne hdc _ _] at hd
    exact h.checked d f hd

theorem asoc_setSta {st : PsSta} (ha : (s.sta x).asoc = true → st.asoc = true) (y : Nat)
    (hy : (s.sta y).asoc = true) : ((s.setSta x st).sta y).asoc = true := by
  by_cases hyx : y = x
  · subst hyx
    rw [show (s.setSta y st).sta y = st from Function.update_self ..]
    exact ha hy
  · rwa [show (s.setSta x st).sta y = s.sta y from Function.update_of_ne hyx _ _]

theorem Kept.setSta (h : s.Kept) {st : PsSta} (ha : (s.sta x).asoc = true → st.asoc = true) :
    (s.setSta x st).Kept :=
  h.frame rfl rfl (asoc_setSta ha)

/-- frames for `x` go from its `sleep_q` to the pending queues -/
theorem Kept.release (h : s.Kept) (ha : (s.sta x).asoc = true) {st : PsSta} (hst : st.asoc = true)
    (fs : List PsFrame) (hfs : ∀ f ∈ fs, f.sta = x) : (fs.foldl halXmitframeEnqueue (s.setSta x st)).Kept := by
  have hall : ∀ y, (s.sta y).asoc = true → ((s.setSta x st).sta y).asoc = true :=
    asoc_setSta fun _ => hst
  rw [foldl_halXmitframeEnqueue]
  · exact h.frame rfl rfl hall
  · intro f hf
    rw [hfs f hf]
    exact hall x ha

theorem Kept.maps (h : s.Kept) (tim dz : Finset Nat) : ({ s with tim := tim, dz := dz } : ApXmit).Kept :=
  ⟨h.dropped, h.checked⟩

theorem Kept.empty {one : PsSta → PsFrame → PsSta × PsFrame} (hone : KeepsFrame one) (h : s.Kept)
    (hs : s.Ok []) (ha : (s.sta x).asoc = true) :
    ((emptySleepQ one (s.sta x)).2.foldl halXmitframeEnqueue
      (s.setSta x (emptySleepQ one (s.sta x)).1)).Kept := by
  obtain ⟨n, m, he⟩ := hone.empty_sta (s.sta x)
  refine h.release ha ?_ _ (sta_of_core (hone.empty_core (s.sta x)) fun f hf => (hs.stas.slept x f hf).1)
  rw [he]
  exact ha

theorem Kept.wakeupStaToXmit (h : s.Kept) (hs : s.Ok []) (hx : s.peer x = true) :
    (s.wakeupStaToXmit x).Kept := by
  have ha := (peer_iff.mp hx).1
  have h1 : (s.wakeupUc x).Kept := by
    have hr := Kept.empty wakeupOne_keeps h hs ha
    unfold wakeupUc
    dsimp only
    split
    · obtain ⟨n, m, he⟩ := wakeupOne_keeps.empty_sta (s.sta x)
      refine Kept.maps (hr.setSta ?_) _ _
      intro _
      rw [he]
      exact ha
    · exact hr
  unfold ApXmit.wakeupStaToXmit
  dsimp only
  split
  · exact h1
  · have h2 := hs.wakeupUc hx
    have hr := Kept.empty releaseOne_keeps h1 h2 h2.stas.bmc
    unfold wakeupBmc
    dsimp only
    split
    · exact hr.maps _ _
    · exact hr

theorem Kept.xmitDeliveryEnabledFrames (h : s.Kept) (hs : s.Ok []) (hx : s.peer x = true) :
    (s.xmitDeliveryEnabledFrames x).Kept := by
  have ha := (peer_iff.mp hx).1
  obtain ⟨⟨q, n, m, he⟩, -, hrel, -⟩ :=
    deliverLoop_keeps { s.sta x with sleepQ := [] } (s.sta x).sleepQ
  have hr : ((s.delivery x).released.foldl halXmitframeEnqueue (s.setSta x (s.delivery x).st)).Kept := by
    refine h.release ha ?_ _ (sta_of_core hrel ?_)
    · rw [delivery, he]
      exact ha
    · intro f hf
      exact (hs.stas.slept x f (List.mem_of_mem_filter hf)).1
  unfold ApXmit.xmitDeliveryEnabledFrames
  dsimp only
  split
  · exact hr.maps _ _
  · exact hr

theorem Kept.psPoll (h : s.Kept) (hs : s.Ok []) (hx : s.peer x = true) (priority : Nat) :
    (s.psPoll x priority).Kept := by
  have ha := (peer_iff.mp hx).1
  unfold ApXmit.psPoll
  dsimp only
  split
  · exact h
  · split
    · split
      · rename_i f fs hq
        have hf : f.sta = x := (hs.stas.slept x f (by rw [hq]; exact List.mem_cons_self)).1
        have hr : ((s.setSta x (releaseOne { s.sta x with sleepQ := fs } f).1).halXmitframeEnqueue
            (releaseOne { s.sta x with sleepQ := fs } f).2).Kept := by
          refine Kept.release h ha ?_ [(releaseOne { s.sta x with sleepQ := fs } f).2] ?_
          · exact ha
          · intro g hg
            rw [List.mem_singleton.mp hg]
            exact hf
        split
        · exact hr.maps _ _
        · exact hr
      · split
        · refine Kept.maps (h.setSta ?_) _ _
          exact id
        · exact h
    · exact h

theorem aggTake_copied (conf : XmitConf) (qsel : Nat) (st : AggState) (fs : List PsFrame)
    {cs : List Bool} (hcs : cs.all id = true) : ∀ p ∈ (aggTake conf qsel st fs cs).1, p.2 = true := by
  induction fs generalizing st cs with
  | nil =>
    intro p hp
    cases hp
  | cons f fs ih =>
    have htail : cs.tail.all id = true := by
      cases cs with
      | nil => rfl
      | cons b cs => exact (Bool.and_eq_true _ _ ▸ hcs : _ ∧ _).2
    have hhead : cs.headD true = true := by
      cases cs with
      | nil => rfl
      | cons b cs => exact (Bool.and_eq_true _ _ ▸ hcs : _ ∧ _).1
    intro p hp
    rw [aggTake] at hp
    dsimp only at hp
    rw [hhead, Bool.not_true] at hp
    split at hp
    · cases hp
    · split at hp
      · cases hp
      · rw [if_neg Bool.false_ne_true] at hp
        split at hp
        · rw [List.mem_singleton.mp hp]
        · rcases List.mem_cons.mp hp with rfl | hp
          · rfl
          · exact ih _ htail p hp

theorem Kept.taskAgg (h : s.Kept) (conf : XmitConf) {cs : List Bool} (hcs : cs.all id = true) :
    (s.taskAgg conf cs).Kept := by
  unfold ApXmit.taskAgg
  split
  · rename_i t ht
    have hall := aggTake_copied conf t.frame.qsel (aggInit conf t.frame.toXmitFrame)
      (s.servq t.frame.servq).staPending hcs
    dsimp only
    generalize aggTake conf t.frame.qsel (aggInit conf t.frame.toXmitFrame)
      (s.servq t.frame.servq).staPending cs = r at hall ⊢
    have hnone : r.1.filter (!·.2) = [] := by
      rw [List.filter_eq_nil_iff]
      intro p hp
      rw [hall p hp]
      exact Bool.false_ne_true
    refine h.frame ?_ rfl fun _ ha => ha
    show s.dropped ++ (r.1.filter (!·.2)).map (·.1) = s.dropped
    rw [hnone, List.map_nil, List.append_nil]
  · exact h

theorem foldl_write_frame (s : ApXmit) (ts : List Taken) :
    ∃ w, ts.foldl write s = { s with written := w } := by
  induction ts generalizing s with
  | nil => exact ⟨_, rfl⟩
  | cons t ts ih =>
    obtain ⟨w, hw⟩ := ih (s.write t)
    exact ⟨w, hw⟩

theorem Kept.step (conf : XmitConf) (h : s.Kept) (hs : s.Ok []) (e : PsEvent)
    (he : e.lossless = true) : (s.step conf e).Kept := by
  cases e with
  | assoc y info =>
    unfold ApXmit.step
    dsimp only
    split
    · exact h
    · refine h.setSta fun _ => ?_
      cases info <;> rfl
  | freeStainfo y => cases he
  | posthandle c req =>
    have ha : s.accept.Kept := ⟨h.dropped, h.checked⟩
    show (s.posthandle c req).Kept
    rcases posthandle_cases s c req with hp | ⟨f, -, hf, -, -, ⟨-, hp⟩ | ⟨-, hp⟩⟩ <;> rw [hp]
    · exact h
    · refine ha.setOs fun g hg => ?_
      cases hg
      exact hf
    · obtain ⟨sta, tim, dz, hb, hy⟩ := foldl_buffer_frame s.accept [f]
      rw [show s.accept.buffer f = _ from hb]
      exact ha.frame rfl rfl fun y hya => (hy y).1.trans hya
  | pre c o noBuf =>
    show (s.preXmitframe c o noBuf).Kept
    unfold ApXmit.preXmitframe
    split
    · rename_i f hc
      split
      · rw [halXmitframeEnqueue_of_asoc (h.checked c f hc)]
        have hq : (s.withQueues (s.toTxQueues.insert f)).Kept := h.frame rfl rfl fun _ ha => ha
        exact hq.setOs fun g hg => (nomatch hg)
      · exact h.setOs fun g hg => (nomatch hg)
    · exact h
  | osCoalesce c ok =>
    show (s.osCoalesce c ok).Kept
    rw [show ok = true from he]
    unfold ApXmit.osCoalesce
    split
    · exact h.setOs fun g hg => (nomatch hg)
    · exact h
  | osWrite c =>
    show (s.osWrite c).Kept
    unfold ApXmit.osWrite
    split
    · rename_i t hc
      have hw : (s.write t).Kept := h.frame rfl rfl fun _ ha => ha
      exact hw.setOs fun g hg => (nomatch hg)
    · exact h
  | taskDequeue =>
    show (s.taskDequeue conf).Kept
    unfold ApXmit.taskDequeue
    split
    · split <;> exact ⟨h.dropped, h.checked⟩
    · exact h
  | taskCoalesce ok =>
    show (s.taskCoalesce ok).Kept
    rw [show ok = true from he]
    unfold ApXmit.taskCoalesce
    split <;> exact ⟨h.dropped, h.checked⟩
  | taskAgg cs => exact h.taskAgg conf he
  | taskWrite =>
    show s.taskWrite.Kept
    unfold ApXmit.taskWrite
    split
    · rename_i ts ht
      obtain ⟨w, hw⟩ := foldl_write_frame s ts
      rw [hw]
      exact ⟨h.dropped, h.checked⟩
    · exact h
  | stop y =>
    unfold ApXmit.step
    dsimp only
    split <;> rename_i hy
    · obtain ⟨ho, -, -, hd, ha, -, -⟩ := stopStaXmit_frame hs hy
      exact h.frame hd ho fun z hz => (ha z).trans hz
    · exact h
  | wakeup y =>
    unfold ApXmit.step
    dsimp only
    split <;> rename_i hy
    · exact h.wakeupStaToXmit hs hy
    · exact h
  | deliver y =>
    unfold ApXmit.step
    dsimp only
    split <;> rename_i hy
    · exact h.xmitDeliveryEnabledFrames hs hy
    · exact h
  | psPoll y priority =>
    unfold ApXmit.step
    dsimp only
    split <;> rename_i hy
    · exact h.psPoll hs hy priority
    · exact h

end ApXmit

/-! ## every context comes to its end -/

/-- the lock regions that are still to come -/
def PostCtx.rank : PostCtx → Nat
  | .idle => 0
  | .packed _ => 1
  | .direct _ => 2
  | .checked _ => 3

def CompleteCtx.rank : CompleteCtx → Nat
  | .idle => 0
  | .packed _ => 1
  | .first _ => 2
  | .got _ => 3

/-- stations come and go, sleep and wake -/
def PsEvent.ofStations : PsEvent → Bool
  | .assoc _ _ | .freeStainfo _ | .stop _ | .wakeup _ | .deliver _ | .psPoll _ _ => true
  | _ => false

namespace ApXmit

variable {s : ApXmit} {x c : Nat}

theorem wakeupStaToXmit_ctx (s : ApXmit) (x : Nat) :
    (s.wakeupStaToXmit x).os = s.os ∧ (s.wakeupStaToXmit x).task = s.task := by
  have h1 : (s.wakeupUc x).os = s.os ∧ (s.wakeupUc x).task = s.task := by
    unfold wakeupUc
    dsimp only
    obtain ⟨q, d, hf⟩ := foldl_halXmitframeEnqueue_frame
      (s.setSta x (emptySleepQ wakeupOne (s.sta x)).1) (emptySleepQ wakeupOne (s.sta x)).2
    rw [hf]
    split <;> exact ⟨rfl, rfl⟩
  unfold wakeupStaToXmit
  dsimp only
  split
  · exact h1
  · rw [← h1.1, ← h1.2]
    unfold wakeupBmc
    dsimp only
    obtain ⟨q, d, hf⟩ := foldl_halXmitframeEnqueue_frame
      ((s.wakeupUc x).setSta bmcSta (emptySleepQ releaseOne ((s.wakeupUc x).sta bmcSta)).1)
      (emptySleepQ releaseOne ((s.wakeupUc x).sta bmcSta)).2
    rw [hf]
    split <;> exact ⟨rfl, rfl⟩

/-- no context is touched -/
theorem ofStations_ctx (conf : XmitConf) (hs : s.Ok []) {e : PsEvent} (he : e.ofStations = true) :
    (s.step conf e).os = s.os ∧ (s.step conf e).task = s.task := by
  cases e with
  | assoc y info =>
    unfold ApXmit.step
    dsimp only
    split <;> exact ⟨rfl, rfl⟩
  | freeStainfo y =>
    unfold ApXmit.step
    dsimp only
    split <;> exact ⟨rfl, rfl⟩
  | stop y =>
    unfold ApXmit.step
    dsimp only
    split <;> rename_i hy
    · obtain ⟨ho, ht, -⟩ := stopStaXmit_frame hs hy
      exact ⟨ho, ht⟩
    · exact ⟨rfl, rfl⟩
  | wakeup y =>
    unfold ApXmit.step
    dsimp only
    split
    · exact wakeupStaToXmit_ctx s y
    · exact ⟨rfl, rfl⟩
  | deliver y =>
    unfold ApXmit.step
    dsimp only
    split
    · unfold xmitDeliveryEnabledFrames
      dsimp only
      obtain ⟨q, d, hf⟩ := foldl_halXmitframeEnqueue_frame (s.setSta y (s.delivery y).st)
        (s.delivery y).released
      rw [hf]
      split <;> exact ⟨rfl, rfl⟩
    · exact ⟨rfl, rfl⟩
  | psPoll y priority =>
    unfold ApXmit.step
    dsimp only
    split
    · unfold psPoll
      dsimp only
      split
      · exact ⟨rfl, rfl⟩
      · split
        · split
          · rename_i f fs hq
            obtain ⟨q, d, hf⟩ := halXmitframeEnqueue_frame
              (s.setSta y (releaseOne { s.sta y with sleepQ := fs } f).1)
              (releaseOne { s.sta y with sleepQ := fs } f).2
            rw [hf]
            split <;> exact ⟨rfl, rfl⟩
          · split <;> exact ⟨rfl, rfl⟩
        · exact ⟨rfl, rfl⟩
    · exact ⟨rfl, rfl⟩
  | _ => cases he

/-- the transmit entry `c` leaves the rank `r + 1`, if it is there -/
def Advances (s s' : ApXmit) (c r : Nat) : Prop :=
  ((s.os c).rank ≠ r + 1 ∧ s'.os = s.os)
    ∨ ((s.os c).rank = r + 1 ∧ ∃ p : PostCtx, p.rank ≤ r ∧ s'.os = Function.update s.os c p)

theorem Advances.rank_le {s' : ApXmit} {r : Nat} (h : s.Advances s' c r) (d : Nat) :
    (s'.os d).rank ≤ (s.os d).rank := by
  rcases h with ⟨-, ho⟩ | ⟨hr, p, hp, ho⟩ <;> rw [ho]
  by_cases hd : d = c
  · subst hd
    rw [Function.update_self]
    omega
  · rw [Function.update_of_ne hd]

theorem Advances.done {s' : ApXmit} {r : Nat} (h : s.Advances s' c r) (hr : (s.os c).rank ≤ r + 1) :
    (s'.os c).rank ≤ r := by
  rcases h with ⟨hne, ho⟩ | ⟨-, p, hp, ho⟩ <;> rw [ho]
  · omega
  · rw [Function.update_self]
    exact hp

theorem preXmitframe_advances (s : ApXmit) (c : Nat) (o : PreOracle) (noBuf : Bool) :
    s.Advances (s.preXmitframe c o noBuf) c 2 := by
  unfold preXmitframe
  split
  · rename_i f hc
    refine Or.inr ⟨by rw [hc]; rfl, ?_⟩
    split
    · obtain ⟨q, d, hf⟩ := halXmitframeEnqueue_frame s f
      rw [hf]
      exact ⟨.idle, Nat.zero_le 2, rfl⟩
    · exact ⟨.direct _, Nat.le_refl 2, rfl⟩
  · rename_i hc
    refine Or.inl ⟨?_, rfl⟩
    cases hp : s.os c with
    | checked f => exact absurd hp (hc f)
    | _ => simp [PostCtx.rank]

theorem osCoalesce_advances (s : ApXmit) (c : Nat) (ok : Bool) :
    s.Advances (s.osCoalesce c ok) c 1 := by
  unfold osCoalesce
  split
  · rename_i t hc
    refine Or.inr ⟨by rw [hc]; rfl, ?_⟩
    split
    · exact ⟨.packed _, Nat.le_refl 1, rfl⟩
    · exact ⟨.idle, Nat.zero_le 1, rfl⟩
  · rename_i hc
    refine Or.inl ⟨?_, rfl⟩
    cases hp : s.os c with
    | direct t => exact absurd hp (hc t)
    | _ => simp [PostCtx.rank]

theorem osWrite_advances (s : ApXmit) (c : Nat) : s.Advances (s.osWrite c) c 0 := by
  unfold osWrite
  split
  · rename_i t hc
    exact Or.inr ⟨by rw [hc]; rfl, .idle, Nat.le_refl 0, rfl⟩
  · rename_i hc
    refine Or.inl ⟨?_, rfl⟩
    cases hp : s.os c with
    | packed t => exact absurd hp (hc t)
    | _ => simp [PostCtx.rank]

theorem taskCtx_os (conf : XmitConf) (s : ApXmit) : (s.taskDequeue conf).os = s.os
    ∧ (∀ ok, (s.taskCoalesce ok).os = s.os) ∧ (∀ cs, (s.taskAgg conf cs).os = s.os)
    ∧ s.taskWrite.os = s.os := by
  refine ⟨?_, ?_, ?_, ?_⟩
  · unfold taskDequeue
    split
    · split <;> rfl
    · rfl
  · intro ok
    unfold taskCoalesce
    split
    · split <;> rfl
    · rfl
  · intro cs
    unfold taskAgg
    split <;> rfl
  · unfold taskWrite
    split
    · rename_i ts ht
      obtain ⟨w, hw⟩ := foldl_write_frame s ts
      rw [hw]
    · rfl

/-- only a new frame brings the transmit entry back to its beginning -/
theorem step_os_rank (conf : XmitConf) (hs : s.Ok []) {e : PsEvent}
    (he : ∀ req, e ≠ .posthandle c req) : ((s.step conf e).os c).rank ≤ (s.os c).rank := by
  have hof : e.ofStations = true → ((s.step conf e).os c).rank ≤ (s.os c).rank := by
    intro hof
    rw [(ofStations_ctx conf hs hof).1]
  obtain ⟨h1, h2, h3, h4⟩ := taskCtx_os conf s
  cases e with
  | posthandle d req =>
    have hcd : c ≠ d := by
      rintro rfl
      exact he req rfl
    show ((s.posthandle d req).os c).rank ≤ _
    rcases posthandle_cases s d req with hp | ⟨f, -, -, -, -, ⟨-, hp⟩ | ⟨-, hp⟩⟩ <;> rw [hp]
    · rw [show (s.accept.setOs d (.checked f)).os c = s.os c from Function.update_of_ne hcd _ _]
    · obtain ⟨sta, tim, dz, hb, -⟩ := foldl_buffer_frame s.accept [f]
      rw [show s.accept.buffer f = _ from hb]
      exact Nat.le_refl _
  | pre d o noBuf => exact (preXmitframe_advances s d o noBuf).rank_le c
  | osCoalesce d ok => exact (osCoalesce_advances s d ok).rank_le c
  | osWrite d => exact (osWrite_advances s d).rank_le c
  | taskDequeue =>
    show ((s.taskDequeue conf).os c).rank ≤ _
    rw [h1]
  | taskCoalesce ok =>
    show ((s.taskCoalesce ok).os c).rank ≤ _
    rw [h2]
  | taskAgg cs =>
    show ((s.taskAgg conf cs).os c).rank ≤ _
    rw [h3]
  | taskWrite =>
    show (s.taskWrite.os c).rank ≤ _
    rw [h4]
  | _ => exact hof rfl

theorem rank_eq_zero {p : PostCtx} (h : p.rank ≤ 0) : p = .idle := by
  cases p with
  | idle => rfl
  | _ => simp [PostCtx.rank] at h

/-- **A transmit entry ends** after its lock regions, whatever runs in between. -/
theorem os_idle (conf : XmitConf) (hs : s.Ok []) (c : Nat) {o : PreOracle} {noBuf ok : Bool}
    {a b d : List PsEvent} (ha : ∀ e ∈ a, ∀ req, e ≠ .posthandle c req)
    (hb : ∀ e ∈ b, ∀ req, e ≠ .posthandle c req) (hd : ∀ e ∈ d, ∀ req, e ≠ .posthandle c req) :
    (run (ApXmit.step conf) s
      ((.pre c o noBuf :: a) ++ ((.osCoalesce c ok :: b) ++ (.osWrite c :: d)))).os c = .idle := by
  have hI : ∀ s e, ApXmit.Ok s [] → ApXmit.Ok (s.step conf e) [] := fun s e h => h.step conf e
  have hm : ∀ (s : ApXmit) e, s.Ok [] → (∀ req, e ≠ PsEvent.posthandle c req) →
      ((s.step conf e).os c).rank ≤ (s.os c).rank := fun s e h he => step_os_rank conf h he
  rw [run_append, run_append]
  refine rank_eq_zero (run_stage_le (m := fun s : ApXmit => (s.os c).rank) hI hm ?_ hd ?_)
  · exact run_inv_all hI _ _ (run_inv_all hI _ _ hs)
  · refine (osWrite_advances _ c).done ?_
    refine run_stage_le (m := fun s : ApXmit => (s.os c).rank) hI hm (run_inv_all hI _ _ hs) hb ?_
    refine (osCoalesce_advances _ c ok).done ?_
    refine run_stage_le (m := fun s : ApXmit => (s.os c).rank) hI hm hs ha ?_
    refine (preXmitframe_advances s c o noBuf).done ?_
    cases s.os c <;> simp [PostCtx.rank]

theorem task_rank_eq_zero {p : CompleteCtx} (h : p.rank ≤ 0) : p = .idle := by
  cases p with
  | idle => rfl
  | _ => simp [CompleteCtx.rank] at h

theorem taskCoalesce_rank (s : ApXmit) (ok : Bool) :
    (s.taskCoalesce ok).task.rank ≤ 2 ∧ (s.taskCoalesce ok).task.rank ≤ s.task.rank := by
  unfold taskCoalesce
  cases ht : s.task with
  | got t =>
    dsimp only
    split <;> simp [CompleteCtx.rank]
  | _ => simp [ht, CompleteCtx.rank]

theorem taskAgg_rank (conf : XmitConf) (s : ApXmit) (cs : List Bool) :
    (s.task.rank ≤ 2 → (s.taskAgg conf cs).task.rank ≤ 1)
      ∧ (s.taskAgg conf cs).task.rank ≤ s.task.rank := by
  unfold taskAgg
  cases ht : s.task with
  | first t => simp [CompleteCtx.rank]
  | _ => simp [ht, CompleteCtx.rank]

theorem taskWrite_rank (s : ApXmit) :
    (s.task.rank ≤ 1 → s.taskWrite.task.rank ≤ 0) ∧ s.taskWrite.task.rank ≤ s.task.rank := by
  unfold taskWrite
  cases ht : s.task with
  | packed ts => simp [CompleteCtx.rank]
  | _ => simp [ht, CompleteCtx.rank]

/-- the transmit entries do not touch the tasklet -/
theorem osCtx_task (s : ApXmit) : (∀ c req, (s.posthandle c req).task = s.task)
    ∧ (∀ c o noBuf, (s.preXmitframe c o noBuf).task = s.task)
    ∧ (∀ c ok, (s.osCoalesce c ok).task = s.task) ∧ ∀ c, (s.osWrite c).task = s.task := by
  refine ⟨?_, ?_, ?_, ?_⟩
  · intro c req
    rcases posthandle_cases s c req with hp | ⟨f, -, -, -, -, ⟨-, hp⟩ | ⟨-, hp⟩⟩ <;> rw [hp]
    · rfl
    · obtain ⟨sta, tim, dz, hb, -⟩ := foldl_buffer_frame s.accept [f]
      rw [show s.accept.buffer f = _ from hb]
      rfl
  · intro c o noBuf
    unfold preXmitframe
    split
    · rename_i f hc
      obtain ⟨q, d, hf⟩ := halXmitframeEnqueue_frame s f
      rw [hf]
      split <;> rfl
    · rfl
  · intro c ok
    unfold osCoalesce
    split
    · split <;> rfl
    · rfl
  · intro c
    unfold osWrite
    split <;> rfl

/-- only `rtw_dequeue_xframe` brings the tasklet back to its beginning -/
theorem step_task_rank (conf : XmitConf) (hs : s.Ok []) {e : PsEvent} (he : e ≠ .taskDequeue) :
    (s.step conf e).task.rank ≤ s.task.rank := by
  have hof : e.ofStations = true → (s.step conf e).task.rank ≤ s.task.rank := by
    intro hof
    rw [(ofStations_ctx conf hs hof).2]
  obtain ⟨h1, h2, h3, h4⟩ := osCtx_task s
  cases e with
  | posthandle c req => exact Nat.le_of_eq (congrArg CompleteCtx.rank (h1 c req))
  | pre c o noBuf => exact Nat.le_of_eq (congrArg CompleteCtx.rank (h2 c o noBuf))
  | osCoalesce c ok => exact Nat.le_of_eq (congrArg CompleteCtx.rank (h3 c ok))
  | osWrite c => exact Nat.le_of_eq (congrArg CompleteCtx.rank (h4 c))
  | taskDequeue => exact absurd rfl he
  | taskCoalesce ok => exact (taskCoalesce_rank s ok).2
  | taskAgg cs => exact (taskAgg_rank conf s cs).2
  | taskWrite => exact (taskWrite_rank s).2
  | _ => exact hof rfl

/-- **The tasklet ends** in the same way. -/
theorem task_idle (conf : XmitConf) (hs : s.Ok []) {ok : Bool} {cs : List Bool}
    {a b d : List PsEvent} (ha : ∀ e ∈ a, e ≠ .taskDequeue) (hb : ∀ e ∈ b, e ≠ .taskDequeue)
    (hd : ∀ e ∈ d, e ≠ .taskDequeue) :
    (run (ApXmit.step conf) s
      ((.taskCoalesce ok :: a) ++ ((.taskAgg cs :: b) ++ (.taskWrite :: d)))).task = .idle := by
  have hI : ∀ s e, ApXmit.Ok s [] → ApXmit.Ok (s.step conf e) [] := fun s e h => h.step conf e
  have hm : ∀ (s : ApXmit) e, s.Ok [] → e ≠ PsEvent.taskDequeue →
      (s.step conf e).task.rank ≤ s.task.rank := fun s e h he => step_task_rank conf h he
  rw [run_append, run_append]
  refine task_rank_eq_zero (run_stage_le (m := fun s : ApXmit => s.task.rank) hI hm ?_ hd ?_)
  · exact run_inv_all hI _ _ (run_inv_all hI _ _ hs)
  · refine (taskWrite_rank _).1 ?_
    refine run_stage_le (m := fun s : ApXmit => s.task.rank) hI hm (run_inv_all hI _ _ hs) hb ?_
    refine (taskAgg_rank conf _ cs).1 ?_
    exact run_stage_le (m := fun s : ApXmit => s.task.rank) hI hm hs ha (by exact (taskCoalesce_rank s ok).1)

end ApXmit

/-! ## the result -/

namespace ApXmit

/-- a number that was given to a frame is in a `sleep_q`, in a pending queue that is linked, or went
to `rtw_write_port` -/
def Placed (s : ApXmit) (i : Nat) : Prop :=
  (∃ x, i ∈ s.ids (.sleepQ x))
    ∨ (∃ k : Nat × Ac, i ∈ s.ids (.pending k) ∧ k.1 ∈ s.staQueue k.2)
    ∨ i ∈ s.ids .written

/-- a context has it, between two of its lock regions -/
def InHand (s : ApXmit) (i : Nat) : Prop := (∃ c, i ∈ s.ids (.os c)) ∨ i ∈ s.ids .task

theorem Ok.located {s : ApXmit} (h : s.Ok []) {i : Nat} (hi : i < s.nextId) :
    s.Placed i ∨ s.InHand i ∨ i ∈ s.ids .dropped := by
  obtain ⟨o, hhand, hpl⟩ := Accounted.once h.held i hi
  cases o with
  | none => exact absurd hhand (by simp)
  | some p =>
    have hp := hpl p
    rw [if_pos rfl] at hp
    have hmem : i ∈ s.ids p := List.count_pos_iff.mp (by rw [hp]; exact Nat.one_pos)
    cases p with
    | sleepQ x => exact Or.inl (Or.inl ⟨x, hmem⟩)
    | pending k =>
      refine Or.inl (Or.inr (Or.inl ⟨k, hmem, ?_⟩))
      refine (h.queues.exact.link k.1 k.2).mpr fun hnil => ?_
      rw [show s.ids (.pending k) = ((s.servq k).staPending).map PsFrame.id from rfl, hnil] at hmem
      cases hmem
    | os c => exact Or.inr (Or.inl (Or.inl ⟨c, hmem⟩))
    | task => exact Or.inr (Or.inl (Or.inr hmem))
    | written => exact Or.inl (Or.inr (Or.inr hmem))
    | dropped => exact Or.inr (Or.inr hmem)

/-- each context comes to its end after its lock regions, whatever the others do in between -/
structure ContextsEnd (conf : XmitConf) (s : ApXmit) : Prop where
  os : ∀ c o noBuf ok a b d, (∀ e ∈ a ++ (b ++ d), ∀ req, e ≠ PsEvent.posthandle c req) →
    (run (ApXmit.step conf) s
      ((.pre c o noBuf :: a) ++ ((.osCoalesce c ok :: b) ++ (.osWrite c :: d)))).os c = .idle
  task : ∀ ok cs a b d, (∀ e ∈ a ++ (b ++ d), e ≠ PsEvent.taskDequeue) →
    (run (ApXmit.step conf) s
      ((.taskCoalesce ok :: a) ++ ((.taskAgg cs :: b) ++ (.taskWrite :: d)))).task = .idle

theorem Ok.contextsEnd {s : ApXmit} (h : s.Ok []) (conf : XmitConf) : s.ContextsEnd conf where
  os c o noBuf ok a b d hno := by
    refine os_idle conf h c (fun e he => hno e ?_) (fun e he => hno e ?_) fun e he => hno e ?_
    · exact List.mem_append_left _ he
    · exact List.mem_append_right _ (List.mem_append_left _ he)
    · exact List.mem_append_right _ (List.mem_append_right _ he)
  task ok cs a b d hno := by
    refine task_idle conf h (fun e he => hno e ?_) (fun e he => hno e ?_) fun e he => hno e ?_
    · exact List.mem_append_left _ he
    · exact List.mem_append_right _ (List.mem_append_left _ he)
    · exact List.mem_append_right _ (List.mem_append_right _ he)

theorem init_quiet : init.Quiet :=
  ⟨fun _ _ _ _ hf => (nomatch hf), fun _ _ ht => (nomatch ht), fun _ ht => (nomatch ht),
    fun _ hp => (nomatch hp)⟩

theorem quiet_run (conf : XmitConf) {es : List PsEvent}
    (hA : Along (ApXmit.step conf) (fun s e => s.preAwake e = true) init es) :
    (run (ApXmit.step conf) init es).Quiet := by
  have h : (run (ApXmit.step conf) init es).Ok [] ∧ (run (ApXmit.step conf) init es).Quiet :=
    run_inv (I := fun s : ApXmit => s.Ok [] ∧ s.Quiet)
      (fun s e h hA => ⟨h.1.step conf e, h.2.step conf h.1 e hA⟩) init es ⟨init_ok, init_quiet⟩ hA
  exact h.2

theorem kept_run (conf : XmitConf) {es : List PsEvent} (hl : ∀ e ∈ es, e.lossless = true) :
    (run (ApXmit.step conf) init es).Kept := by
  have hC : Along (ApXmit.step conf) (fun _ e => e.lossless = true) init es :=
    along_of_forall_prefix fun es' e hp =>
      hl e (hp.subset (List.mem_append_right _ List.mem_cons_self))
  have h : (run (ApXmit.step conf) init es).Ok [] ∧ (run (ApXmit.step conf) init es).Kept :=
    run_inv (I := fun s : ApXmit => s.Ok [] ∧ s.Kept)
      (fun s e h he => ⟨h.1.step conf e, h.2.step conf h.1 e he⟩) init es
      ⟨init_ok, ⟨rfl, fun _ _ hc => (nomatch hc)⟩⟩ hC
  exact h.2

end ApXmit

/-- **Nothing is sent to a dozing station unasked, and no frame is lost**, in the runs where
`pre_xmitframe` finds no frame for a dozing station.  `dozing` is the state of the station when the
frame was taken.  Frames are freed only with their station or when they cannot be copied. -/
theorem doze_safe (conf : XmitConf) (es : List PsEvent)
    (hA : Along (ApXmit.step conf) (fun s e => s.preAwake e = true) ApXmit.init es) :
    (∀ p ∈ (run (ApXmit.step conf) ApXmit.init es).written, p.1.frame.sta ≠ bmcSta → p.2 = true →
        p.1.dozing = false ∨ p.1.frame.triggered = true)
      ∧ (∀ i < (run (ApXmit.step conf) ApXmit.init es).nextId,
        (run (ApXmit.step conf) ApXmit.init es).Placed i
          ∨ (run (ApXmit.step conf) ApXmit.init es).InHand i
          ∨ i ∈ (run (ApXmit.step conf) ApXmit.init es).ids .dropped)
      ∧ ((∀ e ∈ es, e.lossless = true) → (run (ApXmit.step conf) ApXmit.init es).dropped = [])
      ∧ (run (ApXmit.step conf) ApXmit.init es).ContextsEnd conf := by
  have hok := ApXmit.run_ok conf es
  refine ⟨?_, fun i hi => hok.located hi, fun hl => (ApXmit.kept_run conf hl).dropped,
    hok.contextsEnd conf⟩
  intro p hp hne _
  have hasked := (ApXmit.quiet_run conf hA).written p hp
  cases hd : p.1.dozing with
  | false => exact Or.inl rfl
  | true => exact Or.inr (hasked hne hd)

/-- a frame is taken, its station goes to sleep, and a second frame goes out for a PS-Poll -/
def dozeRun : List PsEvent :=
  [.assoc 1 none, .posthandle 0 ⟨1, 0, 100, 0⟩, .pre 0 {} false, .stop 1, .osCoalesce 0 true,
    .osWrite 0, .posthandle 0 ⟨1, 0, 100, 0⟩, .psPoll 1 0, .taskDequeue, .taskCoalesce true,
    .taskAgg [], .taskWrite]

theorem doze_safe_two :
    (run (ApXmit.step {}) ApXmit.init dozeRun).written.map
        (fun p => (p.1.dozing, p.1.frame.triggered, p.2)) = [(false, false, true), (true, true, true)]
      ∧ ∀ p ∈ (run (ApXmit.step {}) ApXmit.init dozeRun).written, p.1.frame.sta ≠ bmcSta → p.2 = true →
        p.1.dozing = false ∨ p.1.frame.triggered = true :=
  ⟨by decide +kernel, (doze_safe {} dozeRun (by decide +kernel)).1⟩

/-- the station goes to sleep between the two lock regions of `rtw_xmit_posthandle` -/
def dozeBetween : List PsEvent :=
  [.assoc 1 none, .posthandle 0 ⟨1, 0, 100, 0⟩, .stop 1, .pre 0 {} false, .osCoalesce 0 true, .osWrite 0]

theorem sent_unasked :
    ∃ p ∈ (run (ApXmit.step {}) ApXmit.init dozeBetween).written,
      p.1.frame.sta ≠ bmcSta ∧ p.2 = true ∧ p.1.dozing = true ∧ p.1.frame.triggered = false := by
  decide +kernel

end Rtl8192eu
