import Mathlib.Data.List.Nodup
import Mathlib.Data.List.Perm.Basic
import Mathlib.Data.Int.Order.Basic
import Rtl8192eu.Lib.Run

/-!
# Occupancy of the transmit queues

`usb_write_port` raises the counter of its queue under the lock and submits the URB afterwards;
`usb_write_port_complete` lowers the counter of the queue that the buffer's `flags` name, and takes no lock.

* `WritePorts.step`   one access of a call or of a callback, in any order;
* `WritePorts.Exact`   each counter is the number of URBs of its queue that are on their way;
* `queueCounts_iff`   the runs in which this holds.

The host controller refuses an URB that is active (`-EBUSY`). A counter is read and written in two steps; what
is done under the lock between them, and `flags`, go with the write.
-/

namespace Rtl8192eu

open Run

/-- the queues with a counter -/
inductive AcQueue where
  | vo
  | vi
  | be
  | bk
  deriving DecidableEq, Repr

def voQueueInx : Nat := 0
def viQueueInx : Nat := 1
def beQueueInx : Nat := 2
def bkQueueInx : Nat := 3
def mgtQueueInx : Nat := 5
def highQueueInx : Nat := 7

/-- the counter that a queue address, or the `flags` of a buffer, stand for -/
def acQueue (addr : Nat) : Option AcQueue :=
  if addr = voQueueInx then some .vo
  else if addr = viQueueInx then some .vi
  else if addr = beQueueInx then some .be
  else if addr = bkQueueInx then some .bk
  else none

/-- `pxmitbuf->flags`, as `usb_write_port` sets it -/
def flagsOf (addr : Nat) : Nat :=
  match acQueue addr with
  | some _ => addr
  | none => if addr = highQueueInx then highQueueInx else mgtQueueInx

theorem acQueue_flagsOf (addr : Nat) : acQueue (flagsOf addr) = acQueue addr := by
  unfold flagsOf
  split
  · rfl
  · rename_i h
    rw [h]
    split <;> rfl

/-- a buffer and the queue address it was given for -/
structure PortUse where
  buf : Nat
  addr : Nat
  deriving DecidableEq, Repr

structure WritePorts where
  /-- `voq_cnt`, `viq_cnt`, `beq_cnt`, `bkq_cnt` -/
  cnt : AcQueue → Int := fun _ => 0
  flags : Nat → Nat := fun _ => 0
  /-- the call that holds the lock, and what it has read of its counter -/
  entering : Option (PortUse × Int) := none
  /-- calls that have left the lock and have not submitted yet -/
  calls : List PortUse := []
  /-- the active URBs, each with the address it was submitted for -/
  urbs : List PortUse := []
  /-- callbacks that have read `flags`: the queue that these name -/
  callbacks : List (Option AcQueue) := []
  /-- callbacks that have read the counter -/
  loaded : List (Option AcQueue × Int) := []

inductive PortEvent where
  /-- `usb_write_port` takes the lock and reads the counter -/
  | enter (c : PortUse) (cannotTx : Bool)
  /-- it writes the counter and `flags`, and leaves the lock -/
  | unlock
  /-- the call at this place submits its URB -/
  | submit (i : Nat) (submitOk : Bool)
  /-- `usb_write_port_complete` is called, and reads `flags` -/
  | complete (buf : Nat)
  /-- the callback at this place reads the counter -/
  | load (i : Nat)
  /-- the callback at this place writes the counter -/
  | store (i : Nat)
  deriving DecidableEq, Repr

namespace WritePorts

/-- the counter of a queue; nothing is read for the other ones -/
def readCnt (s : WritePorts) (q : Option AcQueue) : Int := q.elim 0 s.cnt

def writeCnt (s : WritePorts) (q : Option AcQueue) (v : Int) : AcQueue → Int := fun r =>
  if q = some r then v else s.cnt r

def enter (s : WritePorts) (c : PortUse) : WritePorts :=
  { s with entering := some (c, s.readCnt (acQueue c.addr)) }

def unlock (s : WritePorts) (c : PortUse) (v : Int) : WritePorts :=
  { s with
    cnt := s.writeCnt (acQueue c.addr) (v + 1)
    flags := Function.update s.flags c.buf (flagsOf c.addr)
    entering := none
    calls := s.calls ++ [c] }

/-- a failure is left to `rtw_free_xmitbuf`, and the counter stays -/
def submit (s : WritePorts) (c : PortUse) (submitOk : Bool) : WritePorts :=
  if submitOk && decide (∀ u ∈ s.urbs, u.buf ≠ c.buf) then
    { s with calls := s.calls.erase c, urbs := s.urbs ++ [c] }
  else { s with calls := s.calls.erase c }

def complete (s : WritePorts) (u : PortUse) : WritePorts :=
  { s with urbs := s.urbs.erase u, callbacks := s.callbacks ++ [acQueue (s.flags u.buf)] }

def load (s : WritePorts) (q : Option AcQueue) : WritePorts :=
  { s with callbacks := s.callbacks.erase q, loaded := s.loaded ++ [(q, s.readCnt q)] }

def store (s : WritePorts) (l : Option AcQueue × Int) : WritePorts :=
  { s with cnt := s.writeCnt l.1 (l.2 - 1), loaded := s.loaded.erase l }

def step (s : WritePorts) : PortEvent → WritePorts
  | .enter c cannotTx => if cannotTx || s.entering.isSome then s else s.enter c
  | .unlock =>
    match s.entering with
    | some (c, v) => s.unlock c v
    | none => s
  | .submit i submitOk =>
    match s.calls[i]? with
    | some c => s.submit c submitOk
    | none => s
  | .complete b =>
    match s.urbs.find? fun u => u.buf == b with
    | some u => s.complete u
    | none => s
  | .load i =>
    match s.callbacks[i]? with
    | some q => s.load q
    | none => s
  | .store i =>
    match s.loaded[i]? with
    | some l => s.store l
    | none => s

/-- the uses of the queue in a list -/
def ofQueue (q : AcQueue) (l : List PortUse) : Nat := l.countP fun c => acQueue c.addr == some q

/-- the callbacks that have not lowered the counter yet -/
def ofCallbacks (s : WritePorts) (q : AcQueue) : Nat :=
  s.callbacks.count (some q) + (s.loaded.map Prod.fst).count (some q)

/-- **The counters are exact.** -/
structure Exact (s : WritePorts) : Prop where
  /-- a call behind the lock counts already, and a callback until it has written -/
  cnt_eq : ∀ q, s.cnt q = ofQueue q s.urbs + ofQueue q s.calls + s.ofCallbacks q
  nonneg : ∀ q, 0 ≤ s.cnt q
  idle : s.calls = [] → s.callbacks = [] → s.loaded = [] → ∀ q, s.cnt q = ofQueue q s.urbs

/-- what was read of the counter is in it still -/
def fresh (s : WritePorts) (q : Option AcQueue) (v : Int) : Bool := q == none || s.readCnt q == v

/-- before a step: what was read of the counter that it writes is in it still -/
def noneLost (s : WritePorts) : PortEvent → Bool
  | .unlock =>
    match s.entering with
    | some (c, v) => s.fresh (acQueue c.addr) v
    | none => true
  | .store i =>
    match s.loaded[i]? with
    | some l => s.fresh l.1 l.2
    | none => true
  | _ => true

/-- before a step: no submission for a counted queue fails, a completed buffer still names the queue it was
submitted for, and no update of a counter is lost -/
def keepsBalance (s : WritePorts) : PortEvent → Bool
  | .submit i submitOk =>
    match s.calls[i]? with
    | some c => acQueue c.addr == none || submitOk && decide (∀ u ∈ s.urbs, u.buf ≠ c.buf)
    | none => true
  | .complete b =>
    match s.urbs.find? fun u => u.buf == b with
    | some u => acQueue (s.flags u.buf) == acQueue u.addr
    | none => true
  | e => s.noneLost e

/-- what the callers can see to: a buffer is given by its only owner, and no submission for a counted queue fails -/
def soleOwner (s : WritePorts) : PortEvent → Bool
  | .enter c cannotTx =>
    cannotTx || s.entering.isSome || decide (∀ u ∈ s.urbs ++ s.calls, u.buf ≠ c.buf)
  | .submit i submitOk =>
    match s.calls[i]? with
    | some c => acQueue c.addr == none || submitOk
    | none => true
  | _ => true

variable {s : WritePorts} {c u : PortUse} {q : AcQueue} {p : Option AcQueue} {v : Int}

/-! ## counting -/

theorem ofQueue_append (q : AcQueue) (l l' : List PortUse) :
    ofQueue q (l ++ l') = ofQueue q l + ofQueue q l' := List.countP_append

theorem ofQueue_singleton (q : AcQueue) (c : PortUse) :
    ofQueue q [c] = if acQueue c.addr = some q then 1 else 0 := by
  by_cases h : acQueue c.addr = some q <;> simp [ofQueue, h]

theorem ofQueue_erase {l : List PortUse} (q : AcQueue) (hc : c ∈ l) :
    ofQueue q l = ofQueue q (l.erase c) + if acQueue c.addr = some q then 1 else 0 := by
  have hp : ofQueue q l = ofQueue q (c :: l.erase c) := (List.perm_cons_erase hc).countP_eq _
  rw [hp, ← List.singleton_append, ofQueue_append, ofQueue_singleton, Nat.add_comm]

theorem count_singleton (q : AcQueue) (p : Option AcQueue) :
    [p].count (some q) = if p = some q then 1 else 0 := by
  rw [List.count_singleton, beq_eq_decide]
  by_cases h : p = some q <;> simp [h]

theorem count_perm_cons {l l' : List (Option AcQueue)} (hp : l.Perm (p :: l')) (q : AcQueue) :
    l.count (some q) = l'.count (some q) + if p = some q then 1 else 0 := by
  rw [hp.count_eq, ← List.singleton_append, List.count_append, count_singleton, Nat.add_comm]

theorem exact_iff : s.Exact ↔ ∀ q, s.cnt q = ofQueue q s.urbs + ofQueue q s.calls + s.ofCallbacks q := by
  refine ⟨Exact.cnt_eq, fun h => ⟨h, ?_, ?_⟩⟩
  · intro q
    rw [h q]
    omega
  · intro hcalls hback hload q
    rw [h q, ofCallbacks, hcalls, hback, hload]
    show (ofQueue q s.urbs : Int) + 0 + ((0 : Nat) + (0 : Nat) : Nat) = _
    omega

theorem init_exact : ({} : WritePorts).Exact := exact_iff.mpr fun _ => rfl

theorem fresh_iff : s.fresh p v = true ↔ ∀ q, p = some q → s.cnt q = v := by
  cases p with
  | none => exact iff_of_true rfl fun _ hq => nomatch hq
  | some q =>
    show (false || s.cnt q == v) = true ↔ _
    rw [Bool.false_or, beq_iff_eq]
    exact ⟨fun h _ e => Option.some.inj e ▸ h, fun h => h q rfl⟩

/-! ## one step -/

/-- the counter of `p` is written, and the uses of `p` are one more or one less -/
theorem exact_write_iff {s' : WritePorts} {d : Int} (h : s.Exact) (hcnt : s'.cnt = s.writeCnt p (v + d))
    (huse : ∀ q, (ofQueue q s'.urbs + ofQueue q s'.calls + s'.ofCallbacks q : Int)
      = ofQueue q s.urbs + ofQueue q s.calls + s.ofCallbacks q + if p = some q then d else 0) :
    s'.Exact ↔ s.fresh p v = true := by
  rw [exact_iff, fresh_iff]
  refine forall_congr' fun q => ?_
  rw [huse q, ← h.cnt_eq q, hcnt, writeCnt]
  by_cases hp : p = some q
  · rw [if_pos hp, if_pos hp, forall_prop_of_true hp]
    omega
  · rw [if_neg hp, if_neg hp, forall_prop_of_false hp]
    simp

theorem unlock_exact_iff (h : s.Exact) : (s.unlock c v).Exact ↔ s.fresh (acQueue c.addr) v = true := by
  refine exact_write_iff (d := 1) h rfl fun q => ?_
  show (ofQueue q s.urbs + (ofQueue q (s.calls ++ [c]) : Nat) + s.ofCallbacks q : Int) = _
  rw [ofQueue_append, ofQueue_singleton]
  split <;> omega

theorem store_exact_iff {l : Option AcQueue × Int} (h : s.Exact) (hl : l ∈ s.loaded) :
    (s.store l).Exact ↔ s.fresh l.1 l.2 = true := by
  refine exact_write_iff (d := -1) h rfl fun q => ?_
  have hcount := count_perm_cons ((List.perm_cons_erase hl).map Prod.fst) q
  have hold : s.ofCallbacks q = s.callbacks.count (some q) + (s.loaded.map Prod.fst).count (some q) := rfl
  show (ofQueue q s.urbs + ofQueue q s.calls
    + (s.callbacks.count (some q) + ((s.loaded.erase l).map Prod.fst).count (some q) : Nat) : Int) = _
  rw [hold, hcount]
  split <;> omega

/-- the counters stay, and uses of `p` become uses of `p'` -/
theorem exact_move_iff {s' : WritePorts} {p' : Option AcQueue} (h : s.Exact) (hcnt : s'.cnt = s.cnt)
    (huse : ∀ q, ofQueue q s.urbs + ofQueue q s.calls + s.ofCallbacks q + (if p' = some q then 1 else 0)
      = ofQueue q s'.urbs + ofQueue q s'.calls + s'.ofCallbacks q + if p = some q then 1 else 0) :
    s'.Exact ↔ p' = p := by
  rw [exact_iff, Option.ext_iff]
  refine forall_congr' fun q => ?_
  have h1 := huse q
  have h2 := h.cnt_eq q
  rw [hcnt]
  by_cases hp : p = some q <;> by_cases hp' : p' = some q <;> simp only [hp, hp', if_true, if_false] at h1 ⊢ <;>
    simp <;> omega

theorem Exact.of_same {s' : WritePorts} (h : s.Exact) (hcnt : s'.cnt = s.cnt)
    (huse : ∀ q, ofQueue q s.urbs + ofQueue q s.calls + s.ofCallbacks q
      = ofQueue q s'.urbs + ofQueue q s'.calls + s'.ofCallbacks q) : s'.Exact :=
  (exact_move_iff h hcnt fun q => congrArg (· + if none = some q then 1 else 0) (huse q)).mpr rfl

theorem submit_ok (hfree : ∀ u ∈ s.urbs, u.buf ≠ c.buf) :
    s.submit c true = { s with calls := s.calls.erase c, urbs := s.urbs ++ [c] } := by
  rw [submit, decide_eq_true hfree]
  rfl

theorem submit_fail {ok : Bool} (h : ¬ (ok = true ∧ ∀ u ∈ s.urbs, u.buf ≠ c.buf)) :
    s.submit c ok = { s with calls := s.calls.erase c } := by
  rw [submit, if_neg]
  simpa using h

/-- the call that is over has submitted, or it was not counted -/
theorem submit_exact_iff {ok : Bool} (h : s.Exact) (hc : c ∈ s.calls) : (s.submit c ok).Exact
    ↔ acQueue c.addr = none ∨ ok = true ∧ ∀ u ∈ s.urbs, u.buf ≠ c.buf := by
  have hcalls := fun q => ofQueue_erase q hc
  by_cases hok : ok = true ∧ ∀ u ∈ s.urbs, u.buf ≠ c.buf
  · rw [iff_true_intro (Or.inr hok), iff_true]
    obtain ⟨rfl, hfree⟩ := hok
    rw [submit_ok hfree]
    refine h.of_same rfl fun q => ?_
    show _ = ofQueue q (s.urbs ++ [c]) + ofQueue q (s.calls.erase c) + s.ofCallbacks q
    rw [ofQueue_append, ofQueue_singleton, hcalls q]
    omega
  · rw [or_iff_left hok, eq_comm, submit_fail hok]
    refine exact_move_iff h rfl fun q => ?_
    show ofQueue q s.urbs + ofQueue q s.calls + s.ofCallbacks q + 0
      = ofQueue q s.urbs + ofQueue q (s.calls.erase c) + s.ofCallbacks q + _
    rw [hcalls q]
    omega

theorem complete_exact_iff (h : s.Exact) (hu : u ∈ s.urbs) :
    (s.complete u).Exact ↔ acQueue (s.flags u.buf) = acQueue u.addr := by
  refine exact_move_iff h rfl fun q => ?_
  show _ = ofQueue q (s.urbs.erase u) + ofQueue q s.calls
    + ((s.callbacks ++ [acQueue (s.flags u.buf)]).count (some q) + (s.loaded.map Prod.fst).count (some q)) + _
  rw [ofQueue_erase q hu, List.count_append, count_singleton, ofCallbacks]
  omega

theorem load_exact (h : s.Exact) (hp : p ∈ s.callbacks) : (s.load p).Exact := by
  refine h.of_same rfl fun q => ?_
  have hcount := count_perm_cons (List.perm_cons_erase hp) q
  show _ = ofQueue q s.urbs + ofQueue q s.calls + ((s.callbacks.erase p).count (some q)
    + ((s.loaded ++ [(p, s.readCnt p)]).map Prod.fst).count (some q))
  have hone : [(p, s.readCnt p)].map Prod.fst = [p] := rfl
  rw [List.map_append, List.count_append, hone, count_singleton, ofCallbacks, hcount]
  omega

/-- **One step**: the counters stay exact if and only if it keeps the balance. -/
theorem step_exact_iff (h : s.Exact) (e : PortEvent) : (s.step e).Exact ↔ s.keepsBalance e = true := by
  cases e with
  | enter c cannotTx =>
    refine iff_of_true ?_ rfl
    unfold WritePorts.step
    dsimp only
    split
    · exact h
    · exact exact_iff.mpr h.cnt_eq
  | unlock =>
    unfold WritePorts.step keepsBalance noneLost
    dsimp only
    split
    · exact unlock_exact_iff h
    · exact iff_of_true h rfl
  | submit i ok =>
    unfold WritePorts.step keepsBalance
    dsimp only
    split
    · rename_i c hi
      rw [submit_exact_iff h (List.mem_of_getElem? hi)]
      simp
    · exact iff_of_true h rfl
  | complete b =>
    unfold WritePorts.step keepsBalance
    dsimp only
    split
    · rename_i u hu
      rw [complete_exact_iff h (List.mem_of_find?_eq_some hu), beq_iff_eq]
    · exact iff_of_true h rfl
  | load i =>
    refine iff_of_true ?_ rfl
    unfold WritePorts.step
    dsimp only
    split
    · rename_i p hi
      exact load_exact h (List.mem_of_getElem? hi)
    · exact h
  | store i =>
    unfold WritePorts.step keepsBalance noneLost
    dsimp only
    split
    · rename_i l hi
      exact store_exact_iff h (List.mem_of_getElem? hi)
    · exact iff_of_true h rfl

/-! ## buffers with one owner -/

/-- the buffers in use, up to the callback -/
def uses (s : WritePorts) : List PortUse := s.urbs ++ s.calls ++ (s.entering.map Prod.fst).toList

/-- a buffer is in one place, and its `flags` are those of its use there -/
structure Owned (s : WritePorts) : Prop where
  once : (s.uses.map (·.buf)).Nodup
  flags : ∀ u ∈ s.urbs ++ s.calls, s.flags u.buf = flagsOf u.addr

theorem init_owned : ({} : WritePorts).Owned := ⟨List.nodup_nil, fun _ hu => nomatch hu⟩

/-- the same uses, or fewer of them, in any order -/
theorem Owned.of_subperm {s' : WritePorts} (h : s.Owned) (hf : s'.flags = s.flags)
    (hentering : s'.entering = s.entering) (hp : List.Subperm (s'.urbs ++ s'.calls) (s.urbs ++ s.calls)) : s'.Owned where
  once := by
    obtain ⟨l, hl, hsub⟩ := hp
    unfold uses
    rw [hentering]
    have hperm := (hl.append_right (s.entering.map Prod.fst).toList).map PortUse.buf
    exact hperm.nodup_iff.mp (h.once.sublist ((hsub.append_right _).map _))
  flags u hu := by
    rw [hf]
    exact h.flags u (hp.subset hu)

theorem Owned.enter (h : s.Owned) (hfree : s.entering = none) (hc : ∀ u ∈ s.urbs ++ s.calls, u.buf ≠ c.buf) :
    (s.enter c).Owned where
  once := by
    have honce := h.once
    unfold uses at honce ⊢
    rw [hfree, Option.map_none, Option.toList_none, List.append_nil] at honce
    show ((s.urbs ++ s.calls ++ [c]).map (·.buf)).Nodup
    rw [List.map_append, List.nodup_append]
    refine ⟨honce, List.nodup_singleton _, ?_⟩
    intro b hb b' hb' he
    obtain ⟨u, hu, rfl⟩ := List.mem_map.mp hb
    obtain rfl := List.mem_singleton.mp hb'
    exact hc u hu he
  flags := h.flags

theorem Owned.unlock (h : s.Owned) (he : s.entering = some (c, v)) : (s.unlock c v).Owned where
  once := by
    have honce := h.once
    unfold uses at honce
    rw [he] at honce
    show ((s.urbs ++ (s.calls ++ [c]) ++ []).map PortUse.buf).Nodup
    rw [List.append_nil, ← List.append_assoc]
    exact honce
  flags u hu := by
    have hnot : ∀ u ∈ s.urbs ++ s.calls, u.buf ≠ c.buf := by
      have honce := h.once
      unfold uses at honce
      rw [he, List.map_append, List.nodup_append] at honce
      exact fun u hu => honce.2.2 u.buf (List.mem_map_of_mem hu) c.buf (List.mem_singleton.mpr rfl)
    show Function.update s.flags c.buf (flagsOf c.addr) u.buf = _
    replace hu : u ∈ s.urbs ++ (s.calls ++ [c]) := hu
    rw [← List.append_assoc, List.mem_append, List.mem_singleton] at hu
    rcases hu with hu | rfl
    · rw [Function.update_of_ne (hnot u hu)]
      exact h.flags u hu
    · rw [Function.update_self]

theorem Owned.free (h : s.Owned) (hc : c ∈ s.calls) (u : PortUse) (hu : u ∈ s.urbs) :
    u.buf ≠ c.buf := by
  have hd := h.once
  unfold uses at hd
  rw [List.append_assoc, List.map_append, List.nodup_append] at hd
  exact hd.2.2 _ (List.mem_map_of_mem hu) _ (List.mem_map_of_mem (List.mem_append_left _ hc))

theorem Owned.submit {ok : Bool} (h : s.Owned) (hc : c ∈ s.calls) : (s.submit c ok).Owned := by
  have hcalls : List.Perm (s.urbs ++ [c] ++ s.calls.erase c) (s.urbs ++ s.calls) := by
    rw [List.append_assoc]
    exact (List.perm_cons_erase hc).symm.append_left s.urbs
  cases ok with
  | true =>
    rw [submit_ok fun u hu => h.free hc u hu]
    exact h.of_subperm rfl rfl hcalls.subperm
  | false =>
    rw [submit_fail fun hno => absurd hno.1 Bool.false_ne_true]
    exact h.of_subperm rfl rfl ((List.erase_sublist ..).append_left s.urbs).subperm

theorem Owned.complete (h : s.Owned) (u : PortUse) : (s.complete u).Owned :=
  h.of_subperm rfl rfl ((List.erase_sublist ..).append_right s.calls).subperm

theorem Owned.step (h : s.Owned) (e : PortEvent) (hC : s.soleOwner e = true) : (s.step e).Owned := by
  unfold WritePorts.step
  cases e with
  | enter c cannotTx =>
    dsimp only
    split
    · exact h
    · rename_i hgo
      simp only [Bool.or_eq_true, not_or, Bool.not_eq_true, Option.isSome_eq_false_iff,
        Option.isNone_iff_eq_none] at hgo
      simp only [soleOwner, hgo.1, hgo.2, Option.isSome_none, Bool.false_or, decide_eq_true_eq] at hC
      exact h.enter hgo.2 hC
  | unlock =>
    dsimp only
    split
    · rename_i c v he
      exact h.unlock he
    · exact h
  | submit i ok =>
    dsimp only
    split
    · rename_i c hi
      exact h.submit (List.mem_of_getElem? hi)
    · exact h
  | complete b =>
    dsimp only
    split
    · exact h.complete _
    · exact h
  | load i =>
    dsimp only
    split
    · exact h.of_subperm rfl rfl (List.Subperm.refl _)
    · exact h
  | store i =>
    dsimp only
    split
    · exact h.of_subperm rfl rfl (List.Subperm.refl _)
    · exact h

theorem Owned.keepsBalance (h : s.Owned) (e : PortEvent) (hC : s.soleOwner e = true) (hL : s.noneLost e = true) :
    s.keepsBalance e = true := by
  unfold WritePorts.keepsBalance
  cases e with
  | enter c cannotTx => rfl
  | unlock => exact hL
  | submit i ok =>
    dsimp only
    split
    · rename_i c hi
      simp only [soleOwner, hi, Bool.or_eq_true, beq_iff_eq] at hC
      simp only [Bool.or_eq_true, beq_iff_eq, Bool.and_eq_true, decide_eq_true_eq]
      exact hC.imp_right fun hok => ⟨hok, h.free (List.mem_of_getElem? hi)⟩
    · rfl
  | complete b =>
    dsimp only
    split
    · rename_i u hu
      rw [h.flags u (List.mem_append_left _ (List.mem_of_find?_eq_some hu)), acQueue_flagsOf]
      exact beq_self_eq_true _
    · rfl
  | load i => rfl
  | store i => exact hL

end WritePorts

/-- **The counters are exact in exactly the runs where no submission for a counted queue fails, every
completed buffer still names its queue, and no counter is written that has another value by then than was
read.** The second holds where buffers are given by their only owners. -/
theorem queueCounts_iff (es : List PortEvent) :
    ((∀ es', es' <+: es → (run WritePorts.step {} es').Exact)
        ↔ Along WritePorts.step (fun s e => s.keepsBalance e = true) {} es)
      ∧ (Along WritePorts.step (fun s e => s.soleOwner e = true ∧ s.noneLost e = true) {} es →
        Along WritePorts.step (fun s e => s.keepsBalance e = true) {} es) := by
  constructor
  · refine always_iff_along (P := WritePorts.Exact) (I := fun _ => True) trivial (fun _ _ h => h)
      ?_ ?_ es
    · intro es hC
      exact run_inv (I := WritePorts.Exact) (fun s e h hc => (WritePorts.step_exact_iff h e).mpr hc) {} es
        WritePorts.init_exact hC
    · intro s e _ h h'
      exact (WritePorts.step_exact_iff h e).mp h'
  · intro hO
    refine along_of_forall_prefix fun es' e hp => ?_
    have hes' := hO.of_prefix hp
    rw [along_append] at hes'
    have howned : (run WritePorts.step {} es').Owned :=
      run_inv (I := WritePorts.Owned) (fun s e h hc => h.step e hc.1) {} es' WritePorts.init_owned hes'.1
    exact howned.keepsBalance e hes'.2.1.1 hes'.2.1.2

/-- a frame of the voice queue whose URB is refused -/
def refusedRun : List PortEvent := [.enter ⟨0, voQueueInx⟩ false, .unlock, .submit 0 false]

/-- the buffer is free again, and `voq_cnt` stays raised -/
theorem queueCounts_refusedRun :
    ¬ (run WritePorts.step {} refusedRun).Exact
      ∧ (run WritePorts.step {} refusedRun).cnt .vo = 1
      ∧ (run WritePorts.step {} refusedRun).urbs = []
      ∧ (run WritePorts.step {} refusedRun).calls = [] := by
  have hcnt : (run WritePorts.step {} refusedRun).cnt .vo = 1 := by decide
  have hcalls : (run WritePorts.step {} refusedRun).calls = [] := by decide
  refine ⟨?_, hcnt, by decide, hcalls⟩
  intro h
  have h0 := h.idle hcalls (by decide) (by decide) .vo
  rw [hcnt] at h0
  revert h0
  decide

/-- a callback between the read and the write of a call: one frame is on its way, and `voq_cnt` is 0 -/
example : (run WritePorts.step {} [.enter ⟨0, voQueueInx⟩ false, .unlock, .submit 0 true,
    .enter ⟨1, voQueueInx⟩ false, .complete 0, .load 0, .unlock, .store 0, .submit 0 true]).cnt .vo = 0 := by
  decide

end Rtl8192eu
