import Rtl8192eu.Ap.StaLists
import Rtl8192eu.Lib.Chains
import Rtl8192eu.Lib.Run

/-!
# The station table and its hash chains

`sta_hash` as `rtw_sta_mgt.c` keeps it: an object of `pstainfo_buf` is in `free_sta_queue` or in the
chain that `wifi_mac_hash` gives its address, and `asoc_sta_count` counts the second kind.  There are
no pre-link stations.

* `rtwAllocStainfo`, `rtwFreeStainfo`   take from the head of the queue, give back at its tail;
* `rtwFreeAllStainfo`   unlinks in one walk, then frees what it listed; it returns at
                                        once when the count is one;
* `Consistent`   what holds between the operations;
* `Consistent.sim_get` ..               the table with one list, `StaPriv`, answers the same;
* `sta_table_run`   every order of operations.
-/

namespace Rtl8192eu

open Run

/-- `wifi_mac_hash`, with a `u32` -/
def wifiMacHash (mac : Mac) : Nat :=
  let b := fun i => (mac.getD i 0).toNat
  let shl2 := fun x => x * 4 % 2 ^ 32
  let x := b 0
  let x := shl2 x ^^^ b 1
  let x := shl2 x ^^^ b 2
  let x := shl2 x ^^^ b 3
  let x := shl2 x ^^^ b 4
  let x := shl2 x ^^^ b 5
  let x := x ^^^ x >>> 8
  x &&& (numSta - 1)

theorem wifiMacHash_lt (mac : Mac) : wifiMacHash mac < numSta := by
  have h : wifiMacHash mac ≤ 31 := Nat.and_le_right
  exact Nat.lt_succ_of_le h

structure StaTable where
  /-- `cmn.mac_addr` of the objects -/
  macAddr : Nat → Mac := fun _ => zeroMac
  freeStaQueue : List Nat := List.range numSta
  staHash : Nat → List Nat := fun _ => []
  asocStaCount : Int := 0

inductive StaOp where
  | alloc (hwaddr : Mac)
  | free (psta : Nat)
  | freeAll
  | get (hwaddr : Mac)

namespace StaTable

/-- the objects in hash chains -/
def table (t : StaTable) : List Nat := Chains.all numSta t.staHash

def rtwGetStainfo (t : StaTable) (hwaddr : Mac) : Option Nat :=
  let addr := staKey hwaddr
  (t.staHash (wifiMacHash addr)).find? fun p => t.macAddr p = addr

def rtwAllocStainfo (t : StaTable) (hwaddr : Mac) : Option Nat × StaTable :=
  match t.freeStaQueue with
  | [] => (none, t)
  | psta :: queue =>
    let t := { t with
      freeStaQueue := queue
      macAddr := Function.update t.macAddr psta hwaddr }
    let index := wifiMacHash hwaddr
    if numSta ≤ index then (none, t)
    else (some psta, { t with
      staHash := Chains.push t.staHash index psta
      asocStaCount := t.asocStaCount + 1 })

/-- `rtw_list_delete` of an object that is in no chain changes nothing -/
def rtwFreeStainfo (t : StaTable) (psta : Nat) : StaTable :=
  { t with
    staHash := Chains.drop t.staHash psta
    asocStaCount := t.asocStaCount - 1
    freeStaQueue := t.freeStaQueue ++ [psta] }

def rtwFreeAllStainfo (t : StaTable) : StaTable :=
  let pbcmcStainfo := t.rtwGetStainfo bcAddr
  if t.asocStaCount = 1 then t
  else
    let walk := Chains.drain (fun psta => pbcmcStainfo = some psta) (List.range numSta) (t.staHash, [])
    walk.2.foldl rtwFreeStainfo { t with staHash := walk.1 }

/-- an address that the table has is not allocated, and only objects of the table are freed -/
def step (t : StaTable) : StaOp → StaTable
  | .alloc hwaddr => if ∃ p ∈ t.table, t.macAddr p = hwaddr then t else (t.rtwAllocStainfo hwaddr).2
  | .free psta => if psta ∈ t.table then t.rtwFreeStainfo psta else t
  | .freeAll => t.rtwFreeAllStainfo
  | .get _ => t

/-! ## the invariant -/

structure Consistent (t : StaTable) : Prop where
  slots : (t.table ++ t.freeStaQueue).Perm (List.range numSta)
  own : Chains.Own numSta (fun p => wifiMacHash (t.macAddr p)) t.staHash
  mac : ∀ p ∈ t.table, ∀ q ∈ t.table, t.macAddr p = t.macAddr q → p = q
  count : t.asocStaCount = t.table.length

theorem consistent_init : Consistent {} := by
  have htable : table {} = [] := by
    simp [table, Chains.all]
  constructor
  · rw [htable]
    exact List.Perm.refl _
  · intro i p hp
    exact absurd hp List.not_mem_nil
  · intro p hp
    rw [htable] at hp
    exact absurd hp List.not_mem_nil
  · rw [htable]
    rfl

namespace Consistent

variable {t : StaTable} {p : Nat} {hwaddr : Mac}

theorem nodup (h : t.Consistent) : (t.table ++ t.freeStaQueue).Nodup :=
  h.slots.nodup_iff.mpr List.nodup_range

theorem free_not_mem (h : t.Consistent) (hp : p ∈ t.freeStaQueue) : p ∉ t.table :=
  fun hm => (List.nodup_append.mp h.nodup).2.2 p hm p hp rfl

theorem mem_or (h : t.Consistent) : p < numSta ↔ p ∈ t.table ∨ p ∈ t.freeStaQueue := by
  rw [← List.mem_append, h.slots.mem_iff, List.mem_range]

theorem mem_chain (h : t.Consistent) {i : Nat} :
    p ∈ t.staHash i ↔ p ∈ t.table ∧ wifiMacHash (t.macAddr p) = i := h.own.mem_iff

theorem get_iff (h : t.Consistent) :
    t.rtwGetStainfo hwaddr = some p ↔ p ∈ t.table ∧ t.macAddr p = staKey hwaddr :=
  Chains.find?_chain h.own h.mac

/-! ## one operation -/

/-- what an allocation gives when the queue is not empty -/
theorem alloc_cons {q : List Nat} (hq : t.freeStaQueue = p :: q) :
    t.rtwAllocStainfo hwaddr = (some p, {
      macAddr := Function.update t.macAddr p hwaddr
      freeStaQueue := q
      staHash := Chains.push t.staHash (wifiMacHash hwaddr) p
      asocStaCount := t.asocStaCount + 1 }) := by
  have hlt := wifiMacHash_lt hwaddr
  unfold rtwAllocStainfo
  rw [hq]
  simp only
  rw [if_neg (Nat.not_le_of_lt hlt)]

theorem alloc_nil (hq : t.freeStaQueue = []) : t.rtwAllocStainfo hwaddr = (none, t) := by
  unfold rtwAllocStainfo
  rw [hq]

/-- the address is written before the object is linked, so it is linked in the chain of its own -/
theorem alloc (h : t.Consistent) (hfresh : ∀ p ∈ t.table, t.macAddr p ≠ hwaddr) :
    (t.rtwAllocStainfo hwaddr).2.Consistent := by
  cases hq : t.freeStaQueue with
  | nil =>
    rw [alloc_nil hq]
    exact h
  | cons psta q =>
    rw [alloc_cons hq]
    have hnot : psta ∉ t.table := h.free_not_mem (hq ▸ List.mem_cons_self)
    have hold : ∀ r ∈ t.table, Function.update t.macAddr psta hwaddr r = t.macAddr r := by
      intro r hr
      have hne : r ≠ psta := fun e => hnot (e ▸ hr)
      exact Function.update_of_ne hne _ _
    have hnew : Function.update t.macAddr psta hwaddr psta = hwaddr := Function.update_self ..
    have hall : (Chains.all numSta (Chains.push t.staHash (wifiMacHash hwaddr) psta)).Perm
        (psta :: t.table) := Chains.all_push (wifiMacHash_lt hwaddr) psta
    constructor
    · have hslots := h.slots
      rw [hq] at hslots
      have hmid : ((psta :: t.table) ++ q).Perm (t.table ++ psta :: q) := List.perm_middle.symm
      exact ((hall.append_right q).trans hmid).trans hslots
    · have hkeep : Chains.Own numSta
          (fun r => wifiMacHash (Function.update t.macAddr psta hwaddr r)) t.staHash :=
        h.own.congr fun r hr => congrArg wifiMacHash (hold r hr)
      have hb : wifiMacHash (Function.update t.macAddr psta hwaddr psta) = wifiMacHash hwaddr :=
        congrArg wifiMacHash hnew
      have hpush := hkeep.push (x := psta) (wifiMacHash_lt _)
      rwa [hb] at hpush
    · intro r hr u hu
      rcases List.mem_cons.mp (hall.mem_iff.mp hr) with rfl | hr' <;>
        rcases List.mem_cons.mp (hall.mem_iff.mp hu) with rfl | hu'
      · exact fun _ => rfl
      · show Function.update t.macAddr r hwaddr r = Function.update t.macAddr r hwaddr u → r = u
        rw [hnew, hold u hu']
        exact fun e => absurd e.symm (hfresh u hu')
      · show Function.update t.macAddr u hwaddr r = Function.update t.macAddr u hwaddr u → r = u
        rw [hnew, hold r hr']
        exact fun e => absurd e (hfresh r hr')
      · show Function.update t.macAddr psta hwaddr r = Function.update t.macAddr psta hwaddr u → r = u
        rw [hold r hr', hold u hu']
        exact h.mac r hr' u hu'
    · have hlen := hall.length_eq
      show t.asocStaCount + 1 = (Chains.all numSta _ : List Nat).length
      rw [hlen, h.count, List.length_cons]
      rfl

/-- some chains lose the entries that `keep` does not hold of, and these go to the queue -/
theorem filter (h : t.Consistent) (keep : Nat → Bool) :
    Consistent { t with
      staHash := fun i => (t.staHash i).filter keep
      freeStaQueue := t.freeStaQueue ++ t.table.filter fun p => !keep p
      asocStaCount := t.asocStaCount - (t.table.filter fun p => !keep p).length } := by
  have hall : Chains.all numSta (fun i => (t.staHash i).filter keep) = t.table.filter keep :=
    Chains.all_filter keep
  have hsplit : (t.table.filter keep ++ t.table.filter fun p => !keep p).Perm t.table :=
    List.filter_append_perm keep t.table
  constructor
  · show (Chains.all numSta _ ++ (t.freeStaQueue ++ _)).Perm _
    rw [hall]
    have hswap : (t.table.filter keep ++ (t.freeStaQueue ++ t.table.filter fun p => !keep p)).Perm
        (t.table.filter keep ++ ((t.table.filter fun p => !keep p) ++ t.freeStaQueue)) :=
      List.perm_append_comm.append_left _
    rw [← List.append_assoc (t.table.filter keep) (t.table.filter _)] at hswap
    exact (hswap.trans (hsplit.append_right _)).trans h.slots
  · exact h.own.filter keep
  · intro p hp q hq
    have hp : p ∈ t.table.filter keep := hall ▸ hp
    have hq : q ∈ t.table.filter keep := hall ▸ hq
    exact h.mac p (List.mem_of_mem_filter hp) q (List.mem_of_mem_filter hq)
  · have hlen := hsplit.length_eq
    rw [List.length_append] at hlen
    show t.asocStaCount - _ = ((Chains.all numSta _ : List Nat).length : Int)
    rw [hall, h.count]
    omega

theorem filter_eq (h : t.Consistent) (hp : p ∈ t.table) :
    (t.table.filter fun q => !decide (q ≠ p)) = [p] := by
  have hn := (List.nodup_append.mp h.nodup).1
  have heq : (t.table.filter fun q => !decide (q ≠ p)) = t.table.filter (· == p) := by
    apply List.filter_congr
    intro q _
    by_cases hq : q = p <;> simp [hq]
  rw [heq, List.filter_beq, List.count_eq_one_of_mem hn hp]
  rfl

theorem free (h : t.Consistent) (hp : p ∈ t.table) : (t.rtwFreeStainfo p).Consistent := by
  have hf := h.filter fun q => decide (q ≠ p)
  rw [h.filter_eq hp] at hf
  exact hf

/-! ## the release of all -/

/-- objects that are in no chain go to the queue in their order -/
theorem foldl_free {l : List Nat} (hl : ∀ p ∈ l, ∀ i, p ∉ t.staHash i) :
    l.foldl rtwFreeStainfo t = { t with
      freeStaQueue := t.freeStaQueue ++ l
      asocStaCount := t.asocStaCount - l.length } := by
  induction l generalizing t with
  | nil => simp
  | cons p l ih =>
    have hdrop : Chains.drop t.staHash p = t.staHash :=
      Chains.drop_of_not_mem (hl p List.mem_cons_self)
    have hfree : t.rtwFreeStainfo p = { t with
        freeStaQueue := t.freeStaQueue ++ [p]
        asocStaCount := t.asocStaCount - 1 } := by
      unfold rtwFreeStainfo
      rw [hdrop]
    have hrest := ih (t := t.rtwFreeStainfo p) (by
      rw [hfree]
      exact fun q hq => hl q (List.mem_cons_of_mem _ hq))
    rw [List.foldl_cons, hrest, hfree]
    simp only [List.append_assoc, List.singleton_append, List.length_cons, StaTable.mk.injEq, true_and]
    push_cast
    omega

theorem freeAll_eq (h : t.Consistent) (hc : t.asocStaCount ≠ 1) :
    t.rtwFreeAllStainfo = { t with
      staHash := fun i => (t.staHash i).filter fun p => t.rtwGetStainfo bcAddr = some p
      freeStaQueue := t.freeStaQueue ++ t.table.filter fun p => !(t.rtwGetStainfo bcAddr = some p)
      asocStaCount := t.asocStaCount
        - (t.table.filter fun p => !(t.rtwGetStainfo bcAddr = some p)).length } := by
  unfold rtwFreeAllStainfo
  simp only
  rw [if_neg hc, Chains.drain_all h.own]
  apply foldl_free
  intro p hp i hmem
  have hno : (!decide (t.rtwGetStainfo bcAddr = some p)) = true := (List.mem_filter.mp hp).2
  have hyes : decide (t.rtwGetStainfo bcAddr = some p) = true := (List.mem_filter.mp hmem).2
  rw [hyes] at hno
  exact Bool.false_ne_true hno

theorem freeAll (h : t.Consistent) : t.rtwFreeAllStainfo.Consistent := by
  by_cases hc : t.asocStaCount = 1
  · unfold rtwFreeAllStainfo
    rw [if_pos hc]
    exact h
  · rw [h.freeAll_eq hc]
    exact h.filter _

theorem freeAll_table (h : t.Consistent) (hc : t.asocStaCount ≠ 1) :
    t.rtwFreeAllStainfo.table = t.table.filter fun p => t.rtwGetStainfo bcAddr = some p := by
  rw [h.freeAll_eq hc]
  exact Chains.all_filter _

/-- the broadcast station is all that is left, also on the way out at the top -/
theorem freeAll_bcmc (h : t.Consistent) (hp : t.rtwGetStainfo bcAddr = some p) :
    t.rtwFreeAllStainfo.table = [p] := by
  have hmem : p ∈ t.table := (h.get_iff.mp hp).1
  by_cases hc : t.asocStaCount = 1
  · have hlen : t.table.length = 1 := by
      have hcount := h.count
      omega
    obtain ⟨q, hq⟩ := List.length_eq_one_iff.mp hlen
    have heq : p = q := by
      rw [hq] at hmem
      exact List.mem_singleton.mp hmem
    have hsame : t.rtwFreeAllStainfo = t := if_pos hc
    rw [hsame, hq, heq]
  · rw [h.freeAll_table hc, ← h.filter_eq hmem]
    apply List.filter_congr
    intro q _
    rw [hp]
    by_cases hq : q = p
    · simp [hq]
    · simp [hq, Ne.symm hq]

theorem freeAll_nil (h : t.Consistent) (hn : t.rtwGetStainfo bcAddr = none)
    (hc : t.asocStaCount ≠ 1) : t.rtwFreeAllStainfo.table = [] := by
  rw [h.freeAll_table hc, hn]
  simp

/-! ## every order of operations -/

theorem step (h : t.Consistent) (op : StaOp) : (t.step op).Consistent := by
  cases op with
  | alloc hwaddr =>
    show (if _ then t else (t.rtwAllocStainfo hwaddr).2).Consistent
    split
    · exact h
    · rename_i hfresh
      exact h.alloc fun p hp hmac => hfresh ⟨p, hp, hmac⟩
  | free p =>
    show (if p ∈ t.table then t.rtwFreeStainfo p else t).Consistent
    split
    · exact h.free ‹_›
    · exact h
  | freeAll => exact h.freeAll
  | get _ => exact h

theorem run (es : List StaOp) : (Run.run StaTable.step {} es).Consistent :=
  run_inv_all (I := Consistent) (fun _ op h => h.step op) {} es consistent_init

/-! ## the objects and their places -/

theorem count_free (h : t.Consistent) (hp : p ∈ t.freeStaQueue) : t.freeStaQueue.count p = 1 :=
  List.count_eq_one_of_mem (List.nodup_append.mp h.nodup).2.1 hp

theorem nodup_chain (h : t.Consistent) (i : Nat) : (t.staHash i).Nodup := by
  by_cases hi : i < numSta
  · have hall := (List.nodup_append.mp h.nodup).1
    exact (List.nodup_flatMap.mp hall).1 i (List.mem_range.mpr hi)
  · have hnil : t.staHash i = [] := by
      apply List.eq_nil_iff_forall_not_mem.mpr
      intro p hp
      exact hi (h.own i p hp).2
    rw [hnil]
    exact List.nodup_nil

theorem count_chain (h : t.Consistent) (hp : p ∈ t.table) (i : Nat) :
    (t.staHash i).count p = if i = wifiMacHash (t.macAddr p) then 1 else 0 := by
  split
  · rename_i hi
    exact List.count_eq_one_of_mem (h.nodup_chain i) (h.mem_chain.mpr ⟨hp, hi.symm⟩)
  · rename_i hi
    apply List.count_eq_zero_of_not_mem
    intro hm
    exact hi (h.mem_chain.mp hm).2.symm

end Consistent

/-- the object is in the queue, once, or in one chain, once: that of its own address -/
def Placed (t : StaTable) (p : Nat) : Prop :=
  (t.freeStaQueue.count p = 1 ∧ ∀ i, p ∉ t.staHash i)
    ∨ (p ∉ t.freeStaQueue
      ∧ ∀ i, (t.staHash i).count p = if i = wifiMacHash (t.macAddr p) then 1 else 0)

theorem Consistent.placed {t : StaTable} {p : Nat} (h : t.Consistent) (hp : p < numSta) :
    t.Placed p := by
  rcases h.mem_or.mp hp with hp | hp
  · right
    exact ⟨fun hf => h.free_not_mem hf hp, h.count_chain hp⟩
  · left
    exact ⟨h.count_free hp, fun i hm => h.free_not_mem hp (h.mem_chain.mp hm).1⟩

/-! ## the table with one list -/

/-- the two tables hold the same objects under the same addresses, with the same queue -/
structure Sim (t : StaTable) (s : StaPriv) : Prop where
  queue : t.freeStaQueue = s.freeStaQueue
  table : t.table.Perm s.table
  mac : ∀ p ∈ t.table, t.macAddr p = (s.pool p).macAddr

namespace Sim

variable {t : StaTable} {s : StaPriv}

theorem get (hs : t.Sim s) (h : t.Consistent) (hwaddr : Mac) :
    t.rtwGetStainfo hwaddr = s.rtwGetStainfo hwaddr := by
  have hd : ∀ p ∈ s.table, ∀ q ∈ s.table, (s.pool p).macAddr = (s.pool q).macAddr → p = q := by
    intro p hp q hq
    rw [← hs.mac p (hs.table.mem_iff.mpr hp), ← hs.mac q (hs.table.mem_iff.mpr hq)]
    exact h.mac p (hs.table.mem_iff.mpr hp) q (hs.table.mem_iff.mpr hq)
  apply Option.ext
  intro p
  unfold StaPriv.rtwGetStainfo
  rw [h.get_iff, Chains.find?_eq_some_iff hd, hs.table.mem_iff]
  constructor
  · intro ⟨hp, hk⟩
    exact ⟨hp, (hs.mac p (hs.table.mem_iff.mpr hp)).symm.trans hk⟩
  · intro ⟨hp, hk⟩
    exact ⟨hp, (hs.mac p (hs.table.mem_iff.mpr hp)).trans hk⟩

theorem alloc (hs : t.Sim s) {hwaddr : Mac} {p : Nat} {s' : StaPriv}
    (ha : s.rtwAllocStainfo hwaddr = some (p, s')) :
    (t.rtwAllocStainfo hwaddr).1 = some p ∧ (t.rtwAllocStainfo hwaddr).2.Sim s' := by
  unfold StaPriv.rtwAllocStainfo at ha
  cases hq : s.freeStaQueue with
  | nil => simp [hq] at ha
  | cons psta q =>
    simp only [hq, Option.some.injEq, Prod.mk.injEq] at ha
    obtain ⟨rfl, rfl⟩ := ha
    have hqt : t.freeStaQueue = psta :: q := hs.queue.trans hq
    rw [Consistent.alloc_cons hqt]
    have hall : (Chains.all numSta (Chains.push t.staHash (wifiMacHash hwaddr) psta)).Perm
        (psta :: t.table) := Chains.all_push (wifiMacHash_lt hwaddr) psta
    have hadd : (psta :: t.table).Perm (s.table ++ [psta]) :=
      (hs.table.cons psta).trans (List.perm_append_singleton psta s.table).symm
    refine ⟨rfl, rfl, hall.trans hadd, ?_⟩
    intro r hr
    show Function.update t.macAddr psta hwaddr r
      = (Function.update s.pool psta { macAddr := hwaddr } r).macAddr
    by_cases hr' : r = psta
    · rw [hr', Function.update_self, Function.update_self]
    · rw [Function.update_of_ne hr', Function.update_of_ne hr']
      have hmem := hall.mem_iff.mp hr
      exact hs.mac r ((List.mem_cons.mp hmem).resolve_left hr')

theorem free (hs : t.Sim s) (p : Nat) : (t.rtwFreeStainfo p).Sim (s.rtwFreeStainfo p) := by
  obtain ⟨htable, hqueue, -, -, hpool⟩ := ListsOk.rtwFreeStainfo_spec s p
  have hall : (t.rtwFreeStainfo p).table = t.table.filter (· ≠ p) := Chains.all_drop p
  constructor
  · rw [hqueue, ← hs.queue]
    rfl
  · rw [hall, htable]
    exact hs.table.filter _
  · intro q hq
    rw [hall, List.mem_filter, decide_eq_true_eq] at hq
    rw [hpool q hq.2]
    exact hs.mac q hq.1

end Sim

/-! ## the result -/

/-- The station that is given out is new to the table, has the address, and the others stay. -/
def AllocExact (t : StaTable) (hwaddr : Mac) : Prop :=
  match t.rtwAllocStainfo hwaddr with
  | (none, t') => t.freeStaQueue = [] ∧ t' = t
  | (some p, t') => p ∉ t.table ∧ t'.table.Perm (p :: t.table) ∧ t'.macAddr p = hwaddr
      ∧ ∀ q ∈ t.table, t'.macAddr q = t.macAddr q

theorem Consistent.allocExact {t : StaTable} (h : t.Consistent) (hwaddr : Mac) :
    t.AllocExact hwaddr := by
  unfold AllocExact
  cases hq : t.freeStaQueue with
  | nil =>
    rw [Consistent.alloc_nil hq]
    exact ⟨rfl, rfl⟩
  | cons psta q =>
    rw [Consistent.alloc_cons hq]
    have hnot : psta ∉ t.table := h.free_not_mem (hq ▸ List.mem_cons_self)
    refine ⟨hnot, Chains.all_push (wifiMacHash_lt hwaddr) psta, Function.update_self .., ?_⟩
    intro r hr
    have hne : r ≠ psta := fun e => hnot (e ▸ hr)
    exact Function.update_of_ne hne _ _

end StaTable

open StaTable

/-- **The station table.**  After every order of allocations, releases and searches: each object is
in one place, the count is that of the linked objects, a search finds the object of the address, and
the release of all leaves the broadcast station where there is one. -/
theorem sta_table_run (es : List StaOp) :
    let t := run step {} es
    (∀ p, p < numSta → t.Placed p)
      ∧ t.asocStaCount = t.table.length
      ∧ (∀ hwaddr p, t.rtwGetStainfo hwaddr = some p ↔ p ∈ t.table ∧ t.macAddr p = staKey hwaddr)
      ∧ (∀ hwaddr, t.AllocExact hwaddr)
      ∧ (∀ p, t.rtwGetStainfo bcAddr = some p → t.rtwFreeAllStainfo.table = [p])
      ∧ (t.rtwGetStainfo bcAddr = none → t.asocStaCount ≠ 1 → t.rtwFreeAllStainfo.table = []) := by
  intro t
  have h : t.Consistent := Consistent.run es
  exact ⟨fun _ hp => h.placed hp, h.count, fun _ _ => h.get_iff, h.allocExact,
    fun _ hp => h.freeAll_bcmc hp, h.freeAll_nil⟩

/-- one station and no broadcast station: the count is one, and the station stays -/
theorem free_all_keeps_station :
    ¬ ∀ es : List StaOp, ∀ p ∈ (run step {} (es ++ [.freeAll])).table,
      (run step {} (es ++ [.freeAll])).macAddr p = bcAddr := by
  intro h
  have hstay := h [.alloc [2, 0, 0, 0, 0, 1]] 0
  revert hstay
  decide

end Rtl8192eu
