import Mathlib.Data.List.Basic
import Mathlib.Data.List.Nodup
import Mathlib.Logic.Function.Basic

/-!
# Hash tables with chains

A table of keys `K` with values `V`: a key lives in the chain of its hash, and in it once.

* `Table hash V`   the chains, with the proof that no chain has a key twice;
* `get`, `modify`, `upsert`, `sweep`   a chain is searched from its head, a value changed in place,
                             a new key put at the head, and every value changed or removed;
* `get_modify`, `get_upsert`, `get_sweep`   a table is a map from keys to values.
-/

namespace HashChain

variable {K V ι : Type*} [DecidableEq K]

/-! ## one chain -/

def modifyChain (k : K) (f : V → V) (l : List (K × V)) : List (K × V) :=
  l.map fun p => if p.1 = k then (p.1, f p.2) else p

def sweepChain (g : V → Option V) (l : List (K × V)) : List (K × V) :=
  l.filterMap fun p => (g p.2).map fun v => (p.1, v)

variable {k k' : K} {v : V} {f : V → V} {g : V → Option V} {l : List (K × V)}

theorem lookup_cons_self : ((k, v) :: l).lookup k = some v := by
  rw [List.lookup_cons, beq_self_eq_true]

theorem lookup_cons_of_ne (h : k' ≠ k) : ((k, v) :: l).lookup k' = l.lookup k' := by
  rw [List.lookup_cons, beq_eq_false_iff_ne.mpr h]

theorem lookup_of_not_mem (h : k ∉ l.map Prod.fst) : l.lookup k = none := by
  induction l with
  | nil => rfl
  | cons p l ih =>
    rw [List.map_cons, List.mem_cons, not_or] at h
    obtain ⟨k', v⟩ := p
    rw [lookup_cons_of_ne h.1, ih h.2]

theorem not_mem_of_lookup (h : l.lookup k = none) : k ∉ l.map Prod.fst := by
  induction l with
  | nil => exact List.not_mem_nil
  | cons p l ih =>
    obtain ⟨k', v⟩ := p
    by_cases hk : k = k'
    · subst hk
      rw [lookup_cons_self] at h
      cases h
    · rw [lookup_cons_of_ne hk] at h
      rw [List.map_cons, List.mem_cons, not_or]
      exact ⟨hk, ih h⟩

theorem keys_modifyChain : (modifyChain k f l).map Prod.fst = l.map Prod.fst := by
  rw [modifyChain, List.map_map]
  apply List.map_congr_left
  intro p _
  show (if p.1 = k then (p.1, f p.2) else p).1 = p.1
  split <;> rfl

theorem lookup_modifyChain :
    (modifyChain k f l).lookup k' = if k' = k then (l.lookup k).map f else l.lookup k' := by
  induction l with
  | nil => split <;> rfl
  | cons p l ih =>
    obtain ⟨k₁, v⟩ := p
    show ((if k₁ = k then (k₁, f v) else (k₁, v)) :: modifyChain k f l).lookup k' = _
    by_cases h1 : k₁ = k
    · subst h1
      rw [if_pos rfl]
      by_cases h2 : k' = k₁
      · subst h2
        rw [lookup_cons_self, if_pos rfl, lookup_cons_self]
        rfl
      · rw [lookup_cons_of_ne h2, ih, if_neg h2, if_neg h2, lookup_cons_of_ne h2]
    · rw [if_neg h1]
      by_cases h2 : k' = k₁
      · subst h2
        rw [lookup_cons_self, if_neg h1, lookup_cons_self]
      · rw [lookup_cons_of_ne h2, ih]
        by_cases h3 : k' = k
        · subst h3
          rw [if_pos rfl, if_pos rfl, lookup_cons_of_ne h2]
        · rw [if_neg h3, if_neg h3, lookup_cons_of_ne h2]

omit [DecidableEq K] in
theorem keys_sweepChain : ((sweepChain g l).map Prod.fst).Sublist (l.map Prod.fst) := by
  induction l with
  | nil => exact List.Sublist.refl _
  | cons p l ih =>
    unfold sweepChain
    cases hg : g p.2 with
    | none =>
      rw [List.filterMap_cons_none (by rw [hg]; rfl)]
      exact ih.cons _
    | some v =>
      rw [List.filterMap_cons_some (b := (p.1, v)) (by rw [hg]; rfl)]
      exact ih.cons_cons _

theorem lookup_sweepChain (hl : (l.map Prod.fst).Nodup) :
    (sweepChain g l).lookup k = (l.lookup k).bind g := by
  induction l with
  | nil => rfl
  | cons p l ih =>
    obtain ⟨k₁, v⟩ := p
    rw [List.map_cons, List.nodup_cons] at hl
    unfold sweepChain
    by_cases hk : k = k₁
    · subst hk
      rw [lookup_cons_self, Option.bind_some]
      cases hg : g v with
      | none =>
        rw [List.filterMap_cons_none (by rw [hg]; rfl)]
        exact lookup_of_not_mem fun hin => hl.1 (keys_sweepChain.subset hin)
      | some v' =>
        rw [List.filterMap_cons_some (b := (k, v')) (by rw [hg]; rfl), lookup_cons_self]
    · rw [lookup_cons_of_ne hk, ← ih hl.2]
      cases hg : g v with
      | none => rw [List.filterMap_cons_none (by rw [hg]; rfl)]; rfl
      | some v' =>
        rw [List.filterMap_cons_some (b := (k₁, v')) (by rw [hg]; rfl), lookup_cons_of_ne hk]
        rfl

/-! ## the table -/

variable {hash : K → ι}

structure Table (hash : K → ι) (V : Type*) where
  chain : ι → List (K × V)
  nodup : ∀ i, ((chain i).map Prod.fst).Nodup

namespace Table

def empty : Table hash V := ⟨fun _ => [], fun _ => List.nodup_nil⟩

def get (t : Table hash V) (k : K) : Option V := (t.chain (hash k)).lookup k

def sweep (t : Table hash V) (g : V → Option V) : Table hash V :=
  ⟨fun i => sweepChain g (t.chain i), fun i => (t.nodup i).sublist keys_sweepChain⟩

variable [DecidableEq ι]

def modify (t : Table hash V) (k : K) (f : V → V) : Table hash V :=
  ⟨Function.update t.chain (hash k) (modifyChain k f (t.chain (hash k))), by
    intro i
    by_cases hi : i = hash k
    · rw [hi, Function.update_self, keys_modifyChain]
      exact t.nodup _
    · rw [Function.update_of_ne hi]
      exact t.nodup i⟩

/-- the value of `k` is changed in place, or `v` put at the head of its chain -/
def upsert (t : Table hash V) (k : K) (f : V → V) (v : V) : Table hash V :=
  if h : t.get k = none then
    ⟨Function.update t.chain (hash k) ((k, v) :: t.chain (hash k)), by
      intro i
      by_cases hi : i = hash k
      · rw [hi, Function.update_self, List.map_cons, List.nodup_cons]
        exact ⟨not_mem_of_lookup h, t.nodup _⟩
      · rw [Function.update_of_ne hi]
        exact t.nodup i⟩
  else t.modify k f

variable (t : Table hash V) (k k' : K) (f : V → V) (g : V → Option V) (v : V)

omit [DecidableEq ι] in
theorem get_sweep : (t.sweep g).get k = (t.get k).bind g := lookup_sweepChain (t.nodup _)

theorem get_modify : (t.modify k f).get k' = if k' = k then (t.get k).map f else t.get k' := by
  show (Function.update t.chain (hash k) _ (hash k')).lookup k' = _
  by_cases hh : hash k' = hash k
  · rw [hh, Function.update_self, lookup_modifyChain]
    unfold get
    rw [hh]
  · have hk : k' ≠ k := fun h => hh (congrArg hash h)
    rw [Function.update_of_ne hh, if_neg hk]
    rfl

theorem get_upsert :
    (t.upsert k f v).get k' = if k' = k then some (((t.get k).map f).getD v) else t.get k' := by
  unfold upsert
  split
  · rename_i h
    show (Function.update t.chain (hash k) _ (hash k')).lookup k' = _
    by_cases hk : k' = k
    · subst hk
      rw [Function.update_self, lookup_cons_self, if_pos rfl, h]
      rfl
    · rw [if_neg hk]
      by_cases hh : hash k' = hash k
      · rw [hh, Function.update_self, lookup_cons_of_ne hk]
        unfold get
        rw [hh]
      · rw [Function.update_of_ne hh]
        rfl
  · rename_i h
    rw [get_modify]
    obtain ⟨x, hx⟩ := Option.ne_none_iff_exists'.mp h
    rw [hx]
    rfl

end Table

end HashChain
