import Mathlib.Data.List.Basic
import Mathlib.Data.List.Perm.Basic
import Mathlib.Data.List.Nodup

/-!
# Chains of linked objects

The objects exist outside the table, which links them into `n` chains: an object goes to the tail of
the chain that the hash of its key picks, and it is unlinked from whatever chain it is in.

* `all n c`        the entries, chain by chain;
* `push`, `drop`   link at a tail, unlink;
* `Own`            every entry is in the chain of its own key, and chains from `n` on are empty;
* `find?_chain`    when no two entries have the same key, a search of one chain finds an entry
                   exactly when the table has it;
* `drain`          the walk that unlinks all entries but one kind and lists them.
-/

namespace Chains

variable {α κ : Type*} {n i : Nat} {c : Nat → List α} {x y : α}

def all (n : Nat) (c : Nat → List α) : List α := (List.range n).flatMap c

def push (c : Nat → List α) (i : Nat) (x : α) : Nat → List α := Function.update c i (c i ++ [x])

theorem mem_all : x ∈ all n c ↔ ∃ i, i < n ∧ x ∈ c i := by
  simp [all, List.mem_flatMap]

theorem mem_push {j : Nat} : y ∈ push c i x j ↔ y ∈ c j ∨ (j = i ∧ y = x) := by
  unfold push
  by_cases h : j = i
  · rw [h, Function.update_self]
    simp
  · rw [Function.update_of_ne h]
    simp [h]

theorem all_congr {d : Nat → List α} (h : ∀ i, i < n → c i = d i) : all n c = all n d := by
  unfold all
  apply List.flatMap_congr
  intro i hi
  exact h i (List.mem_range.mp hi)

theorem all_succ (n : Nat) (c : Nat → List α) : all (n + 1) c = all n c ++ c n := by
  simp [all, List.range_succ]

theorem all_push (h : i < n) (x : α) : (all n (push c i x)).Perm (x :: all n c) := by
  induction n with
  | zero => exact absurd h (Nat.not_lt_zero i)
  | succ n ih =>
    rw [all_succ, all_succ]
    by_cases hi : i = n
    · subst hi
      have hlow : all i (push c i x) = all i c := by
        apply all_congr
        intro j hj
        exact Function.update_of_ne (Nat.ne_of_lt hj) _ _
      have hown : push c i x i = c i ++ [x] := Function.update_self ..
      rw [hlow, hown, ← List.append_assoc]
      exact List.perm_append_singleton x _
    · have hown : push c i x n = c n := Function.update_of_ne (Ne.symm hi) _ _
      rw [hown]
      exact (ih (by omega)).append_right (c n)

theorem all_filter (f : α → Bool) : all n (fun i => (c i).filter f) = (all n c).filter f := by
  unfold all
  rw [List.filter_flatMap]

/-! ## unlinking -/

section

variable [DecidableEq α]

def drop (c : Nat → List α) (x : α) : Nat → List α := fun i => (c i).filter (· ≠ x)

theorem all_drop (x : α) : all n (drop c x) = (all n c).filter (· ≠ x) := all_filter _

/-- an entry that is not linked is unlinked without effect -/
theorem drop_of_not_mem (h : ∀ i, x ∉ c i) : drop c x = c := by
  funext i
  unfold drop
  apply List.filter_eq_self.mpr
  intro y hy
  simpa using fun e : y = x => h i (e ▸ hy)

end

/-! ## entries in their own chains -/

/-- every entry is in the chain that `bucket` gives it, one of the `n` -/
def Own (n : Nat) (bucket : α → Nat) (c : Nat → List α) : Prop :=
  ∀ i x, x ∈ c i → bucket x = i ∧ i < n

namespace Own

variable {bucket : α → Nat} (h : Own n bucket c)

include h

theorem mem_all_iff : x ∈ all n c ↔ x ∈ c (bucket x) := by
  rw [mem_all]
  constructor
  · intro ⟨i, _, hx⟩
    rw [(h i x hx).1]
    exact hx
  · intro hx
    exact ⟨bucket x, (h _ x hx).2, hx⟩

theorem mem_iff : x ∈ c i ↔ x ∈ all n c ∧ bucket x = i := by
  rw [h.mem_all_iff]
  constructor
  · intro hx
    have hi := (h i x hx).1
    exact ⟨hi ▸ hx, hi⟩
  · intro ⟨hx, hi⟩
    exact hi ▸ hx

theorem push (hx : bucket x < n) : Own n bucket (push c (bucket x) x) := by
  intro i y hy
  rcases mem_push.mp hy with hy | ⟨hi, hy⟩
  · exact h i y hy
  · subst hy hi
    exact ⟨rfl, hx⟩

theorem filter (f : α → Bool) : Own n bucket (fun i => (c i).filter f) :=
  fun i x hx => h i x (List.mem_of_mem_filter hx)

theorem congr {bucket' : α → Nat} (hb : ∀ x ∈ all n c, bucket' x = bucket x) :
    Own n bucket' c := by
  intro i x hx
  have hi := h i x hx
  have hall : x ∈ all n c := mem_all.mpr ⟨i, hi.2, hx⟩
  exact ⟨(hb x hall).trans hi.1, hi.2⟩

end Own

/-! ## the search -/

section

variable [DecidableEq κ] {key : α → κ}

/-- where keys are distinct, a search finds an entry exactly when it is there -/
theorem find?_eq_some_iff {l : List α} {k : κ}
    (hd : ∀ x ∈ l, ∀ y ∈ l, key x = key y → x = y) :
    l.find? (fun y => key y = k) = some x ↔ x ∈ l ∧ key x = k := by
  constructor
  · intro hf
    exact ⟨List.mem_of_find?_eq_some hf, by simpa using List.find?_some hf⟩
  · intro ⟨hx, hk⟩
    cases hf : l.find? fun y => key y = k with
    | none => exact absurd hk (by simpa using List.find?_eq_none.mp hf x hx)
    | some y =>
      have hy : key y = k := by simpa using List.find?_some hf
      rw [hd y (List.mem_of_find?_eq_some hf) x hx (hy.trans hk.symm)]

/-- **The search of one chain.** -/
theorem find?_chain {hash : κ → Nat} {k : κ} (h : Own n (fun x => hash (key x)) c)
    (hd : ∀ x ∈ all n c, ∀ y ∈ all n c, key x = key y → x = y) :
    (c (hash k)).find? (fun y => key y = k) = some x ↔ x ∈ all n c ∧ key x = k := by
  have hsub : ∀ y ∈ c (hash k), y ∈ all n c := fun y hy => (h.mem_iff.mp hy).1
  rw [find?_eq_some_iff fun y hy z hz => hd y (hsub y hy) z (hsub z hz)]
  constructor
  · intro ⟨hx, hk⟩
    exact ⟨hsub x hx, hk⟩
  · intro ⟨hx, hk⟩
    refine ⟨h.mem_iff.mpr ⟨hx, ?_⟩, hk⟩
    rw [hk]

end

/-! ## the walk over all chains -/

section

variable [DecidableEq α]

/-- one chain: the entries that `keep` does not hold of are unlinked and listed -/
def drainChain (keep : α → Bool) : List α → (Nat → List α) × List α → (Nat → List α) × List α
  | [], s => s
  | x :: l, s => drainChain keep l (if keep x then s else (drop s.1 x, s.2 ++ [x]))

def drain (keep : α → Bool) (is : List Nat) (s : (Nat → List α) × List α) :
    (Nat → List α) × List α :=
  is.foldl (fun s i => drainChain keep (s.1 i) s) s

variable {keep : α → Bool}

theorem drainChain_eq (l : List α) (s : (Nat → List α) × List α) :
    drainChain keep l s
      = (fun i => (s.1 i).filter fun x => keep x || x ∉ l, s.2 ++ l.filter fun x => !keep x) := by
  induction l generalizing s with
  | nil => simp [drainChain]
  | cons x l ih =>
    rw [drainChain, ih]
    cases hk : keep x with
    | true =>
      refine Prod.ext (funext fun i => ?_) ?_
      · apply List.filter_congr
        intro y _
        by_cases hy : y = x
        · subst hy
          simp [hk]
        · simp [hy]
      · simp [hk]
    | false =>
      refine Prod.ext (funext fun i => ?_) ?_
      · show ((s.1 i).filter (· ≠ x)).filter (fun y => keep y || decide (y ∉ l)) = _
        rw [List.filter_filter]
        apply List.filter_congr
        intro y _
        by_cases hy : y = x
        · subst hy
          simp [hk]
        · simp [hy]
      · simp [hk]

/-- **The walk.**  A chain that is reached later still has all its entries, since an entry is only
in its own chain. -/
theorem drain_eq {bucket : α → Nat} {is : List Nat} (hn : is.Nodup) (s : (Nat → List α) × List α)
    (h : Own n bucket s.1) :
    drain keep is s
      = (fun i => if i ∈ is then (s.1 i).filter keep else s.1 i,
          s.2 ++ is.flatMap fun i => (s.1 i).filter fun x => !keep x) := by
  induction is generalizing s with
  | nil => simp [drain]
  | cons k is ih =>
    have ⟨hk, hn⟩ := List.nodup_cons.mp hn
    have hstep : drainChain keep (s.1 k) s
        = (fun i => if i = k then (s.1 i).filter keep else s.1 i,
            s.2 ++ (s.1 k).filter fun x => !keep x) := by
      rw [drainChain_eq]
      congr 1
      funext i
      split
      · rename_i hi
        subst hi
        apply List.filter_congr
        intro x hx
        simp [hx]
      · rename_i hi
        apply List.filter_eq_self.mpr
        intro x hx
        have hx' : x ∉ s.1 k := fun hm => hi ((h i x hx).1.symm.trans (h k x hm).1)
        simp [hx']
    have hown : Own n bucket (drainChain keep (s.1 k) s).1 := by
      rw [drainChain_eq]
      exact h.filter _
    have hrest : drain keep (k :: is) s = drain keep is (drainChain keep (s.1 k) s) := rfl
    rw [hrest, ih hn _ hown, hstep]
    congr 1
    · funext i
      by_cases hi : i = k
      · subst hi
        simp [hk]
      · simp [hi]
    · have htail : (is.flatMap fun i =>
          ((if i = k then (s.1 i).filter keep else s.1 i)).filter fun x => !keep x)
            = is.flatMap fun i => (s.1 i).filter fun x => !keep x := by
        apply List.flatMap_congr
        intro i hi
        have hne : i ≠ k := fun e => hk (e ▸ hi)
        rw [if_neg hne]
      simp only
      rw [htail, List.flatMap_cons, List.append_assoc]

/-- all chains walked: what `keep` holds of stays where it is, the rest is listed -/
theorem drain_all {bucket : α → Nat} (h : Own n bucket c) :
    drain keep (List.range n) (c, [])
      = (fun i => (c i).filter keep, (all n c).filter fun x => !keep x) := by
  rw [drain_eq List.nodup_range (c, []) h]
  congr 1
  · funext i
    split
    · rfl
    · rename_i hi
      have hnil : c i = [] := by
        apply List.eq_nil_iff_forall_not_mem.mpr
        intro x hx
        exact hi (List.mem_range.mpr (h i x hx).2)
      simp [hnil]
  · rw [List.nil_append, ← all_filter]
    rfl

end

end Chains
