import Mathlib.Data.List.Basic

/-!
# Loops

A round of a loop is left with a result, or goes on with another state.

* `Runs round n s r`   from `s` the loop is left with `r` after `n` rounds that go on;
* `Ends round s r`   in some number of rounds;
* `runs_of_lt`   a measure that is lowered in every round bounds their number;
* `Runs.inv`     what every round keeps, holds where the loop is left;
* `not_ends_of_stays`   a loop that never leaves a set of states does not end.
-/

namespace Loop

inductive Next (σ α : Type*) where
  | stop (r : α)
  | again (s : σ)
  deriving DecidableEq, Repr

inductive Runs {σ α : Type*} (round : σ → Next σ α) : Nat → σ → α → Prop
  | stop {s r} (h : round s = .stop r) : Runs round 0 s r
  | again {n s s' r} (h : round s = .again s') (hr : Runs round n s' r) : Runs round (n + 1) s r

def Ends {σ α : Type*} (round : σ → Next σ α) (s : σ) (r : α) : Prop := ∃ n, Runs round n s r

variable {σ α : Type*} {round : σ → Next σ α} {s s' : σ} {r r' : α} {n : Nat}

theorem runs_stop (h : round s = .stop r') : Runs round n s r ↔ n = 0 ∧ r = r' := by
  constructor
  · intro hr
    cases hr with
    | stop h' =>
      cases h.symm.trans h'
      exact ⟨rfl, rfl⟩
    | again h' _ => cases h.symm.trans h'
  · rintro ⟨rfl, rfl⟩
    exact Runs.stop h

theorem ends_stop (h : round s = .stop r') : Ends round s r ↔ r = r' := by
  constructor
  · rintro ⟨n, hr⟩
    exact ((runs_stop h).mp hr).2
  · intro hr
    exact ⟨0, (runs_stop h).mpr ⟨rfl, hr⟩⟩

theorem ends_again (h : round s = .again s') : Ends round s r ↔ Ends round s' r := by
  constructor
  · rintro ⟨n, hr⟩
    cases hr with
    | stop h' => cases h.symm.trans h'
    | again h' hr =>
      cases h.symm.trans h'
      exact ⟨_, hr⟩
  · rintro ⟨n, hr⟩
    exact ⟨n + 1, Runs.again h hr⟩

/-- a loop that never leaves `C` does not end -/
theorem not_ends_of_stays {C : σ → Prop} (hC : ∀ s, C s → ∃ s', round s = .again s' ∧ C s') (hs : C s) :
    ¬Ends round s r := by
  rintro ⟨n, hr⟩
  induction hr with
  | stop h =>
    obtain ⟨s', h', -⟩ := hC _ hs
    cases h.symm.trans h'
  | again h _ ih =>
    obtain ⟨s', h', hs'⟩ := hC _ hs
    cases h.symm.trans h'
    exact ih hs'

theorem not_ends_self (h : round s = .again s) : ¬Ends round s r := by
  have hstays : ∀ t, t = s → ∃ s', round t = .again s' ∧ s' = s := by
    intro t ht
    subst ht
    exact ⟨t, h, rfl⟩
  exact not_ends_of_stays hstays rfl

theorem Ends.unique (h : Ends round s r) (h' : Ends round s r') : r = r' := by
  obtain ⟨n, hr⟩ := h
  induction hr with
  | stop h => exact ((ends_stop h).mp h').symm
  | again h _ ih => exact ih ((ends_again h).mp h')

/-- **The rule for loops that end.** -/
theorem runs_of_lt {I : σ → Prop} (m : σ → Nat)
    (hI : ∀ s s', I s → round s = .again s' → I s' ∧ m s' < m s) (s : σ) (hs : I s) :
    ∃ n r, n ≤ m s ∧ Runs round n s r := by
  generalize hk : m s = k
  induction k using Nat.strongRecOn generalizing s with
  | _ k ih =>
    subst hk
    cases h : round s with
    | stop r => exact ⟨0, r, Nat.zero_le _, Runs.stop h⟩
    | again s' =>
      obtain ⟨hs', hlt⟩ := hI s s' hs h
      obtain ⟨n, r, hn, hr⟩ := ih (m s') hlt s' hs' rfl
      exact ⟨n + 1, r, Nat.lt_of_le_of_lt hn hlt, Runs.again h hr⟩

/-- **The invariant rule.** -/
theorem Runs.inv {I : σ → Prop} (hI : ∀ s s', I s → round s = .again s' → I s') (hs : I s)
    (h : Runs round n s r) : ∃ s', I s' ∧ round s' = .stop r := by
  induction h with
  | stop h => exact ⟨_, hs, h⟩
  | again h _ ih => exact ih (hI _ _ hs h)

end Loop
