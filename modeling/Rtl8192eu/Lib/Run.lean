import Mathlib.Data.List.Basic

/-!
# Runs of a step function

A system is a step function `step : σ → ε → σ`: the state, and an event that the environment or
the scheduler picks.  A step that is not enabled returns the state it was given.

* `run step s es`   the state after the events `es`, head first;
* `Along step C s es`   the condition `C s e` held before every step of the run;
* `run_inv`   an invariant kept by every step that meets `C` holds after every run
                         that meets `C`;
* `trace step s es`   the steps of the run, each with the state before it; `run_inv_trace` is the
                         rule for invariants that know them;
* `length_le_of_lt`   a measure that every event lowers bounds the length of the run;
* `run_filter_rel`   events that can be left out: each keeps the relation to the other run;
* `always_iff_along`   when a property holds in every state of exactly the runs that meet `C`.
-/

namespace Run

variable {σ ε : Type*}

def run (step : σ → ε → σ) : σ → List ε → σ
  | s, [] => s
  | s, e :: es => run step (step s e) es

/-- `C` holds of the state and the event before every step -/
def Along (step : σ → ε → σ) (C : σ → ε → Prop) : σ → List ε → Prop
  | _, [] => True
  | s, e :: es => C s e ∧ Along step C (step s e) es

instance decidableAlong (step : σ → ε → σ) (C : σ → ε → Prop) [∀ s e, Decidable (C s e)] :
    ∀ (s : σ) (es : List ε), Decidable (Along step C s es)
  | _, [] => isTrue trivial
  | s, e :: es =>
    have := decidableAlong step C (step s e) es
    inferInstanceAs (Decidable (C s e ∧ Along step C (step s e) es))

variable {step : σ → ε → σ} {C : σ → ε → Prop} {I : σ → Prop}

theorem run_append (s : σ) (es es' : List ε) :
    run step s (es ++ es') = run step (run step s es) es' := by
  induction es generalizing s with
  | nil => rfl
  | cons e es ih => exact ih (step s e)

theorem along_append (s : σ) (es es' : List ε) :
    Along step C s (es ++ es') ↔ Along step C s es ∧ Along step C (run step s es) es' := by
  induction es generalizing s with
  | nil => exact ⟨fun h => ⟨trivial, h⟩, fun h => h.2⟩
  | cons e es ih =>
    show (C s e ∧ Along step C (step s e) (es ++ es'))
      ↔ (C s e ∧ Along step C (step s e) es) ∧ Along step C (run step (step s e) es) es'
    rw [ih (step s e), and_assoc]

theorem along_and {D : ε → Prop} {s : σ} {es : List ε} (hD : ∀ e ∈ es, D e) (hC : Along step C s es) :
    Along step (fun s e => D e ∧ C s e) s es := by
  induction es generalizing s with
  | nil => exact trivial
  | cons e es ih =>
    exact ⟨⟨hD e List.mem_cons_self, hC.1⟩, ih (fun x hx => hD x (List.mem_cons_of_mem _ hx)) hC.2⟩

/-- **The invariant rule.** -/
theorem run_inv (hstep : ∀ s e, I s → C s e → I (step s e)) (s : σ) (es : List ε) (hs : I s)
    (hC : Along step C s es) : I (run step s es) := by
  induction es generalizing s with
  | nil => exact hs
  | cons e es ih => exact ih (step s e) (hstep s e hs hC.1) hC.2

theorem run_inv_all (hstep : ∀ s e, I s → I (step s e)) (s : σ) (es : List ε) (hs : I s) :
    I (run step s es) := by
  induction es generalizing s with
  | nil => exact hs
  | cons e es ih => exact ih (step s e) (hstep s e hs)

/-- a measure that no event of the run raises -/
theorem run_measure_le {m : σ → Nat} {D : ε → Prop} (hI : ∀ s e, I s → I (step s e))
    (hm : ∀ s e, I s → D e → m (step s e) ≤ m s) {s : σ} {es : List ε} (hs : I s)
    (hD : ∀ e ∈ es, D e) : m (run step s es) ≤ m s := by
  induction es generalizing s with
  | nil => exact Nat.le_refl _
  | cons e es ih =>
    have hrest := ih (hI s e hs) fun x hx => hD x (List.mem_cons_of_mem _ hx)
    exact Nat.le_trans hrest (hm s e hs (hD e List.mem_cons_self))

theorem run_stage_le {m : σ → Nat} {D : ε → Prop} (hI : ∀ s e, I s → I (step s e))
    (hm : ∀ s e, I s → D e → m (step s e) ≤ m s) {s : σ} {e : ε} {es : List ε} {r : Nat} (hs : I s)
    (hD : ∀ e ∈ es, D e) (he : m (step s e) ≤ r) : m (run step s (e :: es)) ≤ r := by
  have hrest := run_measure_le hI hm (hI s e hs) hD
  exact Nat.le_trans hrest he

/-- a measure that every event of the run lowers bounds its length -/
theorem length_le_of_lt {m : σ → Nat} (hI : ∀ s e, I s → C s e → I (step s e))
    (hm : ∀ s e, I s → C s e → m (step s e) < m s) {s : σ} {es : List ε} (hs : I s)
    (hC : Along step C s es) : es.length ≤ m s := by
  induction es generalizing s with
  | nil => exact Nat.zero_le _
  | cons e es ih => exact Nat.lt_of_le_of_lt (ih (hI s e hs hC.1) hC.2) (hm s e hs hC.1)

/-- a condition on each step may be replaced by one that says the same there -/
theorem along_congr {P Q : σ → ε → Prop} (hI : ∀ s e, I s → C s e → I (step s e))
    (h : ∀ s e, I s → C s e → (P s e ↔ Q s e)) {s : σ} {es : List ε} (hs : I s)
    (hC : Along step C s es) : Along step P s es ↔ Along step Q s es := by
  induction es generalizing s with
  | nil => exact Iff.rfl
  | cons e es ih => exact and_congr (h s e hs hC.1) (ih (hI s e hs hC.1) hC.2)

/-! ## every state of a run -/

theorem Along.of_prefix {s : σ} {es es' : List ε} (h : Along step C s es) (hp : es' <+: es) :
    Along step C s es' := by
  obtain ⟨t, rfl⟩ := hp
  exact ((along_append s es' t).mp h).1

theorem along_of_forall_prefix {s : σ} {es : List ε}
    (h : ∀ es' e, es' ++ [e] <+: es → C (run step s es') e) : Along step C s es := by
  induction es generalizing s with
  | nil => exact trivial
  | cons e es ih =>
    refine ⟨h [] e ⟨es, rfl⟩, ih ?_⟩
    intro es' e' hp
    exact h (e :: es') e' (List.prefix_cons_inj e |>.mpr hp)

/-- **The condition is exact**: it is enough for `P`, and a step that keeps `P` meets it. -/
theorem always_iff_along {P : σ → Prop} {s : σ} (hs : I s) (hI : ∀ s e, I s → I (step s e))
    (henough : ∀ es, Along step C s es → P (run step s es))
    (hneeded : ∀ s e, I s → P s → P (step s e) → C s e) (es : List ε) :
    (∀ es', es' <+: es → P (run step s es')) ↔ Along step C s es := by
  constructor
  · intro h
    refine along_of_forall_prefix fun es' e hp => ?_
    have h1 := h _ hp
    rw [run_append] at h1
    exact hneeded _ e (run_inv_all hI s es' hs) (h es' ((List.prefix_append es' [e]).trans hp)) h1
  · intro h es' hp
    exact henough es' (h.of_prefix hp)

/-! ## history -/

def trace (step : σ → ε → σ) : σ → List ε → List (σ × ε)
  | _, [] => []
  | s, e :: es => (s, e) :: trace step (step s e) es

theorem run_inv_trace {I : σ → List (σ × ε) → Prop}
    (hstep : ∀ s tr e, I s tr → C s e → I (step s e) (tr ++ [(s, e)]))
    (s : σ) (tr : List (σ × ε)) (es : List ε) (hs : I s tr) (hC : Along step C s es) :
    I (run step s es) (tr ++ trace step s es) := by
  induction es generalizing s tr with
  | nil => simpa [run, trace] using hs
  | cons e es ih =>
    have h := ih (step s e) (tr ++ [(s, e)]) (hstep s tr e hs hC.1) hC.2
    simpa [run, trace] using h

/-! ## two runs -/

theorem run_filter_rel {R : σ → σ → Prop} {keep : ε → Bool}
    (hkeep : ∀ s t e, R s t → keep e = true → R (step s e) (step t e))
    (hdrop : ∀ s t e, R s t → keep e = false → C s e → R (step s e) t)
    (s t : σ) (es : List ε) (hR : R s t) (hC : Along step C s es) :
    R (run step s es) (run step t (es.filter keep)) := by
  induction es generalizing s t with
  | nil => exact hR
  | cons e es ih =>
    cases hk : keep e with
    | true =>
      rw [List.filter_cons_of_pos hk]
      exact ih _ _ (hkeep s t e hR hk) hC.2
    | false =>
      rw [List.filter_cons_of_neg (Bool.eq_false_iff.mp hk)]
      exact ih _ _ (hdrop s t e hR hk hC.1) hC.2

end Run
