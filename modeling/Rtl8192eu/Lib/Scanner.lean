import Mathlib.Data.List.TakeWhile
import Rtl8192eu.Lib.Run

/-!
# Scanning terminated strings, line by line

A pointer into a string is the list of what stands from there on, the terminator included; to read the empty
list is to read behind the terminator.

* `Stop`, `span`, `skip`   why a scanner stops, and the loops that look for an end;
* `span_append`    what a loop reads;
* `span_of_mem`    a loop that stops at the terminator does not leave the string;
* `Next`, `feed`   a parser takes a line, and goes on or leaves the loop over the lines;
* `contained_iff`   no line of the run leads outside if and only if each is in order where it is met;
* `run_filter`     lines that change nothing.
-/

namespace Scanner

open Run

variable {α σ β : Type*}

/-- a read or a write outside, or an input that is not taken -/
inductive Stop where
  | outside | refused
  deriving DecidableEq, Repr

theorem bind_ok {γ δ : Type} (a : γ) (f : γ → Except Stop δ) : (Except.ok a >>= f) = f a := rfl

/-! ## loops over the string -/

/-- what satisfies `p`, and the pointer to the first that does not -/
def span (p : α → Bool) : List α → Except Stop (List α × List α)
  | [] => .error .outside
  | c :: m => if p c then (span p m).map fun r => (c :: r.1, r.2) else .ok ([], c :: m)

def skip (p : α → Bool) (m : List α) : Except Stop (List α) := (span p m).map Prod.snd

section
variable {p : α → Bool} {l m q : List α} {c t : α}

theorem span_stop (h : p t = false) (q : List α) : span p (t :: q) = .ok ([], t :: q) := by
  unfold span
  rw [if_neg (Bool.eq_false_iff.mp h)]

theorem span_cons (h : p c = true) (m : List α) :
    span p (c :: m) = (span p m).map fun r => (c :: r.1, r.2) := by
  rw [span, if_pos h]

/-- **What a loop reads.** -/
theorem span_append (hl : ∀ c ∈ l, p c = true) (ht : p t = false) (q : List α) :
    span p (l ++ t :: q) = .ok (l, t :: q) := by
  induction l with
  | nil => exact span_stop ht q
  | cons c l ih =>
    rw [List.cons_append, span_cons (hl c List.mem_cons_self), ih fun c hc => hl c (List.mem_cons_of_mem _ hc)]
    rfl

theorem span_ok_iff : span p m = .ok (l, q) ↔
    m = l ++ q ∧ (∀ c ∈ l, p c = true) ∧ ∃ t q', q = t :: q' ∧ p t = false := by
  constructor
  · intro h
    induction m generalizing l with
    | nil => cases h
    | cons c m ih =>
      cases hc : p c with
      | false =>
        rw [span_stop hc] at h
        cases h
        exact ⟨rfl, nofun, c, m, rfl, hc⟩
      | true =>
        rw [span_cons hc] at h
        cases hm : span p m with
        | error e => rw [hm] at h; cases h
        | ok r =>
          rw [hm] at h
          cases h
          obtain ⟨rfl, hl, hq⟩ := ih hm
          exact ⟨rfl, List.forall_mem_cons.mpr ⟨hc, hl⟩, hq⟩
  · rintro ⟨rfl, hl, t, q', rfl, ht⟩
    exact span_append hl ht q'

theorem span_error_iff {e : Stop} : span p m = .error e ↔ e = .outside ∧ ∀ c ∈ m, p c = true := by
  induction m with
  | nil => exact ⟨fun h => by cases h; exact ⟨rfl, nofun⟩, fun h => by rw [h.1]; rfl⟩
  | cons c m ih =>
    cases hc : p c with
    | false =>
      rw [span_stop hc]
      refine iff_of_false nofun fun h => ?_
      rw [h.2 c List.mem_cons_self] at hc
      cases hc
    | true =>
      rw [span_cons hc, List.forall_mem_cons]
      have hmap : (span p m).map (fun r => (c :: r.1, r.2)) = .error e ↔ span p m = .error e := by
        cases span p m with
        | error e' => exact Iff.rfl
        | ok r => exact iff_of_false nofun nofun
      rw [hmap, ih]
      exact and_congr_right fun _ => ⟨fun h => ⟨hc, h⟩, fun h => h.2⟩

/-- **A loop that stops at the terminator** does not leave the string. -/
theorem span_of_mem (ht : p t = false) (hm : t ∈ m) : ∃ l q, span p m = .ok (l, q) ∧ t ∈ q := by
  cases h : span p m with
  | error e => exact absurd ((span_error_iff.mp h).2 t hm) (Bool.eq_false_iff.mp ht)
  | ok r =>
    obtain ⟨rfl, hl, -⟩ := span_ok_iff.mp h
    refine ⟨r.1, r.2, rfl, (List.mem_append.mp hm).resolve_left fun hmem => ?_⟩
    exact Bool.eq_false_iff.mp ht (hl t hmem)

theorem mem_dropWhile (ht : p t = false) (hm : t ∈ m) : t ∈ m.dropWhile p := by
  have hsplit : t ∈ m.takeWhile p ++ m.dropWhile p := by rwa [List.takeWhile_append_dropWhile]
  refine (List.mem_append.mp hsplit).resolve_left fun htake => ?_
  exact Bool.eq_false_iff.mp ht (List.mem_takeWhile_imp htake)

theorem span_eq_of_mem (ht : p t = false) (hm : t ∈ m) : span p m = .ok (m.takeWhile p, m.dropWhile p) := by
  have hdrop : m.dropWhile p ≠ [] := List.ne_nil_of_mem (mem_dropWhile ht hm)
  obtain ⟨c, q, hq⟩ := List.exists_cons_of_ne_nil hdrop
  refine span_ok_iff.mpr
    ⟨List.takeWhile_append_dropWhile.symm, fun c hc => List.mem_takeWhile_imp hc, c, q, hq, ?_⟩
  have hhead := List.head_dropWhile_not p hdrop
  simpa [hq] using hhead

theorem skip_append (hl : ∀ c ∈ l, p c = true) (ht : p t = false) (q : List α) :
    skip p (l ++ t :: q) = .ok (t :: q) := by
  rw [skip, span_append hl ht]
  rfl

theorem skip_eq_of_mem (ht : p t = false) (hm : t ∈ m) : skip p m = .ok (m.dropWhile p) := by
  rw [skip, span_eq_of_mem ht hm]
  rfl

end

/-! ## lines -/

/-- after a line: the parser has left its buffers, has left the loop with a result, or goes on -/
inductive Next (σ : Type*) where
  | outside
  | stop (ok : Bool) (s : σ)
  | next (s : σ)

/-- the next line, if the loop goes on -/
def feed (step : σ → β → Next σ) : Next σ → β → Next σ
  | .next s, b => step s b
  | r, _ => r

theorem Next.next_ne_outside (s : σ) : Next.next s ≠ .outside := nofun

theorem Next.stop_ne_outside (ok : Bool) (s : σ) : Next.stop ok s ≠ .outside := nofun

/-- behind the last line, the parser is done -/
def Next.finish : Next σ → Next σ
  | .next s => .stop true s
  | r => r

theorem Next.finish_outside_iff {r : Next σ} : r.finish = .outside ↔ r = .outside := by
  cases r with
  | outside => exact Iff.rfl
  | stop ok s => exact Iff.rfl
  | next s => exact iff_of_false nofun nofun

/-- a part that is not taken ends the loop with a failure -/
def Next.ofScan {γ : Type*} (x : Except Stop γ) (s : σ) (k : γ → Next σ) : Next σ :=
  match x with
  | .error .outside => .outside
  | .error .refused => .stop false s
  | .ok a => k a

/-- a part behind which the loop goes on -/
theorem Next.ofScan_next_iff {γ : Type*} {x : Except Stop γ} {s : σ} {f : γ → σ} :
    Next.ofScan x s (fun a => .next (f a)) = .outside ↔ x = .error .outside := by
  match x with
  | .error .outside => exact iff_of_true rfl rfl
  | .error .refused => exact iff_of_false nofun nofun
  | .ok a => exact iff_of_false nofun nofun

section
variable {step : σ → β → Next σ} {Ok : σ → β → Prop}

/-- every line is in order in the state that it is met in -/
def AllOk (step : σ → β → Next σ) (Ok : σ → β → Prop) (s : σ) (l : List β) : Prop :=
  Along (feed step) (fun r b => ∀ s, r = .next s → Ok s b) (.next s) l

theorem run_outside (l : List β) : run (feed step) .outside l = .outside := by
  induction l with
  | nil => rfl
  | cons b l ih => exact ih

theorem run_stop (ok : Bool) (s : σ) (l : List β) : run (feed step) (.stop ok s) l = .stop ok s := by
  induction l with
  | nil => rfl
  | cons b l ih => exact ih

theorem along_done {r : Next σ} (hr : ∀ s, r ≠ .next s) (l : List β) :
    Along (feed step) (fun r b => ∀ s, r = .next s → Ok s b) r l := by
  induction l with
  | nil => exact trivial
  | cons b l ih =>
    have hfeed : feed step r b = r := by
      cases r with
      | next s => exact absurd rfl (hr s)
      | outside => rfl
      | stop _ _ => rfl
    refine ⟨fun s h => absurd h (hr s), ?_⟩
    rw [hfeed]
    exact ih

/-- **No line leads outside** if and only if each is in order. -/
theorem contained_iff (h : ∀ s b, step s b ≠ .outside ↔ Ok s b) (s : σ) (l : List β) :
    run (feed step) (.next s) l ≠ .outside ↔ AllOk step Ok s l := by
  induction l generalizing s with
  | nil => exact iff_of_true nofun trivial
  | cons b l ih =>
    have hok : (∀ s', Next.next s = .next s' → Ok s' b) ↔ Ok s b :=
      ⟨fun h => h s rfl, fun h s' hs => by cases hs; exact h⟩
    show run (feed step) (step s b) l ≠ .outside
      ↔ (∀ s', Next.next s = .next s' → Ok s' b) ∧ Along (feed step) _ (step s b) l
    rw [hok, ← h s b]
    cases hstep : step s b with
    | outside =>
      rw [run_outside]
      exact iff_of_false (fun hne => hne rfl) fun hne => hne.1 rfl
    | stop ok s' =>
      rw [run_stop]
      exact iff_of_true nofun ⟨nofun, along_done nofun l⟩
    | next s' => exact (ih s').trans ⟨fun hl => ⟨nofun, hl⟩, fun hl => hl.2⟩

/-- lines that change nothing can be left out -/
theorem run_filter {keep : β → Bool} (h : ∀ s b, keep b = false → step s b = .next s) (r : Next σ)
    (l : List β) : run (feed step) r l = run (feed step) r (l.filter keep) := by
  induction l generalizing r with
  | nil => rfl
  | cons b l ih =>
    cases hk : keep b with
    | true =>
      rw [List.filter_cons_of_pos hk]
      exact ih (feed step r b)
    | false =>
      have hfeed : feed step r b = r := by
        cases r with
        | outside => rfl
        | stop _ _ => rfl
        | next s => exact h s b hk
      rw [List.filter_cons_of_neg (by simp [hk]), ← ih r]
      show run (feed step) (feed step r b) l = _
      rw [hfeed]

end

end Scanner
