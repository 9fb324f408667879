import Mathlib.Data.List.Basic

/-!
# Programs on registers that hardware shares

The bits of a register belong to the program, which sets them, or to hardware, which changes them at any time.
A program writes some bits of a register, waits until some bits have a value, or lets time pass.

* `Patch`    what a write does to a register; patches compose;
* `Bus`, `Bus.Shares`   the accesses, and what they leave of the bits that are not the hardware's;
* `Act`, `execute`   programs, and an execution that makes a bounded number of reads while it waits;
* `Runs`     executions without a bound, with the reads counted; `execute_true_iff`;
* `effect`   what a program makes of each register; `Runs.changed`.
-/

namespace RegBits

/-! ## patches -/

/-- the bits of the mask get those of the value -/
structure Patch where
  mask : UInt8 := 0
  value : UInt8 := 0
  deriving DecidableEq, Repr

def Patch.apply (p : Patch) (v : UInt8) : UInt8 := (v &&& ~~~p.mask) ||| (p.value &&& p.mask)

/-- `p`, and then `q` -/
def Patch.andThen (p q : Patch) : Patch := ⟨p.mask ||| q.mask, q.apply p.value⟩

/-- two bytes are the same if their bits are -/
theorem byte_ext {a b : UInt8} (h : ∀ i < 8, a.toBitVec.getLsbD i = b.toBitVec.getLsbD i) : a = b :=
  UInt8.toBitVec_inj.mp (BitVec.eq_of_getLsbD_eq h)

@[simp] theorem Patch.apply_none (v : UInt8) : ({} : Patch).apply v = v := by
  apply byte_ext
  intro i hi
  simp [apply, hi]

theorem Patch.andThen_apply (p q : Patch) (v : UInt8) : (p.andThen q).apply v = q.apply (p.apply v) := by
  apply byte_ext
  intro i hi
  simp only [apply, andThen, UInt8.toBitVec_or, UInt8.toBitVec_and, UInt8.toBitVec_not, BitVec.getLsbD_or,
    BitVec.getLsbD_and, BitVec.getLsbD_not, hi, decide_true, Bool.true_and]
  cases v.toBitVec.getLsbD i <;> cases p.mask.toBitVec.getLsbD i <;> cases q.mask.toBitVec.getLsbD i <;> simp

/-- a patch does not mix bits -/
theorem Patch.apply_and (p : Patch) {u v own : UInt8} (h : u &&& own = v &&& own) :
    p.apply u &&& own = p.apply v &&& own := by
  apply byte_ext
  intro i hi
  have hbit := congrArg (fun w : UInt8 => w.toBitVec.getLsbD i) h
  simp only [apply, UInt8.toBitVec_or, UInt8.toBitVec_and, UInt8.toBitVec_not, BitVec.getLsbD_or,
    BitVec.getLsbD_and, BitVec.getLsbD_not, hi, decide_true, Bool.true_and] at hbit ⊢
  cases ho : own.toBitVec.getLsbD i with
  | false => simp
  | true =>
    rw [ho, Bool.and_true, Bool.and_true] at hbit
    rw [hbit]

/-- the bits of the mask are those of the value -/
theorem Patch.apply_masked (p : Patch) {m : UInt8} (h : p.mask &&& m = m) (v : UInt8) :
    p.apply v &&& m = p.value &&& m := by
  apply byte_ext
  intro i hi
  have hbit := congrArg (fun w : UInt8 => w.toBitVec.getLsbD i) h
  simp only [apply, UInt8.toBitVec_or, UInt8.toBitVec_and, UInt8.toBitVec_not, BitVec.getLsbD_or,
    BitVec.getLsbD_and, BitVec.getLsbD_not, hi, decide_true, Bool.true_and] at hbit ⊢
  cases hm : m.toBitVec.getLsbD i with
  | false => simp
  | true =>
    rw [hm, Bool.and_true] at hbit
    simp [hbit]

/-! ## the bus -/

structure Bus (σ : Type*) where
  read : Nat → σ → UInt8 × σ
  write : Nat → UInt8 → σ → σ
  delay : Nat → σ → σ

variable {σ : Type*} (bus : Bus σ)

/-- `view d a` is the register `a`, and hardware changes no bit of it that is in `own a` -/
structure Bus.Shares (view : σ → Nat → UInt8) (own : Nat → UInt8) : Prop where
  read_value : ∀ a d, (bus.read a d).1 &&& own a = view d a &&& own a
  read_keeps : ∀ a d b, view (bus.read a d).2 b &&& own b = view d b &&& own b
  write_sets : ∀ a v d b, view (bus.write a v d) b &&& own b = (if b = a then v else view d b) &&& own b
  delay_keeps : ∀ t d b, view (bus.delay t d) b &&& own b = view d b &&& own b

/-- a register is read and written back -/
def Bus.modify (a : Nat) (p : Patch) (d : σ) : σ :=
  let r := bus.read a d
  bus.write a (p.apply r.1) r.2

inductive Act where
  | set (a : Nat) (p : Patch)
  | poll (a : Nat) (p : Patch)
  | delay (t : Nat)
  deriving DecidableEq, Repr

/-- the bits of the mask are read with the value -/
def Patch.seen (p : Patch) (v : UInt8) : Bool := v &&& p.mask == p.value &&& p.mask

/-- reads until the bits are there, with `wait` after each that does not see them: whether this succeeds with
`left` reads, and the reads that are left; one more read is made before it is given up -/
def Bus.poll (wait : Nat) (a : Nat) (p : Patch) : Nat → σ → Bool × Nat × σ
  | left, d =>
    let r := bus.read a d
    let d := if p.seen r.1 then r.2 else bus.delay wait r.2
    match left with
    | 0 => (false, 0, d)
    | left + 1 => if p.seen r.1 then (true, left, d) else Bus.poll wait a p left d

def execute (wait : Nat) : Nat → List Act → σ → Bool × σ
  | _, [], d => (true, d)
  | left, .set a p :: acts, d => execute wait left acts (bus.modify a p d)
  | left, .poll a p :: acts, d =>
    let r := bus.poll wait a p left d
    if r.1 then execute wait r.2.1 acts r.2.2 else (false, r.2.2)
  | left, .delay t :: acts, d => execute wait left acts (bus.delay t d)

/-! ## executions without a bound -/

/-- the bits are there at the `n`-th read -/
inductive Sees (wait : Nat) (a : Nat) (p : Patch) : Nat → σ → σ → Prop
  | now {d : σ} (h : p.seen (bus.read a d).1 = true) : Sees wait a p 1 d (bus.read a d).2
  | later {d d' : σ} {n : Nat} (h : p.seen (bus.read a d).1 = false)
      (hrest : Sees wait a p n (bus.delay wait (bus.read a d).2) d') : Sees wait a p (n + 1) d d'

/-- a run of the program with `n` reads while it waits -/
inductive Runs (wait : Nat) : List Act → Nat → σ → σ → Prop
  | nil {d : σ} : Runs wait [] 0 d d
  | set {a : Nat} {p : Patch} {acts : List Act} {n : Nat} {d d' : σ}
      (h : Runs wait acts n (bus.modify a p d) d') : Runs wait (.set a p :: acts) n d d'
  | poll {a : Nat} {p : Patch} {acts : List Act} {m n : Nat} {d d₁ d' : σ}
      (hsees : Sees bus wait a p m d d₁) (h : Runs wait acts n d₁ d') : Runs wait (.poll a p :: acts) (m + n) d d'
  | delay {t : Nat} {acts : List Act} {n : Nat} {d d' : σ}
      (h : Runs wait acts n (bus.delay t d) d') : Runs wait (.delay t :: acts) n d d'

variable {bus} {wait : Nat}

theorem poll_true_iff {a : Nat} {p : Patch} {left l : Nat} {d d' : σ} :
    bus.poll wait a p left d = (true, l, d') ↔ ∃ n, Sees bus wait a p n d d' ∧ n + l = left := by
  induction left generalizing d with
  | zero =>
    unfold Bus.poll
    constructor
    · intro h
      exact absurd (congrArg Prod.fst h) Bool.false_ne_true
    · rintro ⟨n, hn, hl⟩
      cases hn <;> omega
  | succ left ih =>
    unfold Bus.poll
    cases hs : p.seen (bus.read a d).1 with
    | true =>
      simp only [hs, if_true, Prod.mk.injEq, true_and]
      constructor
      · rintro ⟨rfl, rfl⟩
        exact ⟨1, .now hs, Nat.add_comm 1 left⟩
      · rintro ⟨n, hn, hl⟩
        cases hn with
        | now => exact ⟨by omega, rfl⟩
        | later h =>
          rw [hs] at h
          cases h
    | false =>
      simp only [hs, Bool.false_eq_true, if_false]
      rw [ih]
      constructor
      · rintro ⟨n, hn, hl⟩
        exact ⟨n + 1, .later hs hn, by omega⟩
      · rintro ⟨n, hn, hl⟩
        cases hn with
        | now h =>
          rw [hs] at h
          cases h
        | later _ hrest => exact ⟨_, hrest, by omega⟩

/-- **The bounded execution succeeds** with the runs that make no more reads. -/
theorem execute_true_iff {left : Nat} {acts : List Act} {d d' : σ} :
    execute bus wait left acts d = (true, d') ↔ ∃ n ≤ left, Runs bus wait acts n d d' := by
  induction acts generalizing left d with
  | nil =>
    show (true, d) = (true, d') ↔ _
    constructor
    · rintro h
      obtain rfl := (Prod.mk.inj h).2
      exact ⟨0, Nat.zero_le left, .nil⟩
    · rintro ⟨n, -, hn⟩
      cases hn
      rfl
  | cons act acts ih =>
    cases act with
    | set a p =>
      show execute bus wait left acts (bus.modify a p d) = _ ↔ _
      rw [ih]
      exact ⟨fun ⟨n, hl, h⟩ => ⟨n, hl, .set h⟩, fun ⟨n, hl, h⟩ => ⟨n, hl, by cases h; assumption⟩⟩
    | delay t =>
      show execute bus wait left acts (bus.delay t d) = _ ↔ _
      rw [ih]
      exact ⟨fun ⟨n, hl, h⟩ => ⟨n, hl, .delay h⟩, fun ⟨n, hl, h⟩ => ⟨n, hl, by cases h; assumption⟩⟩
    | poll a p =>
      show (if (bus.poll wait a p left d).1 then
        execute bus wait (bus.poll wait a p left d).2.1 acts (bus.poll wait a p left d).2.2
        else (false, (bus.poll wait a p left d).2.2)) = _ ↔ _
      cases hr : bus.poll wait a p left d with
      | mk ok r =>
        obtain ⟨l, d₁⟩ := r
        cases ok with
        | true =>
          obtain ⟨m, hm, hml⟩ := poll_true_iff.mp hr
          rw [if_pos rfl, ih]
          constructor
          · rintro ⟨n, hn, hruns⟩
            have hle : n ≤ l := hn
            exact ⟨m + n, by omega, .poll hm hruns⟩
          · rintro ⟨n, hn, hruns⟩
            cases hruns with
            | poll hsees hrest =>
              have hr' := poll_true_iff.mpr ⟨_, hsees, Nat.add_sub_of_le (Nat.le_trans (Nat.le_add_right _ _) hn)⟩
              rw [hr] at hr'
              obtain ⟨rfl, rfl⟩ := Prod.mk.inj (Prod.mk.inj hr').2
              exact ⟨_, Nat.le_sub_of_add_le' hn, hrest⟩
        | false =>
          rw [if_neg Bool.false_ne_true]
          constructor
          · intro h
            exact absurd (congrArg Prod.fst h) Bool.false_ne_true
          · rintro ⟨n, hn, hruns⟩
            cases hruns with
            | poll hsees hrest =>
              have hr' := poll_true_iff.mpr ⟨_, hsees, Nat.add_sub_of_le (Nat.le_trans (Nat.le_add_right _ _) hn)⟩
              rw [hr] at hr'
              exact absurd (congrArg Prod.fst hr') Bool.false_ne_true

/-! ## what is left of the registers -/

def Act.patch : Act → Nat → Patch
  | .set a p, b => if b = a then p else {}
  | .poll _ _, _ => {}
  | .delay _, _ => {}

/-- what the program makes of the register `b` -/
def effect (acts : List Act) (b : Nat) : Patch := acts.foldl (fun e act => e.andThen (act.patch b)) {}

theorem effect_cons (act : Act) (acts : List Act) (b : Nat) (v : UInt8) :
    (effect (act :: acts) b).apply v = (effect acts b).apply ((act.patch b).apply v) := by
  have hfold : ∀ (l : List Act) (e : Patch) (v : UInt8),
      (l.foldl (fun e act => e.andThen (act.patch b)) e).apply v = (effect l b).apply (e.apply v) := by
    intro l
    induction l with
    | nil =>
      intro e v
      exact (Patch.apply_none _).symm
    | cons x l ih =>
      intro e v
      unfold effect
      rw [List.foldl_cons, List.foldl_cons, ih, ih, Patch.andThen_apply, Patch.andThen_apply, Patch.apply_none]
  unfold effect
  rw [List.foldl_cons, hfold, Patch.andThen_apply, Patch.apply_none]
  rfl

/-- from one device to another the bits of the program have changed as by the patches -/
def Changed (view : σ → Nat → UInt8) (own : Nat → UInt8) (e : Nat → Patch) (d d' : σ) : Prop :=
  ∀ b, view d' b &&& own b = (e b).apply (view d b) &&& own b

variable {view : σ → Nat → UInt8} {own : Nat → UInt8}

theorem Changed.refl (d : σ) : Changed view own (effect []) d d := by
  intro b
  show _ = ({} : Patch).apply (view d b) &&& own b
  rw [Patch.apply_none]

theorem Changed.cons {act : Act} {acts : List Act} {d d₁ d' : σ} (h : Changed view own act.patch d d₁)
    (h' : Changed view own (effect acts) d₁ d') : Changed view own (effect (act :: acts)) d d' := by
  intro b
  rw [h' b, (effect acts b).apply_and (h b), effect_cons]

/-- nothing was changed -/
theorem Changed.keep {d d' : σ} (h : ∀ b, view d' b &&& own b = view d b &&& own b) :
    Changed view own (fun _ => {}) d d' := by
  intro b
  rw [Patch.apply_none]
  exact h b

theorem and_of_own {u v own m : UInt8} (h : u &&& own = v &&& own) (hm : own &&& m = m) : u &&& m = v &&& m := by
  rw [← hm, ← UInt8.and_assoc, ← UInt8.and_assoc, h]

/-- bits of the program that were written have the value that was written last -/
theorem Changed.masked {e : Nat → Patch} {d d' : σ} (h : Changed view own e d d') {b : Nat} {m : UInt8}
    (hm : own b &&& m = m) (he : (e b).mask &&& m = m) : view d' b &&& m = (e b).value &&& m :=
  (and_of_own (h b) hm).trans ((e b).apply_masked he _)

section
variable (hs : bus.Shares view own)
include hs

theorem Bus.Shares.modify (a : Nat) (p : Patch) (d : σ) :
    Changed view own (Act.set a p).patch d (bus.modify a p d) := by
  intro b
  show view (bus.write a (p.apply (bus.read a d).1) (bus.read a d).2) b &&& own b
    = (if b = a then p else {}).apply (view d b) &&& own b
  rw [hs.write_sets]
  by_cases hb : b = a
  · rw [if_pos hb, if_pos hb, hb]
    exact p.apply_and (hs.read_value a d)
  · rw [if_neg hb, if_neg hb, Patch.apply_none]
    exact hs.read_keeps a d b

theorem Sees.keeps {a : Nat} {p : Patch} {n : Nat} {d d' : σ} (h : Sees bus wait a p n d d') (b : Nat) :
    view d' b &&& own b = view d b &&& own b := by
  induction h with
  | now _ => exact hs.read_keeps ..
  | later _ _ ih => exact ih.trans ((hs.delay_keeps ..).trans (hs.read_keeps ..))

/-- **What a run makes of the registers.** -/
theorem Runs.changed {acts : List Act} {n : Nat} {d d' : σ} (h : Runs bus wait acts n d d') :
    Changed view own (effect acts) d d' := by
  induction h with
  | nil => exact Changed.refl _
  | set _ ih => exact Changed.cons (hs.modify _ _ _) ih
  | poll hsees _ ih => exact Changed.cons (Changed.keep (hsees.keeps hs)) ih
  | delay _ ih => exact Changed.cons (Changed.keep (hs.delay_keeps _ _)) ih

end

end RegBits
