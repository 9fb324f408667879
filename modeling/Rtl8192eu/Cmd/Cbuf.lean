import Mathlib.Algebra.Group.Nat.Defs
import Rtl8192eu.Lib.Run

/-!
# The ring of pointers

`struct rtw_cbuf` of `os_dep/osdep_service.c`, which hands the events of the firmware from the interrupt to
`c2h_wk_callback` without a lock. `rtw_cbuf_full` compares with `read - 1` as a machine word, and does not find the
ring full when `read` is 0.

* `CbufSys`, `CbufSys.step`   one producer and one consumer, one access after the other;
* `CbufSys.waiting`   what lies between `read` and `write`;
* `CbufSys.Fifo`   what was pushed was popped in its order, or it is waiting;
* `cbuf_fifo_iff`   the runs in which this always holds.

Memory is sequentially consistent.
-/

namespace Rtl8192eu

open Run

variable {α : Type*}

structure RtwCbuf (α : Type*) where
  write : Nat
  read : Nat
  size : Nat
  bufs : Nat → α

namespace RtwCbuf

/-- `rtw_cbuf_full`, with `read - 1` as a `u32` -/
def full (cbuf : RtwCbuf α) : Bool := cbuf.write == (cbuf.read + (2 ^ 32 - 1)) % 2 ^ 32

/-- `rtw_cbuf_empty` -/
def empty (cbuf : RtwCbuf α) : Bool := cbuf.write == cbuf.read

/-- `rtw_cbuf_alloc`: the pointers are not initialized -/
def alloc (size : Nat) (bufs : Nat → α) : RtwCbuf α := ⟨0, 0, size, bufs⟩

end RtwCbuf

/-- a call of `rtw_cbuf_push`: it has found room, or it has stored the pointer -/
inductive PushPc (α : Type*) where
  | idle
  | store (buf : α)
  | advance (buf : α)

/-- a call of `rtw_cbuf_pop`: it has found something, or it has loaded it -/
inductive PopPc (α : Type*) where
  | idle
  | load
  | advance (buf : α)

structure CbufSys (α : Type*) where
  cbuf : RtwCbuf α
  producer : PushPc α := .idle
  consumer : PopPc α := .idle
  /-- what `rtw_cbuf_push` returned success for -/
  pushed : List α := []
  popped : List α := []

inductive CbufEvent (α : Type*) where
  /-- a call begins, with the check -/
  | push (buf : α)
  /-- the next access of the call -/
  | pushing
  | pop
  | popping

namespace CbufSys

def alloc (size : Nat) (bufs : Nat → α) : CbufSys α := { cbuf := .alloc size bufs }

def step (s : CbufSys α) : CbufEvent α → CbufSys α
  | .push buf =>
    match s.producer with
    | .idle => if s.cbuf.full then s else { s with producer := .store buf }
    | _ => s
  | .pushing =>
    match s.producer with
    | .idle => s
    | .store buf =>
      { s with
        cbuf := { s.cbuf with bufs := fun i => if i = s.cbuf.write then buf else s.cbuf.bufs i }
        producer := .advance buf }
    | .advance buf =>
      { s with
        cbuf := { s.cbuf with write := (s.cbuf.write + 1) % 2 ^ 32 % s.cbuf.size }
        producer := .idle
        pushed := s.pushed ++ [buf] }
  | .pop =>
    match s.consumer with
    | .idle => if s.cbuf.empty then s else { s with consumer := .load }
    | _ => s
  | .popping =>
    match s.consumer with
    | .idle => s
    | .load => { s with consumer := .advance (s.cbuf.bufs s.cbuf.read) }
    | .advance buf =>
      { s with
        cbuf := { s.cbuf with read := (s.cbuf.read + 1) % 2 ^ 32 % s.cbuf.size }
        consumer := .idle
        popped := s.popped ++ [buf] }

/-- how many pointers lie between `read` and `write` -/
def count (s : CbufSys α) : Nat := (s.cbuf.write + (s.cbuf.size - s.cbuf.read)) % s.cbuf.size

def waiting (s : CbufSys α) : List α :=
  (List.range s.count).map fun i => s.cbuf.bufs ((s.cbuf.read + i) % s.cbuf.size)

/-- nothing was lost, and nothing overtaken -/
def Fifo (s : CbufSys α) : Prop := s.popped ++ s.waiting = s.pushed

/-- the step does not fill the last place of a ring whose `read` is 0 -/
def keepsGap (s : CbufSys α) : CbufEvent α → Bool
  | .pushing =>
    match s.producer with
    | .advance _ => !(s.cbuf.read == 0 && s.cbuf.write + 1 == s.cbuf.size)
    | _ => true
  | _ => true

/-! ## the ring -/

/-- the numbers are places of the ring -/
structure Bounds (s : CbufSys α) : Prop where
  word : s.cbuf.size < 2 ^ 32
  write : s.cbuf.write < s.cbuf.size
  read : s.cbuf.read < s.cbuf.size

/-- what the two calls know of the ring -/
structure Inv (s : CbufSys α) : Prop where
  bounds : s.Bounds
  fifo : s.Fifo
  room : s.producer ≠ .idle → s.count + 1 < s.cbuf.size ∨ s.cbuf.read = 0 ∧ s.cbuf.write + 1 = s.cbuf.size
  stored : ∀ buf, s.producer = .advance buf → s.cbuf.bufs s.cbuf.write = buf
  some : s.consumer ≠ .idle → 0 < s.count
  loaded : ∀ buf, s.consumer = .advance buf → s.cbuf.bufs s.cbuf.read = buf

variable {s : CbufSys α}

theorem Bounds.count_eq (h : s.Bounds) :
    s.count = if s.cbuf.read ≤ s.cbuf.write then s.cbuf.write - s.cbuf.read
      else s.cbuf.write + s.cbuf.size - s.cbuf.read := by
  obtain ⟨-, hw, hr⟩ := h
  unfold count
  split
  · rename_i hle
    have hsplit : s.cbuf.write + (s.cbuf.size - s.cbuf.read) = s.cbuf.write - s.cbuf.read + s.cbuf.size := by omega
    rw [hsplit, Nat.add_mod_right, Nat.mod_eq_of_lt (by omega)]
  · rw [Nat.mod_eq_of_lt (by omega)]
    omega

/-- the next place, where no number is beyond a word -/
theorem next_eq {i n : Nat} (hn : n < 2 ^ 32) (hi : i < n) :
    (i + 1) % 2 ^ 32 % n = if i + 1 = n then 0 else i + 1 := by
  rw [Nat.mod_eq_of_lt (show i + 1 < 2 ^ 32 by omega)]
  split
  · rename_i h
    rw [h, Nat.mod_self]
  · exact Nat.mod_eq_of_lt (by omega)

theorem next_lt {i n : Nat} (hn : n < 2 ^ 32) (hi : i < n) : (i + 1) % 2 ^ 32 % n < n :=
  Nat.mod_lt _ (by omega)

/-- the ring is found full, unless `read` is 0 -/
theorem Bounds.room_of_not_full (h : s.Bounds) (hf : s.cbuf.full = false) :
    s.count + 1 < s.cbuf.size ∨ s.cbuf.read = 0 ∧ s.cbuf.write + 1 = s.cbuf.size := by
  have hcount := h.count_eq
  obtain ⟨hn, hw, hr⟩ := h
  have hne : s.cbuf.write ≠ (s.cbuf.read + (2 ^ 32 - 1)) % 2 ^ 32 := by simpa [RtwCbuf.full] using hf
  rcases Nat.eq_zero_or_pos s.cbuf.read with h0 | hpos
  · rw [h0] at hcount ⊢
    simp only [Nat.zero_le, if_true] at hcount
    omega
  · have hprev : (s.cbuf.read + (2 ^ 32 - 1)) % 2 ^ 32 = s.cbuf.read - 1 := by
      have hsplit : s.cbuf.read + (2 ^ 32 - 1) = s.cbuf.read - 1 + 2 ^ 32 := by omega
      rw [hsplit, Nat.add_mod_right, Nat.mod_eq_of_lt (by omega)]
    rw [hprev] at hne
    split at hcount <;> omega

/-- the place that is written next is not one of those that are waiting -/
theorem Bounds.write_free (h : s.Bounds) {i : Nat} (hi : i < s.count) :
    (s.cbuf.read + i) % s.cbuf.size ≠ s.cbuf.write := by
  rw [h.count_eq] at hi
  obtain ⟨-, hw, hr⟩ := h
  rcases Nat.lt_or_ge (s.cbuf.read + i) s.cbuf.size with hlt | hge
  · rw [Nat.mod_eq_of_lt hlt]
    split at hi <;> omega
  · rw [Nat.mod_eq_sub_mod hge, Nat.mod_eq_of_lt (by split at hi <;> omega)]
    split at hi <;> omega

/-- the place after those that are waiting is the one that is written next -/
theorem Bounds.read_add_count (h : s.Bounds) : (s.cbuf.read + s.count) % s.cbuf.size = s.cbuf.write := by
  rw [h.count_eq]
  obtain ⟨-, hw, hr⟩ := h
  split
  · rw [Nat.add_sub_of_le (by assumption), Nat.mod_eq_of_lt hw]
  · rw [Nat.add_sub_of_le (by omega), Nat.add_mod_right, Nat.mod_eq_of_lt hw]

/-- what waits depends on the places that it lies in -/
theorem waiting_congr {t : CbufSys α} (hr : t.cbuf.read = s.cbuf.read) (hn : t.cbuf.size = s.cbuf.size)
    (hc : t.count = s.count)
    (hb : ∀ i < s.count,
      t.cbuf.bufs ((s.cbuf.read + i) % s.cbuf.size) = s.cbuf.bufs ((s.cbuf.read + i) % s.cbuf.size)) :
    t.waiting = s.waiting := by
  unfold waiting
  rw [hc, hr, hn]
  exact List.map_congr_left fun i hi => hb i (List.mem_range.mp hi)

/-! ## one access -/

/-- the state after the producer has gone on -/
def pushedOn (s : CbufSys α) (buf : α) : CbufSys α :=
  { s with
    cbuf := { s.cbuf with write := (s.cbuf.write + 1) % 2 ^ 32 % s.cbuf.size }
    producer := .idle
    pushed := s.pushed ++ [buf] }

/-- the state after the consumer has gone on -/
def poppedOn (s : CbufSys α) (buf : α) : CbufSys α :=
  { s with
    cbuf := { s.cbuf with read := (s.cbuf.read + 1) % 2 ^ 32 % s.cbuf.size }
    consumer := .idle
    popped := s.popped ++ [buf] }

theorem Bounds.pushedOn (h : s.Bounds) (buf : α) : (s.pushedOn buf).Bounds :=
  ⟨h.word, next_lt h.word h.write, h.read⟩

theorem Bounds.poppedOn (h : s.Bounds) (buf : α) : (s.poppedOn buf).Bounds :=
  ⟨h.word, h.write, next_lt h.word h.read⟩

theorem Bounds.count_pushedOn (h : s.Bounds) (buf : α) :
    (s.pushedOn buf).count = if s.count + 1 = s.cbuf.size then 0 else s.count + 1 := by
  have hlt := h.write
  have hrd := h.read
  have h1 := h.count_eq
  have h2 := (h.pushedOn buf).count_eq
  change (s.pushedOn buf).count = if s.cbuf.read ≤ (s.cbuf.write + 1) % 2 ^ 32 % s.cbuf.size
    then (s.cbuf.write + 1) % 2 ^ 32 % s.cbuf.size - s.cbuf.read
    else (s.cbuf.write + 1) % 2 ^ 32 % s.cbuf.size + s.cbuf.size - s.cbuf.read at h2
  rw [next_eq h.word hlt] at h2
  rw [h1, h2]
  grind

theorem Bounds.count_poppedOn (h : s.Bounds) (hpos : 0 < s.count) (buf : α) :
    (s.poppedOn buf).count + 1 = s.count := by
  have hlt := h.write
  have hrd := h.read
  have h1 := h.count_eq
  have h2 := (h.poppedOn buf).count_eq
  change (s.poppedOn buf).count = if (s.cbuf.read + 1) % 2 ^ 32 % s.cbuf.size ≤ s.cbuf.write
    then s.cbuf.write - (s.cbuf.read + 1) % 2 ^ 32 % s.cbuf.size
    else s.cbuf.write + s.cbuf.size - (s.cbuf.read + 1) % 2 ^ 32 % s.cbuf.size at h2
  rw [next_eq h.word hrd] at h2
  rw [h1] at hpos ⊢
  rw [h2]
  grind

/-- one more is waiting, behind the others -/
theorem Bounds.waiting_pushedOn (h : s.Bounds) (hroom : s.count + 1 < s.cbuf.size) (buf : α) :
    (s.pushedOn buf).waiting = s.waiting ++ [s.cbuf.bufs s.cbuf.write] := by
  have hcount := h.count_pushedOn buf
  rw [if_neg (by omega)] at hcount
  unfold waiting
  rw [hcount, List.range_succ, List.map_append, List.map_singleton]
  show _ ++ [s.cbuf.bufs ((s.cbuf.read + s.count) % s.cbuf.size)] = _
  rw [h.read_add_count]
  rfl

/-- the first one is no longer waiting -/
theorem Bounds.waiting_poppedOn (h : s.Bounds) (hpos : 0 < s.count) (buf : α) :
    s.waiting = s.cbuf.bufs s.cbuf.read :: (s.poppedOn buf).waiting := by
  have hcount := h.count_poppedOn hpos buf
  unfold waiting
  rw [← hcount, List.range_succ_eq_map, List.map_cons, List.map_map, Nat.add_zero, Nat.mod_eq_of_lt h.read]
  congr 1
  refine List.map_congr_left fun i _ => congrArg s.cbuf.bufs ?_
  show (s.cbuf.read + (i + 1)) % s.cbuf.size = ((s.cbuf.read + 1) % 2 ^ 32 % s.cbuf.size + i) % s.cbuf.size
  have hword : s.cbuf.read + 1 < 2 ^ 32 := Nat.lt_of_le_of_lt h.read h.word
  rw [Nat.mod_eq_of_lt hword, Nat.mod_add_mod]
  congr 1
  omega

theorem pushing_advance {buf : α} (hp : s.producer = .advance buf) : s.step .pushing = s.pushedOn buf := by
  unfold step
  simp only [hp]
  rfl

theorem popping_advance {buf : α} (hp : s.consumer = .advance buf) : s.step .popping = s.poppedOn buf := by
  unfold step
  simp only [hp]
  rfl

theorem keepsGap_advance {buf : α} (hp : s.producer = .advance buf) :
    s.keepsGap .pushing = true ↔ ¬ (s.cbuf.read = 0 ∧ s.cbuf.write + 1 = s.cbuf.size) := by
  have h : s.keepsGap .pushing = !(s.cbuf.read == 0 && s.cbuf.write + 1 == s.cbuf.size) := by
    unfold keepsGap
    simp only [hp]
  rw [h, Bool.not_eq_true', Bool.and_eq_false_iff, beq_eq_false_iff_ne, beq_eq_false_iff_ne, not_and_or]

/-- the machine words stay places of the ring, whether something is lost or not -/
theorem step_bounds (h : s.Bounds) (e : CbufEvent α) : (s.step e).Bounds := by
  cases e with
  | push buf =>
    unfold step
    dsimp only
    split
    · split <;> exact ⟨h.word, h.write, h.read⟩
    · exact h
  | pushing =>
    cases hp : s.producer with
    | advance buf =>
      rw [pushing_advance hp]
      exact h.pushedOn buf
    | idle | store _ =>
      unfold step
      simp only [hp]
      exact ⟨h.word, h.write, h.read⟩
  | pop =>
    unfold step
    dsimp only
    split
    · split <;> exact ⟨h.word, h.write, h.read⟩
    · exact h
  | popping =>
    cases hp : s.consumer with
    | advance buf =>
      rw [popping_advance hp]
      exact h.poppedOn buf
    | idle | load =>
      unfold step
      simp only [hp]
      exact ⟨h.word, h.write, h.read⟩

/-- the producer goes on, with a gap left -/
theorem Inv.pushedOn (h : s.Inv) {buf : α} (hp : s.producer = .advance buf)
    (hgap : ¬ (s.cbuf.read = 0 ∧ s.cbuf.write + 1 = s.cbuf.size)) : (s.pushedOn buf).Inv := by
  have hroom : s.count + 1 < s.cbuf.size := (h.room (by simp [hp])).resolve_right hgap
  have hcount := h.bounds.count_pushedOn buf
  rw [if_neg (by omega)] at hcount
  refine ⟨h.bounds.pushedOn buf, ?_, fun hne => absurd rfl hne, fun b hb => ?_, fun _ => ?_, h.loaded⟩
  · show s.popped ++ (s.pushedOn buf).waiting = s.pushed ++ [buf]
    rw [h.bounds.waiting_pushedOn hroom, h.stored buf hp, ← List.append_assoc, h.fifo]
  · cases hb
  · omega

theorem Inv.poppedOn (h : s.Inv) {buf : α} (hp : s.consumer = .advance buf) : (s.poppedOn buf).Inv := by
  have hpos : 0 < s.count := h.some (by simp [hp])
  have hcount := h.bounds.count_poppedOn hpos buf
  refine ⟨h.bounds.poppedOn buf, ?_, fun hne => ?_, h.stored, fun hne => absurd rfl hne, fun b hb => ?_⟩
  · show s.popped ++ [buf] ++ (s.poppedOn buf).waiting = s.pushed
    rw [← h.fifo, h.bounds.waiting_poppedOn hpos buf, h.loaded buf hp, List.append_assoc]
    rfl
  · left
    rcases h.room hne with hlt | ⟨h0, hlast⟩
    · show (s.poppedOn buf).count + 1 < s.cbuf.size
      omega
    · -- the ring was full, and has a gap now
      have hfull := h.bounds.count_eq
      rw [h0, if_pos (Nat.zero_le _)] at hfull
      show (s.poppedOn buf).count + 1 < s.cbuf.size
      omega
  · cases hb

theorem step_inv (h : s.Inv) (e : CbufEvent α) (hgap : s.keepsGap e = true) : (s.step e).Inv := by
  have hb := step_bounds h.bounds e
  cases e with
  | push buf =>
    cases hp : s.producer with
    | idle =>
      cases hf : s.cbuf.full with
      | true =>
        have hsame : s.step (.push buf) = s := by simp [step, hp, hf]
        rwa [hsame]
      | false =>
        have hnext : s.step (.push buf) = { s with producer := .store buf } := by simp [step, hp, hf]
        rw [hnext] at hb ⊢
        exact ⟨hb, h.fifo, fun _ => h.bounds.room_of_not_full hf, fun b hb' => (by cases hb'), h.some, h.loaded⟩
    | store _ | advance _ =>
      have hsame : s.step (.push buf) = s := by simp [step, hp]
      rwa [hsame]
  | pushing =>
    cases hp : s.producer with
    | idle =>
      have hsame : s.step .pushing = s := by simp [step, hp]
      rwa [hsame]
    | store buf =>
      have hroom := h.room (by simp [hp])
      have hfree : ∀ i < s.count, (s.cbuf.read + i) % s.cbuf.size ≠ s.cbuf.write := fun i => h.bounds.write_free
      let t : CbufSys α := { s with
        cbuf := { s.cbuf with bufs := fun i => if i = s.cbuf.write then buf else s.cbuf.bufs i }
        producer := .advance buf }
      have hnext : s.step .pushing = t := by
        unfold step
        simp only [hp]
        rfl
      have hwaiting : t.waiting = s.waiting :=
        waiting_congr rfl rfl rfl fun i hi => if_neg (hfree i hi)
      rw [hnext] at hb ⊢
      refine ⟨hb, ?_, fun _ => hroom, fun b hb' => ?_, h.some, fun b hc => ?_⟩
      · show s.popped ++ t.waiting = s.pushed
        rw [hwaiting]
        exact h.fifo
      · obtain rfl : buf = b := PushPc.advance.inj hb'
        exact if_pos rfl
      · have hne := hfree 0 (h.some (by simp [show s.consumer = .advance b from hc]))
        rw [Nat.add_zero, Nat.mod_eq_of_lt h.bounds.read] at hne
        exact (if_neg hne).trans (h.loaded b hc)
    | advance buf =>
      rw [pushing_advance hp]
      exact h.pushedOn hp ((keepsGap_advance hp).mp hgap)
  | pop =>
    cases hp : s.consumer with
    | idle =>
      cases he : s.cbuf.empty with
      | true =>
        have hsame : s.step .pop = s := by simp [step, hp, he]
        rwa [hsame]
      | false =>
        have hnext : s.step .pop = { s with consumer := .load } := by simp [step, hp, he]
        rw [hnext] at hb ⊢
        have hne : s.cbuf.write ≠ s.cbuf.read := by simpa [RtwCbuf.empty] using he
        have hpos : 0 < s.count := by
          have hcount := h.bounds.count_eq
          have hlt := h.bounds.read
          split at hcount <;> omega
        exact ⟨hb, h.fifo, h.room, h.stored, fun _ => hpos, fun b hb' => by cases hb'⟩
    | load | advance _ =>
      have hsame : s.step .pop = s := by simp [step, hp]
      rwa [hsame]
  | popping =>
    cases hp : s.consumer with
    | idle =>
      have hsame : s.step .popping = s := by simp [step, hp]
      rwa [hsame]
    | load =>
      have hnext : s.step .popping = { s with consumer := .advance (s.cbuf.bufs s.cbuf.read) } := by
        simp [step, hp]
      rw [hnext] at hb ⊢
      exact ⟨hb, h.fifo, h.room, h.stored, fun _ => h.some (by simp [hp]), fun b hb' => PopPc.advance.inj hb'⟩
    | advance buf =>
      rw [popping_advance hp]
      exact h.poppedOn hp

theorem inv_alloc {size : Nat} (hpos : 0 < size) (hword : size < 2 ^ 32) (bufs : Nat → α) :
    (alloc size bufs).Inv := by
  have hb : (alloc size bufs).Bounds := ⟨hword, hpos, hpos⟩
  refine ⟨hb, ?_, fun h => absurd rfl h, fun b h => (by cases h), fun h => absurd rfl h, fun b h => (by cases h)⟩
  unfold Fifo waiting
  rw [hb.count_eq]
  rfl

/-- a push into the last gap loses everything that waits -/
theorem lost_of_no_gap (h : s.Bounds) {e : CbufEvent α} (hfifo : s.Fifo) (hnext : (s.step e).Fifo) :
    s.keepsGap e = true := by
  cases e with
  | pushing =>
    cases hp : s.producer with
    | advance buf =>
      rw [pushing_advance hp] at hnext
      refine (keepsGap_advance hp).mpr fun ⟨h0, hlast⟩ => ?_
      have hfull := h.count_eq
      rw [h0, if_pos (Nat.zero_le _)] at hfull
      have hcount := h.count_pushedOn buf
      rw [if_pos (by omega)] at hcount
      have hlen := congrArg List.length hnext
      have hlen' := congrArg List.length hfifo
      change (s.popped ++ (s.pushedOn buf).waiting).length = (s.pushed ++ [buf]).length at hlen
      simp only [waiting, List.length_append, List.length_map, List.length_range, hcount,
        List.length_singleton] at hlen hlen'
      omega
    | idle | store _ => simp [keepsGap, hp]
  | push _ | pop | popping => rfl

end CbufSys

/-- **The ring is a queue in exactly the runs that keep its gap**: whatever the order of the accesses of the producer
and the consumer, what was popped and what waits is what was pushed, in its order, as long as no call ends by filling
the last place while `read` is 0. The call that does this loses everything that waits. -/
theorem cbuf_fifo_iff {size : Nat} (hpos : 0 < size) (hword : size < 2 ^ 32) (bufs : Nat → α)
    (es : List (CbufEvent α)) :
    (∀ es', es' <+: es → (run CbufSys.step (.alloc size bufs) es').Fifo)
      ↔ Along CbufSys.step (fun s e => s.keepsGap e = true) (.alloc size bufs) es := by
  refine always_iff_along (I := CbufSys.Bounds) ⟨hword, hpos, hpos⟩ (fun _ e h => CbufSys.step_bounds h e) ?_
    (fun _ _ h hfifo hnext => CbufSys.lost_of_no_gap h hfifo hnext) es
  intro es' hes
  have hinv := run_inv (I := CbufSys.Inv) (fun _ e h he => CbufSys.step_inv h e he) (.alloc size bufs) es'
    (CbufSys.inv_alloc hpos hword bufs) hes
  exact hinv.fifo

/-- the ring of `c2h_queue`, and as many events as it has places -/
def elevenEvents : List (CbufEvent Nat) := (List.range 11).flatMap fun i => [.push i, .pushing, .pushing]

/-- the same with a consumer that pops each event while the next one is pushed -/
def followedEvents : List (CbufEvent Nat) :=
  (List.range 14).flatMap fun i => [.push i, .popping, .pushing, .popping, .pushing, .pop]

theorem cbuf_fifo_iff_eleven :
    (¬ ∀ es', es' <+: elevenEvents → (run CbufSys.step (.alloc 11 fun _ => 0) es').Fifo)
      ∧ ∀ es', es' <+: followedEvents → (run CbufSys.step (.alloc 11 fun _ => 0) es').Fifo :=
  ⟨(cbuf_fifo_iff (by decide) (by decide) _ elevenEvents).not.mpr (by decide),
    (cbuf_fifo_iff (by decide) (by decide) _ followedEvents).mpr (by decide +kernel)⟩

end Rtl8192eu
