import Mathlib.Data.Nat.Bitwise
import Rtl8192eu.Lib.Mem

/-!
# Fields that a bitmap announces

A record of optional fields: a bitmap says which are there, and they follow each other in the order of
its bits, each at the next multiple of its alignment.

* `alignUp`   the next multiple;
* `fieldBits w n`   the bits of `w` below `n`;
* `finish`, `start?`   the offset behind the fields, and that of one of them;
* `parse`     what a reader finds;
* `Placed`    the fields written so far: it is kept by one more (`Placed.snoc`), and a
                       reader finds them (`Placed.parse`).
-/

namespace Layout

open Mem

structure Field where
  align : Nat
  size : Nat
  deriving DecidableEq, Repr

/-- the next multiple of `a` -/
def alignUp (a x : Nat) : Nat := (x + (a - 1)) / a * a

/-- the bits of `w` below `n` that are set -/
def fieldBits (w n : Nat) : List Nat := (List.range n).filter w.testBit

variable (table : Nat → Field)

def finish : List Nat → Nat → Nat
  | [], off => off
  | b :: bs, off => finish bs (alignUp (table b).align off + (table b).size)

/-- the fields and their contents -/
def parse {β : Type*} (m : Nat → β) : List Nat → Nat → List (Nat × List β)
  | [], _ => []
  | b :: bs, off =>
    (b, read m (alignUp (table b).align off) (table b).size)
      :: parse m bs (alignUp (table b).align off + (table b).size)

variable {table} {β : Type*} {m m' : Nat → β} {bs : List Nat} {b off : Nat}

theorem le_alignUp {a : Nat} (h : 0 < a) (x : Nat) : x ≤ alignUp a x := by
  unfold alignUp
  have hdiv := Nat.div_add_mod (x + (a - 1)) a
  have hmod := Nat.mod_lt (x + (a - 1)) h
  rw [Nat.mul_comm] at hdiv
  omega

theorem alignUp_one (x : Nat) : alignUp 1 x = x := by
  unfold alignUp
  omega

theorem finish_append (bs cs : List Nat) (off : Nat) :
    finish table (bs ++ cs) off = finish table cs (finish table bs off) := by
  induction bs generalizing off with
  | nil => rfl
  | cons b bs ih => exact ih _

theorem finish_snoc : finish table (bs ++ [b]) off
    = alignUp (table b).align (finish table bs off) + (table b).size := finish_append bs [b] off

theorem le_finish (h : ∀ b, 0 < (table b).align) (bs : List Nat) (off : Nat) : off ≤ finish table bs off := by
  induction bs generalizing off with
  | nil => exact Nat.le_refl _
  | cons b bs ih =>
    have h1 := le_alignUp (h b) off
    have h2 := ih (alignUp (table b).align off + (table b).size)
    show off ≤ finish table bs _
    omega

theorem parse_snoc : parse table m (bs ++ [b]) off = parse table m bs off
    ++ [(b, read m (alignUp (table b).align (finish table bs off)) (table b).size)] := by
  induction bs generalizing off with
  | nil => rfl
  | cons c bs ih => exact congrArg _ ih

/-- only the cells of the fields matter -/
theorem parse_congr (hpos : ∀ b, 0 < (table b).align)
    (h : ∀ i, off ≤ i → i < finish table bs off → m i = m' i) :
    parse table m bs off = parse table m' bs off := by
  induction bs generalizing off with
  | nil => rfl
  | cons b bs ih =>
    have hoff := le_alignUp (hpos b) off
    have hle := le_finish hpos bs (alignUp (table b).align off + (table b).size)
    have hread : read m (alignUp (table b).align off) (table b).size
        = read m' (alignUp (table b).align off) (table b).size :=
      read_congr fun i hi hlt => h i (hoff.trans hi) (Nat.lt_of_lt_of_le hlt hle)
    show _ :: parse table m bs _ = _ :: parse table m' bs _
    rw [hread, ih fun i hi hlt => h i (by omega) hlt]

/-- the bits of a word that got a higher one -/
theorem fieldBits_snoc {w n b : Nat} (hb : b < n) (h : ∀ i, b ≤ i → w.testBit i = false) :
    fieldBits (w ||| 2 ^ b) n = fieldBits w n ++ [b] := by
  obtain ⟨k, rfl⟩ := Nat.exists_eq_add_of_lt hb
  have hbit : ∀ i, (w ||| 2 ^ b).testBit i = (w.testBit i || decide (b = i)) := by
    intro i
    rw [Nat.testBit_or, Nat.testBit_two_pow]
  have hlow : (List.range b).filter (w ||| 2 ^ b).testBit = (List.range b).filter w.testBit := by
    apply List.filter_congr
    intro i hi
    have hne : b ≠ i := Nat.ne_of_gt (List.mem_range.mp hi)
    rw [hbit, decide_eq_false hne, Bool.or_false]
  have hhigh : ∀ f : Nat → Bool, (∀ i, b < i → f i = false) →
      ((List.range k).map (b + 1 + ·)).filter f = [] := by
    intro f hf
    rw [List.filter_eq_nil_iff]
    intro i hi
    obtain ⟨j, -, rfl⟩ := List.mem_map.mp hi
    rw [hf _ (by omega)]
    exact Bool.false_ne_true
  have hrange : List.range (b + k + 1) = List.range b ++ ([b] ++ (List.range k).map (b + 1 + ·)) := by
    have h1 : b + k + 1 = b + 1 + k := by omega
    rw [h1, List.range_add, List.range_succ, List.append_assoc]
  unfold fieldBits
  rw [hrange, List.filter_append, List.filter_append, List.filter_append, List.filter_append, hlow,
    hhigh _ fun i hi => by rw [hbit, h i (by omega), decide_eq_false (by omega)]; rfl,
    hhigh _ fun i hi => h i (by omega)]
  have hself : (w ||| 2 ^ b).testBit b = true := by
    rw [hbit, decide_eq_true rfl, Bool.or_true]
  have hno : ¬w.testBit b = true := by
    rw [h b (Nat.le_refl b)]
    exact Bool.false_ne_true
  rw [List.filter_cons_of_pos hself, List.filter_cons_of_neg hno]
  simp

/-! ## writing a record -/

/-- the fields `fs` have been written from `off` on, and announced in `w`; the memory is blank from
`pos` on, and `w` from bit `top` on -/
structure Placed (table : Nat → Field) (n off : Nat) (blank : β) (m : Nat → β) (w pos top : Nat)
    (fs : List (Nat × List β)) : Prop where
  bits : fieldBits w n = fs.map Prod.fst
  parse : parse table m (fs.map Prod.fst) off = fs
  finish : finish table (fs.map Prod.fst) off = pos
  high : ∀ i, top ≤ i → w.testBit i = false
  tail : ∀ i, pos ≤ i → m i = blank

variable {n pos top : Nat} {w : Nat} {blank : β} {fs : List (Nat × List β)} {content : List β}

/-- nothing is written yet -/
theorem Placed.nil {off : Nat} (h : ∀ i, off ≤ i → m i = blank) : Placed table n off blank m 0 off 0 [] where
  bits := List.filter_eq_nil_iff.mpr fun i _ => by rw [Nat.zero_testBit]; exact Bool.false_ne_true
  parse := rfl
  finish := rfl
  high i _ := Nat.zero_testBit i
  tail := h

/-- **One more field.** -/
theorem Placed.snoc (hpos : ∀ b, 0 < (table b).align) (h : Placed table n off blank m w pos top fs)
    (hb : b < n) (htop : top ≤ b) (hlen : content.length = (table b).size) :
    Placed table n off blank (write m (alignUp (table b).align pos) content) (w ||| 2 ^ b)
      (alignUp (table b).align pos + (table b).size) (b + 1) (fs ++ [(b, content)]) where
  bits := by
    rw [fieldBits_snoc hb fun i hi => h.high i (htop.trans hi), h.bits, List.map_append]
    rfl
  parse := by
    have hle := le_alignUp (hpos b) pos
    have hsame : ∀ i, off ≤ i → i < Layout.finish table (fs.map Prod.fst) off →
        write m (alignUp (table b).align pos) content i = m i := by
      intro i _ hi
      rw [h.finish] at hi
      exact write_of_lt (Nat.lt_of_lt_of_le hi hle)
    rw [List.map_append]
    show Layout.parse table _ (fs.map Prod.fst ++ [b]) off = _
    rw [parse_snoc, parse_congr hpos hsame, h.parse, h.finish, read_write_self hlen.symm]
  finish := by
    rw [List.map_append]
    show Layout.finish table (fs.map Prod.fst ++ [b]) off = _
    rw [finish_snoc, h.finish]
  high i hi := by
    rw [Nat.testBit_or, Nat.testBit_two_pow, h.high i (by omega), decide_eq_false (by omega)]
    rfl
  tail i hi := by
    have hle := le_alignUp (hpos b) pos
    rw [write_of_ge (by omega)]
    exact h.tail i (by omega)

theorem Placed.skip {top' : Nat} (h : Placed table n off blank m w pos top fs) (htop : top ≤ top') :
    Placed table n off blank m w pos top' fs :=
  { h with high := fun i hi => h.high i (htop.trans hi) }

end Layout
