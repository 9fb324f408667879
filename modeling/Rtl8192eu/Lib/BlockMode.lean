import Mathlib.Data.List.GetD

/-!
# Modes of a block cipher over byte strings

What is encrypted is added to a stream of blocks, what is authenticated is chained through the cipher.

* `xor`          two strings, as far as both go;
* `stream`       whole blocks and a part of one, each added to the block of a state that moves on;
* `stream_stream`   twice is nothing;
* `chain`        the cipher after each block that is added, the last filled up with zeros;
* `chain_eq`     as a fold over the blocks of the filled string;
* `filled_inj`   which are those of no other string of its length;
* `cmac`         a MAC with two keys for the last block.
-/

namespace BlockMode

/-! ## addition -/

def xor (a b : List UInt8) : List UInt8 := List.zipWith (· ^^^ ·) a b

section
variable {a b c : List UInt8}

theorem length_xor : (xor a b).length = min a.length b.length := List.length_zipWith

theorem length_xor_of_le (h : a.length ≤ b.length) : (xor a b).length = a.length := by
  rw [length_xor, Nat.min_eq_left h]

theorem nil_xor : xor [] b = [] := rfl

theorem xor_xor (h : a.length ≤ b.length) : xor (xor a b) b = a := by
  apply List.ext_getElem
  · rw [length_xor, length_xor]
    omega
  · intro i hi _
    simp only [xor] at hi ⊢
    rw [List.getElem_zipWith, List.getElem_zipWith, UInt8.xor_assoc, UInt8.xor_self, UInt8.xor_zero]

theorem xor_comm : xor a b = xor b a := by
  unfold xor
  rw [List.zipWith_comm]
  simp only [UInt8.xor_comm]

theorem xor_assoc : xor (xor a b) c = xor a (xor b c) := by
  apply List.ext_getElem
  · simp only [length_xor, Nat.min_assoc]
  · intro i _ _
    simp only [xor, List.getElem_zipWith, UInt8.xor_assoc]

/-- an addition on the other side -/
theorem xor_eq_iff (ha : a.length ≤ c.length) (hb : b.length ≤ c.length) : xor a c = b ↔ a = xor b c := by
  constructor
  · rintro rfl
    exact (xor_xor ha).symm
  · rintro rfl
    exact xor_xor hb

end

/-! ## a stream -/

section
variable {σ : Type*} (d : Nat) (out : σ → List UInt8) (next : σ → σ)

/-- `n` whole blocks, and what is left -/
def stream : Nat → σ → List UInt8 → List UInt8
  | 0, s, l => xor l (out s)
  | n + 1, s, l => xor (l.take d) (out s) ++ stream n (next s) (l.drop d)

variable {d} {out} {next}

theorem stream_succ (n : Nat) (s : σ) (l : List UInt8) : stream d out next (n + 1) s l
    = xor (l.take d) (out s) ++ stream d out next n (next s) (l.drop d) := rfl

theorem length_stream (hout : ∀ s, (out s).length = d) (n : Nat) (s : σ) (l : List UInt8)
    (h : l.length ≤ (n + 1) * d) : (stream d out next n s l).length = l.length := by
  induction n generalizing s l with
  | zero =>
    unfold stream
    rw [length_xor_of_le (by rw [hout]; omega)]
  | succ n ih =>
    have hmul : (n + 1 + 1) * d = (n + 1) * d + d := Nat.succ_mul (n + 1) d
    rw [stream_succ, List.length_append, ih, length_xor, hout, List.length_take, List.length_drop]
    · omega
    · rw [List.length_drop]
      omega

/-- `n` is how many whole blocks there are -/
theorem stream_stream (hout : ∀ s, (out s).length = d) (n : Nat) (s : σ) (l : List UInt8)
    (hn : n * d ≤ l.length) (h : l.length ≤ (n + 1) * d) :
    stream d out next n s (stream d out next n s l) = l := by
  induction n generalizing s l with
  | zero =>
    unfold stream
    exact xor_xor (by rw [hout]; omega)
  | succ n ih =>
    have hmul : (n + 1 + 1) * d = (n + 1) * d + d := Nat.succ_mul (n + 1) d
    have hmul' : (n + 1) * d = n * d + d := Nat.succ_mul n d
    have hfirst : (xor (l.take d) (out s)).length = d := by
      rw [length_xor, hout, List.length_take]
      omega
    rw [stream_succ, stream_succ, List.take_left' hfirst, List.drop_left' hfirst, xor_xor, ih, List.take_append_drop]
    · rw [List.length_drop]
      omega
    · rw [List.length_drop]
      omega
    · rw [hout, List.length_take]
      omega

end

/-! ## a chain -/

section
variable (d : Nat) (E : List UInt8 → List UInt8)

/-- `n` whole blocks and what is left; the rest of the last block stays as it is -/
def chain : Nat → List UInt8 → List UInt8 → List UInt8
  | 0, x, l => if l = [] then x else E (xor x l ++ x.drop l.length)
  | n + 1, x, l => chain n (E (xor x (l.take d))) (l.drop d)

/-- the chain over blocks -/
def cbc (x : List UInt8) (bs : List (List UInt8)) : List UInt8 := bs.foldl (fun x b => E (xor x b)) x

/-- the first `n` blocks -/
def blocks : Nat → List UInt8 → List (List UInt8)
  | 0, _ => []
  | n + 1, l => l.take d :: blocks n (l.drop d)

/-- how many blocks a string takes -/
def numBlocks (len : Nat) : Nat := (len + (d - 1)) / d

/-- up to the end of its last block -/
def fill (l : List UInt8) : List UInt8 := l ++ List.replicate (numBlocks d l.length * d - l.length) 0

variable {d} {E}

theorem chain_succ (n : Nat) (x l : List UInt8) :
    chain d E (n + 1) x l = chain d E n (E (xor x (l.take d))) (l.drop d) := rfl

theorem blocks_succ (n : Nat) (l : List UInt8) : blocks d (n + 1) l = l.take d :: blocks d n (l.drop d) := rfl

theorem cbc_cons (x b : List UInt8) (bs : List (List UInt8)) : cbc E x (b :: bs) = cbc E (E (xor x b)) bs := rfl

theorem cbc_append (x : List UInt8) (bs cs : List (List UInt8)) :
    cbc E x (bs ++ cs) = cbc E (cbc E x bs) cs := List.foldl_append

theorem length_cbc (hE : ∀ b, (E b).length = d) (bs : List (List UInt8)) (x : List UInt8)
    (hx : x.length = d) : (cbc E x bs).length = d := by
  induction bs generalizing x with
  | nil => exact hx
  | cons b bs ih => exact ih _ (hE _)

theorem flatten_blocks (n : Nat) (l : List UInt8) (h : l.length ≤ n * d) :
    (blocks d n l).flatten = l := by
  induction n generalizing l with
  | zero => exact (List.eq_nil_of_length_eq_zero (by omega)).symm
  | succ n ih =>
    have hmul : (n + 1) * d = n * d + d := Nat.succ_mul n d
    rw [blocks_succ, List.flatten_cons, ih, List.take_append_drop]
    rw [List.length_drop]
    omega

theorem zeros_xor {l : List UInt8} {n : Nat} (h : l.length = n) : xor (List.replicate n 0) l = l := by
  apply List.ext_getElem
  · rw [length_xor, List.length_replicate, h, Nat.min_self]
  · intro i _ _
    simp [xor]

/-- one byte more -/
theorem xor_concat {x l : List UInt8} (b : UInt8) (h : l.length < x.length) :
    xor x (l ++ [b]) = xor x l ++ [x[l.length] ^^^ b] := by
  induction l generalizing x with
  | nil =>
    cases x with
    | nil => cases h
    | cons a x => exact congrArg (fun t => (a ^^^ b) :: t) List.zipWith_nil_right
  | cons c l ih =>
    cases x with
    | nil => cases h
    | cons a x =>
      exact congrArg (fun t => (a ^^^ c) :: t) (ih (Nat.lt_of_succ_lt_succ h))

/-- zeros add nothing -/
theorem xor_append_zeros {x l : List UInt8} {n : Nat} (h : x.length = l.length + n) :
    xor x (l ++ List.replicate n 0) = xor x l ++ x.drop l.length := by
  induction l generalizing x with
  | nil =>
    have hx : n = x.length := by simpa using h.symm
    subst hx
    apply List.ext_getElem
    · simp [xor]
    · intro i hi _
      simp [xor]
  | cons b l ih =>
    cases x with
    | nil =>
      rw [List.length_cons, List.length_nil] at h
      omega
    | cons a x =>
      have hx : x.length = l.length + n := by
        simp only [List.length_cons] at h
        omega
      show (a ^^^ b) :: xor x (l ++ List.replicate n 0) = (a ^^^ b) :: (xor x l ++ x.drop l.length)
      rw [ih hx]

theorem length_chain (hE : ∀ b, (E b).length = d) (n : Nat) (x l : List UInt8) (hx : x.length = d) :
    (chain d E n x l).length = d := by
  induction n generalizing x l with
  | zero =>
    unfold chain
    split
    · exact hx
    · exact hE _
  | succ n ih => exact ih _ _ (hE _)

theorem numBlocks_of_lt (hd : 0 < d) {len : Nat} (h : len < d) : numBlocks d len = if len = 0 then 0 else 1 := by
  unfold numBlocks
  split
  · exact Nat.div_eq_of_lt (by omega)
  · rw [Nat.div_eq_iff hd]
    omega

theorem numBlocks_add (hd : 0 < d) (len : Nat) : numBlocks d (len + d) = numBlocks d len + 1 := by
  unfold numBlocks
  rw [Nat.add_right_comm, Nat.add_div_right _ hd]

theorem fill_of_blocks {l : List UInt8} {k : Nat} (h : numBlocks d l.length = k) :
    fill d l = l ++ List.replicate (k * d - l.length) 0 := by
  unfold fill
  rw [h]

/-- the chain is that over the blocks of the filled string -/
theorem chain_eq (hd : 0 < d) (hE : ∀ b, (E b).length = d) (x l : List UInt8) (hx : x.length = d) :
    chain d E (l.length / d) x l = cbc E x (blocks d (numBlocks d l.length) (fill d l)) := by
  generalize hn : l.length / d = n
  induction n generalizing x l with
  | zero =>
    have hlt : l.length < d := by
      rcases Nat.div_eq_zero_iff.mp hn with h | h
      · omega
      · exact h
    unfold chain fill
    rw [numBlocks_of_lt hd hlt]
    by_cases hl : l = []
    · subst hl
      rfl
    · have hpos : l.length ≠ 0 := fun h => hl (List.eq_nil_of_length_eq_zero h)
      rw [if_neg hl, if_neg hpos, Nat.one_mul, blocks_succ, cbc_cons,
        List.take_of_length_le (by rw [List.length_append, List.length_replicate]; omega),
        xor_append_zeros (by omega)]
      rfl
  | succ n ih =>
    have hge : d ≤ l.length := Nat.le_of_not_lt fun hlt => by
      rw [Nat.div_eq_of_lt hlt] at hn
      cases hn
    have hrest : (l.drop d).length / d = n := by
      have hdiv := Nat.add_div_right (l.length - d) hd
      rw [Nat.sub_add_cancel hge, hn] at hdiv
      rw [List.length_drop]
      omega
    have hnum : numBlocks d l.length = numBlocks d (l.drop d).length + 1 := by
      rw [← numBlocks_add hd, List.length_drop, Nat.sub_add_cancel hge]
    have hfill : fill d l = l.take d ++ fill d (l.drop d) := by
      unfold fill
      rw [hnum, ← List.append_assoc, List.take_append_drop, List.length_drop, Nat.succ_mul]
      congr 2
      omega
    rw [chain_succ, ih _ _ (hE _) hrest, hnum, blocks_succ, hfill,
      List.take_left' (List.length_take_of_le hge), List.drop_left' (List.length_take_of_le hge), cbc_cons]

/-! ## filled blocks -/

theorem length_blocks (n : Nat) (l : List UInt8) : (blocks d n l).length = n := by
  induction n generalizing l with
  | zero => rfl
  | succ n ih => rw [blocks_succ, List.length_cons, ih]

theorem length_mem_blocks {l b : List UInt8} {n : Nat} (hl : l.length = n * d) (hb : b ∈ blocks d n l) :
    b.length = d := by
  induction n generalizing l with
  | zero => cases hb
  | succ n ih =>
    have hmul : (n + 1) * d = n * d + d := Nat.succ_mul n d
    rcases List.mem_cons.mp hb with rfl | hb
    · rw [List.length_take]
      omega
    · refine ih ?_ hb
      rw [List.length_drop]
      omega

theorem length_fill (hd : 0 < d) (l : List UInt8) : (fill d l).length = numBlocks d l.length * d := by
  have hle : l.length ≤ numBlocks d l.length * d := by
    unfold numBlocks
    have hdiv := Nat.div_add_mod (l.length + (d - 1)) d
    have hmod := Nat.mod_lt (l.length + (d - 1)) hd
    rw [Nat.mul_comm] at hdiv
    omega
  unfold fill
  rw [List.length_append, List.length_replicate]
  omega

/-- a string as blocks -/
def filled (d : Nat) (l : List UInt8) : List (List UInt8) := blocks d (numBlocks d l.length) (fill d l)

theorem length_filled (l : List UInt8) : (filled d l).length = numBlocks d l.length := length_blocks _ _

theorem length_mem_filled (hd : 0 < d) {l b : List UInt8} (hb : b ∈ filled d l) : b.length = d :=
  length_mem_blocks (length_fill hd l) hb

theorem flatten_filled (hd : 0 < d) (l : List UInt8) : (filled d l).flatten = fill d l :=
  flatten_blocks _ _ (Nat.le_of_eq (length_fill hd l))

theorem filled_inj (hd : 0 < d) {l l' : List UInt8} (hlen : l.length = l'.length) (h : filled d l = filled d l') :
    l = l' := by
  have hfill : fill d l = fill d l' := by rw [← flatten_filled hd, ← flatten_filled hd, h]
  unfold fill at hfill
  exact (List.append_inj hfill hlen).1

/-! ## a MAC -/

/-- how many blocks are before the last one -/
def fullBlocks (d len : Nat) : Nat := (len - 1) / d

/-- the last block: a whole one with the first key added, another with a one bit, zeros and the second key -/
def lastBlock (d : Nat) (k1 k2 l : List UInt8) : List UInt8 :=
  if l.length = d then xor l k1 else xor (l ++ 0x80 :: List.replicate (d - 1 - l.length) 0) k2

/-- CMAC with the doubling `dbl` -/
def cmac (d : Nat) (dbl E : List UInt8 → List UInt8) (m : List UInt8) : List UInt8 :=
  let k1 := dbl (E (List.replicate d 0))
  let n := fullBlocks d m.length
  cbc E (List.replicate d 0) (blocks d n m ++ [lastBlock d k1 (dbl k1) (m.drop (n * d))])

end

end BlockMode
