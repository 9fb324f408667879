/-!
# The Rijndael cipher

Encryption of a block of 16 bytes with a key of 4, 6 or 8 words, as the cipher is defined: bytes are the
elements of the field with 256 of them, a word is a column of four bytes and the state has four columns.

* `mul`, `inv`   the field, modulo `x^8 + x^4 + x^3 + x + 1` (`mul_inv`);
* `sbox`         the inverse and an affine map;
* `keyWord`      the expanded key, a word at a time;
* `rounds`, `cipher`   the state after some rounds, and after the last.
-/

namespace Rijndael

/-! ## bytes -/

/-- times `x`, the bits of a number as the coefficients of a polynomial -/
def xtimeNat (a : Nat) : Nat := bif Nat.ble 128 a then Nat.xor (2 * a) 0x11b else 2 * a

/-- one power of the second factor -/
def mulTurn (a b i p : Nat) : Nat := bif b.testBit i then Nat.xor (xtimeNat p) a else xtimeNat p

/-- the product, from the highest power of the second factor down -/
def mulNat (a b : Nat) : Nat :=
  mulTurn a b 0 (mulTurn a b 1 (mulTurn a b 2 (mulTurn a b 3
    (mulTurn a b 4 (mulTurn a b 5 (mulTurn a b 6 (mulTurn a b 7 0)))))))

/-- `a^254` -/
def invNat (a : Nat) : Nat :=
  let a2 := mulNat a a
  let a3 := mulNat a2 a
  let a6 := mulNat a3 a3
  let a12 := mulNat a6 a6
  let a15 := mulNat a12 a3
  let a30 := mulNat a15 a15
  let a60 := mulNat a30 a30
  let a120 := mulNat a60 a60
  let a240 := mulNat a120 a120
  mulNat (mulNat a240 a12) a2

def xtime (a : UInt8) : UInt8 := .ofNat (xtimeNat a.toNat)

def mul (a b : UInt8) : UInt8 := .ofNat (mulNat a.toNat b.toNat)

def inv (a : UInt8) : UInt8 := .ofNat (invNat a.toNat)

def rotl (a : UInt8) (n : UInt8) : UInt8 := a <<< n ||| a >>> (8 - n)

def affine (b : UInt8) : UInt8 := b ^^^ rotl b 1 ^^^ rotl b 2 ^^^ rotl b 3 ^^^ rotl b 4 ^^^ 0x63

def sbox (a : UInt8) : UInt8 := affine (inv a)

theorem forall_uint8 {p : UInt8 → Prop} (h : ∀ n < 256, p (UInt8.ofNat n)) (a : UInt8) : p a := by
  have := h a.toNat a.toNat_lt
  rwa [UInt8.ofNat_toNat] at this

theorem mul_inv {a : UInt8} (h : a ≠ 0) : mul a (inv a) = 1 := by
  revert h
  exact forall_uint8 (p := fun a => a ≠ 0 → mul a (inv a) = 1) (by decide +kernel) a

theorem mul_two (a : UInt8) : mul a 2 = xtime a :=
  forall_uint8 (p := fun a => mul a 2 = xtime a) (by decide +kernel) a

theorem mul_three (a : UInt8) : mul a 3 = xtime a ^^^ a :=
  forall_uint8 (p := fun a => mul a 3 = xtime a ^^^ a) (by decide +kernel) a

/-! ## words and states -/

structure Word where
  b0 : UInt8
  b1 : UInt8
  b2 : UInt8
  b3 : UInt8
  deriving DecidableEq, Repr

instance : XorOp Word := ⟨fun a b => ⟨a.b0 ^^^ b.b0, a.b1 ^^^ b.b1, a.b2 ^^^ b.b2, a.b3 ^^^ b.b3⟩⟩

theorem Word.xor_def (a b : Word) : a ^^^ b = ⟨a.b0 ^^^ b.b0, a.b1 ^^^ b.b1, a.b2 ^^^ b.b2, a.b3 ^^^ b.b3⟩ := rfl

theorem Word.xor_comm (a b : Word) : a ^^^ b = b ^^^ a := by
  simp only [Word.xor_def, UInt8.xor_comm]

def Word.sub (w : Word) : Word := ⟨sbox w.b0, sbox w.b1, sbox w.b2, sbox w.b3⟩

def Word.rot (w : Word) : Word := ⟨w.b1, w.b2, w.b3, w.b0⟩

/-- a column times the circulant matrix of 2, 3, 1, 1 -/
def Word.mix (w : Word) : Word where
  b0 := mul w.b0 2 ^^^ mul w.b1 3 ^^^ w.b2 ^^^ w.b3
  b1 := w.b0 ^^^ mul w.b1 2 ^^^ mul w.b2 3 ^^^ w.b3
  b2 := w.b0 ^^^ w.b1 ^^^ mul w.b2 2 ^^^ mul w.b3 3
  b3 := mul w.b0 3 ^^^ w.b1 ^^^ w.b2 ^^^ mul w.b3 2

structure State where
  c0 : Word
  c1 : Word
  c2 : Word
  c3 : Word
  deriving DecidableEq, Repr

def State.subBytes (s : State) : State := ⟨s.c0.sub, s.c1.sub, s.c2.sub, s.c3.sub⟩

/-- row `r` is turned by `r` places -/
def State.shiftRows (s : State) : State where
  c0 := ⟨s.c0.b0, s.c1.b1, s.c2.b2, s.c3.b3⟩
  c1 := ⟨s.c1.b0, s.c2.b1, s.c3.b2, s.c0.b3⟩
  c2 := ⟨s.c2.b0, s.c3.b1, s.c0.b2, s.c1.b3⟩
  c3 := ⟨s.c3.b0, s.c0.b1, s.c1.b2, s.c2.b3⟩

def State.mixColumns (s : State) : State := ⟨s.c0.mix, s.c1.mix, s.c2.mix, s.c3.mix⟩

/-- the four words of round `r` -/
def State.addRoundKey (w : Nat → Word) (r : Nat) (s : State) : State :=
  ⟨s.c0 ^^^ w (4 * r), s.c1 ^^^ w (4 * r + 1), s.c2 ^^^ w (4 * r + 2), s.c3 ^^^ w (4 * r + 3)⟩

/-- byte `i` is in row `i % 4` of column `i / 4` -/
def State.ofBytes (l : List UInt8) : State :=
  let col i := ⟨l.getD i 0, l.getD (i + 1) 0, l.getD (i + 2) 0, l.getD (i + 3) 0⟩
  ⟨col 0, col 4, col 8, col 12⟩

def Word.bytes (w : Word) : List UInt8 := [w.b0, w.b1, w.b2, w.b3]

def State.bytes (s : State) : List UInt8 := s.c0.bytes ++ s.c1.bytes ++ s.c2.bytes ++ s.c3.bytes

theorem State.length_bytes (s : State) : s.bytes.length = 16 := rfl

/-! ## the key -/

/-- `x^(j - 1)` -/
def rcon (j : Nat) : Word := ⟨(List.range (j - 1)).foldl (fun a _ => xtime a) 1, 0, 0, 0⟩

/-- what is added to the word `nk` places back -/
def keyTemp (nk i : Nat) (prev : Word) : Word :=
  if i % nk = 0 then prev.rot.sub ^^^ rcon (i / nk)
  else if 6 < nk ∧ i % nk = 4 then prev.sub
  else prev

/-- the expanded key of the `nk` words of `key` -/
def keyWord (nk : Nat) (key : Nat → Word) (i : Nat) : Word :=
  if i < nk ∨ nk = 0 then key i
  else keyWord nk key (i - nk) ^^^ keyTemp nk i (keyWord nk key (i - 1))
termination_by i
decreasing_by all_goals omega

section
variable {nk : Nat} {key : Nat → Word} {i : Nat}

theorem keyWord_lt (h : i < nk) : keyWord nk key i = key i := by
  rw [keyWord, if_pos (Or.inl h)]

theorem keyWord_add (h0 : 0 < nk) :
    keyWord nk key (i + nk) = keyWord nk key i ^^^ keyTemp nk (i + nk) (keyWord nk key (i + nk - 1)) := by
  rw [keyWord, if_neg (by omega), Nat.add_sub_cancel]

end

/-! ## the cipher -/

/-- the state after `n` full rounds -/
def rounds (w : Nat → Word) (s : State) : Nat → State
  | 0 => s.addRoundKey w 0
  | n + 1 => (rounds w s n).subBytes.shiftRows.mixColumns.addRoundKey w (n + 1)

/-- `nr` rounds, of which the last does not mix -/
def cipher (nr : Nat) (w : Nat → Word) (s : State) : State :=
  (rounds w s (nr - 1)).subBytes.shiftRows.addRoundKey w nr

/-- the rounds of a key of `nk` words -/
def numRounds (nk : Nat) : Nat := nk + 6

end Rijndael
