import Rtl8192eu.Crypto.Gcm

/-!
# OMAC1

`core/crypto/aes-omac1.c`: the MAC of a vector of buffers, read byte after byte with a pointer that moves
from one to the next.

* `At`            where the pointer is, and what is left to read from there;
* `xorTurns_eq`   a part of the loop adds a piece of the text;
* `toField_gfMulx`   `gf_mulx` is the product with `x`;
* `omac1AesVector_cmac`   the MAC is that of the text without its borders.
-/

namespace Rtl8192eu

open BlockMode BinaryPoly

namespace Omac

/-- `gf_mulx` -/
def gfMulx (pad : List UInt8) : List UInt8 :=
  let shifted := (List.range 15).map fun i => pad.getD i 0 <<< 1 ||| pad.getD (i + 1) 0 >>> 7
  let low := pad.getD 15 0 <<< 1
  shifted ++ [if pad.getD 0 0 &&& 0x80 ≠ 0 then low ^^^ 0x87 else low]

/-- `pos`, in element `e` -/
structure Pos where
  e : Nat
  pos : Nat

variable (addr : List (List UInt8))

/-- `*pos`; what is not in the element is not modelled -/
def Pos.byte (p : Pos) : UInt8 := (addr.getD p.e []).getD p.pos 0

/-- `pos++`, and the next element after the end of one, if `last` does not stop it -/
def Pos.next (p : Pos) (last : Bool) : Pos :=
  if (addr.getD p.e []).length ≤ p.pos + 1 ∧ last = false then ⟨p.e + 1, 0⟩ else ⟨p.e, p.pos + 1⟩

/-- a turn of a loop over `n` bytes of a block -/
def xorTurn (n left : Nat) (s : List UInt8 × Pos) (i : Nat) : List UInt8 × Pos :=
  (s.1.set i (s.1.getD i 0 ^^^ s.2.byte addr), s.2.next addr (i + 1 = n && left = n))

def xorTurns (n left : Nat) (s : List UInt8 × Pos) : List UInt8 × Pos := (List.range n).foldl (xorTurn addr n left) s

variable (E : List UInt8 → List UInt8)

/-- the whole blocks -/
def fullLoop : Nat → Nat → List UInt8 × Pos → List UInt8 × Pos
  | 0, _, s => s
  | q + 1, left, s =>
    let s := xorTurns addr 16 left s
    fullLoop q (left - 16) (if 16 < left then E s.1 else s.1, s.2)

/-- `omac1_aes_vector`, with the cipher -/
def omac1 : List UInt8 :=
  let total := (addr.map List.length).sum
  let left := total % 16
  let s := fullLoop addr E (total / 16) total (List.replicate 16 0, ⟨0, 0⟩)
  let pad := gfMulx (E (List.replicate 16 0))
  if left ≠ 0 ∨ total = 0 then
    let cbc := (xorTurns addr left left s).1
    let cbc := cbc.set left (cbc.getD left 0 ^^^ 0x80)
    E (BlockMode.xor (gfMulx pad) cbc)
  else E (BlockMode.xor pad s.1)

end Omac

open Omac

/-- `omac1_aes_vector`; `none` is `-1` -/
def omac1AesVector (key : List UInt8) (keyLen : Nat) (addr : List (List UInt8)) : Option (List UInt8) :=
  (aesEncryptInit key keyLen).map fun ctx => omac1 addr ctx.aesEncrypt

def omac1Aes128 (key data : List UInt8) : Option (List UInt8) := omac1AesVector key 16 [data]

def omac1Aes256 (key data : List UInt8) : Option (List UInt8) := omac1AesVector key 32 [data]

namespace Omac

/-! ## what is left to read -/

variable {addr : List (List UInt8)} {p : Pos}

/-- `r` is to be read at `p` -/
structure At (addr : List (List UInt8)) (p : Pos) (r : List UInt8) : Prop where
  rest : (addr.getD p.e []).drop p.pos ++ (addr.drop (p.e + 1)).flatten = r
  lt : r ≠ [] → p.pos < (addr.getD p.e []).length

theorem at_start (hne : (∀ l ∈ addr, l ≠ []) ∨ addr.flatten = []) : At addr ⟨0, 0⟩ addr.flatten := by
  refine ⟨?_, fun hr => ?_⟩
  · cases addr <;> rfl
  · have hall := hne.resolve_right hr
    cases addr with
    | nil => exact absurd rfl hr
    | cons l addr => exact List.length_pos_iff.mpr (hall l (List.mem_cons_self ..))

theorem At.next {b : UInt8} {r : List UInt8} {last : Bool} (hne : ∀ l ∈ addr, l ≠ []) (h : At addr p (b :: r))
    (hlast : last = true → r = []) : p.byte addr = b ∧ At addr (p.next addr last) r := by
  have hlt := h.lt (List.cons_ne_nil b r)
  have hrest := h.rest
  rw [List.drop_eq_getElem_cons hlt, List.cons_append] at hrest
  obtain ⟨hb, hr⟩ := List.cons.inj hrest
  refine ⟨(List.getD_eq_getElem _ 0 hlt).trans hb, ?_⟩
  unfold Pos.next
  split
  · -- into the next element
    rename_i hend
    rw [List.drop_eq_nil_of_le hend.1, List.nil_append] at hr
    refine ⟨?_, fun hr' => ?_⟩
    · rw [← hr]
      show (addr.getD (p.e + 1) []).drop 0 ++ (addr.drop (p.e + 1 + 1)).flatten = (addr.drop (p.e + 1)).flatten
      rcases Nat.lt_or_ge (p.e + 1) addr.length with he | he
      · rw [List.drop_eq_getElem_cons he, List.flatten_cons, List.getD_eq_getElem _ _ he, List.drop_zero]
      · have he' : addr.length ≤ p.e + 1 + 1 := by omega
        rw [List.drop_eq_nil_of_le he', List.drop_eq_nil_of_le (i := p.e + 1) he, List.getD_eq_default _ _ he]
        rfl
    · rcases Nat.lt_or_ge (p.e + 1) addr.length with he | he
      · show 0 < (addr.getD (p.e + 1) []).length
        rw [List.getD_eq_getElem _ _ he]
        exact List.length_pos_iff.mpr (hne _ (List.getElem_mem he))
      · rw [List.drop_eq_nil_of_le he] at hr
        exact absurd hr.symm hr'
  · rename_i hend
    refine ⟨hr, fun hr' => ?_⟩
    have hlast' : last = false := by
      cases last with
      | true => exact absurd (hlast rfl) hr'
      | false => rfl
    show p.pos + 1 < (addr.getD p.e []).length
    exact Nat.lt_of_not_le fun hle => hend ⟨hle, hlast'⟩

/-- the first `n` bytes are added to the block -/
theorem xorTurns_eq (hne : ∀ l ∈ addr, l ≠ []) {r b : List UInt8} {n left : Nat} (hat : At addr p r)
    (hn : n ≤ r.length) (hc : n ≤ b.length) (hleft : left = n → r.length = n) :
    (xorTurns addr n left (b, p)).1 = (BlockMode.xor b r).take n ++ b.drop n
      ∧ At addr (xorTurns addr n left (b, p)).2 (r.drop n) := by
  have hrun : ∀ k ≤ n,
      ((List.range k).foldl (xorTurn addr n left) (b, p)).1 = (BlockMode.xor b r).take k ++ b.drop k
        ∧ At addr ((List.range k).foldl (xorTurn addr n left) (b, p)).2 (r.drop k) := by
    intro k hk
    induction k with
    | zero => exact ⟨rfl, hat⟩
    | succ k ih =>
      obtain ⟨h1, h2⟩ := ih (by omega)
      rw [List.range_succ, List.foldl_append]
      generalize (List.range k).foldl (xorTurn addr n left) (b, p) = s at h1 h2
      have hxor : k < (BlockMode.xor b r).length := by
        rw [length_xor]
        omega
      have htake : ((BlockMode.xor b r).take k).length = k := List.length_take_of_le (Nat.le_of_lt hxor)
      rw [List.drop_eq_getElem_cons (show k < b.length by omega)] at h1
      rw [List.drop_eq_getElem_cons (show k < r.length by omega)] at h2
      have hend : (k + 1 = n && left = n : Bool) = true → r.drop (k + 1) = [] := by
        intro hlast
        simp only [Bool.and_eq_true, decide_eq_true_eq] at hlast
        have hr := hleft hlast.2
        exact List.drop_eq_nil_of_le (by omega)
      obtain ⟨hbyte, hnext⟩ := h2.next hne hend
      refine ⟨?_, hnext⟩
      show s.1.set k (s.1.getD k 0 ^^^ s.2.byte addr) = _
      have hget : ((BlockMode.xor b r).take k ++ b[k] :: b.drop (k + 1)).getD k 0 = b[k] := by
        rw [List.getD_append_right _ _ _ _ (Nat.le_of_eq htake), htake, Nat.sub_self]
        rfl
      rw [hbyte, h1, hget, List.set_append_right _ _ (Nat.le_of_eq htake), htake, Nat.sub_self,
        List.take_add_one, List.getElem?_eq_getElem hxor, List.append_assoc]
      have hval : (BlockMode.xor b r)[k] = b[k] ^^^ r[k] := List.getElem_zipWith
      rw [hval]
      rfl
  exact hrun n (le_refl n)

/-- a whole block -/
theorem xorTurns_block (hne : ∀ l ∈ addr, l ≠ []) {r c : List UInt8} (hat : At addr p r) (hr : 16 ≤ r.length)
    (hc : c.length = 16) : (xorTurns addr 16 r.length (c, p)).1 = BlockMode.xor c (r.take 16)
      ∧ At addr (xorTurns addr 16 r.length (c, p)).2 (r.drop 16) := by
  obtain ⟨h1, h2⟩ := xorTurns_eq hne hat hr (Nat.le_of_eq hc.symm) fun h : r.length = 16 => h
  refine ⟨?_, h2⟩
  rw [h1, List.drop_of_length_le (Nat.le_of_eq hc), List.append_nil]
  unfold BlockMode.xor
  rw [List.take_zipWith, List.take_of_length_le (Nat.le_of_eq hc)]

theorem drop_blocks (r : List UInt8) (q : Nat) : (r.drop 16).drop (q * 16) = r.drop ((q + 1) * 16) := by
  rw [List.drop_drop, Nat.succ_mul, Nat.add_comm]

section
variable {E : List UInt8 → List UInt8} (hE : ∀ b, (E b).length = 16)

include hE

/-- blocks with more behind them -/
theorem fullLoop_more (hne : ∀ l ∈ addr, l ≠ []) (q : Nat) {r c : List UInt8} (hat : At addr p r)
    (hc : c.length = 16) (hq : q * 16 < r.length ∨ q = 0) :
    (fullLoop addr E q r.length (c, p)).1 = cbc E c (blocks 16 q r)
      ∧ At addr (fullLoop addr E q r.length (c, p)).2 (r.drop (q * 16)) := by
  induction q generalizing r c p with
  | zero => exact ⟨rfl, hat⟩
  | succ q ih =>
    obtain ⟨h1, h2⟩ := xorTurns_block hne hat (by omega) hc
    have hlen : (r.drop 16).length = r.length - 16 := List.length_drop
    unfold fullLoop
    dsimp only
    rw [if_pos (by omega), h1, blocks_succ, cbc_cons, ← hlen, ← drop_blocks]
    exact ih h2 (hE _) (by omega)

/-- the last block is not encrypted -/
theorem fullLoop_last (hne : ∀ l ∈ addr, l ≠ []) (q : Nat) {r c : List UInt8} (hat : At addr p r)
    (hc : c.length = 16) (hq : r.length = (q + 1) * 16) :
    (fullLoop addr E (q + 1) r.length (c, p)).1 = BlockMode.xor (cbc E c (blocks 16 q r)) (r.drop (q * 16)) := by
  induction q generalizing r c p with
  | zero =>
    have h1 := (xorTurns_block hne hat (by omega) hc).1
    rw [List.take_of_length_le (by omega)] at h1
    unfold fullLoop fullLoop
    dsimp only
    rw [if_neg (by omega), h1]
    rfl
  | succ q ih =>
    obtain ⟨h1, h2⟩ := xorTurns_block hne hat (by omega) hc
    have hlen : (r.drop 16).length = r.length - 16 := List.length_drop
    rw [fullLoop, if_pos (by omega), h1, blocks_succ, cbc_cons, ← hlen, ← drop_blocks]
    exact ih h2 (hE _) (by omega)

end

theorem length_gfMulx (b : List UInt8) : (gfMulx b).length = 16 := rfl

/-- the last turns, the one bit and the pad -/
theorem lastBlock_pad (k1 k2 : List UInt8) {x l : List UInt8} (hx : x.length = 16) (hl : l.length < 16) :
    let cbc := (BlockMode.xor x l).take l.length ++ x.drop l.length
    BlockMode.xor k2 (cbc.set l.length (cbc.getD l.length 0 ^^^ 0x80)) = BlockMode.xor x (lastBlock 16 k1 k2 l) := by
  have hxl : (BlockMode.xor x l).length = l.length := by
    rw [length_xor]
    omega
  have hlt : l.length < x.length := by omega
  have hget : (BlockMode.xor x l ++ x[l.length] :: x.drop (l.length + 1)).getD l.length 0 = x[l.length] := by
    rw [List.getD_append_right _ _ _ _ (Nat.le_of_eq hxl), hxl, Nat.sub_self]
    rfl
  have hone : l ++ 0x80 :: List.replicate (16 - 1 - l.length) 0 = l ++ [0x80] ++ List.replicate (16 - 1 - l.length) 0 := by
    rw [List.append_assoc]
    rfl
  have hlen : (l ++ [(0x80 : UInt8)]).length = l.length + 1 := List.length_append
  unfold lastBlock
  dsimp only
  rw [if_neg (by omega), ← BlockMode.xor_assoc, BlockMode.xor_comm (a := k2), hone, xor_append_zeros (by omega), xor_concat _ hlt,
    List.take_of_length_le (Nat.le_of_eq hxl), List.drop_eq_getElem_cons hlt, hget,
    List.set_append_right _ _ (Nat.le_of_eq hxl), hxl, Nat.sub_self, List.append_assoc, hlen]
  rfl

/-- the text's borders do not matter -/
theorem omac1_cmac {E : List UInt8 → List UInt8} (hE : ∀ b, (E b).length = 16)
    (hne : (∀ l ∈ addr, l ≠ []) ∨ addr.flatten = []) :
    omac1 addr E = cmac 16 gfMulx E addr.flatten := by
  have hat := at_start hne
  have h0 : (List.replicate 16 (0 : UInt8)).length = 16 := rfl
  unfold omac1 cmac
  dsimp only
  rw [← List.length_flatten, cbc_append]
  generalize addr.flatten = r at hat hne
  by_cases hr : r = []
  · subst hr
    exact congrArg E (lastBlock_pad _ _ (l := []) h0 (Nat.zero_lt_succ 15))
  · have hall := hne.resolve_right hr
    have hpos : 0 < r.length := List.length_pos_iff.mpr hr
    by_cases hleft : r.length % 16 = 0
    · -- the last block is whole
      obtain ⟨q, hq⟩ : ∃ q, r.length / 16 = q + 1 := ⟨r.length / 16 - 1, by omega⟩
      have hfull : fullBlocks 16 r.length = q := by
        unfold fullBlocks
        omega
      have hlast : (r.drop (q * 16)).length = 16 := by
        rw [List.length_drop]
        omega
      rw [if_neg (by omega), hq, hfull, fullLoop_last hE hall q hat h0 (by omega)]
      unfold lastBlock
      rw [if_pos hlast, BlockMode.xor_comm, BlockMode.xor_assoc]
      rfl
    · have hfull : fullBlocks 16 r.length = r.length / 16 := by
        unfold fullBlocks
        omega
      obtain ⟨h1, h2⟩ := fullLoop_more hE hall (r.length / 16) hat h0 (by omega)
      have hlen : (r.drop (r.length / 16 * 16)).length = r.length % 16 := by
        rw [List.length_drop]
        omega
      have hcbc := length_cbc hE (blocks 16 (r.length / 16) r) _ h0
      rw [if_pos (Or.inl hleft), hfull]
      generalize fullLoop addr E (r.length / 16) r.length (List.replicate 16 0, ⟨0, 0⟩) = s at h1 h2
      obtain ⟨c, p⟩ := s
      dsimp only at h1 h2
      rw [← h1] at hcbc ⊢
      have hturns := (xorTurns_eq hall h2 (Nat.le_of_eq hlen.symm)
        (show r.length % 16 ≤ c.length by omega) fun _ : r.length % 16 = r.length % 16 => hlen).1
      rw [← hlen] at hturns ⊢
      rw [hturns]
      exact congrArg E (lastBlock_pad _ _ hcbc (by omega))

/-! ## the pads -/

open Gcm

/-- the element of a block whose first bit is the highest -/
noncomputable def toFieldMsb (b : List UInt8) : AdjoinRoot gcmPoly := ofBits gcmPoly 128 fun j => blockBit b (127 - j)

theorem toFieldMsb_inj {a b : List UInt8} (ha : a.length = 16) (hb : b.length = 16) :
    toFieldMsb a = toFieldMsb b ↔ a = b := by
  unfold toFieldMsb
  rw [ofBits_inj gcmPoly_monic gcmPoly_natDegree]
  constructor
  · intro h
    refine block_ext (ha.trans hb.symm) fun k hk => ?_
    have hbit := h (127 - k) (by omega)
    rwa [show 127 - (127 - k) = k by omega] at hbit
  · rintro rfl _ _
    rfl

/-- the shift without the carry -/
def shiftLeft (b : List UInt8) : List UInt8 := (List.range 16).map fun i => b.getD i 0 <<< 1 ||| b.getD (i + 1) 0 >>> 7

theorem length_shiftLeft (b : List UInt8) : (shiftLeft b).length = 16 := by
  rw [shiftLeft, List.length_map, List.length_range]

theorem bit_shiftLeft (a c : UInt8) {n : Nat} (hn : n < 8) : (a <<< 1 ||| c >>> 7).toBitVec.getLsbD n
    = if n = 0 then c.toBitVec.getLsbD 7 else a.toBitVec.getLsbD (n - 1) := by
  interval_cases n <;> simp

theorem blockBit_shiftLeft {b : List UInt8} (hb : b.length = 16) {k : Nat} (hk : k < 128) :
    blockBit (shiftLeft b) k = (decide (k < 127) && blockBit b (k + 1)) := by
  have hbyte : (shiftLeft b).getD (k / 8) 0 = b.getD (k / 8) 0 <<< 1 ||| b.getD (k / 8 + 1) 0 >>> 7 := by
    unfold shiftLeft
    have hlt : k / 8 < ((List.range 16).map fun i => b.getD i 0 <<< 1 ||| b.getD (i + 1) 0 >>> 7).length := by
      rw [List.length_map, List.length_range]
      omega
    rw [List.getD_eq_getElem _ _ hlt, List.getElem_map, List.getElem_range]
  show ((shiftLeft b).getD (k / 8) 0).toBitVec.getLsbD (7 - k % 8) = _
  rw [hbyte, bit_shiftLeft _ _ (by omega)]
  by_cases h7 : 7 - k % 8 = 0
  · have hdiv : (k + 1) / 8 = k / 8 + 1 := by omega
    have hmod : 7 - (k + 1) % 8 = 7 := by omega
    rw [if_pos h7]
    unfold blockBit
    rw [hdiv, hmod]
    rcases Nat.lt_or_ge k 127 with h | h
    · rw [decide_eq_true h, Bool.true_and]
    · rw [List.getD_eq_default _ _ (by omega), decide_eq_false (by omega), Bool.false_and]
      rfl
  · have hdiv : (k + 1) / 8 = k / 8 := by omega
    have hmod : 7 - (k + 1) % 8 = 7 - k % 8 - 1 := by omega
    rw [if_neg h7, decide_eq_true (by omega), Bool.true_and]
    unfold blockBit
    rw [hdiv, hmod]

theorem gfMulx_eq {b : List UInt8} (hb : b.length = 16) : gfMulx b
    = if blockBit b 0 = true then BlockMode.xor (shiftLeft b) (List.replicate 15 0 ++ [0x87]) else shiftLeft b := by
  have hcarry : b.getD 0 0 &&& 0x80 ≠ 0 ↔ blockBit b 0 = true := bit_iff (n := 7) (by omega) (b.getD 0 0)
  have hsplit : shiftLeft b
      = ((List.range 15).map fun i => b.getD i 0 <<< 1 ||| b.getD (i + 1) 0 >>> 7) ++ [b.getD 15 0 <<< 1] := by
    unfold shiftLeft
    rw [List.range_succ (n := 15), List.map_append, List.map_singleton, List.getD_eq_default b 0 (n := 16) (by omega)]
    congr 2
    exact UInt8.or_zero
  unfold gfMulx
  dsimp only
  rw [hsplit]
  by_cases hc : blockBit b 0 = true
  · rw [if_pos (hcarry.mpr hc), if_pos hc]
    unfold BlockMode.xor
    rw [List.zipWith_append (by rw [List.length_map, List.length_range, List.length_replicate])]
    have hzeros := zeros_xor (l := (List.range 15).map fun i => b.getD i 0 <<< 1 ||| b.getD (i + 1) 0 >>> 7) (n := 15)
      (by rw [List.length_map, List.length_range])
    rw [BlockMode.xor_comm] at hzeros
    unfold BlockMode.xor at hzeros
    rw [hzeros]
    rfl
  · rw [if_neg fun h => hc (hcarry.mp h), if_neg hc]

theorem toFieldMsb_xor {a b : List UInt8} (h : a.length = b.length) :
    toFieldMsb (BlockMode.xor a b) = toFieldMsb a + toFieldMsb b := by
  unfold toFieldMsb
  rw [← ofBits_xor]
  exact ofBits_congr fun j _ => blockBit_xor h (127 - j)

/-- `gf_mulx` is the product with `x` -/
theorem toField_gfMulx {b : List UInt8} (hb : b.length = 16) :
    toFieldMsb (gfMulx b) = AdjoinRoot.root gcmPoly * toFieldMsb b := by
  have hlow : toFieldMsb (List.replicate 15 0 ++ [0x87]) = AdjoinRoot.root gcmPoly ^ 128 := by
    have hbit : ∀ j < 128, blockBit (List.replicate 15 0 ++ [0x87]) (127 - j)
        = decide (j ∈ ({0, 1, 2, 7} : Finset Nat)) := by decide
    unfold toFieldMsb
    rw [ofBits_congr hbit, ofBits_mem (by decide), root_pow_128]
    simp [Finset.sum_insert]
    ring
  have hshift : toFieldMsb (shiftLeft b)
      = ofBits gcmPoly 128 fun j => decide (0 < j) && blockBit b (127 - (j - 1)) := by
    refine ofBits_congr fun j hj => ?_
    rw [blockBit_shiftLeft hb (by omega)]
    cases j with
    | zero => rfl
    | succ j =>
      rw [decide_eq_true (show 127 - (j + 1) < 127 by omega), decide_eq_true (Nat.succ_pos j), Bool.true_and,
        Bool.true_and, show 127 - (j + 1) + 1 = 127 - (j + 1 - 1) by omega]
  have hsucc := ofBits_shift (p := gcmPoly) (n := 128) (f := fun j => blockBit b (127 - j))
  rw [← hshift] at hsucc
  show _ = AdjoinRoot.root gcmPoly * ofBits gcmPoly 128 fun j => blockBit b (127 - j)
  rw [gfMulx_eq hb, ← hsucc]
  by_cases hc : blockBit b 0 = true
  · rw [if_pos hc, if_pos ⟨by omega, hc⟩, toFieldMsb_xor (length_shiftLeft b), hlow]
  · rw [if_neg hc, if_neg fun h => hc h.2, add_zero]

theorem gfMulx_unique {dbl : List UInt8 → List UInt8} (hlen : ∀ b, b.length = 16 → (dbl b).length = 16)
    (hval : ∀ b, b.length = 16 → toFieldMsb (dbl b) = AdjoinRoot.root gcmPoly * toFieldMsb b) {b : List UInt8}
    (hb : b.length = 16) : gfMulx b = dbl b := by
  rw [← toFieldMsb_inj (length_gfMulx b) (hlen b hb), toField_gfMulx hb, hval b hb]

end Omac

/-- **The MAC of a vector** is CMAC of the text, wherever the borders of its elements are, if none is empty.
The keys for the last block are products with `x` in the field of 2^128 elements, whatever computes these. -/
theorem omac1AesVector_cmac (key : List UInt8) (keyLen : Nat) {addr : List (List UInt8)}
    {dbl : List UInt8 → List UInt8} (hne : (∀ l ∈ addr, l ≠ []) ∨ addr.flatten = [])
    (hlen : ∀ b, b.length = 16 → (dbl b).length = 16)
    (hval : ∀ b, b.length = 16 → toFieldMsb (dbl b) = AdjoinRoot.root Gcm.gcmPoly * toFieldMsb b) :
    omac1AesVector key keyLen addr
      = (aesEncryptInit key keyLen).map fun ctx => cmac 16 dbl ctx.aesEncrypt addr.flatten := by
  unfold omac1AesVector
  congr 1
  funext ctx
  have hE := ctx.length_aesEncrypt
  have h1 := gfMulx_unique hlen hval (hE (List.replicate 16 0))
  have h2 := gfMulx_unique hlen hval (hlen _ (hE (List.replicate 16 0)))
  rw [omac1_cmac hE hne]
  unfold cmac
  dsimp only
  rw [h1, h2]

theorem omac1AesVector_cmac_pieces : omac1AesVector (List.replicate 16 0) 16 [[1, 2, 3], [4]]
    = (aesEncryptInit (List.replicate 16 0) 16).map fun ctx => cmac 16 gfMulx ctx.aesEncrypt [1, 2, 3, 4] :=
  omac1AesVector_cmac _ 16 (Or.inl (by decide)) (fun b _ => length_gfMulx b) fun _ => toField_gfMulx

end Rtl8192eu
