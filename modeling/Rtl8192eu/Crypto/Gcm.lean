import Rtl8192eu.Crypto.AesInternal
import Rtl8192eu.Crypto.Wrap
import Rtl8192eu.Lib.BinaryPoly
import Rtl8192eu.Lib.BlockMode

/-!
# GCM

`core/crypto/aes-gcm.c`: a counter for the text, and a hash that multiplies in the field with 2^128
elements.

* `gfMult`   the product, bit after bit (`toField_gfMult`);
* `ghash`    the hash, as a polynomial in the hash key (`toField_ghash`);
* `aesGcmAe`, `aesGcmAd`   encryption and decryption;
* `aesGcmAd_eq_some_iff`   the second accepts what the first makes of its own result, and nothing else.
-/

namespace Rtl8192eu

open BlockMode BinaryPoly Polynomial

namespace Gcm

/-! ## blocks -/

def inc32 (block : List UInt8) : List UInt8 := block.take 12 ++ wpaPutBe32 (wpaGetBe32 block 12 + 1)

/-- the bit that is carried into the word at byte `i` -/
def carry (v : List UInt8) (i : Nat) : UInt32 := if v.getD (i - 1) 0 &&& 0x01 ≠ 0 then 0x80000000 else 0

/-- the words from the last to the first; each gets the lowest bit of the one before it -/
def shiftRightBlock (v : List UInt8) : List UInt8 :=
  let w12 := wpaGetBe32 v 12 >>> 1 ||| carry v 12
  let w8 := wpaGetBe32 v 8 >>> 1 ||| carry v 8
  let w4 := wpaGetBe32 v 4 >>> 1 ||| carry v 4
  let w0 := wpaGetBe32 v 0 >>> 1
  wpaPutBe32 w0 ++ wpaPutBe32 w4 ++ wpaPutBe32 w8 ++ wpaPutBe32 w12

/-- `V_(i + 1)` -/
def gfDouble (v : List UInt8) : List UInt8 :=
  let w := shiftRightBlock v
  if v.getD 15 0 &&& 0x01 ≠ 0 then (w.getD 0 0 ^^^ 0xe1) :: w.drop 1 else w

/-- a turn for bit `j` of byte `i` -/
def gfTurn (x : List UInt8) (i : Nat) (s : List UInt8 × List UInt8) (j : Nat) : List UInt8 × List UInt8 :=
  (if x.getD i 0 &&& (1 : UInt8) <<< UInt8.ofNat (7 - j) ≠ 0 then xor s.1 s.2 else s.1, gfDouble s.2)

def gfMult (x y : List UInt8) : List UInt8 :=
  ((List.range 16).foldl (fun s i => (List.range 8).foldl (gfTurn x i) s) (List.replicate 16 0, y)).1

/-- `ghash`; the last block is filled up with zeros -/
def ghash (h x y : List UInt8) : List UInt8 := chain 16 (fun b => gfMult b h) (x.length / 16) y x

section
variable (E : List UInt8 → List UInt8)

/-- `aes_gctr` -/
def aesGctr (icb x : List UInt8) : List UInt8 :=
  if x.length = 0 then [] else stream 16 E inc32 (x.length / 16) icb x

/-- the hash key -/
def hashSubkey : List UInt8 := E (List.replicate 16 0)

/-- `aes_gcm_prepare_j0` -/
def prepareJ0 (iv h : List UInt8) : List UInt8 :=
  if iv.length = 12 then iv ++ [0, 0, 0, 1]
  else ghash h (wpaPutBe64 0 ++ wpaPutBe64 (iv.length * 8)) (ghash h iv (List.replicate 16 0))

/-- `aes_gcm_gctr` -/
def gcmGctr (j0 x : List UInt8) : List UInt8 := if x.length = 0 then [] else aesGctr E (inc32 j0) x

/-- `aes_gcm_ghash` -/
def gcmGhash (h aad crypt : List UInt8) : List UInt8 :=
  let s := List.replicate 16 0
  let s := ghash h aad s
  let s := ghash h crypt s
  ghash h (wpaPutBe64 (aad.length * 8) ++ wpaPutBe64 (crypt.length * 8)) s

/-- the tag -/
def gcmTag (j0 aad crypt : List UInt8) : List UInt8 := aesGctr E j0 (gcmGhash (hashSubkey E) aad crypt)

end

end Gcm

open Gcm

/-- `none` is `-1` -/
def aesGcmAe (key : List UInt8) (keyLen : Nat) (iv plain aad : List UInt8) : Option (List UInt8 × List UInt8) :=
  (aesEncryptInit key keyLen).map fun aes =>
    let E := aes.aesEncrypt
    let j0 := prepareJ0 iv (hashSubkey E)
    let crypt := gcmGctr E j0 plain
    (crypt, gcmTag E j0 aad crypt)

def aesGcmAd (key : List UInt8) (keyLen : Nat) (iv crypt aad tag : List UInt8) : Option (List UInt8) :=
  (aesEncryptInit key keyLen).bind fun aes =>
    let E := aes.aesEncrypt
    let j0 := prepareJ0 iv (hashSubkey E)
    let plain := gcmGctr E j0 crypt
    let t := gcmTag E j0 aad crypt
    if osMemcmpConst tag t 16 ≠ 0 then none else some plain

/-- `aes_gmac` -/
def aesGmac (key : List UInt8) (keyLen : Nat) (iv aad : List UInt8) : Option (List UInt8) :=
  (aesGcmAe key keyLen iv [] aad).map Prod.snd

namespace Gcm

/-! ## the field -/

/-- the polynomial of the field -/
noncomputable def gcmPoly : (ZMod 2)[X] := X ^ 128 + (X ^ 7 + X ^ 2 + X + 1)

theorem gcmPoly_monic : gcmPoly.Monic := by
  unfold gcmPoly
  apply monic_X_pow_add
  compute_degree!

theorem gcmPoly_natDegree : gcmPoly.natDegree = 128 := by
  unfold gcmPoly
  compute_degree!

/-- the element of a block -/
noncomputable def toField (b : List UInt8) : AdjoinRoot gcmPoly := ofBits gcmPoly 128 (blockBit b)

theorem toField_inj {a b : List UInt8} (ha : a.length = 16) (hb : b.length = 16) :
    toField a = toField b ↔ a = b := by
  unfold toField
  rw [ofBits_inj gcmPoly_monic gcmPoly_natDegree]
  constructor
  · intro h
    exact block_ext (ha.trans hb.symm) fun k hk => h k (by omega)
  · rintro rfl _ _
    rfl

theorem root_pow_128 : AdjoinRoot.root gcmPoly ^ 128
    = AdjoinRoot.root gcmPoly ^ 7 + AdjoinRoot.root gcmPoly ^ 2 + AdjoinRoot.root gcmPoly + 1 := by
  have hp : gcmPoly = X ^ 128 + (X ^ 7 + X ^ 2 + X + 1) := by unfold gcmPoly; rfl
  have h : AdjoinRoot.mk gcmPoly (X ^ 128 + (X ^ 7 + X ^ 2 + X + 1)) = 0 := by
    rw [← hp]
    exact AdjoinRoot.mk_self
  simp only [map_add, map_pow, map_one, AdjoinRoot.mk_X] at h
  rw [← sub_eq_zero, sub_eq_add_neg, neg_eq_of_add_eq_zero_left (add_self _)]
  exact h

theorem blockBit_xor {a b : List UInt8} (h : a.length = b.length) (k : Nat) :
    blockBit (xor a b) k = (blockBit a k ^^ blockBit b k) := by
  unfold blockBit
  by_cases hk : k / 8 < a.length
  · have hx : k / 8 < (xor a b).length := by
      rw [length_xor]
      omega
    rw [List.getD_eq_getElem a _ hk, List.getD_eq_getElem b _ (by omega), List.getD_eq_getElem (xor a b) _ hx]
    simp only [BlockMode.xor]
    rw [List.getElem_zipWith]
    simp
  · rw [List.getD_eq_default a _ (by omega), List.getD_eq_default b _ (by omega),
      List.getD_eq_default (xor a b) _ (by rw [length_xor]; omega)]
    simp

theorem toField_xor {a b : List UInt8} (h : a.length = b.length) :
    toField (xor a b) = toField a + toField b := by
  unfold toField
  rw [← ofBits_xor]
  exact ofBits_congr fun k _ => blockBit_xor h k

theorem length_shiftRightBlock (v : List UInt8) : (shiftRightBlock v).length = 16 := rfl

theorem lowBit_iff (b : UInt8) : b &&& 0x01 ≠ 0 ↔ b.toBitVec.getLsbD 0 = true := by
  constructor
  · intro h
    by_contra hb
    refine h (UInt8.toBitVec_inj.mp (BitVec.eq_of_getLsbD_eq fun i hi => ?_))
    have hb' : b.toBitVec[0] = false := by simpa using hb
    interval_cases i <;> simp [hb']
  · intro h hz
    have hb : (b &&& 0x01).toBitVec.getLsbD 0 = (0 : UInt8).toBitVec.getLsbD 0 :=
      congrArg (fun c : UInt8 => c.toBitVec.getLsbD 0) hz
    have hb' : (b &&& 0x01).toBitVec.getLsbD 0 = b.toBitVec.getLsbD 0 := by simp
    rw [hb', h] at hb
    cases hb

theorem carry_bit (v : List UInt8) {i : Nat} (hi : 0 < i) (j : Nat) :
    (carry v i).toBitVec.getLsbD j = (decide (j = 31) && blockBit v (8 * i - 1)) := by
  have hdiv : (8 * i - 1) / 8 = i - 1 := by omega
  have hmod : 7 - (8 * i - 1) % 8 = 0 := by omega
  unfold carry blockBit
  rw [hdiv, hmod]
  have htop : (0x80000000 : UInt32).toBitVec.getLsbD j = decide (j = 31) := by
    by_cases hj : j < 32
    · interval_cases j <;> rfl
    · rw [BitVec.getLsbD_of_ge _ _ (Nat.le_of_not_lt hj), decide_eq_false (by omega)]
  by_cases hb : v.getD (i - 1) 0 &&& 0x01 ≠ 0
  · rw [if_pos hb, (lowBit_iff _).mp hb, Bool.and_true, htop]
  · have hz : (v.getD (i - 1) 0).toBitVec.getLsbD 0 = false := by
      rw [← Bool.not_eq_true, ← lowBit_iff]
      exact hb
    rw [if_neg hb, hz, Bool.and_false]
    simp

/-- the word at byte `i`, shifted with the bit from before it -/
theorem blockBit_word (v : List UInt8) {i k : Nat} (hi : 0 < i) (hk : k < 32) :
    blockBit (wpaPutBe32 (wpaGetBe32 v i >>> 1 ||| carry v i)) k = blockBit v (8 * i + k - 1) := by
  rw [blockBit_wpaPutBe32 _ hk]
  have hor : (wpaGetBe32 v i >>> 1 ||| carry v i).toBitVec.getLsbD (31 - k)
      = ((wpaGetBe32 v i).toBitVec.getLsbD (1 + (31 - k)) || (carry v i).toBitVec.getLsbD (31 - k)) := by
    simp
  rw [hor, carry_bit v hi]
  cases k with
  | zero => simp
  | succ k =>
    have hbit : 1 + (31 - (k + 1)) = 31 - k := by omega
    have hne : ¬31 - (k + 1) = 31 := by omega
    rw [hbit, blockBit_wpaGetBe32 v i (by omega), decide_eq_false hne, Bool.false_and, Bool.or_false]
    rfl

theorem blockBit_shiftRightBlock (v : List UInt8) {k : Nat} (hk : k < 128) :
    blockBit (shiftRightBlock v) k = (decide (0 < k) && blockBit v (k - 1)) := by
  have hl : ∀ a b c : UInt32, (wpaPutBe32 a).length = 4 ∧ (wpaPutBe32 a ++ wpaPutBe32 b).length = 8
      ∧ (wpaPutBe32 a ++ wpaPutBe32 b ++ wpaPutBe32 c).length = 12 := fun _ _ _ => ⟨rfl, rfl, rfl⟩
  unfold shiftRightBlock
  dsimp only
  obtain ⟨l1, l2, l3⟩ := hl (wpaGetBe32 v 0 >>> 1) (wpaGetBe32 v 4 >>> 1 ||| carry v 4) (wpaGetBe32 v 8 >>> 1 ||| carry v 8)
  rcases Nat.lt_or_ge k 96 with h96 | h96
  · rw [blockBit_append_left (by omega)]
    rcases Nat.lt_or_ge k 64 with h64 | h64
    · rw [blockBit_append_left (by omega)]
      rcases Nat.lt_or_ge k 32 with h32 | h32
      · rw [blockBit_append_left (by omega), blockBit_wpaPutBe32 _ h32]
        have hshift : (wpaGetBe32 v 0 >>> 1).toBitVec.getLsbD (31 - k)
            = (wpaGetBe32 v 0).toBitVec.getLsbD (1 + (31 - k)) := by simp
        rw [hshift]
        cases k with
        | zero => simp
        | succ k =>
          have hbit : 1 + (31 - (k + 1)) = 31 - k := by omega
          rw [hbit, blockBit_wpaGetBe32 v 0 (by omega)]
          simp
      · rw [blockBit_append_right (by omega), l1, blockBit_word v (by omega) (by omega), decide_eq_true (by omega),
          Bool.true_and]
        congr 1
        omega
    · rw [blockBit_append_right (by omega), l2, blockBit_word v (by omega) (by omega), decide_eq_true (by omega),
        Bool.true_and]
      congr 1
      omega
  · rw [blockBit_append_right (by omega), l3, blockBit_word v (by omega) (by omega), decide_eq_true (by omega),
      Bool.true_and]
    congr 1
    omega

/-- the bits of `11100001 || 0^120` -/
theorem blockBit_e1 {k : Nat} (hk : k < 128) :
    blockBit (0xe1 :: List.replicate 15 0) k = decide (k ∈ ({0, 1, 2, 7} : Finset Nat)) := by
  revert k
  decide

theorem length_gfDouble (v : List UInt8) : (gfDouble v).length = 16 := by
  unfold gfDouble
  dsimp only
  split
  · rw [List.length_cons, List.length_drop, length_shiftRightBlock]
  · exact length_shiftRightBlock v

/-- only the first byte -/
theorem xor_first {w : List UInt8} {c : UInt8} {n : Nat} (h : w.length = n + 1) :
    (w.getD 0 0 ^^^ c) :: w.drop 1 = BlockMode.xor w (c :: List.replicate n 0) := by
  cases w with
  | nil => cases h
  | cons b w =>
    show (b ^^^ c) :: w = (b ^^^ c) :: BlockMode.xor w (List.replicate n 0)
    rw [BlockMode.xor_comm, zeros_xor (Nat.succ.inj h)]

/-- a turn of the second factor is a product with `x` -/
theorem toField_gfDouble (v : List UInt8) :
    toField (gfDouble v) = AdjoinRoot.root gcmPoly * toField v := by
  have hdrop : ofBits gcmPoly 128 (blockBit (0xe1 :: List.replicate 15 0)) = AdjoinRoot.root gcmPoly ^ 128 := by
    rw [ofBits_congr fun k hk => blockBit_e1 hk, ofBits_mem (by decide), root_pow_128]
    simp [Finset.sum_insert]
    ring
  have hshift : toField (shiftRightBlock v) = ofBits gcmPoly 128 fun k => decide (0 < k) && blockBit v (k - 1) :=
    ofBits_congr fun k hk => blockBit_shiftRightBlock v hk
  have hlow : v.getD 15 0 &&& 0x01 ≠ 0 ↔ blockBit v (128 - 1) = true := lowBit_iff _
  show _ = AdjoinRoot.root gcmPoly * ofBits gcmPoly 128 (blockBit v)
  rw [← ofBits_shift, ← hshift]
  unfold gfDouble
  dsimp only
  by_cases hb : v.getD 15 0 &&& 0x01 ≠ 0
  · rw [if_pos hb, if_pos ⟨by omega, hlow.mp hb⟩, ← hdrop]
    have hx : ((shiftRightBlock v).getD 0 0 ^^^ 0xe1) :: (shiftRightBlock v).drop 1
        = BlockMode.xor (shiftRightBlock v) (0xe1 :: List.replicate 15 0) := xor_first (length_shiftRightBlock v)
    rw [hx, toField_xor (length_shiftRightBlock v)]
    rfl
  · rw [if_neg hb, if_neg (fun h => hb (hlow.mpr h.2)), add_zero]

/-! ## the product -/

theorem bit_iff {n : Nat} (hn : n < 8) (b : UInt8) :
    b &&& (1 : UInt8) <<< UInt8.ofNat n ≠ 0 ↔ b.toBitVec.getLsbD n = true := by
  interval_cases n
  all_goals
    revert b
    apply Rijndael.forall_uint8
    decide +kernel

theorem gfTurn_eq (x : List UInt8) (i : Nat) (s : List UInt8 × List UInt8) {j : Nat} (hj : j < 8) :
    gfTurn x i s j = shiftAdd BlockMode.xor gfDouble (blockBit x) s (8 * i + j) := by
  have hdiv : (8 * i + j) / 8 = i := by omega
  have hmod : (8 * i + j) % 8 = j := by omega
  have hbit : x.getD i 0 &&& (1 : UInt8) <<< UInt8.ofNat (7 - j) ≠ 0 ↔ blockBit x (8 * i + j) = true := by
    unfold blockBit
    rw [hdiv, hmod]
    exact bit_iff (by omega) _
  unfold gfTurn shiftAdd
  rw [if_congr hbit rfl rfl]

/-- bytes and their bits are all bits -/
theorem gfTurns_eq (x : List UInt8) (s : List UInt8 × List UInt8) (n : Nat) :
    (List.range n).foldl (fun s i => (List.range 8).foldl (gfTurn x i) s) s
      = (List.range (8 * n)).foldl (shiftAdd BlockMode.xor gfDouble (blockBit x)) s := by
  induction n with
  | zero => rfl
  | succ n ih =>
    rw [List.range_succ (n := n), List.foldl_append, ih, Nat.mul_succ, List.range_add, List.foldl_append,
      List.foldl_map]
    exact List.foldl_ext _ _ _ fun s j hj => gfTurn_eq x n s (List.mem_range.mp hj)

theorem toField_zeros : toField (List.replicate 16 0) = 0 := by
  have hbit : ∀ k < 128, blockBit (List.replicate 16 0) k = false := by decide
  unfold toField
  rw [← ofBits_false (p := gcmPoly) (n := 128)]
  exact ofBits_congr hbit

theorem toField_gfMult (x : List UInt8) {y : List UInt8} (hy : y.length = 16) :
    (gfMult x y).length = 16 ∧ toField (gfMult x y) = toField x * toField y := by
  have hadd : ∀ a b : List UInt8, a.length = 16 → b.length = 16 →
      (BlockMode.xor a b).length = 16 ∧ toField (BlockMode.xor a b) = toField a + toField b := by
    intro a b ha hb
    exact ⟨by rw [length_xor, ha, hb, Nat.min_self], toField_xor (ha.trans hb.symm)⟩
  have hdbl : ∀ b : List UInt8, b.length = 16 →
      (gfDouble b).length = 16 ∧ toField (gfDouble b) = AdjoinRoot.root gcmPoly * toField b :=
    fun b _ => ⟨length_gfDouble b, toField_gfDouble b⟩
  have h := shiftAdd_eq hadd hdbl (blockBit x) (s := (List.replicate 16 0, y)) (List.length_replicate) hy 128
  unfold gfMult
  rw [gfTurns_eq]
  refine ⟨h.1, ?_⟩
  rw [h.2.2.1, toField_zeros, zero_add]
  rfl

/-! ## the hash -/

theorem foldl_hash {h : List UInt8} (hh : h.length = 16) {y : List UInt8} (hy : y.length = 16)
    {bs : List (List UInt8)} (hbs : ∀ b ∈ bs, b.length = 16) :
    toField (cbc (fun b => gfMult b h) y bs)
      = (bs.map toField).foldl (fun y b => (y + b) * toField h) (toField y) := by
  induction bs generalizing y with
  | nil => rfl
  | cons b bs ih =>
    have hb : b.length = 16 := hbs b (List.mem_cons_self ..)
    obtain ⟨hlen, hval⟩ := toField_gfMult (BlockMode.xor y b) hh
    rw [cbc_cons, ih hlen fun c hc => hbs c (List.mem_cons_of_mem b hc), hval, toField_xor (hy.trans hb.symm)]
    rfl

theorem ghash_eq {h : List UInt8} (hh : h.length = 16) {y : List UInt8} (hy : y.length = 16) (x : List UInt8) :
    ghash h x y = cbc (fun b => gfMult b h) y (filled 16 x) :=
  chain_eq (by omega) (fun b => (toField_gfMult b hh).1) y x hy

/-- the block with the lengths in bits -/
def lenBlock (a c : Nat) : List UInt8 := wpaPutBe64 (a * 8) ++ wpaPutBe64 (c * 8)

theorem filled_lenBlock (a c : Nat) : filled 16 (lenBlock a c) = [lenBlock a c] := by
  have hlen : (lenBlock a c).length = 16 := rfl
  unfold filled
  have hnum : numBlocks 16 (lenBlock a c).length = 1 := by
    rw [hlen]
    rfl
  have hfill : fill 16 (lenBlock a c) = lenBlock a c := by
    rw [fill_of_blocks hnum, hlen]
    exact List.append_nil _
  rw [hnum, hfill, blocks_succ, List.take_of_length_le (Nat.le_of_eq hlen)]
  rfl

/-- what is hashed -/
def hashed (aad crypt : List UInt8) : List (List UInt8) :=
  filled 16 aad ++ filled 16 crypt ++ [lenBlock aad.length crypt.length]

theorem length_mem_hashed {aad crypt b : List UInt8} (hb : b ∈ hashed aad crypt) : b.length = 16 := by
  rcases List.mem_append.mp hb with hb | hb
  · rcases List.mem_append.mp hb with hb | hb
    · exact length_mem_filled (by omega) hb
    · exact length_mem_filled (by omega) hb
  · rw [List.mem_singleton.mp hb]
    rfl

theorem gcmGhash_eq {h : List UInt8} (hh : h.length = 16) (aad crypt : List UInt8) :
    gcmGhash h aad crypt = cbc (fun b => gfMult b h) (List.replicate 16 0) (hashed aad crypt) := by
  have hE : ∀ b, (gfMult b h).length = 16 := fun b => (toField_gfMult b hh).1
  have h0 : (List.replicate 16 (0 : UInt8)).length = 16 := rfl
  unfold gcmGhash hashed
  dsimp only
  rw [cbc_append, cbc_append, ← filled_lenBlock, ghash_eq hh h0, ghash_eq hh (length_cbc hE _ _ h0),
    ghash_eq hh (length_cbc hE _ _ (length_cbc hE _ _ h0))]
  rfl

theorem length_gcmGhash {h : List UInt8} (hh : h.length = 16) (aad crypt : List UInt8) :
    (gcmGhash h aad crypt).length = 16 := by
  rw [gcmGhash_eq hh]
  exact length_cbc (fun b => (toField_gfMult b hh).1) _ _ rfl

/-- the hash is a polynomial in the hash key -/
theorem toField_gcmGhash {h : List UInt8} (hh : h.length = 16) (aad crypt : List UInt8) :
    toField (gcmGhash h aad crypt) = (hashPoly ((hashed aad crypt).map toField)).eval (toField h) := by
  rw [gcmGhash_eq hh, foldl_hash hh List.length_replicate fun b hb => length_mem_hashed hb, toField_zeros,
    eval_hashPoly]

/-! ## one text, one polynomial -/

theorem wpaPutBe64_inj {a b : Nat} (ha : a < 2 ^ 64) (hb : b < 2 ^ 64) (h : wpaPutBe64 a = wpaPutBe64 b) : a = b := by
  have hbyte : ∀ i < 8, UInt8.ofNat (a / 256 ^ (7 - i)) = UInt8.ofNat (b / 256 ^ (7 - i)) := by
    intro i hi
    exact List.map_inj_left.mp h i (List.mem_range.mpr hi)
  have hdigit : ∀ i < 8, a / 256 ^ (7 - i) % 256 = b / 256 ^ (7 - i) % 256 := by
    intro i hi
    have := congrArg UInt8.toNat (hbyte i hi)
    simpa only [UInt8.toNat_ofNat'] using this
  have h0 := hdigit 0 (by omega)
  have h1 := hdigit 1 (by omega)
  have h2 := hdigit 2 (by omega)
  have h3 := hdigit 3 (by omega)
  have h4 := hdigit 4 (by omega)
  have h5 := hdigit 5 (by omega)
  have h6 := hdigit 6 (by omega)
  have h7 := hdigit 7 (by omega)
  norm_num at h0 h1 h2 h3 h4 h5 h6 h7
  omega

theorem lenBlock_inj {a c a' c' : Nat} (ha : a < 2 ^ 61) (hc : c < 2 ^ 61) (ha' : a' < 2 ^ 61) (hc' : c' < 2 ^ 61)
    (h : lenBlock a c = lenBlock a' c') : a = a' ∧ c = c' := by
  obtain ⟨h1, h2⟩ := List.append_inj h rfl
  have e1 := wpaPutBe64_inj (by omega) (by omega) h1
  have e2 := wpaPutBe64_inj (by omega) (by omega) h2
  exact ⟨by omega, by omega⟩

theorem map_toField_inj {l l' : List (List UInt8)} (hl : ∀ b ∈ l, b.length = 16) (hl' : ∀ b ∈ l', b.length = 16)
    (h : l.map toField = l'.map toField) : l = l' := by
  induction l generalizing l' with
  | nil => exact (List.map_eq_nil_iff.mp h.symm).symm
  | cons b l ih =>
    cases l' with
    | nil => cases h
    | cons b' l' =>
      obtain ⟨hb, hrest⟩ := List.cons.inj h
      rw [(toField_inj (hl b (List.mem_cons_self ..)) (hl' b' (List.mem_cons_self ..))).mp hb,
        ih (fun c hc => hl c (List.mem_cons_of_mem _ hc)) (fun c hc => hl' c (List.mem_cons_of_mem _ hc)) hrest]

theorem hashPoly_hashed_inj {aad crypt aad' crypt' : List UInt8} (ha : aad.length < 2 ^ 61)
    (hc : crypt.length < 2 ^ 61) (ha' : aad'.length < 2 ^ 61) (hc' : crypt'.length < 2 ^ 61)
    (h : hashPoly ((hashed aad crypt).map toField) = hashPoly ((hashed aad' crypt').map toField)) :
    aad = aad' ∧ crypt = crypt' := by
  have hlast : ∀ aad crypt : List UInt8, (hashPoly ((hashed aad crypt).map toField)).coeff 1
      = toField (lenBlock aad.length crypt.length) := by
    intro aad crypt
    unfold hashed
    rw [coeff_hashPoly, List.map_append, List.reverse_append]
    rfl
  have hlens : lenBlock aad.length crypt.length = lenBlock aad'.length crypt'.length := by
    rw [← toField_inj rfl rfl, ← hlast, ← hlast, h]
  obtain ⟨hla, hlc⟩ := lenBlock_inj ha hc ha' hc' hlens
  have hcount : ((hashed aad crypt).map toField).length = ((hashed aad' crypt').map toField).length := by
    unfold hashed
    simp only [List.length_map, List.length_append, length_filled, hla, hlc]
  have hblocks : hashed aad crypt = hashed aad' crypt' :=
    map_toField_inj (fun _ => length_mem_hashed) (fun _ => length_mem_hashed) ((hashPoly_inj hcount).mp h)
  unfold hashed at hblocks
  obtain ⟨htexts, _⟩ := List.append_inj' hblocks rfl
  obtain ⟨h1, h2⟩ := List.append_inj htexts (by rw [length_filled, length_filled, hla])
  exact ⟨filled_inj (by omega) hla h1, filled_inj (by omega) hlc h2⟩

/-! ## few keys -/

/-- the bits of the polynomial -/
def gcmBits : Nat := 2 ^ 128 + 0x87

theorem gcmBits_top {i : Nat} (hi : 128 ≤ i) : gcmBits.testBit i = decide (i = 128) := by
  rcases Nat.eq_or_lt_of_le hi with rfl | hlt
  · decide
  · have hlt' : gcmBits < 2 ^ i := calc
      gcmBits < 2 ^ 129 := by decide
      _ ≤ 2 ^ i := Nat.pow_le_pow_right (by omega) hlt
    rw [Nat.testBit_lt_two_pow hlt', decide_eq_false (Nat.ne_of_gt hlt)]

theorem ofBits_gcmBits : ofBits gcmPoly 128 gcmBits.testBit = AdjoinRoot.root gcmPoly ^ 128 := by
  have hbit : ∀ i < 128, gcmBits.testBit i = decide (i ∈ ({0, 1, 2, 7} : Finset Nat)) := by decide
  rw [ofBits_congr hbit, ofBits_mem (by decide), root_pow_128]
  simp [Finset.sum_insert]
  ring

theorem ofBits_one : ofBits gcmPoly 128 (1 : Nat).testBit = 1 := by
  have hbit : ∀ i < 128, (1 : Nat).testBit i = decide (i ∈ ({0} : Finset Nat)) := by decide
  rw [ofBits_congr hbit, ofBits_mem (by decide), Finset.sum_singleton, pow_zero]

theorem ofBits_two : ofBits gcmPoly 128 (2 : Nat).testBit = AdjoinRoot.root gcmPoly := by
  have hbit : ∀ i < 128, (2 : Nat).testBit i = decide (i ∈ ({1} : Finset Nat)) := by decide
  rw [ofBits_congr hbit, ofBits_mem (by decide), Finset.sum_singleton, pow_one]

theorem root_squares (k : Nat) : natSquares 128 gcmBits k 2 < 2 ^ 128
    ∧ ofBits gcmPoly 128 (natSquares 128 gcmBits k 2).testBit = AdjoinRoot.root gcmPoly ^ 2 ^ k := by
  have h := natSquares_eq (fun _ => gcmBits_top) ofBits_gcmBits k (x := 2) (by norm_num)
  rwa [ofBits_two] at h

theorem gcmPoly_irreducible : Irreducible gcmPoly := by
  refine irreducible_of_squares (m := 6) gcmPoly_natDegree ?_ ?_
  · have hback : natSquares 128 gcmBits 128 2 = 2 := by decide +kernel
    have hval := (root_squares 128).2
    rw [hback, ofBits_two] at hval
    exact hval.symm
  · -- the inverse of what the half of the squares makes of `x`, with `x` added
    have hinv : natMul 128 gcmBits (natSquares 128 gcmBits 64 2 ^^^ 2) 0x9e4af928ddbc838a41a8cafd2c95b018 = 1 := by
      decide +kernel
    have hval := (natMul_eq (fun _ => gcmBits_top) ofBits_gcmBits (natSquares 128 gcmBits 64 2 ^^^ 2)
      (y := 0x9e4af928ddbc838a41a8cafd2c95b018) (by norm_num)).2
    have hsum : ofBits gcmPoly 128 (natSquares 128 gcmBits 64 2 ^^^ 2).testBit
        = AdjoinRoot.root gcmPoly ^ 2 ^ 64 - AdjoinRoot.root gcmPoly := by
      rw [sub_eq_add, ← (root_squares 64).2, ← ofBits_two, ← ofBits_xor]
      exact ofBits_congr fun i _ => Nat.testBit_xor ..
    rw [hinv, ofBits_one, hsum] at hval
    exact IsUnit.of_mul_eq_one _ hval.symm

instance : Fact (Irreducible gcmPoly) := ⟨gcmPoly_irreducible⟩

/-- the hashes of two messages differ by `d` for at most as many hash keys as the longer one has blocks -/
theorem gcmGhash_differ_le {aad crypt aad' crypt' d : List UInt8} (ha : aad.length < 2 ^ 61)
    (hc : crypt.length < 2 ^ 61) (ha' : aad'.length < 2 ^ 61) (hc' : crypt'.length < 2 ^ 61) (hd : d.length = 16)
    (hne : ¬(aad = aad' ∧ crypt = crypt')) :
    {h : List UInt8 | h.length = 16 ∧ gcmGhash h aad crypt = BlockMode.xor (gcmGhash h aad' crypt') d}.encard
      ≤ (max (hashed aad crypt).length (hashed aad' crypt').length : Nat) := by
  have hpoly : hashPoly ((hashed aad crypt).map toField) ≠ hashPoly ((hashed aad' crypt').map toField) :=
    fun h => hne (hashPoly_hashed_inj ha hc ha' hc' h)
  have hroots := card_hash_le (toField d) hpoly
  rw [List.length_map, List.length_map] at hroots
  refine le_trans ?_ hroots
  apply Set.encard_le_encard_of_injOn (f := toField)
  · rintro h ⟨hlen, heq⟩
    show Polynomial.eval (toField h) (hashPoly ((hashed aad crypt).map toField))
      = Polynomial.eval (toField h) (hashPoly ((hashed aad' crypt').map toField)) + toField d
    rw [← toField_gcmGhash hlen, ← toField_gcmGhash hlen, heq,
      toField_xor ((length_gcmGhash hlen aad' crypt').trans hd.symm)]
  · rintro h ⟨hlen, -⟩ h' ⟨hlen', -⟩ heq
    exact (toField_inj hlen hlen').mp heq

/-! ## there and back -/

section
variable {E : List UInt8 → List UInt8} (hE : ∀ b, (E b).length = 16)

include hE

theorem length_aesGctr (icb x : List UInt8) : (aesGctr E icb x).length = x.length := by
  unfold aesGctr
  split
  · rename_i h
    rw [h]
    rfl
  · exact length_stream hE _ _ _ (by omega)

theorem aesGctr_aesGctr (icb x : List UInt8) : aesGctr E icb (aesGctr E icb x) = x := by
  by_cases h : x.length = 0
  · rw [List.eq_nil_of_length_eq_zero h]
    rfl
  · have hlen := length_aesGctr hE icb x
    unfold aesGctr at hlen ⊢
    rw [if_neg h] at hlen ⊢
    rw [hlen, if_neg h]
    exact stream_stream hE _ _ _ (by omega) (by omega)

omit hE in
/-- one block is added to one block -/
theorem aesGctr_block {icb x : List UInt8} (hx : x.length = 16) : aesGctr E icb x = BlockMode.xor x (E icb) := by
  unfold aesGctr
  rw [if_neg (by omega), hx, stream_succ, List.take_of_length_le (Nat.le_of_eq hx),
    List.drop_of_length_le (Nat.le_of_eq hx)]
  exact List.append_nil _

theorem length_gcmGctr (j0 x : List UInt8) : (gcmGctr E j0 x).length = x.length := by
  unfold gcmGctr
  split
  · rename_i h
    rw [h]
    rfl
  · exact length_aesGctr hE _ _

theorem gcmGctr_gcmGctr (j0 x : List UInt8) : gcmGctr E j0 (gcmGctr E j0 x) = x := by
  by_cases h : x.length = 0
  · rw [List.eq_nil_of_length_eq_zero h]
    rfl
  · have hlen := length_gcmGctr hE j0 x
    unfold gcmGctr at hlen ⊢
    rw [if_neg h] at hlen ⊢
    rw [hlen, if_neg h]
    exact aesGctr_aesGctr hE _ _

theorem gcmTag_eq (j0 aad crypt : List UInt8) :
    gcmTag E j0 aad crypt = BlockMode.xor (gcmGhash (hashSubkey E) aad crypt) (E j0) :=
  aesGctr_block (length_gcmGhash (hE _) aad crypt)

theorem length_gcmTag (j0 aad crypt : List UInt8) : (gcmTag E j0 aad crypt).length = 16 := by
  rw [gcmTag_eq hE, length_xor, length_gcmGhash (h := hashSubkey E) (hE _), hE, Nat.min_self]

theorem cmp_tag (j0 aad crypt : List UInt8) {tag : List UInt8} (htag : tag.length = 16) :
    osMemcmpConst tag (gcmTag E j0 aad crypt) 16 = 0 ↔ gcmTag E j0 aad crypt = tag := by
  rw [osMemcmpConst_take (Nat.le_of_eq htag.symm) (length_gcmTag hE j0 aad crypt),
    List.take_of_length_le (Nat.le_of_eq htag)]
  exact eq_comm

end

end Gcm

/-- what is accepted is what was made, and of that text only -/
theorem aesGcmAd_eq_some_iff (key : List UInt8) (keyLen : Nat) (iv crypt aad : List UInt8) {tag : List UInt8}
    (htag : tag.length = 16) (plain : List UInt8) :
    aesGcmAd key keyLen iv crypt aad tag = some plain ↔ aesGcmAe key keyLen iv plain aad = some (crypt, tag) := by
  unfold aesGcmAd aesGcmAe
  cases aesEncryptInit key keyLen with
  | none => simp
  | some aes =>
    have hE := aes.length_aesEncrypt
    simp only [Option.bind_some, Option.map_some, Option.some.injEq, Prod.mk.injEq]
    generalize prepareJ0 iv (hashSubkey aes.aesEncrypt) = j0
    have hcmp := cmp_tag hE j0 aad crypt htag
    constructor
    · intro h
      split at h
      · cases h
      · rename_i hz
        obtain rfl := Option.some.inj h
        rw [gcmGctr_gcmGctr hE]
        exact ⟨rfl, hcmp.mp (Decidable.not_not.mp hz)⟩
    · rintro ⟨rfl, hmac⟩
      rw [gcmGctr_gcmGctr hE, if_neg]
      exact not_not.mpr (hcmp.mpr hmac)

theorem length_of_aesGcmAe {key : List UInt8} {keyLen : Nat} {iv plain aad : List UInt8}
    {r : List UInt8 × List UInt8} (h : aesGcmAe key keyLen iv plain aad = some r) :
    r.1.length = plain.length ∧ r.2.length = 16 := by
  unfold aesGcmAe at h
  obtain ⟨aes, -, rfl⟩ := Option.map_eq_some_iff.mp h
  exact ⟨length_gcmGctr aes.length_aesEncrypt _ _, length_gcmTag aes.length_aesEncrypt _ _ _⟩

theorem length_of_aesGcmAd {key : List UInt8} {keyLen : Nat} {iv crypt aad tag plain : List UInt8}
    (h : aesGcmAd key keyLen iv crypt aad tag = some plain) : plain.length = crypt.length := by
  unfold aesGcmAd at h
  obtain ⟨aes, -, ha⟩ := Option.bind_eq_some_iff.mp h
  dsimp only at ha
  split at ha
  · cases ha
  · rw [← Option.some.inj ha]
    exact length_gcmGctr aes.length_aesEncrypt _ crypt

theorem aesGcmAe_isSome {key : List UInt8} {keyLen : Nat} {iv plain aad : List UInt8} (hkey : Aes.KeyLen keyLen) :
    (aesGcmAe key keyLen iv plain aad).isSome = true := by
  unfold aesGcmAe
  rw [Option.isSome_map]
  exact (aesEncryptInit_isSome key keyLen).mpr hkey

theorem aesGcmAd_isSome_iff (key : List UInt8) (keyLen : Nat) (iv crypt aad : List UInt8) {tag : List UInt8}
    (htag : tag.length = 16) {aes : AesCtx} (haes : aesEncryptInit key keyLen = some aes) :
    (aesGcmAd key keyLen iv crypt aad tag).isSome = true
      ↔ gcmTag aes.aesEncrypt (prepareJ0 iv (hashSubkey aes.aesEncrypt)) aad crypt = tag := by
  rw [← cmp_tag aes.length_aesEncrypt _ aad crypt htag]
  unfold aesGcmAd
  rw [haes, Option.bind_some]
  dsimp only
  split
  · rename_i h
    exact ⟨fun hc => absurd hc Bool.false_ne_true, fun hc => absurd hc h⟩
  · rename_i h
    exact ⟨fun _ => Decidable.not_not.mp h, fun _ => rfl⟩

/-- a message other than the sender's under the sender's nonce: only for few hash keys a tag for it is right -/
theorem aesGcmAd_changed {aad crypt tag aad' crypt' tag' : List UInt8} (ha : aad.length < 2 ^ 61)
    (hc : crypt.length < 2 ^ 61) (ha' : aad'.length < 2 ^ 61) (hc' : crypt'.length < 2 ^ 61)
    (ht : tag.length = 16) (ht' : tag'.length = 16) (hne : ¬(aad' = aad ∧ crypt' = crypt)) :
    ∃ S : Set (List UInt8), S.encard ≤ (max (hashed aad' crypt').length (hashed aad crypt).length : Nat)
      ∧ ∀ key keyLen iv plain aes, aesEncryptInit key keyLen = some aes →
        aesGcmAe key keyLen iv plain aad = some (crypt, tag) →
        ((aesGcmAd key keyLen iv crypt' aad' tag').isSome = true ↔ hashSubkey aes.aesEncrypt ∈ S) := by
  have hd : (BlockMode.xor tag' tag).length = 16 := by rw [length_xor, ht, ht', Nat.min_self]
  refine ⟨_, gcmGhash_differ_le ha' hc' ha hc hd hne, fun key keyLen iv plain aes haes hae => ?_⟩
  have hE := aes.length_aesEncrypt
  have hH : (hashSubkey aes.aesEncrypt).length = 16 := hE _
  have htag : gcmTag aes.aesEncrypt (prepareJ0 iv (hashSubkey aes.aesEncrypt)) aad crypt = tag := by
    unfold aesGcmAe at hae
    rw [haes, Option.map_some] at hae
    obtain ⟨hcrypt, htag⟩ := Prod.mk.inj (Option.some.inj hae)
    rw [hcrypt] at htag
    exact htag
  rw [aesGcmAd_isSome_iff key keyLen iv crypt' aad' ht' haes, Set.mem_ofPred_eq, gcmTag_eq hE]
  rw [gcmTag_eq hE] at htag
  have he := hE (prepareJ0 iv (hashSubkey aes.aesEncrypt))
  generalize aes.aesEncrypt (prepareJ0 iv (hashSubkey aes.aesEncrypt)) = e at htag he
  have hg := length_gcmGhash hH aad crypt
  have hg' := length_gcmGhash hH aad' crypt'
  generalize gcmGhash (hashSubkey aes.aesEncrypt) aad crypt = g at htag hg
  generalize gcmGhash (hashSubkey aes.aesEncrypt) aad' crypt' = g' at hg'
  have hsum : BlockMode.xor g (BlockMode.xor tag' tag) = BlockMode.xor tag' e := by
    rw [← htag, BlockMode.xor_comm (a := g), BlockMode.xor_assoc, BlockMode.xor_comm (a := g), xor_xor (by omega)]
  rw [hsum, BlockMode.xor_eq_iff (by omega) (by omega)]
  exact (and_iff_right hH).symm

end Rtl8192eu
