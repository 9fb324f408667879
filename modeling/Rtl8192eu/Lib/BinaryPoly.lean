import Mathlib.Data.List.GetD
import Mathlib.Data.ZMod.Basic
import Mathlib.FieldTheory.Finite.Extension
import Mathlib.RingTheory.AdjoinRoot

/-!
# Polynomials over two elements, modulo one

Bit strings as the residues of polynomials: bit `i` is the coefficient of `x^i`.

* `ofBits`         the residue of the first `n` bits;
* `ofBits_shift`   a shift by one place is a product with `x`, less what leaves at the top;
* `ofBits_inj`     below the degree no two strings have the same residue;
* `shiftAdd`       multiplication by shifts and additions (`shiftAdd_eq`);
* `hashPoly`       a hash that adds a block and multiplies, as a polynomial in what it multiplies with;
* `card_hash_le`   few keys make two hashes differ by the same;
* `irreducible_of_squares`   there are no factors, by squares that `natSquares` works out.
-/

namespace BinaryPoly

open Polynomial

variable {p : (ZMod 2)[X]} {n : Nat}

/-! ## bits -/

/-- the residue of the bits `f 0`, .., `f (n - 1)` -/
noncomputable def ofBits (p : (ZMod 2)[X]) (n : Nat) (f : Nat → Bool) : AdjoinRoot p :=
  ∑ i ∈ Finset.range n, if f i then AdjoinRoot.root p ^ i else 0

section
variable {f g : Nat → Bool}

theorem add_self (a : AdjoinRoot p) : a + a = 0 := by
  have h2 : (2 : AdjoinRoot p) = 0 := by
    rw [← map_ofNat (AdjoinRoot.of p) 2, show (OfNat.ofNat 2 : ZMod 2) = 0 from rfl, map_zero]
  rw [← two_mul, h2, zero_mul]

theorem sub_eq_add (a b : AdjoinRoot p) : a - b = a + b := by
  rw [sub_eq_add_neg, neg_eq_of_add_eq_zero_left (add_self b)]

theorem ofBits_congr (h : ∀ i < n, f i = g i) : ofBits p n f = ofBits p n g :=
  Finset.sum_congr rfl fun i hi => by rw [h i (Finset.mem_range.mp hi)]

theorem ofBits_succ : ofBits p (n + 1) f = ofBits p n f + if f n then AdjoinRoot.root p ^ n else 0 :=
  Finset.sum_range_succ _ _

theorem ofBits_false : ofBits p n (fun _ => false) = 0 := Finset.sum_eq_zero fun _ _ => rfl

theorem ofBits_xor : ofBits p n (fun i => f i ^^ g i) = ofBits p n f + ofBits p n g := by
  unfold ofBits
  rw [← Finset.sum_add_distrib]
  refine Finset.sum_congr rfl fun i _ => ?_
  show (if (f i ^^ g i) = true then _ else _) = _
  cases f i <;> cases g i <;> simp [add_self]

/-- one place up -/
theorem ofBits_shift : ofBits p n (fun i => decide (0 < i) && f (i - 1))
    + (if 0 < n ∧ f (n - 1) = true then AdjoinRoot.root p ^ n else 0) = AdjoinRoot.root p * ofBits p n f := by
  induction n with
  | zero => simp [ofBits]
  | succ n ih =>
    rw [ofBits_succ, ofBits_succ, mul_add, ← ih]
    cases hf : f n <;> cases n <;> simp [hf, pow_succ', add_comm, add_left_comm]

theorem ofBits_mem {S : Finset Nat} (h : S ⊆ Finset.range n) :
    ofBits p n (fun i => decide (i ∈ S)) = ∑ i ∈ S, AdjoinRoot.root p ^ i := by
  unfold ofBits
  rw [← Finset.sum_subset h]
  · exact Finset.sum_congr rfl fun i hi => by simp [hi]
  · intro i _ hi
    simp [hi]

end

/-! ## below the degree -/

/-- the polynomial of the bits -/
noncomputable def bitsPoly (n : Nat) (f : Nat → Bool) : (ZMod 2)[X] :=
  ∑ i ∈ Finset.range n, if f i then X ^ i else 0

theorem mk_bitsPoly (f : Nat → Bool) : AdjoinRoot.mk p (bitsPoly n f) = ofBits p n f := by
  unfold bitsPoly ofBits
  rw [map_sum]
  refine Finset.sum_congr rfl fun i _ => ?_
  cases f i <;> simp

theorem coeff_bitsPoly (f : Nat → Bool) {i : Nat} (hi : i < n) :
    (bitsPoly n f).coeff i = if f i then 1 else 0 := by
  unfold bitsPoly
  rw [finsetSum_coeff, Finset.sum_eq_single i]
  · cases f i <;> simp
  · intro j _ hj
    cases f j <;> simp [coeff_X_pow, Ne.symm hj]
  · exact fun h => absurd (Finset.mem_range.mpr hi) h

theorem degree_bitsPoly_lt (f : Nat → Bool) : (bitsPoly n f).degree < n := by
  unfold bitsPoly
  refine lt_of_le_of_lt (degree_sum_le _ _) ((Finset.sup_lt_iff (WithBot.bot_lt_coe n)).mpr fun i hi => ?_)
  have hlt : (i : WithBot Nat) < n := WithBot.coe_lt_coe.mpr (Finset.mem_range.mp hi)
  cases f i
  · exact lt_of_le_of_lt (le_of_eq degree_zero) (WithBot.bot_lt_coe n)
  · exact lt_of_le_of_lt (degree_X_pow_le i) hlt

theorem ofBits_inj (hp : p.Monic) (hn : p.natDegree = n) {f g : Nat → Bool} :
    ofBits p n f = ofBits p n g ↔ ∀ i < n, f i = g i := by
  constructor
  · intro h i hi
    rw [← mk_bitsPoly, ← mk_bitsPoly, AdjoinRoot.mk_eq_mk] at h
    have hdeg : (bitsPoly n f - bitsPoly n g).degree < p.degree := by
      rw [degree_eq_natDegree hp.ne_zero, hn]
      exact lt_of_le_of_lt (degree_sub_le _ _) (max_lt (degree_bitsPoly_lt f) (degree_bitsPoly_lt g))
    have hz : bitsPoly n f - bitsPoly n g = 0 := by
      by_contra hne
      exact hp.not_dvd_of_degree_lt hne hdeg h
    have hc := congrArg (fun q => coeff q i) (sub_eq_zero.mp hz)
    simp only [coeff_bitsPoly _ hi] at hc
    cases hf : f i <;> cases hg : g i <;> simp [hf, hg] at hc ⊢
  · exact ofBits_congr

/-! ## products -/

section
variable {B : Type*} (add : B → B → B) (dbl : B → B)

/-- bit after bit of the first factor, with the second one moved along -/
def shiftAdd (x : Nat → Bool) (s : B × B) (k : Nat) : B × B := (if x k then add s.1 s.2 else s.1, dbl s.2)

variable {add} {dbl} {I : B → Prop} {val : B → AdjoinRoot p}

theorem shiftAdd_eq (hadd : ∀ a b, I a → I b → I (add a b) ∧ val (add a b) = val a + val b)
    (hdbl : ∀ b, I b → I (dbl b) ∧ val (dbl b) = AdjoinRoot.root p * val b) (x : Nat → Bool)
    {s : B × B} (h1 : I s.1) (h2 : I s.2) (n : Nat) :
    let t := (List.range n).foldl (shiftAdd add dbl x) s
    I t.1 ∧ I t.2 ∧ val t.1 = val s.1 + ofBits p n x * val s.2
      ∧ val t.2 = AdjoinRoot.root p ^ n * val s.2 := by
  induction n with
  | zero => exact ⟨h1, h2, by simp [ofBits], by simp⟩
  | succ n ih =>
    obtain ⟨i1, i2, v1, v2⟩ := ih
    dsimp only at i1 i2 v1 v2 ⊢
    rw [List.range_succ, List.foldl_append]
    generalize (List.range n).foldl (shiftAdd add dbl x) s = t at i1 i2 v1 v2
    refine ⟨?_, (hdbl _ i2).1, ?_, ?_⟩
    · show I (if x n then add t.1 t.2 else t.1)
      split
      · exact (hadd _ _ i1 i2).1
      · exact i1
    · show val (if x n then add t.1 t.2 else t.1) = _
      rw [ofBits_succ, add_mul, ← add_assoc, ← v1]
      cases x n
      · simp
      · simp [(hadd _ _ i1 i2).2, v2]
    · show val (dbl t.2) = _
      rw [(hdbl _ i2).2, v2, pow_succ', mul_assoc]

end

/-! ## hashes -/

section
variable {R : Type*} [CommRing R]

/-- what is added, block after block, before each product -/
noncomputable def hashPoly (l : List R) : R[X] := l.foldl (fun q b => (q + C b) * X) 0

theorem hashPoly_concat (l : List R) (b : R) : hashPoly (l ++ [b]) = (hashPoly l + C b) * X := by
  unfold hashPoly
  rw [List.foldl_append]
  rfl

theorem eval_hashPoly (h : R) (l : List R) :
    (hashPoly l).eval h = l.foldl (fun y b => (y + b) * h) 0 := by
  induction l using List.reverseRecOn with
  | nil => exact eval_zero
  | append_singleton l b ih =>
    rw [hashPoly_concat, List.foldl_append, ← ih]
    simp

theorem natDegree_hashPoly_le (l : List R) : (hashPoly l).natDegree ≤ l.length := by
  induction l using List.reverseRecOn with
  | nil => exact Nat.le_of_eq natDegree_zero
  | append_singleton l b ih =>
    rw [hashPoly_concat, List.length_append]
    refine (natDegree_mul_le).trans (Nat.add_le_add ?_ natDegree_X_le)
    exact (natDegree_add_C).trans_le ih

theorem coeff_hashPoly_zero (l : List R) : (hashPoly l).coeff 0 = 0 := by
  induction l using List.reverseRecOn with
  | nil => exact coeff_zero 0
  | append_singleton l b _ => rw [hashPoly_concat, coeff_mul_X_zero]

/-- from the last block on -/
theorem coeff_hashPoly (l : List R) (k : Nat) : (hashPoly l).coeff (k + 1) = l.reverse.getD k 0 := by
  induction l using List.reverseRecOn generalizing k with
  | nil => exact coeff_zero _
  | append_singleton l b ih =>
    rw [hashPoly_concat, coeff_mul_X, coeff_add, List.reverse_append]
    cases k with
    | zero =>
      rw [coeff_hashPoly_zero, coeff_C_zero, zero_add]
      rfl
    | succ k =>
      rw [ih, coeff_C_succ, add_zero]
      rfl

theorem hashPoly_inj {l l' : List R} (hlen : l.length = l'.length) :
    hashPoly l = hashPoly l' ↔ l = l' := by
  constructor
  · intro h
    apply List.reverse_injective
    apply List.ext_getElem
    · rw [List.length_reverse, List.length_reverse, hlen]
    · intro k hk hk'
      rw [← List.getD_eq_getElem _ 0 hk, ← List.getD_eq_getElem _ 0 hk', ← coeff_hashPoly, ← coeff_hashPoly, h]
  · rintro rfl
    rfl

/-- two hashes differ by `d` for few keys only -/
theorem card_hash_le [IsDomain R] {l l' : List R} (d : R) (hne : hashPoly l ≠ hashPoly l') :
    {h : R | (hashPoly l).eval h = (hashPoly l').eval h + d}.encard ≤ (max l.length l'.length : Nat) := by
  classical
  have hq : hashPoly l - hashPoly l' - C d ≠ 0 := by
    intro hz
    refine hne (ext fun k => ?_)
    cases k with
    | zero => rw [coeff_hashPoly_zero, coeff_hashPoly_zero]
    | succ k =>
      have hk := congrArg (fun q => coeff q (k + 1)) hz
      simp only [coeff_sub, coeff_C_succ, sub_zero, coeff_zero] at hk
      exact sub_eq_zero.mp hk
  have hroots : {h : R | (hashPoly l).eval h = (hashPoly l').eval h + d}
      = ((hashPoly l - hashPoly l' - C d).roots.toFinset : Set R) := by
    ext h
    rw [Set.mem_ofPred_eq, Finset.mem_coe, Multiset.mem_toFinset, mem_roots hq]
    unfold IsRoot
    rw [eval_sub, eval_sub, eval_C, sub_sub, sub_eq_zero]
  have hdeg : (hashPoly l - hashPoly l' - C d).natDegree ≤ max l.length l'.length := by
    refine (natDegree_sub_le _ _).trans (max_le ((natDegree_sub_le _ _).trans ?_) ?_)
    · exact max_le_max (natDegree_hashPoly_le l) (natDegree_hashPoly_le l')
    · rw [natDegree_C]
      exact Nat.zero_le _
  rw [hroots, Set.encard_coe_eq_coe_finsetCard, Nat.cast_le]
  exact ((Multiset.toFinset_card_le _).trans (card_roots' _)).trans hdeg

end

/-! ## no factors -/

/-- one turn of `x` on a number of bits; `c` has what leaves at the top and what comes for it -/
def natDouble (n c v : Nat) : Nat := if (2 * v).testBit n then 2 * v ^^^ c else 2 * v

def natMul (n c x y : Nat) : Nat :=
  ((List.range n).foldl (shiftAdd (fun a b : Nat => a ^^^ b) (natDouble n c) x.testBit) (0, y)).1

/-- `k` times the square -/
def natSquares (n c : Nat) : Nat → Nat → Nat
  | 0, x => x
  | k + 1, x => natSquares n c k (natMul n c x x)

section
variable {c : Nat}

theorem natDouble_eq (hc : ∀ i, n ≤ i → c.testBit i = decide (i = n))
    (hroot : ofBits p n c.testBit = AdjoinRoot.root p ^ n) {v : Nat} (hv : v < 2 ^ n) :
    natDouble n c v < 2 ^ n
      ∧ ofBits p n (natDouble n c v).testBit = AdjoinRoot.root p * ofBits p n v.testBit := by
  have hbit : ∀ i, (2 * v).testBit i = (decide (0 < i) && v.testBit (i - 1)) := by
    intro i
    cases i with
    | zero => simp
    | succ i => simp [Nat.testBit_succ]
  have htop : ∀ i, n < i → (2 * v).testBit i = false := by
    intro i hi
    rw [hbit, Nat.testBit_lt_two_pow (hv.trans_le (Nat.pow_le_pow_right (by omega) (by omega))), Bool.and_false]
  have hlow : ofBits p n (2 * v).testBit = ofBits p n fun i => decide (0 < i) && v.testBit (i - 1) :=
    ofBits_congr fun i _ => hbit i
  rw [← ofBits_shift, ← hlow]
  unfold natDouble
  by_cases hn : (2 * v).testBit n = true
  · have hcond : 0 < n ∧ v.testBit (n - 1) = true := by
      rw [hbit] at hn
      simpa using hn
    rw [if_pos hn, if_pos hcond, ← hroot, ← ofBits_xor]
    constructor
    · apply Nat.lt_pow_two_of_testBit
      intro i hi
      rw [Nat.testBit_xor, hc i hi]
      rcases Nat.eq_or_lt_of_le hi with rfl | hlt
      · rw [hn]
        simp
      · rw [htop i hlt]
        simp [Nat.ne_of_gt hlt]
    · exact ofBits_congr fun i _ => Nat.testBit_xor ..
  · have hcond : ¬(0 < n ∧ v.testBit (n - 1) = true) := by
      rw [hbit] at hn
      simpa using hn
    rw [if_neg hn, if_neg hcond, add_zero]
    refine ⟨Nat.lt_pow_two_of_testBit _ fun i hi => ?_, rfl⟩
    rcases Nat.eq_or_lt_of_le hi with rfl | hlt
    · simpa using hn
    · exact htop i hlt

theorem natMul_eq (hc : ∀ i, n ≤ i → c.testBit i = decide (i = n))
    (hroot : ofBits p n c.testBit = AdjoinRoot.root p ^ n) (x : Nat) {y : Nat} (hy : y < 2 ^ n) :
    natMul n c x y < 2 ^ n
      ∧ ofBits p n (natMul n c x y).testBit = ofBits p n x.testBit * ofBits p n y.testBit := by
  have hadd : ∀ a b : Nat, a < 2 ^ n → b < 2 ^ n →
      a ^^^ b < 2 ^ n ∧ ofBits p n (a ^^^ b).testBit = ofBits p n a.testBit + ofBits p n b.testBit := by
    intro a b ha hb
    refine ⟨Nat.xor_lt_two_pow ha hb, ?_⟩
    rw [← ofBits_xor]
    exact ofBits_congr fun i _ => Nat.testBit_xor ..
  have hzero : ofBits p n (0 : Nat).testBit = 0 := by
    rw [← ofBits_false (p := p) (n := n)]
    exact ofBits_congr fun i _ => Nat.zero_testBit i
  have hdbl : ∀ b : Nat, b < 2 ^ n → natDouble n c b < 2 ^ n
      ∧ ofBits p n (natDouble n c b).testBit = AdjoinRoot.root p * ofBits p n b.testBit :=
    fun b hb => natDouble_eq hc hroot hb
  have h := @shiftAdd_eq p Nat _ _ (fun v => v < 2 ^ n) (fun v => ofBits p n v.testBit) hadd hdbl x.testBit
    ((0 : Nat), y) (Nat.two_pow_pos n) hy n
  refine ⟨h.1, ?_⟩
  unfold natMul
  rw [h.2.2.1, hzero, zero_add]

theorem natSquares_eq (hc : ∀ i, n ≤ i → c.testBit i = decide (i = n))
    (hroot : ofBits p n c.testBit = AdjoinRoot.root p ^ n) (k : Nat) {x : Nat} (hx : x < 2 ^ n) :
    natSquares n c k x < 2 ^ n
      ∧ ofBits p n (natSquares n c k x).testBit = ofBits p n x.testBit ^ 2 ^ k := by
  induction k generalizing x with
  | zero => exact ⟨hx, by rw [pow_zero, pow_one]; rfl⟩
  | succ k ih =>
    obtain ⟨hlt, hval⟩ := natMul_eq hc hroot x hx
    obtain ⟨hlt', hval'⟩ := ih hlt
    refine ⟨hlt', ?_⟩
    unfold natSquares
    rw [hval', hval, ← pow_two, ← pow_mul, ← pow_succ']

end

/-- a polynomial of a degree `2 ^ (m + 1)`: `x` is back after that many squares, and half as many make it differ
by something that has an inverse -/
theorem irreducible_of_squares {m : Nat} (hp : p.natDegree = 2 ^ (m + 1))
    (hback : AdjoinRoot.root p ^ 2 ^ 2 ^ (m + 1) = AdjoinRoot.root p)
    (hunit : IsUnit (AdjoinRoot.root p ^ 2 ^ 2 ^ m - AdjoinRoot.root p)) : Irreducible p := by
  have hp0 : p ≠ 0 := by
    rintro rfl
    rw [natDegree_zero] at hp
    exact absurd hp.symm (by positivity)
  have hnu : ¬IsUnit p := by
    intro h
    rw [natDegree_eq_zero_of_isUnit h] at hp
    exact absurd hp.symm (by positivity)
  have hcard : Nat.card (ZMod 2) = 2 := Nat.card_zmod 2
  obtain ⟨f, hf, hfp⟩ := WfDvdMonoid.exists_irreducible_factor hnu hp0
  have hmk : ∀ k, AdjoinRoot.mk p (X ^ 2 ^ k - X) = AdjoinRoot.root p ^ 2 ^ k - AdjoinRoot.root p := by
    intro k
    simp
  have hdvd : f ∣ X ^ Nat.card (ZMod 2) ^ 2 ^ (m + 1) - X := by
    refine hfp.trans (AdjoinRoot.mk_eq_zero.mp ?_)
    rw [hcard, hmk, hback, sub_self]
  have hdeg : f.natDegree ∣ 2 ^ (m + 1) := hf.natDegree_dvd_of_dvd_X_pow_card_pow_sub_X hdvd
  obtain ⟨k, hk, hfk⟩ := (Nat.dvd_prime_pow Nat.prime_two).mp hdeg
  rcases Nat.lt_or_ge k (m + 1) with hlt | hge
  · exfalso
    have hhalf : f ∣ X ^ 2 ^ 2 ^ m - X := by
      have := hf.natDegree_dvd_iff_dvd_X_pow_card_pow_sub_X.mp
        (show f.natDegree ∣ 2 ^ m from hfk ▸ Nat.pow_dvd_pow 2 (by omega))
      rwa [hcard] at this
    rw [← hmk] at hunit
    obtain ⟨u, hu⟩ := hunit.exists_right_inv
    obtain ⟨q, rfl⟩ := AdjoinRoot.mk_surjective u
    rw [← map_mul, ← map_one (AdjoinRoot.mk p), AdjoinRoot.mk_eq_mk] at hu
    have hone : f ∣ 1 := by
      have := (dvd_mul_of_dvd_left hhalf q).sub (hfp.trans hu)
      rwa [sub_sub_cancel] at this
    exact hf.not_isUnit (isUnit_of_dvd_one hone)
  · have hassoc : Associated f p := by
      refine associated_of_dvd_of_natDegree_le hfp hp0 ?_
      rw [hp, hfk]
      exact Nat.pow_le_pow_right (by omega) hge
    exact hassoc.irreducible hf

end BinaryPoly
