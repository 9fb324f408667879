import Mathlib.Data.List.GetD
import Mathlib.Tactic.IntervalCases

/-!
# Words and blocks of bytes

`core/crypto/rtw_crypto_wrap.c` and the macros of `osdep_service.h` that the ciphers share.

* `osMemcmpConst`   the comparison without an early end;
* `wpaPutBe16`, `wpaGetBe32`, ..   words, the most significant byte first;
* `blockBit`   the bits of a block, the most significant of the first byte first.
-/

namespace Rtl8192eu

/-- `os_memcmp_const` -/
def osMemcmpConst (a b : List UInt8) (len : Nat) : UInt8 :=
  (List.range len).foldl (fun res i => res ||| (a.getD i 0 ^^^ b.getD i 0)) 0

/-- `WPA_PUT_BE16` -/
def wpaPutBe16 (val : Nat) : List UInt8 := [.ofNat (val / 256), .ofNat val]

/-- `WPA_GET_BE32` at byte `i` -/
def wpaGetBe32 (a : List UInt8) (i : Nat) : UInt32 :=
  (a.getD i 0).toUInt32 <<< 24 ||| (a.getD (i + 1) 0).toUInt32 <<< 16 ||| (a.getD (i + 2) 0).toUInt32 <<< 8
    ||| (a.getD (i + 3) 0).toUInt32

/-- `WPA_PUT_BE32` -/
def wpaPutBe32 (val : UInt32) : List UInt8 :=
  [(val >>> 24).toUInt8, (val >>> 16).toUInt8, (val >>> 8).toUInt8, val.toUInt8]

/-- `WPA_PUT_BE64` -/
def wpaPutBe64 (val : Nat) : List UInt8 := (List.range 8).map fun i => .ofNat (val / 256 ^ (7 - i))

theorem uint8_or_eq_zero {a b : UInt8} : a ||| b = 0 ↔ a = 0 ∧ b = 0 := by
  constructor
  · intro h
    have hbits : ∀ i < 8, a.toBitVec.getLsbD i = false ∧ b.toBitVec.getLsbD i = false := by
      intro i _
      have hi := congrArg (fun c : UInt8 => c.toBitVec.getLsbD i) h
      simpa using hi
    constructor
    · exact UInt8.toBitVec_inj.mp (BitVec.eq_of_getLsbD_eq fun i hi => by simpa using (hbits i hi).1)
    · exact UInt8.toBitVec_inj.mp (BitVec.eq_of_getLsbD_eq fun i hi => by simpa using (hbits i hi).2)
  · rintro ⟨rfl, rfl⟩
    rfl

theorem osMemcmpConst_eq_zero (a b : List UInt8) (len : Nat) :
    osMemcmpConst a b len = 0 ↔ ∀ i < len, a.getD i 0 = b.getD i 0 := by
  unfold osMemcmpConst
  induction len with
  | zero => exact ⟨fun _ i hi => absurd hi (Nat.not_lt_zero i), fun _ => rfl⟩
  | succ len ih =>
    rw [List.range_succ, List.foldl_append, List.foldl_cons, List.foldl_nil, uint8_or_eq_zero, ih]
    constructor
    · rintro ⟨hinit, hlast⟩ i hi
      rcases Nat.lt_succ_iff_lt_or_eq.mp hi with h | rfl
      · exact hinit i h
      · exact UInt8.xor_eq_zero_iff.mp hlast
    · intro h
      exact ⟨fun i hi => h i (by omega), UInt8.xor_eq_zero_iff.mpr (h len (by omega))⟩

theorem osMemcmpConst_take {a b : List UInt8} {len : Nat} (ha : len ≤ a.length) (hb : b.length = len) :
    osMemcmpConst a b len = 0 ↔ a.take len = b := by
  rw [osMemcmpConst_eq_zero]
  constructor
  · intro h
    apply List.ext_getElem
    · rw [List.length_take, hb, Nat.min_eq_left ha]
    · intro i _ hi
      have := h i (by omega)
      rw [List.getD_eq_getElem _ _ (by omega), List.getD_eq_getElem _ _ hi] at this
      rw [List.getElem_take, this]
  · intro h i hi
    rw [← h, List.getD_eq_getElem _ _ (by omega), List.getD_eq_getElem _ _ (by rw [List.length_take]; omega),
      List.getElem_take]

theorem wpaPutBe16_inj {a b : Nat} (ha : a < 65536) (hb : b < 65536) (h : wpaPutBe16 a = wpaPutBe16 b) : a = b := by
  unfold wpaPutBe16 at h
  have h1 : UInt8.ofNat (a / 256) = UInt8.ofNat (b / 256) := (List.cons.inj h).1
  have h2 : UInt8.ofNat a = UInt8.ofNat b := (List.cons.inj (List.cons.inj h).2).1
  have h1' := congrArg UInt8.toNat h1
  have h2' := congrArg UInt8.toNat h2
  simp only [UInt8.toNat_ofNat'] at h1' h2'
  omega

/-! ## bits -/

def blockBit (b : List UInt8) (k : Nat) : Bool := (b.getD (k / 8) 0).toBitVec.getLsbD (7 - k % 8)

theorem blockBit_wpaGetBe32 (a : List UInt8) (i : Nat) {k : Nat} (hk : k < 32) :
    (wpaGetBe32 a i).toBitVec.getLsbD (31 - k) = blockBit a (8 * i + k) := by
  have hdiv : (8 * i + k) / 8 = i + k / 8 := by omega
  have hmod : (8 * i + k) % 8 = k % 8 := by omega
  unfold blockBit wpaGetBe32
  rw [hdiv, hmod]
  interval_cases k <;> simp

theorem blockBit_wpaPutBe32 (val : UInt32) {k : Nat} (hk : k < 32) :
    blockBit (wpaPutBe32 val) k = val.toBitVec.getLsbD (31 - k) := by
  unfold blockBit wpaPutBe32
  interval_cases k <;> simp

theorem blockBit_append_left {a b : List UInt8} {k : Nat} (h : k < 8 * a.length) :
    blockBit (a ++ b) k = blockBit a k := by
  unfold blockBit
  rw [List.getD_append _ _ _ _ (by omega)]

theorem blockBit_append_right {a b : List UInt8} {k : Nat} (h : 8 * a.length ≤ k) :
    blockBit (a ++ b) k = blockBit b (k - 8 * a.length) := by
  unfold blockBit
  rw [List.getD_append_right _ _ _ _ (by omega)]
  have hdiv : (k - 8 * a.length) / 8 = k / 8 - a.length := by omega
  have hmod : (k - 8 * a.length) % 8 = k % 8 := by omega
  rw [hdiv, hmod]

/-- the bits are all there is to a block -/
theorem block_ext {a b : List UInt8} (hlen : a.length = b.length)
    (h : ∀ k < 8 * a.length, blockBit a k = blockBit b k) : a = b := by
  apply List.ext_getElem hlen
  intro i hi hi'
  apply UInt8.toBitVec_inj.mp
  apply BitVec.eq_of_getLsbD_eq
  intro j hj
  have hk := h (8 * i + (7 - j)) (by omega)
  have hdiv : (8 * i + (7 - j)) / 8 = i := by omega
  have hmod : 7 - (8 * i + (7 - j)) % 8 = j := by omega
  unfold blockBit at hk
  rw [hdiv, hmod, List.getD_eq_getElem _ _ hi, List.getD_eq_getElem _ _ hi'] at hk
  exact hk

end Rtl8192eu
