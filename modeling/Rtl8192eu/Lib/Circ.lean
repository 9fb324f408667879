import Mathlib.Data.Int.ModEq
import Mathlib.Tactic.Ring
import Mathlib.Tactic.Linarith

/-!
# Half-circle comparison of counters that wrap

A counter of `k + 1` bits is compared by the top bit of a difference: `a` is before `b` when
bit `k` of `a - b` is set, that is when the difference falls into the upper half of the circle.
This is not an order on the whole circle.  It agrees with the order of the unwrapped positions
as long as these stay within half a circle of each other (`circLess_mod`).

* `circLess h a b`   the comparison on the circle of `2 * h` numbers;
* `getLsbD_sub`    the top bit of a machine difference is `circLess`;
* `unwrap h w a`   the position at or after `w` that wraps to `a`.
-/

namespace Circ

/-- `a` is before `b` on the circle of `2 * h` numbers -/
def circLess (h a b : Nat) : Bool := decide ((h : Int) ≤ ((a : Int) - b) % (2 * h : Nat))

/-- **Unwrapping.**  The comparison of two wrapped counters is the comparison of the positions,
if the second is at most `h` ahead and less than `h` behind. -/
theorem circLess_mod {h x y : Nat} (hf : y ≤ x + h) (hb : x < y + h) :
    circLess h (x % (2 * h)) (y % (2 * h)) = decide (x < y) := by
  have e : (((x % (2 * h) : Nat) : Int) - ((y % (2 * h) : Nat) : Int)) % (2 * h : Nat)
      = ((x : Int) - y) % (2 * h : Nat) := by
    rw [Int.natCast_mod, Int.natCast_mod, ← Int.sub_emod]
  unfold circLess
  rw [e, decide_eq_decide]
  by_cases hxy : x < y
  · -- ahead: the difference wraps to `2 * h - (y - x)`
    have hm : ((x : Int) - y) % (2 * h : Nat) = (x : Int) - y + (2 * h : Nat) := by
      rw [← Int.add_emod_right]
      exact Int.emod_eq_of_lt (by omega) (by omega)
    rw [hm]
    omega
  · have hm : ((x : Int) - y) % (2 * h : Nat) = (x : Int) - y :=
      Int.emod_eq_of_lt (by omega) (by omega)
    rw [hm]
    omega

theorem testBit_iff_le_mod (k n : Nat) : n.testBit k = decide (2 ^ k ≤ n % (2 * 2 ^ k)) := by
  have h : n % (2 * 2 ^ k) = n % 2 ^ k + 2 ^ k * (n / 2 ^ k % 2) := by
    rw [Nat.mul_comm]
    exact Nat.mod_mul
  have hlt : n % 2 ^ k < 2 ^ k := Nat.mod_lt _ (Nat.two_pow_pos k)
  rw [Nat.testBit_eq_decide_div_mod_eq, h, decide_eq_decide]
  rcases Nat.mod_two_eq_zero_or_one (n / 2 ^ k) with e | e <;> rw [e] <;> omega

/-- bit `k` of a `w`-bit difference is the comparison on the circle of `2 ^ (k + 1)` numbers -/
theorem getLsbD_sub {k w a b : Nat} (hk : k < w) :
    (BitVec.ofNat w a - BitVec.ofNat w b).getLsbD k = circLess (2 ^ k) a b := by
  have hdvd : (2 * 2 ^ k : Nat) ∣ 2 ^ w := by
    rw [← Nat.pow_succ']
    exact Nat.pow_dvd_pow 2 hk
  have hb : b % 2 ^ w ≤ 2 ^ w := (Nat.mod_lt _ (Nat.two_pow_pos w)).le
  -- the machine difference and the integer difference agree modulo `2 ^ (k + 1)`
  have e : (((2 ^ w - b % 2 ^ w + a % 2 ^ w) % (2 * 2 ^ k) : Nat) : Int)
      = ((a : Int) - b) % (2 * 2 ^ k : Nat) := by
    rw [Int.natCast_mod, Nat.cast_add, Nat.cast_sub hb]
    have ha' : ((a % 2 ^ w : Nat) : Int) = a - 2 ^ w * (a / 2 ^ w) := by
      rw [Int.natCast_mod, Int.emod_def]
      push_cast
      rfl
    have hb' : ((b % 2 ^ w : Nat) : Int) = b - 2 ^ w * (b / 2 ^ w) := by
      rw [Int.natCast_mod, Int.emod_def]
      push_cast
      rfl
    apply Int.ModEq.symm
    apply Int.modEq_iff_dvd.mpr
    rw [ha', hb']
    refine Dvd.dvd.trans (Int.natCast_dvd_natCast.mpr hdvd)
      ⟨1 + (b : Int) / 2 ^ w - (a : Int) / 2 ^ w, ?_⟩
    push_cast
    ring
  rw [← BitVec.testBit_toNat, BitVec.toNat_sub, BitVec.toNat_ofNat, BitVec.toNat_ofNat,
    Nat.testBit_mod_two_pow, testBit_iff_le_mod]
  unfold circLess
  rw [← e, decide_eq_true hk, Bool.true_and, decide_eq_decide]
  exact Int.ofNat_le.symm

/-- the first position at or after `w` that wraps to `a` on the circle of `n` -/
def unwrap (n w a : Nat) : Nat := w + (((a : Int) - w) % n).toNat

theorem le_unwrap (n w a : Nat) : w ≤ unwrap n w a := Nat.le_add_right _ _

theorem unwrap_mod {n a : Nat} (w : Nat) (ha : a < n) : unwrap n w a % n = a := by
  have hn : (0 : Int) < n := by omega
  have h0 : 0 ≤ ((a : Int) - w) % n := Int.emod_nonneg _ (by omega)
  have h : ((unwrap n w a % n : Nat) : Int) = a := by
    unfold unwrap
    rw [Int.natCast_mod, Nat.cast_add, Int.toNat_of_nonneg h0, Int.add_emod,
      Int.emod_emod_of_dvd _ dvd_rfl, ← Int.add_emod, add_sub_cancel]
    exact Int.emod_eq_of_lt (by omega) (by omega)
  exact_mod_cast h

/-- a counter is before `w` exactly when its position after `w` is half a circle or more away -/
theorem circLess_unwrap {h : Nat} (hh : 0 < h) (w a : Nat) :
    circLess h a (w % (2 * h)) = decide (w + h ≤ unwrap (2 * h) w a) := by
  have h0 : 0 ≤ ((a : Int) - w) % (2 * h : Nat) := Int.emod_nonneg _ (by omega)
  unfold circLess unwrap
  rw [decide_eq_decide, Int.natCast_mod, Int.sub_emod, Int.emod_emod_of_dvd _ dvd_rfl,
    ← Int.sub_emod]
  omega

end Circ
