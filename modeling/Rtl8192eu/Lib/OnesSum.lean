import Mathlib.Data.List.Basic

/-!
# Ones'-complement sums

A text is added up as big-endian words of 16 bits, and the carries are added in at the low end.

* `words l`       the sum of the words; a last byte alone is the high half of a word;
* `norm n`        the sum with its carries added in: 0 only for 0, and else 1 to 0xFFFF;
* `norm_carry`    adding in the carries once does not change it;
* `norm_eq_max`   a sum is all ones just when it is a positive multiple of 0xFFFF.
-/

namespace OnesSum

def words : List UInt8 → Nat
  | [] => 0
  | [a] => 256 * a.toNat
  | a :: b :: l => 256 * a.toNat + b.toNat + words l

def norm (n : Nat) : Nat := if n = 0 then 0 else (n - 1) % 65535 + 1

/-- the complement, which is what a packet carries -/
def check (n : Nat) : Nat := 65535 - norm n

variable {n k : Nat}

theorem norm_of_pos (h : 0 < n) : norm n = (n - 1) % 65535 + 1 := if_neg (Nat.ne_of_gt h)

theorem norm_le (n : Nat) : norm n ≤ 65535 := by
  unfold norm
  split
  · exact Nat.zero_le _
  · omega

theorem norm_mod (n : Nat) : norm n % 65535 = n % 65535 := by
  unfold norm
  split
  · rename_i h
    rw [h]
  · omega

theorem norm_of_le (h : n ≤ 65535) : norm n = n := by
  unfold norm
  split
  · rename_i h0
    exact h0.symm
  · omega

theorem norm_congr (hn : 0 < n) (hk : 0 < k) (h : n % 65535 = k % 65535) : norm n = norm k := by
  rw [norm_of_pos hn, norm_of_pos hk]
  omega

theorem norm_carry (n : Nat) : norm (n % 65536 + n / 65536) = norm n := by
  by_cases hn : n = 0
  · rw [hn]
  · apply norm_congr
    · omega
    · omega
    · omega

theorem norm_eq_max (hn : 0 < n) : norm n = 65535 ↔ n % 65535 = 0 := by
  rw [norm_of_pos hn]
  omega

/-- the complement makes the sum a multiple of 0xFFFF -/
theorem check_add (n : Nat) : (check n + n) % 65535 = 0 := by
  have hle := norm_le n
  have hmod := norm_mod n
  unfold check
  omega

theorem check_lt (n : Nat) : check n < 65536 := by
  unfold check
  omega

variable {xs ys : List UInt8}

theorem words_append (h : xs.length % 2 = 0) : words (xs ++ ys) = words xs + words ys := by
  induction xs using words.induct with
  | case1 => exact (Nat.zero_add _).symm
  | case2 a => exact absurd h Nat.one_ne_zero
  | case3 a b xs ih =>
    have hxs : xs.length % 2 = 0 := by
      rw [List.length_cons, List.length_cons] at h
      omega
    show words (a :: b :: (xs ++ ys)) = _
    rw [words, words, ih hxs, Nat.add_assoc _ (words xs)]

end OnesSum
