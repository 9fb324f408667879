import Mathlib.Data.List.Basic
import Mathlib.Data.List.Count
import Mathlib.Data.List.Nodup

/-!
# Positions in aligned blocks

Positions of a line that is cut into blocks of `b`: block `k` has those from `b * k` to before
`b * (k + 1)`.

* `inBlock b k l`   how many positions of `l` are in block `k`;
* `inBlock_shift`   the positions moved down by `s`, which divides them and `b`: a block loses what
                      was at its first place and gains what was at the first place of the next.
-/

namespace Blocks

variable {b k s n : Nat} {l : List Nat}

def inBlock (b k : Nat) (l : List Nat) : Nat := l.countP fun o => o / b = k

theorem inBlock_nil : inBlock b k [] = 0 := rfl

theorem inBlock_cons (o : Nat) (l : List Nat) :
    inBlock b k (o :: l) = (if o / b = k then 1 else 0) + inBlock b k l := by
  unfold inBlock
  rw [List.countP_cons, Nat.add_comm]
  simp

theorem inBlock_eq_zero (h : ∀ o ∈ l, o / b ≠ k) : inBlock b k l = 0 := by
  apply List.countP_eq_zero.mpr
  intro o ho
  simpa using h o ho

/-- one position: it stays in its block, unless it is the first place -/
theorem shift_one {o : Nat} (hs : 0 < s) (hb : s ∣ b) (hpos : 0 < b) (ho : s ∣ o) (hle : s ≤ o) :
    (if (o - s) / b = k then 1 else 0) + (if o = b * k then 1 else 0)
      = (if o / b = k then 1 else 0) + if o = b * (k + 1) then 1 else 0 := by
  have hsb : s ≤ b := Nat.le_of_dvd hpos hb
  have hdiv := Nat.div_add_mod o b
  have hlt := Nat.mod_lt o hpos
  have hmod : s ∣ o % b := (Nat.dvd_mod_iff hb).mpr ho
  generalize hq : o / b = q at *
  generalize hr : o % b = r at *
  have hiff : ∀ j, o = b * j ↔ r = 0 ∧ q = j := by
    intro j
    constructor
    · intro h
      rw [h, Nat.mul_mod_right] at hr
      rw [h, Nat.mul_div_cancel_left _ hpos] at hq
      exact ⟨hr.symm, hq.symm⟩
    · intro ⟨h0, hj⟩
      rw [h0, hj] at hdiv
      exact hdiv.symm
  rcases Nat.eq_zero_or_pos r with h0 | h0
  · cases q with
    | zero => omega
    | succ q =>
      have hdown : (o - s) / b = q := by
        rw [Nat.div_eq_iff hpos]
        have hmul : b * (q + 1) = b * q + b := Nat.mul_succ b q
        rw [Nat.mul_comm q b]
        omega
      rw [hdown]
      simp only [hiff, h0, true_and]
      split <;> split <;> split <;> omega
  · have hge : s ≤ r := Nat.le_of_dvd h0 hmod
    have hdown : (o - s) / b = q := by
      rw [Nat.div_eq_iff hpos, Nat.mul_comm q b]
      omega
    rw [hdown]
    have hne : r ≠ 0 := Nat.ne_of_gt h0
    simp [hiff, hne]

theorem inBlock_shift (hs : 0 < s) (hb : s ∣ b) (hpos : 0 < b) (hl : ∀ o ∈ l, s ∣ o ∧ s ≤ o) :
    inBlock b k (l.map (· - s)) + l.count (b * k) = inBlock b k l + l.count (b * (k + 1)) := by
  induction l with
  | nil => rfl
  | cons o l ih =>
    have hrest := ih fun x hx => hl x (List.mem_cons_of_mem _ hx)
    have ho := hl o List.mem_cons_self
    have hone := shift_one (k := k) hs hb hpos ho.1 ho.2
    rw [List.map_cons, inBlock_cons, inBlock_cons, List.count_cons, List.count_cons]
    simp only [beq_iff_eq]
    omega

end Blocks
