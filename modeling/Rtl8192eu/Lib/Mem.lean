import Mathlib.Data.List.Basic
import Mathlib.Logic.Function.Basic

/-!
# Byte memory

A memory is a function from addresses to cells.  A program writes lists of cells at an address and
reads lists back.

* `write m a bs`, `read m a n`
* `read_write_self`, `read_write_of_disjoint`   what is read after a write;
* `read_write_inside`   a part of what was written;
* `read_add`, `read_sub`   a read is cut at any place;
* `shift m a`, `ahead l m`   the memory from `a` on, and the cells `l` in front of
                                                a memory;
* `Logged`, `updAll`   cells that are changed one by one, and which.
-/

namespace Mem

variable {β : Type*}

def write (m : Nat → β) (a : Nat) (bs : List β) : Nat → β := fun i =>
  if a ≤ i then (bs[i - a]?).getD (m i) else m i

def read (m : Nat → β) (a n : Nat) : List β := (List.range n).map fun i => m (a + i)

variable {m m' : Nat → β} {a b i n k : Nat} {bs : List β}

/-! ## one cell -/

theorem write_of_lt (h : i < a) : write m a bs i = m i := if_neg (Nat.not_le.mpr h)

theorem write_of_ge (h : a + bs.length ≤ i) : write m a bs i = m i := by
  have ha : a ≤ i := by omega
  have hi : bs.length ≤ i - a := by omega
  rw [write, if_pos ha, List.getElem?_eq_none hi, Option.getD_none]

theorem write_of_out (h : ¬(a ≤ i ∧ i < a + bs.length)) : write m a bs i = m i := by
  rcases Nat.lt_or_ge i a with hlt | hge
  · exact write_of_lt hlt
  · exact write_of_ge (Nat.le_of_not_lt fun hlt => h ⟨hge, hlt⟩)

@[simp] theorem write_nil : write m a [] = m := by
  funext i
  apply write_of_out
  rintro ⟨hge, hlt⟩
  exact absurd hge (Nat.not_le.mpr hlt)

theorem write_add (h : i < bs.length) : write m a bs (a + i) = bs[i] := by
  rw [write, if_pos (Nat.le_add_right a i), Nat.add_sub_cancel_left, List.getElem?_eq_getElem h,
    Option.getD_some]

theorem write_one_self (x : β) : write m a [x] a = x := by
  rw [write, if_pos (Nat.le_refl a), Nat.sub_self]
  rfl

theorem write_one_of_ne (x : β) (h : i ≠ a) : write m a [x] i = m i := by
  rcases Nat.lt_or_gt_of_ne h with h | h
  · exact write_of_lt h
  · exact write_of_ge h

/-! ## reads -/

@[simp] theorem length_read : (read m a n).length = n := by simp [read]

@[simp] theorem getElem_read (h : i < (read m a n).length) : (read m a n)[i] = m (a + i) := by
  simp [read]

theorem read_congr (h : ∀ i, a ≤ i → i < a + n → m i = m' i) : read m a n = read m' a n := by
  apply List.map_congr_left
  intro i hi
  have := List.mem_range.mp hi
  exact h (a + i) (by omega) (by omega)

/-- cells of two memories, at two places -/
theorem read_congr_at (h : ∀ i < n, m (a + i) = m' (b + i)) : read m a n = read m' b n := by
  apply List.map_congr_left
  intro i hi
  exact h i (List.mem_range.mp hi)

theorem read_add : read m a (n + k) = read m a n ++ read m (a + n) k := by
  unfold read
  rw [List.range_add, List.map_append, List.map_map]
  congr 1
  apply List.map_congr_left
  intro i _
  show m (a + (n + i)) = m (a + n + i)
  rw [Nat.add_assoc]

theorem read_eq_append {xs ys : List β} :
    read m a (xs ++ ys).length = xs ++ ys
      ↔ read m a xs.length = xs ∧ read m (a + xs.length) ys.length = ys := by
  rw [List.length_append, read_add]
  constructor
  · intro h
    exact List.append_inj h length_read
  · rintro ⟨hx, hy⟩
    rw [hx, hy]

/-- a part of a read -/
theorem read_sub (h : k + i ≤ n) : read m (a + k) i = ((read m a n).drop k).take i := by
  obtain ⟨j, rfl⟩ := Nat.exists_eq_add_of_le h
  rw [Nat.add_assoc, read_add, List.drop_left' length_read, read_add, List.take_left' length_read]

theorem drop_read (m : Nat → β) (a n k : Nat) : (read m a n).drop k = read m (a + k) (n - k) := by
  apply List.ext_getElem
  · rw [List.length_drop, length_read, length_read]
  · intro i _ _
    rw [List.getElem_drop, getElem_read, getElem_read, Nat.add_assoc]

/-- memories that agree on `n` cells agree on each part of them -/
theorem read_sub_congr (he : read m a n = read m' b n) (h : k + i ≤ n) :
    read m (a + k) i = read m' (b + k) i := by rw [read_sub h, read_sub h, he]

theorem cell_congr (he : read m a n = read m' b n) (h : i < n) : m (a + i) = m' (b + i) := by
  have h1 := read_sub_congr (i := 1) he (k := i) h
  exact List.head_eq_of_cons_eq h1

theorem read_write_of_disjoint (h : a + n ≤ b ∨ b + bs.length ≤ a) :
    read (write m b bs) a n = read m a n := by
  apply read_congr
  intro i hl hr
  apply write_of_out
  omega

theorem read_write_self (h : n = bs.length) : read (write m a bs) a n = bs := by
  subst h
  apply List.ext_getElem length_read
  intro i _ hi
  rw [getElem_read, write_add hi]

theorem read_write_append : read (write m (a + n) bs) a (n + bs.length) = read m a n ++ bs := by
  rw [read_add, read_write_self rfl, read_write_of_disjoint (Or.inl (Nat.le_refl _))]

theorem write_append {xs ys : List β} :
    write (write m a xs) (a + xs.length) ys = write m a (xs ++ ys) := by
  funext i
  rcases Nat.lt_or_ge i (a + xs.length) with hi | hi
  · rw [write_of_lt hi]
    rcases Nat.lt_or_ge i a with ha | ha
    · rw [write_of_lt ha, write_of_lt ha]
    · obtain ⟨k, rfl⟩ := Nat.exists_eq_add_of_le ha
      have hk : k < xs.length := by omega
      rw [write_add hk, write_add (by rw [List.length_append]; omega), List.getElem_append_left hk]
  · obtain ⟨k, rfl⟩ := Nat.exists_eq_add_of_le hi
    rcases Nat.lt_or_ge k ys.length with hk | hk
    · rw [write_add hk, Nat.add_assoc, write_add (by rw [List.length_append]; omega),
        List.getElem_append_right (Nat.le_add_right _ _)]
      congr 1
      omega
    · rw [write_of_ge (by omega), write_of_ge (by omega),
        write_of_ge (by rw [List.length_append]; omega)]

/-- a write in front of another one -/
theorem write_prepend {xs ys : List β} :
    write (write m (a + xs.length) ys) a xs = write m a (xs ++ ys) := by
  funext i
  rcases Nat.lt_or_ge i a with ha | ha
  · rw [write_of_lt ha, write_of_lt ha, write_of_lt (by omega)]
  · obtain ⟨k, rfl⟩ := Nat.exists_eq_add_of_le ha
    rcases Nat.lt_or_ge k xs.length with hk | hk
    · rw [write_add hk, write_add (by rw [List.length_append]; omega), List.getElem_append_left hk]
    · obtain ⟨j, rfl⟩ := Nat.exists_eq_add_of_le hk
      rw [write_of_ge (by omega)]
      rcases Nat.lt_or_ge j ys.length with hj | hj
      · rw [← Nat.add_assoc, write_add hj, Nat.add_assoc,
          write_add (by rw [List.length_append]; omega),
          List.getElem_append_right (Nat.le_add_right _ _)]
        congr 1
        omega
      · rw [write_of_ge (by omega), write_of_ge (by rw [List.length_append]; omega)]

theorem update_write (h : k < bs.length) (x : β) :
    Function.update (write m a bs) (a + k) x = write m a (bs.set k x) := by
  funext i
  by_cases hi : i = a + k
  · subst hi
    have hk : k < (bs.set k x).length := by
      rw [List.length_set]
      exact h
    rw [Function.update_self, write_add hk, List.getElem_set_self]
  · rw [Function.update_of_ne hi]
    unfold write
    by_cases ha : a ≤ i
    · rw [if_pos ha, if_pos ha, List.getElem?_set_ne (by omega)]
    · rw [if_neg ha, if_neg ha]

/-- a write inside another one -/
theorem write_write {xs ys : List β} (h : k + ys.length ≤ xs.length) :
    write (write m a xs) (a + k) ys = write m a (xs.take k ++ (ys ++ xs.drop (k + ys.length))) := by
  funext i
  rcases Nat.lt_or_ge i a with hi | hi
  · rw [write_of_lt (by omega), write_of_lt hi, write_of_lt hi]
  obtain ⟨j, rfl⟩ := Nat.exists_eq_add_of_le hi
  have htake : (xs.take k).length = k := List.length_take_of_le (by omega)
  have hlen : (xs.take k ++ (ys ++ xs.drop (k + ys.length))).length = xs.length := by
    rw [List.length_append, List.length_append, List.length_drop, htake]
    omega
  rcases Nat.lt_or_ge j xs.length with hj | hj
  · rw [write_add (by rw [hlen]; exact hj)]
    rcases Nat.lt_or_ge j k with hjk | hjk
    · rw [write_of_lt (by omega), write_add hj, List.getElem_append_left (by rw [htake]; exact hjk),
        List.getElem_take]
    · obtain ⟨l, rfl⟩ := Nat.exists_eq_add_of_le hjk
      rw [List.getElem_append_right (by rw [htake]; exact hjk)]
      simp only [htake, Nat.add_sub_cancel_left]
      rcases Nat.lt_or_ge l ys.length with hl | hl
      · rw [← Nat.add_assoc, write_add hl, List.getElem_append_left hl]
      · rw [write_of_ge (by omega), write_add hj, List.getElem_append_right hl, List.getElem_drop]
        congr 1
        omega
  · rw [write_of_ge (by omega), write_of_ge (by omega), write_of_ge (by omega)]

theorem write_blank {x : β} (h : ∀ i, a ≤ i → m i = x) (n : Nat) : write m a (List.replicate n x) = m := by
  funext i
  rcases Nat.lt_or_ge i a with hi | hi
  · exact write_of_lt hi
  · obtain ⟨k, rfl⟩ := Nat.exists_eq_add_of_le hi
    rcases Nat.lt_or_ge k n with hk | hk
    · rw [write_add (by rw [List.length_replicate]; exact hk), List.getElem_replicate, h _ hi]
    · exact write_of_ge (by rw [List.length_replicate]; omega)

/-- a piece is overwritten by one of its size -/
theorem read_write_middle {xs ys ws zs : List β}
    (h : read m a (xs ++ (ys ++ zs)).length = xs ++ (ys ++ zs)) (hl : ws.length = ys.length) :
    read (write m (a + xs.length) ws) a (xs ++ (ws ++ zs)).length = xs ++ (ws ++ zs) := by
  obtain ⟨hx, hyz⟩ := read_eq_append.mp h
  obtain ⟨-, hz⟩ := read_eq_append.mp hyz
  rw [← hl] at hz
  refine read_eq_append.mpr ⟨?_, read_eq_append.mpr ⟨read_write_self rfl, ?_⟩⟩
  · rw [read_write_of_disjoint (Or.inl (Nat.le_refl _)), hx]
  · rw [read_write_of_disjoint (Or.inr (Nat.le_refl _)), hz]

theorem read_write_inside (h : k + n ≤ bs.length) :
    read (write m a bs) (a + k) n = (bs.drop k).take n := by
  apply List.ext_getElem
  · rw [length_read, List.length_take, List.length_drop]
    omega
  · intro i hi _
    rw [length_read] at hi
    rw [getElem_read, List.getElem_take, List.getElem_drop, Nat.add_assoc, write_add (by omega)]

/-! ## memory from an address on -/

def shift (m : Nat → β) (a : Nat) : Nat → β := fun i => m (a + i)

/-- the cells `l`, and the memory `m` behind them -/
def ahead (l : List β) (m : Nat → β) : Nat → β := fun i => (l[i]?).getD (m (i - l.length))

@[simp] theorem shift_zero : shift m 0 = m := funext fun i => congrArg m (Nat.zero_add i)

theorem shift_shift : shift (shift m a) b = shift m (a + b) := by
  funext i
  show m (a + (b + i)) = m (a + b + i)
  rw [Nat.add_assoc]

theorem read_shift : read (shift m a) b n = read m (a + b) n := by
  apply List.map_congr_left
  intro i _
  show m (a + (b + i)) = m (a + b + i)
  rw [Nat.add_assoc]

theorem shift_write : shift (write m (a + b) bs) a = write (shift m a) b bs := by
  funext i
  show write m (a + b) bs (a + i) = _
  unfold write
  by_cases h : b ≤ i
  · rw [if_pos h, if_pos (Nat.add_le_add_left h a), Nat.add_sub_add_left]
    rfl
  · rw [if_neg h, if_neg (fun h' => h (Nat.le_of_add_le_add_left h'))]
    rfl

theorem ahead_of_lt {l : List β} (h : i < l.length) : ahead l m i = l[i] := by
  rw [ahead, List.getElem?_eq_getElem h, Option.getD_some]

theorem ahead_add (l : List β) (i : Nat) : ahead l m (l.length + i) = m i := by
  rw [ahead, List.getElem?_eq_none (Nat.le_add_right ..), Option.getD_none, Nat.add_sub_cancel_left]

theorem shift_ahead (l : List β) : shift (ahead l m) l.length = m := funext fun i => ahead_add l i

theorem shift_ahead_read (a n : Nat) : shift (ahead (read m a n) m') n = m' := by
  have h : shift (ahead (read m a n) m') (read m a n).length = m' := shift_ahead _
  rw [length_read] at h
  exact h

theorem ahead_append (xs ys : List β) : ahead (xs ++ ys) m = ahead xs (ahead ys m) := by
  funext i
  rcases Nat.lt_or_ge i xs.length with h | h
  · rw [ahead_of_lt (by rw [List.length_append]; omega), ahead_of_lt h, List.getElem_append_left h]
  · obtain ⟨k, rfl⟩ := Nat.exists_eq_add_of_le h
    rw [ahead_add]
    unfold ahead
    rw [List.getElem?_append_right (Nat.le_add_right ..), List.length_append, Nat.add_sub_cancel_left,
      Nat.add_sub_add_left]

theorem read_ahead {l : List β} (h : n = l.length) : read (ahead l m) 0 n = l := by
  subst h
  apply List.ext_getElem length_read
  intro i _ hi
  rw [getElem_read, Nat.zero_add, ahead_of_lt hi]

theorem read_ahead_take {l : List β} (h : n ≤ l.length) : read (ahead l m) 0 n = l.take n := by
  conv_lhs => rw [← List.take_append_drop n l, ahead_append]
  exact read_ahead (List.length_take_of_le h).symm

/-- a piece of what lies behind `xs` -/
theorem read_behind (xs : List β) {ys : List β} (h : shift m a = ahead (xs ++ ys) m') (hn : n ≤ ys.length) :
    read m (a + xs.length) n = ys.take n := by
  rw [← Nat.add_zero (a + xs.length), ← read_shift, ← shift_shift, h, ahead_append, shift_ahead,
    read_ahead_take hn]

/-- a memory begins with what is read of it -/
theorem ahead_read (m : Nat → β) (n : Nat) : ahead (read m 0 n) (shift m n) = m := by
  funext i
  rcases Nat.lt_or_ge i n with h | h
  · rw [ahead_of_lt (by rw [length_read]; exact h), getElem_read, Nat.zero_add]
  · obtain ⟨k, rfl⟩ := Nat.exists_eq_add_of_le h
    have h1 := ahead_add (m := shift m n) (read m 0 n) k
    rw [length_read] at h1
    exact h1

/-- the second piece of a read, and the memory behind it -/
theorem shift_of_read {xs ys : List β} (h : read m 0 n = xs ++ ys) :
    shift m xs.length = ahead ys (shift m n) := by
  have hn : n = xs.length + ys.length := by
    have := congrArg List.length h
    rwa [length_read, List.length_append] at this
  have hys : read (shift m xs.length) 0 ys.length = ys := by
    rw [hn, read_add, Nat.zero_add] at h
    rw [read_shift]
    exact (List.append_inj h length_read).2
  rw [← ahead_read (shift m xs.length) ys.length, hys, shift_shift, ← hn]

/-- what is written at the start comes first -/
theorem write_zero : write m 0 bs = ahead bs (shift m bs.length) := by
  conv_lhs => rw [← ahead_read m bs.length]
  funext i
  rcases Nat.lt_or_ge i bs.length with h | h
  · have h1 := write_add (m := ahead (read m 0 bs.length) (shift m bs.length)) (a := 0) h
    rw [Nat.zero_add] at h1
    rw [h1, ahead_of_lt h]
  · obtain ⟨k, rfl⟩ := Nat.exists_eq_add_of_le h
    rw [write_of_ge (by omega), ahead_read, ahead_add]
    rfl

/-! ## moves by pieces -/

/-- `n` pieces of `w` cells go up by `d` cells, the last piece first -/
def moveUp (a d w : Nat) : Nat → (Nat → β) → (Nat → β)
  | 0, m => m
  | n + 1, m => moveUp a d w n (write m (a + d + w * n) (read m (a + w * n) w))

/-- `n` pieces of `w` cells go down by `d` cells, the first piece first -/
def moveDown (a d w : Nat) : Nat → (Nat → β) → (Nat → β)
  | 0, m => m
  | n + 1, m =>
    write (moveDown a d w n m) (a + w * n) (read (moveDown a d w n m) (a + d + w * n) w)

theorem moveUp_eq (a d w n : Nat) (m : Nat → β) :
    moveUp a d w n m = write m (a + d) (read m a (w * n)) := by
  induction n generalizing m with
  | zero => exact write_nil.symm
  | succ n ih =>
    -- the pieces below are still the old ones
    have hold : read (write m (a + d + w * n) (read m (a + w * n) w)) a (w * n) = read m a (w * n) :=
      read_write_of_disjoint (Or.inl (by omega))
    have hnext : write (write m (a + d + (read m a (w * n)).length) (read m (a + w * n) w)) (a + d)
        (read m a (w * n)) = _ := write_prepend
    rw [length_read] at hnext
    rw [moveUp, ih, hold, hnext, ← read_add, Nat.mul_succ]

theorem moveDown_eq (a d w n : Nat) (m : Nat → β) :
    moveDown a d w n m = write m a (read m (a + d) (w * n)) := by
  induction n with
  | zero => exact write_nil.symm
  | succ n ih =>
    -- the pieces above are still the old ones
    have hold : read (write m a (read m (a + d) (w * n))) (a + d + w * n) w =
        read m (a + d + w * n) w :=
      read_write_of_disjoint (Or.inr (by rw [length_read]; omega))
    have hnext : write (write m a (read m (a + d) (w * n))) (a + (read m (a + d) (w * n)).length)
        (read m (a + d + w * n) w) = _ := write_append
    rw [length_read] at hnext
    rw [moveDown, ih, hold, hnext, ← read_add, Nat.mul_succ]

/-! ## cells that are changed -/

/-- a memory, and the addresses that were written -/
structure Logged (β : Type*) where
  mem : Nat → β
  written : List Nat

def Logged.upd (s : Logged β) (a : Nat) (f : β → β) : Logged β :=
  ⟨Function.update s.mem a (f (s.mem a)), s.written ++ [a]⟩

/-- one cell after the other -/
def Logged.updAll (s : Logged β) (as : List Nat) (f : Nat → β → β) : Logged β :=
  as.foldl (fun s a => s.upd a (f a)) s

theorem written_updAll (s : Logged β) (as : List Nat) (f : Nat → β → β) :
    (s.updAll as f).written = s.written ++ as := by
  induction as generalizing s with
  | nil => exact (List.append_nil _).symm
  | cons a as ih =>
    show ((s.upd a (f a)).updAll as f).written = _
    rw [ih]
    exact List.append_assoc ..

/-- a cell is changed once -/
theorem mem_updAll (s : Logged β) {as : List Nat} (has : as.Nodup) (f : Nat → β → β) (i : Nat) :
    (s.updAll as f).mem i = if i ∈ as then f i (s.mem i) else s.mem i := by
  induction as generalizing s with
  | nil => rfl
  | cons a as ih =>
    obtain ⟨hno, has⟩ := List.nodup_cons.mp has
    show ((s.upd a (f a)).updAll as f).mem i = _
    rw [ih _ has]
    show (if i ∈ as then f i (Function.update s.mem a _ i) else Function.update s.mem a _ i) = _
    by_cases hia : i = a
    · subst hia
      rw [if_neg hno, Function.update_self, if_pos List.mem_cons_self]
    · rw [Function.update_of_ne hia]
      by_cases hi : i ∈ as
      · rw [if_pos hi, if_pos (List.mem_cons_of_mem _ hi)]
      · have hi' : ¬ i ∈ a :: as := by
          rintro h
          rcases List.mem_cons.mp h with h | h
          · exact hia h
          · exact hi h
        rw [if_neg hi, if_neg hi']

end Mem
