import Rtl8192eu.Ie.Remove

/-!
# An element gets another body

`rtw_get_ie` on a list in memory, and the edit that its callers make there: a new length byte, a new
body, and what follows the element moved behind it.

* `rtwGetIe_mem`   the first element with the id;
* `newBody`        the three writes of the edit;
* `newBody_read`   the list afterwards.
-/

namespace Rtl8192eu

open Records Mem

namespace IeEdit

variable {m behind : Nat → UInt8} {e : Elem} {es pre post : List Elem} {id : UInt8} {a n k limit : Nat}
  {body : List UInt8}

/-! ## the lookup -/

/-- `rtw_get_ie` from the element `e` on -/
theorem getIeLoop_mem (n k : Nat) (e : Elem) (es : List Elem)
    (hm : shift m k = ahead (all elems (e :: es)) behind) (hlen : k + (all elems (e :: es)).length = limit)
    (hn : es.length < n) :
    getIeLoop m id limit n k = (first elems (Elem.hasId id) (e :: es)).map fun x => k + x.1 := by
  induction n generalizing k e es with
  | zero => exact absurd hn (Nat.not_lt_zero _)
  | succ n ih =>
    rw [← List.append_nil (all elems (e :: es))] at hm
    have hid : m k = e.id := by
      have := congrFun hm 0
      rw [Walk.all_cons_append] at this
      exact this
    have hsize := size_ahead hm
    have hl := Walk.length_all_cons e es
    rw [Elem.length_bytes] at hsize
    rw [getIeLoop, hid]
    by_cases he : e.id = id
    · rw [if_pos he, first_cons_of_pos (Elem.hasId_iff.mpr he)]
      rfl
    · have hno := Bool.eq_false_iff.mpr (mt Elem.hasId_iff.mp he)
      rw [if_neg he, first_cons_of_neg hno]
      have hnext : k + (m (k + 1)).toNat + 2 = k + e.bytes.length := by
        rw [Elem.length_bytes]
        omega
      dsimp only
      rw [hnext, Option.map_map]
      cases es with
      | nil =>
        rw [if_pos (by rw [Elem.length_bytes, ← hlen, hl, all_nil]; simp only [List.length_nil]; omega)]
        rfl
      | cons e' es =>
        have hpos := Walk.length_all_cons e' es
        have hm' := shift_size hm
        rw [List.append_nil] at hm'
        rw [List.length_cons] at hn
        rw [if_neg (by rw [Elem.length_bytes]; omega),
          ih (k + e.bytes.length) e' es hm' (by rw [Elem.length_bytes]; omega) (by omega)]
        congr 1
        funext x
        exact Nat.add_assoc ..

/-- **The lookup in memory** finds the first element with the id. -/
theorem rtwGetIe_mem (id : UInt8) (es : List Elem) (h : read m 0 limit = all elems es) :
    rtwGetIe m id limit = (first elems (Elem.hasId id) es).map fun x => (x.1, x.2.body.length) := by
  have hlen := congrArg List.length h
  rw [length_read] at hlen
  unfold rtwGetIe
  cases es with
  | nil =>
    rw [hlen]
    rfl
  | cons e es =>
    have hl := Walk.length_all_cons e es
    have hle := length_le_all (F := elems) es
    have hm : shift m 0 = ahead (all elems (e :: es)) (shift m limit) := by
      rw [shift_zero, ← h, ahead_read]
    rw [if_neg (by omega), getIeLoop_mem limit 0 e es hm (by omega) (by omega), Option.map_map]
    cases hf : first elems (Elem.hasId id) (e :: es) with
    | none => rfl
    | some x =>
      obtain ⟨o, r⟩ := x
      obtain ⟨pre, post, hes, -, -, rfl⟩ := first_eq_some hf
      have hsize : (m ((all elems pre).length + 1)).toNat + 2 = r.bytes.length := by
        rw [hes, all_append] at h
        have hr := shift_of_read h
        rw [← List.append_nil (all elems (r :: post))] at hr
        exact size_ahead hr
      rw [Elem.length_bytes] at hsize
      show some (0 + (all elems pre).length, (m (0 + (all elems pre).length + 1)).toNat) = _
      have hbody : (m (all elems pre).length.succ).toNat = r.body.length := Nat.add_right_cancel hsize
      rw [Nat.zero_add, hbody]
      rfl

/-! ## the edit -/

theorem length_all_split (pre : List Elem) (e : Elem) (post : List Elem) :
    (all elems (pre ++ e :: post)).length
      = (all elems pre).length + 2 + e.body.length + (all elems post).length := by
  rw [all_append, List.length_append, Walk.length_all_cons]
  omega

/-- the body of an element, and what is behind it -/
theorem read_elem (h : read m a n = all elems (pre ++ e :: post)) :
    read m (a + (all elems pre).length + 2) e.body.length = e.body
      ∧ read m (a + (all elems pre).length + 2 + e.body.length) (all elems post).length
        = all elems post := by
  have hsplit : all elems (pre ++ e :: post)
      = (all elems pre ++ [e.id, UInt8.ofNat e.body.length]) ++ (e.body ++ all elems post) := by
    rw [all_append, Walk.all_cons_eq, List.append_assoc]
    rfl
  have hlen : (all elems pre ++ [e.id, UInt8.ofNat e.body.length]).length = (all elems pre).length + 2 :=
    List.length_append
  have hn := congrArg List.length h
  rw [length_read, length_all_split] at hn
  rw [hsplit, hn, Nat.add_assoc _ e.body.length, read_add] at h
  obtain ⟨-, hrest⟩ := List.append_inj h (by rw [length_read, hlen])
  rw [read_add] at hrest
  obtain ⟨hbody, hpost⟩ := List.append_inj hrest length_read
  rw [← Nat.add_assoc] at hbody hpost
  exact ⟨hbody, hpost⟩

/-- length byte and body are written over the element at `p`, and `rest` behind them -/
def newBody (m : Nat → UInt8) (p : Nat) (body rest : List UInt8) : Nat → UInt8 :=
  write (write (write m (p + 1) [UInt8.ofNat body.length]) (p + 2) body) (p + 2 + body.length) rest

theorem newBody_eq (m : Nat → UInt8) (p : Nat) (body rest : List UInt8) :
    newBody m p body rest = write m (p + 1) (UInt8.ofNat body.length :: (body ++ rest)) := by
  have h1 : write (write m (p + 1) [UInt8.ofNat body.length]) (p + 1 + 1) body
      = write m (p + 1) ([UInt8.ofNat body.length] ++ body) := write_append
  have h2 : write (write m (p + 1) ([UInt8.ofNat body.length] ++ body))
      (p + 1 + ([UInt8.ofNat body.length] ++ body).length) rest
        = write m (p + 1) ([UInt8.ofNat body.length] ++ body ++ rest) := write_append
  have hadd : p + 1 + ([UInt8.ofNat body.length] ++ body).length = p + 2 + body.length := by
    rw [List.length_append, List.length_singleton]
    omega
  rw [newBody, h1, ← hadd, h2]
  rfl

/-- **The element with its new body**, between the same neighbours. -/
theorem newBody_read {e' : Elem} (h : read m a n = all elems (pre ++ e :: post)) (hid : e'.id = e.id) :
    read (newBody m (a + (all elems pre).length) e'.body (all elems post)) a
        (all elems (pre ++ e' :: post)).length = all elems (pre ++ e' :: post) := by
  have hsplit : ∀ x : Elem, all elems (pre ++ x :: post)
      = (all elems pre ++ [x.id]) ++ UInt8.ofNat x.body.length :: (x.body ++ all elems post) := by
    intro x
    rw [all_append, Walk.all_cons_eq, List.append_assoc]
    rfl
  rw [hsplit e] at h
  have hn := congrArg List.length h
  rw [length_read, List.length_append] at hn
  rw [hn, read_add] at h
  have hpre := (List.append_inj h length_read).1
  have hlen : (all elems pre ++ [e.id]).length = (all elems pre).length + 1 := List.length_append
  rw [hlen] at hpre
  rw [newBody_eq, hsplit e', hid, List.length_append, hlen, Nat.add_assoc a, read_write_append, hpre]

end IeEdit

end Rtl8192eu
