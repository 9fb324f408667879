import Rtl8192eu.Lib.Records

/-!
# Records with a header

A record is a header of fixed size, which gives an id and the length of the body, and the body.

* `Header ι β`   how ids and lengths are written and read;
* `Tlv`          a record whose length the header can say;
* `Header.format`   such records are self-delimiting;
* `Look`, `Leads`   readers that look at the text, and go on by a size of their own.
-/

namespace Records

variable {ι β : Type*}

structure Header (ι β : Type*) where
  size : Nat
  /-- lengths are below it -/
  max : Nat
  put : ι → Nat → List β
  take : List β → ι × Nat
  size_pos : 0 < size
  length_put : ∀ i n, (put i n).length = size
  take_put : ∀ i n l, n < max → take (put i n ++ l) = (i, n)
  put_take : ∀ l, size ≤ l.length → put (take l).1 (take l).2 ++ l.drop size = l
  take_lt : ∀ l, (take l).2 < max

structure Tlv (ι β : Type*) (max : Nat) where
  id : ι
  body : List β
  length_lt : body.length < max

namespace Header

variable {H : Header ι β} {l l' : List β} {r : Tlv ι β H.max}

def bytes (H : Header ι β) (r : Tlv ι β H.max) : List β := H.put r.id r.body.length ++ r.body

/-- size of the record at the head of a text, as its header says -/
def extent (H : Header ι β) (l : List β) : Nat := H.size + (H.take l).2

theorem length_bytes (H : Header ι β) (r : Tlv ι β H.max) : (H.bytes r).length = H.size + r.body.length := by
  rw [bytes, List.length_append, H.length_put]

theorem take_bytes (H : Header ι β) (r : Tlv ι β H.max) (l : List β) :
    H.take (H.bytes r ++ l) = (r.id, r.body.length) := by
  rw [bytes, List.append_assoc, H.take_put _ _ _ r.length_lt]

theorem extent_bytes (H : Header ι β) (r : Tlv ι β H.max) (l : List β) :
    H.extent (H.bytes r ++ l) = (H.bytes r).length := by
  rw [extent, take_bytes, length_bytes]

/-- the header is all that is read -/
theorem take_take (h : H.size ≤ l.length) : H.take (l.take H.size) = H.take l := by
  have hput := H.put_take l h
  have hhead : l.take H.size = H.put (H.take l).1 (H.take l).2 := by
    conv_lhs => rw [← hput]
    exact List.take_left' (H.length_put _ _)
  rw [hhead]
  have h1 := H.take_put (H.take l).1 (H.take l).2 [] (H.take_lt l)
  rw [List.append_nil] at h1
  exact h1

def cut (H : Header ι β) (l : List β) : Option (Tlv ι β H.max × List β) :=
  if h : H.extent l ≤ l.length then
    some (⟨(H.take l).1, (l.drop H.size).take (H.take l).2, by
      have := H.take_lt l
      rw [List.length_take]
      omega⟩, l.drop (H.extent l))
  else none

theorem cut_bytes (H : Header ι β) (r : Tlv ι β H.max) (l : List β) :
    H.cut (H.bytes r ++ l) = some (r, l) := by
  have hle : H.extent (H.bytes r ++ l) ≤ (H.bytes r ++ l).length := by
    rw [extent_bytes, List.length_append]
    exact Nat.le_add_right ..
  have hbody : ((H.bytes r ++ l).drop H.size).take r.body.length = r.body := by
    rw [bytes, List.append_assoc, List.drop_left' (H.length_put _ _), List.take_left' rfl]
  rw [cut, dif_pos hle]
  congr 2
  · obtain ⟨id, body, hlt⟩ := r
    simp only [Tlv.mk.injEq]
    rw [take_bytes]
    exact ⟨rfl, hbody⟩
  · rw [extent_bytes, List.drop_left' rfl]

theorem bytes_cut (h : H.cut l = some (r, l')) : H.bytes r ++ l' = l := by
  unfold cut at h
  split at h
  · rename_i hle
    have hsize : H.size ≤ l.length := Nat.le_trans (Nat.le_add_right ..) hle
    obtain ⟨rfl, rfl⟩ := Prod.mk.inj (Option.some.inj h)
    have hlen : ((l.drop H.size).take (H.take l).2).length = (H.take l).2 := by
      rw [List.length_take, List.length_drop]
      unfold extent at hle
      omega
    show H.put (H.take l).1 _ ++ (l.drop H.size).take (H.take l).2 ++ l.drop (H.size + (H.take l).2) = l
    rw [hlen, List.append_assoc, ← List.drop_drop, List.take_append_drop]
    exact H.put_take l hsize
  · cases h

theorem bytes_ne (H : Header ι β) (r : Tlv ι β H.max) : H.bytes r ≠ [] := by
  have hpos := H.size_pos
  have hlen := H.length_bytes r
  exact List.length_pos_iff.mp (by omega)

def format (H : Header ι β) : Format (Tlv ι β H.max) β where
  bytes := H.bytes
  cut := H.cut
  cut_bytes := H.cut_bytes
  bytes_cut := bytes_cut
  bytes_ne := H.bytes_ne

theorem cut_eq_none : H.format.cut l = none ↔ l.length < H.extent l := by
  show H.cut l = none ↔ _
  unfold cut
  split
  · rename_i h
    exact iff_of_false nofun (Nat.not_lt.mpr h)
  · rename_i h
    exact iff_of_true rfl (Nat.not_le.mp h)

end Header

/-! ## readers -/

/-- what a reader does at the head of a text: it leaves the text, is done, has found something, or
goes on -/
inductive Look where
  | outside
  | done
  | hit (n : Nat)
  | next (n : Nat)
  deriving DecidableEq, Repr

/-- the reader `look` gets from the text `l` to its end, or to a hit at the head of `v` -/
inductive Leads (look : List β → Look) (v : Option (List β)) : List β → Prop
  | done {l} (h : look l = .done) : Leads look v l
  | hit {l n} (h : look l = .hit n) (hv : v = some l) : Leads look v l
  | next {l n} (h : look l = .next n) (hl : Leads look v (l.drop n)) : Leads look v l

section
variable {look : List β → Look} {v : Option (List β)} {l : List β} {n : Nat}

theorem leads_hit (h : look l = .hit n) : Leads look v l ↔ v = some l := by
  constructor
  · intro hl
    cases hl with
    | done h' => cases h.symm.trans h'
    | hit _ hv => exact hv
    | next h' _ => cases h.symm.trans h'
  · exact Leads.hit h

theorem leads_next (h : look l = .next n) : Leads look v l ↔ Leads look v (l.drop n) := by
  constructor
  · intro hl
    cases hl with
    | done h' => cases h.symm.trans h'
    | hit h' _ => cases h.symm.trans h'
    | next h' hl =>
      cases h.symm.trans h'
      exact hl
  · exact Leads.next h

theorem not_leads_outside (h : look l = .outside) : ¬ Leads look v l := by
  intro hl
  cases hl with
  | done h' => cases h.symm.trans h'
  | hit h' _ => cases h.symm.trans h'
  | next h' _ => cases h.symm.trans h'

end

end Records
