import Mathlib.Data.List.Basic

/-!
# Lists with conditionals

A list of entries, parts of which stand behind conditions, is stored FLAT: marks say where a condition
starts, where the alternative to all of them starts, and where the conditional ends.

* `Mark`, `taken`   the flat list, and what a reader with two flags takes of it;
* `Item`, `select`   the list as it is meant: of a conditional, the first branch whose condition holds;
* `taken_flat`   the reader takes what is meant.

Conditionals do not nest: an end mark sets both flags back, whatever was open.
-/

namespace CondList

variable {C E : Type*}

/-- `test` opens a branch, also one behind other branches -/
inductive Mark (C E : Type*) where
  | entry (e : E)
  | test (c : C)
  | alt
  | close
  deriving DecidableEq, Repr

/-- whether entries are taken, and whether a branch of the open conditional was -/
structure Flags where
  matched : Bool := true
  skipped : Bool := false
  deriving DecidableEq, Repr

def Flags.next (sat : C → Bool) (s : Flags) : Mark C E → Flags
  | .entry _ => s
  | .test c => if s.skipped then { s with matched := false } else ⟨sat c, sat c⟩
  | .alt => { s with matched := !s.skipped }
  | .close => {}

def taken (sat : C → Bool) : Flags → List (Mark C E) → List E
  | _, [] => []
  | s, .entry e :: ms => if s.matched then e :: taken sat s ms else taken sat s ms
  | s, m :: ms => taken sat (s.next sat m) ms

/-- an entry, or branches with their conditions and what is there for none of them -/
inductive Item (C E : Type*) where
  | entry (e : E)
  | cond (branches : List (C × List E)) (alt : Option (List E))
  deriving DecidableEq, Repr

/-- what is meant -/
def Item.select (sat : C → Bool) : Item C E → List E
  | .entry e => [e]
  | .cond branches alt => ((branches.find? fun b => sat b.1).map (·.2)).getD (alt.getD [])

def flatBranch (b : C × List E) : List (Mark C E) := .test b.1 :: b.2.map .entry

def flatAlt : Option (List E) → List (Mark C E)
  | none => []
  | some es => .alt :: es.map .entry

def Item.flat : Item C E → List (Mark C E)
  | .entry e => [.entry e]
  | .cond branches alt => branches.flatMap flatBranch ++ flatAlt alt ++ [.close]

variable (sat : C → Bool) (ms : List (Mark C E))

@[simp] theorem taken_test (s : Flags) (c : C) :
    taken sat s (.test c :: ms) = taken sat (s.next sat (.test c : Mark C E)) ms := rfl

@[simp] theorem taken_alt (s : Flags) :
    taken sat s (.alt :: ms) = taken sat (s.next sat (.alt : Mark C E)) ms := rfl

@[simp] theorem taken_close (s : Flags) : taken sat s (.close :: ms) = taken sat {} ms := rfl

theorem taken_entries (s : Flags) (es : List E) :
    taken sat s (es.map .entry ++ ms) = if s.matched then es ++ taken sat s ms else taken sat s ms := by
  induction es with
  | nil => simp
  | cons e es ih =>
    cases h : s.matched with
    | true =>
      rw [h] at ih
      simpa [taken, h] using ih
    | false =>
      rw [h] at ih
      simpa [taken, h] using ih

theorem taken_flatBranch (s : Flags) (b : C × List E) :
    taken sat s (flatBranch b ++ ms)
      = let s' := s.next sat (.test b.1 : Mark C E)
        if s'.matched then b.2 ++ taken sat s' ms else taken sat s' ms :=
  taken_entries sat ms (s.next sat (.test b.1 : Mark C E)) b.2

theorem taken_flatAlt (s : Flags) (alt : Option (List E)) :
    taken sat s (flatAlt alt ++ .close :: ms)
      = (if s.skipped then [] else alt.getD []) ++ taken sat {} ms := by
  cases alt with
  | none => simp [flatAlt]
  | some es =>
    show taken sat (s.next sat (.alt : Mark C E)) (es.map .entry ++ .close :: ms) = _
    rw [taken_entries]
    cases h : s.skipped <;> simp [Flags.next, h]

/-- behind the branch that was taken the others are passed over -/
theorem taken_done (branches : List (C × List E)) (alt : Option (List E)) (s : Flags) (hs : s.skipped = true) :
    taken sat s (branches.flatMap flatBranch ++ flatAlt alt ++ .close :: ms) = taken sat {} ms := by
  induction branches generalizing s with
  | nil => simp [taken_flatAlt, hs]
  | cons b branches ih =>
    have hnext : s.next sat (.test b.1 : Mark C E) = { s with matched := false } := by
      simp [Flags.next, hs]
    rw [List.flatMap_cons, List.append_assoc, List.append_assoc, taken_flatBranch, hnext]
    simpa using ih { s with matched := false } hs

/-- the branches, as long as none was taken -/
theorem taken_branches (branches : List (C × List E)) (alt : Option (List E)) (s : Flags) (hs : s.skipped = false) :
    taken sat s (branches.flatMap flatBranch ++ flatAlt alt ++ .close :: ms)
      = (Item.cond branches alt).select sat ++ taken sat {} ms := by
  induction branches generalizing s with
  | nil => simp [taken_flatAlt, hs, Item.select]
  | cons b branches ih =>
    have hnext : s.next sat (.test b.1 : Mark C E) = ⟨sat b.1, sat b.1⟩ := by simp [Flags.next, hs]
    rw [List.flatMap_cons, List.append_assoc, List.append_assoc, taken_flatBranch, hnext]
    cases hb : sat b.1 with
    | true =>
      have hrest := taken_done sat ms branches alt ⟨true, true⟩ rfl
      rw [List.append_assoc] at hrest
      simp [Item.select, hb, hrest]
    | false =>
      have hrest := ih ⟨false, false⟩ rfl
      rw [List.append_assoc] at hrest
      simpa [Item.select, hb] using hrest

/-- **The reader takes what is meant.** -/
theorem taken_flat (items : List (Item C E)) :
    taken sat {} (items.flatMap Item.flat) = items.flatMap (Item.select sat) := by
  induction items with
  | nil => rfl
  | cons item items ih =>
    rw [List.flatMap_cons, List.flatMap_cons, ← ih]
    cases item with
    | entry e => rfl
    | cond branches alt =>
      have h := taken_branches sat (items.flatMap Item.flat) branches alt {} rfl
      simpa [Item.flat] using h

end CondList
