import Rtl8192eu.Ie.Replace

/-!
# The elements of the stored beacon

`rtw_add_bcn_ie` and `rtw_remove_bcn_ie` of `core/rtw_ap.c` edit `IEs` in place: what is behind the
place of the edit is copied away, the bytes are written, and the copy is put behind them.

* `splice`         that edit, with `IELength`;
* `addLoop`        the search for the place where an element goes;
* `Stored`, `Becomes`   a beacon is a list of complete elements, and it becomes another list;
* `removeIe_iff`   the removal does nothing to an element without a body;
* `addIe_iff`      the insertion looks at the element in front, and that must have a body.
-/

namespace Rtl8192eu

open Records Mem IeEdit

namespace BcnIe

/-- `_FIXED_IE_LENGTH_` and `_BEACON_IE_OFFSET_` -/
def fixedIeLength : Nat := 12

/-- `MAX_IE_SZ` -/
def maxIeSz : Nat := 768

/-- `IEs` and `IELength` of the network -/
structure Beacon where
  ies : Nat → UInt8
  ieLength : Nat

/-- a difference of `u32` -/
def subU32 (a b : Nat) : Nat := (a + 2 ^ 32 - b) % 2 ^ 32

/-- `rtw_get_ie` behind the fixed bytes, with offsets from the start of `IEs` -/
def getIe (b : Beacon) (index : UInt8) : Option (Nat × Nat) :=
  (rtwGetIe (shift b.ies fixedIeLength) index (b.ieLength - fixedIeLength)).map fun r =>
    (fixedIeLength + r.1, r.2)

section

-- the sizes for which the kernel has a block
variable (rtwMalloc : Nat → Bool)

/-- a block is there for whatever is in `IEs` -/
def Granted : Prop := ∀ n, n ≤ maxIeSz → rtwMalloc n = true

/-- `pbackup_remainder_ie`, with what is copied into it -/
def backup (m : Nat → UInt8) (premainderIe remainderIelen : Nat) : Option (List UInt8) :=
  if remainderIelen = 0 then none
  else if rtwMalloc remainderIelen then some (read m premainderIe remainderIelen)
  else none

/-- The remainder at `premainderIe` is kept, `data` written at `dstIe`, which moves on by `size`, and
the remainder put there. -/
def splice (b : Beacon) (dstIe premainderIe remainderIelen : Nat) (data : List UInt8) (size : Nat) :
    Beacon :=
  let pbackup := backup rtwMalloc b.ies premainderIe remainderIelen
  let m := write b.ies dstIe data
  let dstIe := dstIe + size
  let m := match pbackup with
    | none => m
    | some remainder => write m dstIe remainder
  ⟨m, (dstIe + remainderIelen) % 2 ^ 32⟩

/-- the remainder behind `ielen` bytes at `ieOffset` -/
def remainderAt (b : Beacon) (ieOffset ielen : Nat) : Nat :=
  subU32 (subU32 b.ieLength ieOffset) ielen

def rtwRemoveBcnIe (b : Beacon) (index : UInt8) : Beacon :=
  match getIe b index with
  | none => b
  | some (p, ielen) =>
    if 0 < ielen then splice rtwMalloc b p (p + (ielen + 2)) (remainderAt b p (ielen + 2)) [] 0 else b

/-- the loop of `rtw_add_bcn_ie`: `p` with `ielen`, and `bmatch` -/
def addLoop (b : Beacon) (index : UInt8) : Nat → Nat → Option (Nat × Nat) → Option (Nat × Nat) × Bool
  | 0, _, p => (p, false)
  | n + 1, i, p =>
    if i < b.ieLength then
      let length := (b.ies (i + 1)).toNat
      if index < b.ies i then (p, false)
      else if b.ies i = index then (some (i, length), true)
      else addLoop b index n (i + (length + 2)) (some (i, length))
    else (p, false)

def rtwAddBcnIe (b : Beacon) (index : UInt8) (data : List UInt8) : Beacon :=
  let r := addLoop b index b.ieLength fixedIeLength none
  match r.1 with
  | none => b
  | some (p, ielen) =>
    if 0 < ielen then
      splice rtwMalloc b (if r.2 then p else p + (ielen + 2)) (p + (ielen + 2))
        (remainderAt b p (ielen + 2)) (index :: UInt8.ofNat data.length :: data) (2 + data.length)
    else b

end

/-! ## beacons and their elements -/

/-- behind the fixed bytes there is the list `es`, and nothing else -/
structure Stored (b : Beacon) (es : List Elem) : Prop where
  length : b.ieLength = fixedIeLength + (all elems es).length
  read_eq : read b.ies fixedIeLength (all elems es).length = all elems es
  fits : b.ieLength ≤ maxIeSz

/-- the list is `es` afterwards, and the fixed bytes are the same -/
structure Becomes (b b' : Beacon) (es : List Elem) : Prop where
  length : b'.ieLength = fixedIeLength + (all elems es).length
  read_eq : read b'.ies fixedIeLength (all elems es).length = all elems es
  fixed : read b'.ies 0 fixedIeLength = read b.ies 0 fixedIeLength

variable {rtwMalloc : Nat → Bool} {b b' : Beacon} {es pre post : List Elem} {e : Elem} {id : UInt8}
  {u v w data : List UInt8}

theorem Stored.becomes (h : Stored b es) : Becomes b b es := ⟨h.length, h.read_eq, rfl⟩

theorem becomes_unique {es' : List Elem} (h : Becomes b b' es) (h' : Becomes b b' es') : es = es' := by
  have hlen : (all elems es').length = (all elems es).length := by
    have h1 := h.length
    have h2 := h'.length
    omega
  have heq := h'.read_eq
  rw [hlen, h.read_eq] at heq
  exact all_injective heq

/-- a beacon that stays as it is becomes no other list -/
theorem becomes_self_iff (h : Stored b es) {es' : List Elem} : Becomes b b es' ↔ es' = es := by
  constructor
  · exact fun h' => becomes_unique h' h.becomes
  · intro he
    rw [he]
    exact h.becomes

theorem getIe_stored (h : Stored b es) (id : UInt8) :
    getIe b id = (first elems (Elem.hasId id) es).map fun x =>
      (fixedIeLength + x.1, x.2.body.length) := by
  have hlimit : b.ieLength - fixedIeLength = (all elems es).length := by
    rw [h.length, Nat.add_sub_cancel_left]
  have hmem : read (shift b.ies fixedIeLength) 0 (all elems es).length = all elems es := by
    rw [read_shift, Nat.add_zero]
    exact h.read_eq
  unfold getIe
  rw [hlimit, rtwGetIe_mem id es hmem, Option.map_map]
  rfl

theorem find_first : (first elems (Elem.hasId id) es).map Prod.snd = es.find? (Elem.hasId id) := by
  induction es with
  | nil => rfl
  | cons e es ih =>
    cases he : Elem.hasId id e with
    | true => rw [first_cons_of_pos he, List.find?_cons_of_pos he]; rfl
    | false =>
      rw [first_cons_of_neg he, List.find?_cons_of_neg (by simp [he]), ← ih, Option.map_map]
      rfl

/-! ## the edit -/

theorem subU32_eq {a c : Nat} (hle : c ≤ a) (ha : a < 2 ^ 32) : subU32 a c = a - c := by
  unfold subU32
  omega

/-- the remainder is written directly behind the data -/
theorem splice_ies (hmalloc : Granted rtwMalloc) {dst from' n : Nat} (hn : n ≤ maxIeSz)
    (hw : read b.ies from' n = w) :
    (splice rtwMalloc b dst from' n data data.length).ies = write b.ies dst (data ++ w) := by
  have hlen : w.length = n := by rw [← hw, length_read]
  unfold splice backup
  dsimp only
  by_cases h0 : n = 0
  · have hnil : w = [] := List.length_eq_zero_iff.mp (hlen.trans h0)
    rw [if_pos h0, hnil, List.append_nil]
  · rw [if_neg h0, if_pos (hmalloc n hn), hw]
    exact write_append

/-- **The edit** replaces the bytes `v` between `u` and `w`. -/
theorem splice_read (hmalloc : Granted rtwMalloc)
    (hread : read b.ies fixedIeLength (u ++ (v ++ w)).length = u ++ (v ++ w))
    (hlen : b.ieLength = fixedIeLength + (u ++ (v ++ w)).length) (hfits : b.ieLength ≤ maxIeSz)
    (hdata : data.length ≤ 257) {r : Nat} (hr : r = w.length) :
    let b' := splice rtwMalloc b (fixedIeLength + u.length) (fixedIeLength + (u.length + v.length)) r
      data data.length
    b'.ieLength = fixedIeLength + (u ++ (data ++ w)).length
      ∧ read b'.ies fixedIeLength (u ++ (data ++ w)).length = u ++ (data ++ w)
      ∧ read b'.ies 0 fixedIeLength = read b.ies 0 fixedIeLength := by
  intro b'
  subst hr
  obtain ⟨hu, hvw⟩ := read_eq_append.mp hread
  obtain ⟨-, hw⟩ := read_eq_append.mp hvw
  rw [Nat.add_assoc] at hw
  rw [List.length_append, List.length_append] at hlen
  unfold maxIeSz at hfits
  have hmem : b'.ies = write b.ies (fixedIeLength + u.length) (data ++ w) :=
    splice_ies hmalloc (by unfold maxIeSz; omega) hw
  refine ⟨?_, ?_, ?_⟩
  · show (fixedIeLength + u.length + data.length + w.length) % 2 ^ 32 = _
    rw [List.length_append, List.length_append]
    omega
  · rw [hmem, List.length_append, read_write_append, hu]
  · rw [hmem]
    exact read_write_of_disjoint (Or.inl (by omega))

/-- the edit between two elements, `mid` going and `x` coming -/
theorem splice_becomes (hmalloc : Granted rtwMalloc) {mid x : List Elem}
    (h : Stored b (pre ++ (mid ++ post)))
    (hx : (all elems x).length ≤ 257) {dst from' r : Nat}
    (hdst : dst = fixedIeLength + (all elems pre).length)
    (hfrom : from' = dst + (all elems mid).length) (hr : r = (all elems post).length) :
    Becomes b (splice rtwMalloc b dst from' r (all elems x) (all elems x).length)
      (pre ++ (x ++ post)) := by
  have hall : ∀ y : List Elem, all elems (pre ++ (y ++ post))
      = all elems pre ++ (all elems y ++ all elems post) := by
    intro y
    rw [all_append, all_append]
  have hread := h.read_eq
  have hlen := h.length
  rw [hall mid] at hread hlen
  have hs := splice_read hmalloc hread hlen h.fits hx hr
  subst hdst hfrom
  rw [Nat.add_assoc]
  rw [← hall x] at hs
  exact ⟨hs.1, hs.2.1, hs.2.2⟩

/-- the remainder behind an element -/
theorem remainderAt_stored (h : Stored b (pre ++ e :: post)) :
    remainderAt b (fixedIeLength + (all elems pre).length) (e.body.length + 2)
      = (all elems post).length := by
  have hlen := h.length
  have hfits := h.fits
  rw [length_all_split] at hlen
  unfold maxIeSz at hfits
  have hfirst : subU32 b.ieLength (fixedIeLength + (all elems pre).length)
      = e.body.length + 2 + (all elems post).length := by
    rw [subU32_eq (by omega) (by omega)]
    omega
  unfold remainderAt
  rw [hfirst, subU32_eq (by omega) (by omega), Nat.add_sub_cancel_left]

/-! ## the removal -/

/-- the first element with the id has a body, if there is one -/
def RemoveOk (index : UInt8) (es : List Elem) : Prop :=
  ∀ e, es.find? (Elem.hasId index) = some e → e.body ≠ []

theorem removeIe_none (h : Stored b es) (hno : ∀ e ∈ es, Elem.hasId id e = false) :
    rtwRemoveBcnIe rtwMalloc b id = b := by
  unfold rtwRemoveBcnIe
  rw [getIe_stored h, first_eq_none.mpr hno]
  rfl

theorem removeIe_some (hmalloc : Granted rtwMalloc) (h : Stored b (pre ++ e :: post))
    (hpre : ∀ x ∈ pre, Elem.hasId id x = false)
    (he : Elem.hasId id e = true) :
    if e.body = [] then rtwRemoveBcnIe rtwMalloc b id = b
    else Becomes b (rtwRemoveBcnIe rtwMalloc b id) (pre ++ post) := by
  unfold rtwRemoveBcnIe
  rw [getIe_stored h, first_append hpre he, Option.map_some]
  dsimp only
  split
  · rename_i hbody
    rw [hbody]
    exact if_neg (Nat.lt_irrefl 0)
  · rename_i hbody
    rw [if_pos (List.length_pos_iff.mpr hbody), remainderAt_stored h]
    have hone : pre ++ e :: post = pre ++ ([e] ++ post) := rfl
    rw [hone] at h
    refine splice_becomes hmalloc (x := []) h (Nat.zero_le _) rfl ?_ rfl
    rw [all_singleton]
    rfl

/-- **The removal is right for elements with a body.** -/
theorem removeIe_iff (hmalloc : Granted rtwMalloc) (h : Stored b es) (index : UInt8) :
    Becomes b (rtwRemoveBcnIe rtwMalloc b index) (es.eraseP (Elem.hasId index)) ↔ RemoveOk index es := by
  cases hf : first elems (Elem.hasId index) es with
  | none =>
    have hno := first_eq_none.mp hf
    have hsame : es.eraseP (Elem.hasId index) = es :=
      List.eraseP_of_forall_not fun x hx => by simp [hno x hx]
    rw [removeIe_none h hno, hsame]
    refine iff_of_true h.becomes fun e he => ?_
    have hhas : Elem.hasId index e = true := List.find?_some he
    rw [hno e (List.mem_of_find?_eq_some he)] at hhas
    cases hhas
  | some r =>
    obtain ⟨o, e⟩ := r
    obtain ⟨pre, post, rfl, he, hpre, -⟩ := first_eq_some hf
    have hfind : (pre ++ e :: post).find? (Elem.hasId index) = some e := by
      rw [← find_first, hf]
      rfl
    have herase : (pre ++ e :: post).eraseP (Elem.hasId index) = pre ++ post := by
      rw [List.eraseP_append_right _ fun x hx => by simp [hpre x hx], List.eraseP_cons_of_pos he]
    have hedit := removeIe_some hmalloc h hpre he
    unfold RemoveOk
    rw [herase, hfind]
    split at hedit
    · rename_i hbody
      rw [hedit, becomes_self_iff h]
      refine iff_of_false (fun heq => ?_) fun hok => hok e rfl hbody
      have hlen := congrArg List.length heq
      simp at hlen
    · rename_i hbody
      exact iff_of_true hedit fun e' he' => (Option.some.inj he') ▸ hbody

/-! ## the search for the place -/

/-- what the loop remembers of the elements that it went over -/
def lastOf : Nat → List Elem → Option (Nat × Nat) → Option (Nat × Nat)
  | _, [], p => p
  | k, e :: es, _ => lastOf (k + e.bytes.length) es (some (k, e.body.length))

theorem lastOf_append (k : Nat) (es : List Elem) (e : Elem) (p : Option (Nat × Nat)) :
    lastOf k (es ++ [e]) p = some (k + (all elems es).length, e.body.length) := by
  induction es generalizing k p with
  | nil => rfl
  | cons x es ih =>
    show lastOf (k + x.bytes.length) (es ++ [e]) _ = _
    rw [ih, all_cons, List.length_append, Nat.add_assoc]
    rfl

section

variable {behind : Nat → UInt8} {index : UInt8} {k n : Nat} {p : Option (Nat × Nat)}

theorem ies_of_ahead (hm : shift b.ies k = ahead (all elems (e :: es)) behind) :
    b.ies k = e.id ∧ (b.ies (k + 1)).toNat = e.body.length := by
  rw [← List.append_nil (all elems (e :: es))] at hm
  have hsize := size_ahead hm
  rw [Elem.length_bytes] at hsize
  refine ⟨?_, by omega⟩
  have hid := congrFun hm 0
  rw [Walk.all_cons_append] at hid
  exact hid

theorem addLoop_skip (hm : shift b.ies k = ahead (all elems (e :: es)) behind)
    (hk : k < b.ieLength) (hlt : e.id < index) :
    addLoop b index (n + 1) k p
      = addLoop b index n (k + e.bytes.length) (some (k, e.body.length)) := by
  obtain ⟨hid, hlen⟩ := ies_of_ahead hm
  have hnot : ¬ index < e.id := UInt8.lt_asymm hlt
  have hne : e.id ≠ index := UInt8.ne_of_lt hlt
  rw [addLoop, if_pos hk]
  dsimp only
  rw [hid, hlen, if_neg hnot, if_neg hne]
  rfl

/-- the loop goes over the elements with smaller ids -/
theorem addLoop_pre (hm : shift b.ies k = ahead (all elems (pre ++ post)) behind)
    (hend : k + (all elems (pre ++ post)).length = b.ieLength) (hpre : ∀ x ∈ pre, x.id < index) :
    addLoop b index (pre.length + n) k p
      = addLoop b index n (k + (all elems pre).length) (lastOf k pre p) := by
  induction pre generalizing k p with
  | nil => simp [lastOf]
  | cons x pre ih =>
    rw [List.cons_append] at hm hend
    have hsize := Walk.length_all_cons x (pre ++ post)
    have hnext := shift_size (t := []) (by rwa [List.append_nil])
    rw [List.append_nil] at hnext
    have hfuel : (x :: pre).length + n = (pre.length + n) + 1 := by
      rw [List.length_cons]
      omega
    rw [hfuel, addLoop_skip hm (by omega) (hpre x List.mem_cons_self),
      ih hnext (by rw [Elem.length_bytes]; omega) fun y hy => hpre y (List.mem_cons_of_mem _ hy)]
    rw [all_cons, List.length_append, Nat.add_assoc]
    rfl

/-- the part `post` of the list, in memory -/
theorem stored_behind (h : Stored b (pre ++ post)) :
    shift b.ies (fixedIeLength + (all elems pre).length)
      = ahead (all elems post) (shift b.ies b.ieLength) := by
  have hread : read (shift b.ies fixedIeLength) 0 (all elems (pre ++ post)).length
      = all elems pre ++ all elems post := by
    rw [read_shift, Nat.add_zero, h.read_eq, all_append]
  have hm := shift_of_read hread
  rw [shift_shift, shift_shift, ← h.length] at hm
  exact hm

theorem addLoop_stored (h : Stored b (pre ++ post)) (hpre : ∀ x ∈ pre, x.id < index) :
    ∃ n, post.length ≤ n ∧ addLoop b index b.ieLength fixedIeLength none
      = addLoop b index n (fixedIeLength + (all elems pre).length) (lastOf fixedIeLength pre none) := by
  have hlen := h.length
  have hcount := length_le_all (F := elems) (pre ++ post)
  rw [List.length_append] at hcount
  obtain ⟨n, hn⟩ := Nat.exists_eq_add_of_le (show pre.length ≤ b.ieLength by omega)
  have hwhole : Stored b ([] ++ (pre ++ post)) := h
  have hm := stored_behind hwhole
  refine ⟨n, by omega, ?_⟩
  rw [hn]
  exact addLoop_pre hm hlen.symm hpre

/-- the element with the id is there, and no larger one in front -/
theorem addLoop_match (h : Stored b (pre ++ e :: post)) (hpre : ∀ x ∈ pre, x.id < index)
    (he : e.id = index) :
    addLoop b index b.ieLength fixedIeLength none
      = (some (fixedIeLength + (all elems pre).length, e.body.length), true) := by
  obtain ⟨n, hn, hloop⟩ := addLoop_stored h hpre
  obtain ⟨hid, hbody⟩ := ies_of_ahead (stored_behind h)
  have hin : fixedIeLength + (all elems pre).length < b.ieLength := by
    rw [h.length, length_all_split]
    omega
  cases n with
  | zero => exact absurd hn (Nat.not_succ_le_zero _)
  | succ n =>
    rw [hloop, addLoop, if_pos hin]
    dsimp only
    rw [hid, hbody, he, if_neg (UInt8.lt_irrefl index), if_pos rfl]

/-- the end of the list, or a larger id -/
theorem addLoop_stop (h : Stored b (pre ++ post)) (hpre : ∀ x ∈ pre, x.id < index)
    (hpost : ∀ x ∈ post.head?, index < x.id) :
    addLoop b index b.ieLength fixedIeLength none = (lastOf fixedIeLength pre none, false) := by
  obtain ⟨n, -, hloop⟩ := addLoop_stored h hpre
  rw [hloop]
  cases n with
  | zero => rfl
  | succ n =>
    rw [addLoop]
    cases post with
    | nil =>
      have hout : ¬ fixedIeLength + (all elems pre).length < b.ieLength := by
        rw [h.length, List.append_nil]
        exact Nat.lt_irrefl _
      rw [if_neg hout]
    | cons e post =>
      have hlt : index < b.ies (fixedIeLength + (all elems pre).length) := by
        rw [(ies_of_ahead (stored_behind h)).1]
        exact hpost e rfl
      by_cases hin : fixedIeLength + (all elems pre).length < b.ieLength
      · rw [if_pos hin]
        exact if_pos hlt
      · rw [if_neg hin]

end

/-! ## the insertion -/

/-- the list with `x`: in the place of the first element with its id, or in front of the first one
with a larger id -/
def addElem (x : Elem) (es : List Elem) : List Elem :=
  if es.any (Elem.hasId x.id) then onFirst (Elem.hasId x.id) (fun _ => x) es
  else es.takeWhile (·.id < x.id) ++ x :: es.dropWhile (·.id < x.id)

/-- there is an element in front of the place, and the last one has a body -/
def Anchored (pre : List Elem) : Prop := ∃ l, pre.getLast? = some l ∧ l.body ≠ []

/-- The first element whose id is not smaller has the id of `x`, and a body unless `x` has none.  Or
no element has the id, and there is one with a body in front of the place.  Or the element is there
behind a larger one, as it should be, and nothing is written. -/
def AddOk (x : Elem) (es : List Elem) : Prop :=
  match es.dropWhile (·.id < x.id) with
  | [] => Anchored (es.takeWhile (·.id < x.id))
  | e :: post =>
    if e.id = x.id then e.body ≠ [] ∨ x.body = []
    else match post.find? (Elem.hasId x.id) with
      | none => Anchored (es.takeWhile (·.id < x.id))
      | some f => f = x ∧ ¬ Anchored (es.takeWhile (·.id < x.id))

section

variable {x : Elem}

/-- what is written is the element -/
theorem splice_elem (hmalloc : Granted rtwMalloc) {mid : List Elem}
    (h : Stored b (pre ++ (mid ++ post))) {dst from' r : Nat}
    (hdst : dst = fixedIeLength + (all elems pre).length)
    (hfrom : from' = dst + (all elems mid).length) (hr : r = (all elems post).length) :
    Becomes b
      (splice rtwMalloc b dst from' r (x.id :: UInt8.ofNat x.body.length :: x.body)
        (2 + x.body.length))
      (pre ++ x :: post) := by
  have hone : all elems [x] = x.id :: UInt8.ofNat x.body.length :: x.body := all_singleton x
  have hsize : (all elems [x]).length = 2 + x.body.length := by
    rw [hone, Nat.add_comm]
    rfl
  have hlt := x.length_lt
  have hedit := splice_becomes hmalloc h (x := [x]) (by omega) hdst hfrom hr
  rw [hsize, hone] at hedit
  exact hedit

theorem addIe_match (hmalloc : Granted rtwMalloc) (h : Stored b (pre ++ e :: post))
    (hpre : ∀ y ∈ pre, y.id < x.id) (he : e.id = x.id) :
    if e.body = [] then rtwAddBcnIe rtwMalloc b x.id x.body = b
    else Becomes b (rtwAddBcnIe rtwMalloc b x.id x.body) (pre ++ x :: post) := by
  unfold rtwAddBcnIe
  rw [addLoop_match h hpre he]
  dsimp only
  split
  · rename_i hbody
    rw [hbody]
    exact if_neg (Nat.lt_irrefl 0)
  · rename_i hbody
    rw [if_pos (List.length_pos_iff.mpr hbody), remainderAt_stored h, if_pos rfl]
    have hone : pre ++ e :: post = pre ++ ([e] ++ post) := rfl
    rw [hone] at h
    apply splice_elem hmalloc h rfl _ rfl
    rw [all_singleton]
    rfl

theorem addIe_stop (hmalloc : Granted rtwMalloc) (h : Stored b (pre ++ post))
    (hpre : ∀ y ∈ pre, y.id < x.id) (hpost : ∀ y ∈ post.head?, x.id < y.id) :
    (Anchored pre → Becomes b (rtwAddBcnIe rtwMalloc b x.id x.body) (pre ++ x :: post))
      ∧ (¬ Anchored pre → rtwAddBcnIe rtwMalloc b x.id x.body = b) := by
  unfold rtwAddBcnIe
  rw [addLoop_stop h hpre hpost]
  dsimp only
  rcases List.eq_nil_or_concat pre with rfl | ⟨front, l, rfl⟩
  · refine ⟨fun ⟨l, hl, _⟩ => ?_, fun _ => rfl⟩
    cases hl
  · rw [List.concat_eq_append] at *
    rw [lastOf_append]
    dsimp only
    have hlast : (front ++ [l]).getLast? = some l := List.getLast?_concat ..
    constructor
    · intro ⟨l', hl', hbody⟩
      rw [hlast] at hl'
      cases hl'
      have hsplit : front ++ [l] ++ post = front ++ l :: post := List.append_assoc ..
      have hr := remainderAt_stored (hsplit ▸ h)
      rw [if_pos (List.length_pos_iff.mpr hbody), hr, if_neg Bool.false_ne_true]
      have hgap : Stored b (front ++ [l] ++ ([] ++ post)) := h
      refine splice_elem hmalloc hgap ?_ rfl rfl
      rw [all_append, List.length_append, all_singleton, Nat.add_assoc]
      rfl
    · intro hno
      have hbody : l.body = [] := by
        by_contra hne
        exact hno ⟨l, hlast, hne⟩
      rw [hbody]
      exact if_neg (Nat.lt_irrefl 0)

/-! ## when the insertion is right -/

theorem any_hasId_false (h : ∀ y ∈ es, y.id ≠ x.id) : es.any (Elem.hasId x.id) = false := by
  apply List.any_eq_false.mpr
  intro y hy
  rw [Elem.hasId_iff]
  exact h y hy

theorem elem_eq {y : Elem} (hid : x.id = y.id) (hbody : x.body = y.body) : x = y := by
  obtain ⟨i, l, hl⟩ := x
  obtain ⟨j, k, hk⟩ := y
  dsimp only at hid hbody
  subst hid hbody
  rfl

theorem replaced_eq_iff : pre ++ x :: post = pre ++ e :: post ↔ x = e := by
  simp

/-- the parts of the list in front of and behind the first element that is not smaller -/
theorem split_spec (x : Elem) (es : List Elem) :
    es.takeWhile (·.id < x.id) ++ es.dropWhile (·.id < x.id) = es
      ∧ (∀ y ∈ es.takeWhile (·.id < x.id), y.id < x.id)
      ∧ ∀ y ∈ (es.dropWhile (·.id < x.id)).head?, ¬ y.id < x.id := by
  refine ⟨List.takeWhile_append_dropWhile, fun y hy => ?_, fun y hy => ?_⟩
  · simpa using List.all_eq_true.mp List.all_takeWhile y hy
  · have hnot := List.head?_dropWhile_not (fun y : Elem => decide (y.id < x.id)) es
    rw [hy] at hnot
    simpa using hnot

/-- **The insertion** is right in exactly these cases. -/
theorem addIe_iff (hmalloc : Granted rtwMalloc) (h : Stored b es) (x : Elem) :
    Becomes b (rtwAddBcnIe rtwMalloc b x.id x.body) (addElem x es) ↔ AddOk x es := by
  obtain ⟨hsplit, hpre, hpost⟩ := split_spec x es
  unfold addElem AddOk
  generalize es.takeWhile (·.id < x.id) = pre at *
  generalize es.dropWhile (·.id < x.id) = post at *
  subst hsplit
  have hsmall : ∀ y ∈ pre, Elem.hasId x.id y = false := by
    intro y hy
    apply Bool.eq_false_iff.mpr
    rw [ne_eq, Elem.hasId_iff]
    exact UInt8.ne_of_lt (hpre y hy)
  have hgrow : ∀ l : List Elem, l = pre ++ x :: post → l ≠ pre ++ post := by
    intro l hl heq
    have hlen := congrArg List.length (hl.symm.trans heq)
    simp at hlen
  have hnone : (∀ y ∈ post, y.id ≠ x.id) → (pre ++ post).any (Elem.hasId x.id) = false := by
    intro hno
    apply any_hasId_false
    intro y hy
    rcases List.mem_append.mp hy with hy | hy
    · exact UInt8.ne_of_lt (hpre y hy)
    · exact hno y hy
  -- no element has the id: the new one must come in
  have hinsert : (∀ y ∈ post, y.id ≠ x.id) → (∀ y ∈ post.head?, x.id < y.id) →
      (Becomes b (rtwAddBcnIe rtwMalloc b x.id x.body) (pre ++ x :: post) ↔ Anchored pre) := by
    intro _ hlarge
    obtain ⟨hyes, hno⟩ := addIe_stop hmalloc h hpre hlarge
    refine ⟨fun hb => ?_, hyes⟩
    by_contra hanch
    rw [hno hanch, becomes_self_iff h] at hb
    exact hgrow _ rfl hb
  cases post with
  | nil =>
    rw [hnone (fun _ hy => nomatch hy), if_neg Bool.false_ne_true]
    exact hinsert (fun _ hy => nomatch hy) fun _ hy => nomatch hy
  | cons e post =>
    dsimp only
    by_cases he : e.id = x.id
    · have hhas := Elem.hasId_iff.mpr he
      have hany : (pre ++ e :: post).any (Elem.hasId x.id) = true :=
        List.any_eq_true.mpr ⟨e, List.mem_append_right _ List.mem_cons_self, hhas⟩
      rw [hany, if_pos rfl, if_pos he, onFirst_append hsmall hhas]
      have hedit := addIe_match hmalloc h hpre he
      split at hedit
      · rename_i hbody
        rw [hedit, becomes_self_iff h, replaced_eq_iff]
        constructor
        · intro hx
          exact Or.inr (hx ▸ hbody)
        · intro hx
          exact elem_eq he.symm ((hx.resolve_left fun hne => hne hbody).trans hbody.symm)
      · rename_i hbody
        exact iff_of_true hedit (Or.inl hbody)
    · have hlarge : ∀ y ∈ (e :: post).head?, x.id < y.id := by
        intro y hy
        cases hy
        exact UInt8.lt_of_le_of_ne (UInt8.not_lt.mp (hpost e rfl)) (Ne.symm he)
      obtain ⟨hyes, hno⟩ := addIe_stop hmalloc h hpre hlarge
      rw [if_neg he]
      cases hf : post.find? (Elem.hasId x.id) with
      | none =>
        have hmiss : ∀ y ∈ e :: post, y.id ≠ x.id := by
          intro y hy
          rcases List.mem_cons.mp hy with rfl | hy
          · exact he
          · exact fun hid => List.find?_eq_none.mp hf y hy (Elem.hasId_iff.mpr hid)
        rw [hnone hmiss, if_neg Bool.false_ne_true]
        exact hinsert hmiss hlarge
      | some f =>
        -- the element is behind a larger one, where the loop does not look
        obtain ⟨hfid, p1, p2, rfl, hp1⟩ := List.find?_eq_some_iff_append.mp hf
        have hlist : pre ++ e :: (p1 ++ f :: p2) = (pre ++ e :: p1) ++ f :: p2 := by
          rw [List.append_assoc]
          rfl
        have hfront : ∀ y ∈ pre ++ e :: p1, Elem.hasId x.id y = false := by
          intro y hy
          rcases List.mem_append.mp hy with hy | hy
          · exact hsmall y hy
          · rcases List.mem_cons.mp hy with rfl | hy
            · exact Bool.eq_false_iff.mpr (mt Elem.hasId_iff.mp he)
            · simpa using hp1 y hy
        have hany : (pre ++ e :: (p1 ++ f :: p2)).any (Elem.hasId x.id) = true := by
          rw [hlist]
          exact List.any_eq_true.mpr ⟨f, List.mem_append_right _ List.mem_cons_self, hfid⟩
        rw [hany, if_pos rfl, hlist, onFirst_append hfront hfid]
        by_cases hanch : Anchored pre
        · refine iff_of_false (fun hb => ?_) fun hok => hok.2 hanch
          have hlen := congrArg List.length (becomes_unique hb (hyes hanch))
          simp at hlen
        · rw [hno hanch, becomes_self_iff h, hlist, replaced_eq_iff]
          constructor
          · intro hx
            exact ⟨hx.symm, hanch⟩
          · intro hx
            exact hx.1.symm

end

end BcnIe

end Rtl8192eu
