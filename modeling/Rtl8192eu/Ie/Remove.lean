import Rtl8192eu.Lib.Mem
import Rtl8192eu.Ie.Lookup

/-!
# Elements are removed in place

`rtw_ies_remove_ie`, `rtw_del_p2p_ie` and `rtw_del_wfd_ie`: find an element, move what is behind it
over it, and look again.  The first looks on from where it removed, the other two from the start.
An OUI is compared with the bytes behind a header, whether or not the element is that long.

* `IeBuf`, `IesRes`   a list in memory, and how a loop over it ends;
* `rtwIesRemoveIe`   the first loop;
* `swept`     the elements it leaves, and what lies behind them then;
* `ShortOk`   no short element is continued to the OUI by what follows it.
-/

namespace Rtl8192eu

open Records Mem

/-- the list begins at address 0 -/
structure IeBuf where
  mem : Nat → UInt8
  len : Nat

/-- `wrapped`: the remaining length came out negative, and that many bytes are moved -/
inductive IesRes where
  | done (buf : IeBuf) (updated : Bool)
  | wrapped

namespace IeEdit

/-! ## `rtw_ies_remove_ie` -/

def ouiAt (m : Nat → UInt8) (a : Nat) (oui : Option (List UInt8)) : Bool :=
  match oui with
  | none => true
  | some oui => read m a oui.length == oui

/-- `rtw_get_ie_ex` without a buffer for the element: its offset and its length -/
def getIeExLoop (m : Nat → UInt8) (inLen : Nat) (eid : UInt8) (oui : Option (List UInt8)) :
    Nat → Nat → Option (Nat × Nat)
  | 0, _ => none
  | n + 1, cnt =>
    if cnt < inLen then
      if eid = m cnt && ouiAt m (cnt + 2) oui then some (cnt, (m (cnt + 1)).toNat + 2)
      else getIeExLoop m inLen eid oui n (cnt + ((m (cnt + 1)).toNat + 2))
    else none

def getIeEx (m : Nat → UInt8) (inLen : Nat) (eid : UInt8) (oui : Option (List UInt8)) :
    Option (Nat × Nat) :=
  getIeExLoop m inLen eid oui (inLen + 1) 0

/-- `_rtw_memmove` of the `remain` bytes behind the element of `ielen` bytes at `a` -/
def closeGap (m : Nat → UInt8) (a ielen remain : Nat) : Nat → UInt8 :=
  write m a (read m (a + ielen) remain)

def removeLoop (eid : UInt8) (oui : Option (List UInt8)) :
    Nat → IeBuf → Nat → Nat → Bool → Option IesRes
  | 0, _, _, _, _ => none
  | n + 1, s, start, searchLen, ret =>
    match getIeEx (shift s.mem start) searchLen eid oui with
    | none => some (.done s ret)
    | some (p, ielen) =>
      if searchLen < p + ielen then some .wrapped
      else
        let remain := searchLen - (p + ielen)
        removeLoop eid oui n ⟨closeGap s.mem (start + p) ielen remain, s.len - ielen⟩ (start + p) remain
          true

end IeEdit

/-- `none`: still running after as many rounds as there are bytes -/
def rtwIesRemoveIe (s : IeBuf) (offset : Nat) (eid : UInt8) (oui : Option (List UInt8)) :
    Option IesRes :=
  if s.len ≤ offset then some (.done s false)
  else IeEdit.removeLoop eid oui (s.len + 1) s offset (s.len - offset) false

namespace IeEdit

/-! ## what it means -/

/-- id and OUI, the OUI in the body of the element itself -/
def Wanted (eid : UInt8) (oui : Option (List UInt8)) (e : Elem) : Prop :=
  e.id = eid ∧ ∀ o ∈ oui, o <+: e.body

instance (eid : UInt8) (oui : Option (List UInt8)) (e : Elem) : Decidable (Wanted eid oui e) :=
  inferInstanceAs (Decidable (_ ∧ _))

/-- the loop takes the element at the start of `m` for a wanted one -/
def Taken (eid : UInt8) (oui : Option (List UInt8)) (m : Nat → UInt8) : Prop :=
  eid = m 0 ∧ ouiAt m 2 oui = true

instance (eid : UInt8) (oui : Option (List UInt8)) (m : Nat → UInt8) : Decidable (Taken eid oui m) :=
  inferInstanceAs (Decidable (_ ∧ _))

/-- the memory behind the list `e :: es` with the rest `t`, when `e` is removed from it: the last
bytes of the list stay behind its new end -/
def leftover (e : Elem) (es : List Elem) (t : List UInt8) (behind : Nat → UInt8) : Nat → UInt8 :=
  shift (ahead (all elems (e :: es) ++ t) behind) (all elems es ++ t).length

/-- the elements that stay, and the memory behind them -/
def swept (eid : UInt8) (oui : Option (List UInt8)) (t : List UInt8) :
    List Elem → (Nat → UInt8) → List Elem × (Nat → UInt8)
  | [], behind => ([], behind)
  | e :: es, behind =>
    if Taken eid oui (ahead (all elems (e :: es) ++ t) behind) then
      swept eid oui t es (leftover e es t behind)
    else (e :: (swept eid oui t es behind).1, (swept eid oui t es behind).2)

/-- no element that is not wanted is taken for one: it would have to be shorter than the OUI, and
what lies behind it would have to continue it -/
def ShortOk (eid : UInt8) (oui : Option (List UInt8)) : List Elem → (Nat → UInt8) → Prop
  | [], _ => True
  | e :: es, behind =>
    if Wanted eid oui e then ShortOk eid oui es (leftover e es [] behind)
    else ¬ Taken eid oui (ahead (all elems (e :: es)) behind) ∧ ShortOk eid oui es behind

variable {eid : UInt8} {oui : Option (List UInt8)} {m behind : Nat → UInt8} {s : IeBuf} {e : Elem}
  {es : List Elem} {t : List UInt8} {start k n inLen searchLen : Nat} {ret : Bool}

/-! ## the search -/

theorem ouiAt_shift (a : Nat) : ouiAt (shift m k) a oui = ouiAt m (k + a) oui := by
  cases oui with
  | none => rfl
  | some o =>
    show (read (shift m k) a _ == o) = (read m (k + a) _ == o)
    rw [read_shift]

theorem getIeExLoop_add (n c : Nat) :
    getIeExLoop m (k + inLen) eid oui n (k + c)
      = (getIeExLoop (shift m k) inLen eid oui n c).map fun x => (k + x.1, x.2) := by
  induction n generalizing c with
  | zero => rfl
  | succ n ih =>
    unfold getIeExLoop
    by_cases hlt : c < inLen
    · rw [if_pos hlt, if_pos (Nat.add_lt_add_left hlt k), ouiAt_shift, Nat.add_assoc, Nat.add_assoc]
      show (if eid = m (k + c) && _ then _ else _) = Option.map _ (if eid = m (k + c) && _ then _ else _)
      split
      · rfl
      · rw [Nat.add_assoc, ih]
        rfl
    · rw [if_neg hlt, if_neg (by omega)]
      rfl

/-- every round takes a byte at least -/
theorem getIeExLoop_fuel (n n' c : Nat) (hn : inLen < c + n) (hn' : inLen < c + n') :
    getIeExLoop m inLen eid oui n c = getIeExLoop m inLen eid oui n' c := by
  induction n generalizing n' c with
  | zero =>
    cases n' with
    | zero => rfl
    | succ n' => rw [getIeExLoop, getIeExLoop, if_neg (by omega)]
  | succ n ih =>
    cases n' with
    | zero => rw [getIeExLoop, getIeExLoop, if_neg (by omega)]
    | succ n' =>
      unfold getIeExLoop
      rw [ih n' _ (by omega) (by omega)]

theorem getIeEx_nil : getIeEx m 0 eid oui = none := rfl

theorem getIeEx_taken (hn : 0 < inLen) (h : Taken eid oui m) :
    getIeEx m inLen eid oui = some (0, (m 1).toNat + 2) := by
  rw [getIeEx, getIeExLoop, if_pos hn, if_pos]
  simpa [Taken] using h

theorem getIeEx_skip (h : ¬ Taken eid oui m) (hk : (m 1).toNat + 2 = k) (hle : k ≤ inLen) :
    getIeEx m inLen eid oui
      = (getIeEx (shift m k) (inLen - k) eid oui).map fun x => (k + x.1, x.2) := by
  obtain ⟨l, rfl⟩ := Nat.exists_eq_add_of_le hle
  have hno : ¬ (eid = m 0 && ouiAt m (0 + 2) oui) = true := by simpa [Taken] using h
  rw [getIeEx, getIeExLoop, if_pos (by omega), if_neg hno, Nat.add_sub_cancel_left, Nat.zero_add,
    Nat.zero_add, hk, getIeExLoop_fuel _ (l + 1) k (by omega) (by omega)]
  exact getIeExLoop_add (l + 1) 0

theorem getIeEx_short (h : ¬ Taken eid oui m) (hlt : inLen < (m 1).toNat + 2) :
    getIeEx m inLen eid oui = none := by
  have hno : ¬ (eid = m 0 && ouiAt m (0 + 2) oui) = true := by simpa [Taken] using h
  rw [getIeEx, getIeExLoop, if_neg hno, Nat.zero_add, Nat.zero_add]
  split
  · cases inLen with
    | zero => rfl
    | succ l =>
      rw [getIeExLoop, if_neg (by omega)]
  · rfl

/-! ## one round -/

theorem removeLoop_none (h : getIeEx (shift s.mem start) searchLen eid oui = none) :
    removeLoop eid oui (n + 1) s start searchLen ret = some (.done s ret) := by
  rw [removeLoop, h]

theorem removeLoop_taken (n searchLen : Nat) (ret : Bool) (hpos : 0 < searchLen)
    (h : Taken eid oui (shift s.mem start)) (hk : (s.mem (start + 1)).toNat + 2 = k) (hle : k ≤ searchLen) :
    removeLoop eid oui (n + 1) s start searchLen ret
      = removeLoop eid oui n ⟨closeGap s.mem start k (searchLen - k), s.len - k⟩ start (searchLen - k)
          true := by
  have hget := getIeEx_taken hpos h
  change getIeEx _ _ _ _ = some (0, (s.mem (start + 1)).toNat + 2) at hget
  rw [hk] at hget
  rw [removeLoop, hget]
  dsimp only
  rw [Nat.zero_add, if_neg (by omega), Nat.add_zero]

theorem removeLoop_wrapped (hpos : 0 < searchLen) (h : Taken eid oui (shift s.mem start))
    (hlt : searchLen < (s.mem (start + 1)).toNat + 2) :
    removeLoop eid oui (n + 1) s start searchLen ret = some .wrapped := by
  have hget := getIeEx_taken hpos h
  change getIeEx _ _ _ _ = some (0, (s.mem (start + 1)).toNat + 2) at hget
  rw [removeLoop, hget]
  dsimp only
  rw [Nat.zero_add, if_pos hlt]

/-- an element that is not taken is passed over -/
theorem removeLoop_skip (n searchLen : Nat) (ret : Bool) (h : ¬ Taken eid oui (shift s.mem start))
    (hk : (s.mem (start + 1)).toNat + 2 = k) (hle : k ≤ searchLen) :
    removeLoop eid oui (n + 1) s start searchLen ret
      = removeLoop eid oui (n + 1) s (start + k) (searchLen - k) ret := by
  have hget := getIeEx_skip h hk hle
  rw [shift_shift] at hget
  rw [removeLoop, removeLoop, hget]
  cases getIeEx (shift s.mem (start + k)) (searchLen - k) eid oui with
  | none => rfl
  | some x =>
    obtain ⟨p, ielen⟩ := x
    dsimp only [Option.map_some]
    have hadd : start + (k + p) = start + k + p := (Nat.add_assoc ..).symm
    have hsub : searchLen - (k + p + ielen) = searchLen - k - (p + ielen) := by omega
    rw [hadd, hsub]
    by_cases hw : searchLen < k + p + ielen
    · rw [if_pos hw, if_pos (by omega)]
    · rw [if_neg hw, if_neg (by omega)]

/-! ## the whole loop -/

/-- the size of the first element, from its length byte -/
theorem size_ahead (h : shift m start = ahead (all elems (e :: es) ++ t) behind) :
    (m (start + 1)).toNat + 2 = e.bytes.length := by
  have h1 : m (start + 1) = UInt8.ofNat e.body.length := by
    have := congrFun h 1
    rw [Walk.all_cons_append] at this
    exact this
  rw [h1, Elem.toNat_elen, Elem.length_bytes]

theorem ahead_cons_append (e : Elem) (es : List Elem) (t : List UInt8) (behind : Nat → UInt8) :
    ahead (all elems (e :: es) ++ t) behind = ahead e.bytes (ahead (all elems es ++ t) behind) := by
  rw [all_cons, List.append_assoc, ahead_append]
  rfl

theorem length_all_cons_append (e : Elem) (es : List Elem) (t : List UInt8) :
    (all elems (e :: es) ++ t).length = e.bytes.length + (all elems es ++ t).length := by
  rw [all_cons, List.append_assoc, List.length_append]
  rfl

/-- behind the element `e` -/
theorem shift_size (h : shift m start = ahead (all elems (e :: es) ++ t) behind) :
    shift m (start + e.bytes.length) = ahead (all elems es ++ t) behind := by
  rw [← shift_shift, h, ahead_cons_append, shift_ahead]

/-- the rest of the list, moved over the element `e` -/
theorem shift_closeGap (h : shift m start = ahead (all elems (e :: es) ++ t) behind) :
    shift (closeGap m start e.bytes.length (all elems es ++ t).length) start
      = ahead (all elems es ++ t) (leftover e es t behind) := by
  have hrest := shift_size h
  rw [← shift_zero (m := shift m _)] at hrest
  have hread : read m (start + e.bytes.length) (all elems es ++ t).length = all elems es ++ t := by
    rw [← Nat.add_zero (start + e.bytes.length), ← read_shift, ← shift_zero (m := shift m _), hrest,
      read_ahead rfl]
  rw [closeGap, hread]
  have hw : shift (write m (start + 0) (all elems es ++ t)) start
      = write (shift m start) 0 (all elems es ++ t) := shift_write
  rw [Nat.add_zero] at hw
  rw [hw, write_zero, h]
  rfl

theorem closeGap_of_lt {i : Nat} (h : i < start) (a k : Nat) (ha : start ≤ a) :
    closeGap m a k n i = m i := write_of_lt (Nat.lt_of_lt_of_le h ha)

/-- an incomplete element is longer than what is left of it -/
theorem size_rest (ht : elems.cut t = none) (hne : t ≠ []) (h : shift m start = ahead t behind) :
    t.length < (m (start + 1)).toNat + 2 := by
  rcases Walk.cut_eq_none ht hne with ⟨x, rfl⟩ | ⟨id, elen, rest, rfl, hlt⟩
  · simp only [List.length_singleton]
    omega
  · have h1 : m (start + 1) = elen := congrFun h 1
    rw [h1]
    simp only [List.length_cons]
    omega

/-- how the loop ends: the list that is left from `start` on, and the bytes before it -/
structure Left (m m' : Nat → UInt8) (start : Nat) (l : List UInt8) (behind : Nat → UInt8) : Prop where
  here : shift m' start = ahead l behind
  before : ∀ i, i < start → m' i = m i

theorem Left.cons {m' : Nat → UInt8} {l : List UInt8} {b : Nat → UInt8}
    (hm : shift m start = ahead (all elems (e :: es) ++ t) behind)
    (h : Left m m' (start + e.bytes.length) l b) : Left m m' start (e.bytes ++ l) b := by
  refine ⟨?_, fun i hi => h.before i (by omega)⟩
  have hread : read (shift m' start) 0 e.bytes.length = e.bytes := by
    have hsame : read (shift m' start) 0 e.bytes.length = read (shift m start) 0 e.bytes.length := by
      rw [read_shift, read_shift]
      exact read_congr fun i _ hi => h.before i (by omega)
    rw [hsame, hm, ahead_cons_append, read_ahead rfl]
  rw [← ahead_read (shift m' start) e.bytes.length, hread, shift_shift, h.here, ahead_append]

theorem Left.read {m' : Nat → UInt8} {l : List UInt8} {b : Nat → UInt8} (h : Left m m' start l b) :
    read m' 0 (start + l.length) = read m 0 start ++ l := by
  have hl : Mem.read m' start l.length = l := by
    rw [← Nat.add_zero start, ← read_shift, h.here, read_ahead rfl]
  rw [read_add, Nat.zero_add, hl]
  congr 1
  exact read_congr fun i _ hi => h.before i (by omega)

/-- **The whole loop**: what is swept goes, and an incomplete element that is taken makes the remaining
length negative. -/
theorem removeLoop_spec (eid : UInt8) (oui : Option (List UInt8)) (ht : elems.cut t = none)
    (es : List Elem) (behind : Nat → UInt8) (s : IeBuf) (start n : Nat) (ret : Bool)
    (hm : shift s.mem start = ahead (all elems es ++ t) behind)
    (hlen : start + (all elems es ++ t).length = s.len) (hn : es.length < n) :
    (t ≠ [] → Taken eid oui (ahead t (swept eid oui t es behind).2) →
        removeLoop eid oui n s start (all elems es ++ t).length ret = some .wrapped)
      ∧ (¬ (t ≠ [] ∧ Taken eid oui (ahead t (swept eid oui t es behind).2)) →
        ∃ s' ret', removeLoop eid oui n s start (all elems es ++ t).length ret = some (.done s' ret')
          ∧ s'.len = start + (all elems (swept eid oui t es behind).1 ++ t).length
          ∧ Left s.mem s'.mem start (all elems (swept eid oui t es behind).1 ++ t)
            (swept eid oui t es behind).2) := by
  induction es generalizing behind s start n ret with
  | nil =>
    obtain ⟨n, rfl⟩ := Nat.exists_eq_add_one.mpr (Nat.lt_of_le_of_lt (Nat.zero_le _) hn)
    rw [all_nil, List.nil_append] at hm hlen ⊢
    have hhere : Left s.mem s.mem start t behind := ⟨hm, fun _ _ => rfl⟩
    constructor
    · intro hne htk
      have hpos := List.length_pos_iff.mpr hne
      exact removeLoop_wrapped hpos (hm ▸ htk) (size_rest ht hne hm)
    · intro hno
      refine ⟨s, ret, removeLoop_none ?_, hlen.symm, hhere⟩
      by_cases hne : t = []
      · rw [hne]
        exact getIeEx_nil
      · have hnt : ¬ Taken eid oui (shift s.mem start) := by
          rw [hm]
          exact fun h => hno ⟨hne, h⟩
        have hlt : t.length < (s.mem (start + 1)).toNat + 2 := size_rest ht hne hm
        exact getIeEx_short hnt hlt
  | cons e es ih =>
    obtain ⟨n, rfl⟩ := Nat.exists_eq_add_one.mpr (Nat.lt_of_le_of_lt (Nat.zero_le _) hn)
    rw [List.length_cons] at hn
    have hk := size_ahead hm
    have hl := length_all_cons_append e es t
    have hpos := length_bytes_pos elems e
    change 0 < e.bytes.length at hpos
    by_cases htk : Taken eid oui (ahead (all elems (e :: es) ++ t) behind)
    · have hsw : swept eid oui t (e :: es) behind
          = swept eid oui t es (leftover e es t behind) := if_pos htk
      have hround := removeLoop_taken n (all elems (e :: es) ++ t).length ret (by omega) (hm ▸ htk) hk
        (by omega)
      rw [hround, hsw, hl, Nat.add_sub_cancel_left]
      obtain ⟨hwr, hdone⟩ := ih (leftover e es t behind)
        ⟨closeGap s.mem start e.bytes.length (all elems es ++ t).length, s.len - e.bytes.length⟩ start n
        true (shift_closeGap hm) (by dsimp only; omega) (by omega)
      refine ⟨hwr, fun hno => ?_⟩
      obtain ⟨s', ret', hres, hlen', hleft⟩ := hdone hno
      refine ⟨s', ret', hres, hlen', hleft.here, fun i hi => ?_⟩
      rw [hleft.before i hi]
      exact closeGap_of_lt hi _ _ (Nat.le_refl _)
    · have hsw : swept eid oui t (e :: es) behind
          = (e :: (swept eid oui t es behind).1, (swept eid oui t es behind).2) := if_neg htk
      have hround := removeLoop_skip n (all elems (e :: es) ++ t).length ret (hm ▸ htk) hk (by omega)
      rw [hround, hsw, hl, Nat.add_sub_cancel_left]
      obtain ⟨hwr, hdone⟩ := ih behind s (start + e.bytes.length) (n + 1) ret (shift_size hm)
        (by omega) (by omega)
      refine ⟨hwr, fun hno => ?_⟩
      obtain ⟨s', ret', hres, hlen', hleft⟩ := hdone hno
      refine ⟨s', ret', hres, ?_, ?_⟩
      · rw [hlen', length_all_cons_append]
        omega
      · have hcons := hleft.cons hm
        rw [all_cons, List.append_assoc]
        exact hcons

/-! ## what is swept -/

theorem taken_of_wanted (h : Wanted eid oui e) : Taken eid oui (ahead (all elems (e :: es) ++ t) behind) := by
  obtain ⟨rfl, ho⟩ := h
  rw [Walk.all_cons_append]
  refine ⟨rfl, ?_⟩
  cases oui with
  | none => rfl
  | some o =>
    obtain ⟨u, hu⟩ := ho o rfl
    have hmem : shift (ahead (e.id :: UInt8.ofNat e.body.length :: (e.body ++ (all elems es ++ t))) behind) 0
        = ahead ([e.id, UInt8.ofNat e.body.length] ++ (e.body ++ (all elems es ++ t))) behind := shift_zero
    have hle : o.length ≤ (e.body ++ (all elems es ++ t)).length := by
      rw [← hu, List.length_append, List.length_append]
      omega
    have hread := read_behind [e.id, UInt8.ofNat e.body.length] hmem hle
    rw [← hu, List.append_assoc, List.take_left] at hread
    change read _ 2 _ = o at hread
    show (read _ 2 o.length == o) = true
    rw [← hu, List.append_assoc, hread, beq_self_eq_true]

def keep (eid : UInt8) (oui : Option (List UInt8)) (es : List Elem) : List Elem :=
  es.filter fun e => ¬ Wanted eid oui e

theorem keep_cons_of_wanted (h : Wanted eid oui e) : keep eid oui (e :: es) = keep eid oui es :=
  List.filter_cons_of_neg (by simpa using h)

theorem keep_cons_of_not (h : ¬ Wanted eid oui e) : keep eid oui (e :: es) = e :: keep eid oui es :=
  List.filter_cons_of_pos (by simpa using h)

/-- whatever is wanted is swept -/
theorem swept_sublist (es : List Elem) (behind : Nat → UInt8) :
    (swept eid oui t es behind).1.Sublist (keep eid oui es) := by
  induction es generalizing behind with
  | nil => exact List.Sublist.refl _
  | cons e es ih =>
    rw [swept]
    by_cases hw : Wanted eid oui e
    · rw [if_pos (taken_of_wanted hw), keep_cons_of_wanted hw]
      exact ih _
    · rw [keep_cons_of_not hw]
      split
      · exact (ih _).cons e
      · exact (ih _).cons_cons e

/-- **Nothing else is swept** exactly when no short element is taken for a longer one. -/
theorem swept_eq_keep_iff (es : List Elem) (behind : Nat → UInt8) :
    (swept eid oui [] es behind).1 = keep eid oui es ↔ ShortOk eid oui es behind := by
  induction es generalizing behind with
  | nil => exact iff_of_true rfl trivial
  | cons e es ih =>
    rw [swept, ShortOk]
    by_cases hw : Wanted eid oui e
    · rw [if_pos (taken_of_wanted hw), if_pos hw, keep_cons_of_wanted hw]
      exact ih _
    · rw [if_neg hw, keep_cons_of_not hw, List.append_nil]
      by_cases htk : Taken eid oui (ahead (all elems (e :: es)) behind)
      · rw [if_pos htk]
        refine iff_of_false ?_ fun h => h.1 htk
        intro heq
        have hsub : (swept eid oui [] es (leftover e es [] behind)).1.Sublist (keep eid oui es) :=
          swept_sublist es _
        have hle := hsub.length_le
        rw [heq, List.length_cons] at hle
        omega
      · rw [if_neg htk, List.cons_inj_right, ih, and_iff_right htk]

/-! ## the list afterwards -/

/-- the removed elements are gone, the others are in order -/
def Removed (eid : UInt8) (oui : Option (List UInt8)) (pre post : List Elem) (x : Option IesRes) : Prop :=
  ∃ s' ret, x = some (.done s' ret) ∧ read s'.mem 0 s'.len = all elems (pre ++ keep eid oui post)

def Ends (x : Option IesRes) : Prop := ∃ s' ret, x = some (.done s' ret)

end IeEdit

open IeEdit

/-- `rtw_ies_remove_ie` from a boundary between elements on -/
theorem rtwIesRemoveIe_spec (eid : UInt8) (oui : Option (List UInt8)) {t : List UInt8}
    (ht : elems.cut t = none) (s : IeBuf) (pre post : List Elem)
    (hs : read s.mem 0 s.len = all elems pre ++ (all elems post ++ t)) :
    (Ends (rtwIesRemoveIe s (all elems pre).length eid oui)
        ↔ ¬ (t ≠ [] ∧ Taken eid oui (ahead t (swept eid oui t post (shift s.mem s.len)).2)))
      ∧ (t = [] → (Removed eid oui pre post (rtwIesRemoveIe s (all elems pre).length eid oui)
        ↔ ShortOk eid oui post (shift s.mem s.len))) := by
  have hmem := shift_of_read hs
  have hlen : s.len = (all elems pre).length + (all elems post ++ t).length := by
    have := congrArg List.length hs
    rwa [length_read, List.length_append] at this
  have hpre : read s.mem 0 (all elems pre).length = all elems pre := by
    rw [hlen, read_add] at hs
    exact (List.append_inj hs length_read).1
  unfold rtwIesRemoveIe
  by_cases hnil : s.len ≤ (all elems pre).length
  · have hz : all elems post ++ t = [] := List.length_eq_zero_iff.mp (by omega)
    obtain ⟨hpost, rfl⟩ := List.append_eq_nil_iff.mp hz
    have hp : post = [] := all_injective (hpost.trans (all_nil (F := elems)).symm)
    subst hp
    rw [if_pos hnil]
    refine ⟨iff_of_true ⟨s, false, rfl⟩ fun h => h.1 rfl, fun _ => iff_of_true ⟨s, false, rfl, ?_⟩ trivial⟩
    rw [hs, all_append]
    rfl
  · have hfuel : post.length < s.len + 1 := by
      have := length_le_all (F := elems) post
      rw [List.length_append] at hlen
      omega
    have hsub : s.len - (all elems pre).length = (all elems post ++ t).length := by omega
    obtain ⟨hwr, hdone⟩ := removeLoop_spec eid oui ht post _ s _ (s.len + 1) false hmem hlen.symm hfuel
    rw [if_neg hnil, hsub]
    constructor
    · by_cases hend : t ≠ [] ∧ Taken eid oui (ahead t (swept eid oui t post (shift s.mem s.len)).2)
      · refine iff_of_false ?_ (not_not.mpr hend)
        rintro ⟨s', ret', hres⟩
        rw [hwr hend.1 hend.2] at hres
        cases hres
      · obtain ⟨s', ret', hres, -, -⟩ := hdone hend
        exact iff_of_true ⟨s', ret', hres⟩ hend
    · rintro rfl
      obtain ⟨s', ret', hres, hlen', hleft⟩ := hdone fun h => h.1 rfl
      have hread := hleft.read
      rw [← hlen', hpre, List.append_nil, ← all_append] at hread
      rw [← swept_eq_keep_iff]
      constructor
      · rintro ⟨s'', ret'', hres', heq⟩
        cases hres.symm.trans hres'
        exact List.append_cancel_left (all_injective (hread.symm.trans heq))
      · intro heq
        rw [heq] at hread
        exact ⟨s', ret', hres, hread⟩

end Rtl8192eu
