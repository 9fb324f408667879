import Rtl8192eu.Ie.Remove

/-!
# Vendor elements are deleted

`rtw_del_p2p_ie` and `rtw_del_wfd_ie` look from the start of the list after every removal, so a short
element that was passed over is compared again, with another element behind it.

* `rtwDelP2pIe`, `rtwDelWfdIe`, `rtwRframeDelWfdIe`   the source;
* `strip`          the elements they leave;
* `Unambiguous`    no short element is continued to the OUI, in any of the lists on the way;
* `strip_eq_iff`   for these lists only the vendor elements go;
* `ies_removal_iff`   when the three loops do what they are for.
-/

namespace Rtl8192eu

open Records Mem

def maxIeSz : Nat := 768

def p2pOui : List UInt8 := [0x50, 0x6f, 0x9a, 0x09]

def wfdOui : List UInt8 := [0x50, 0x6f, 0x9a, 0x0a]

namespace IeEdit

/-! ## the loops -/

/-- the loop of `rtw_get_p2p_ie` and `rtw_get_wfd_ie` -/
def getVendorLoop (m : Nat → UInt8) (inLen : Nat) (oui : List UInt8) : Nat → Nat → Option (Nat × Nat)
  | 0, _ => none
  | n + 1, cnt =>
    if cnt + 1 + 4 < inLen then
      if maxIeSz ≤ cnt + 1 + 4 then none
      else if m cnt = Walk.eidVendorSpecific ∧ read m (cnt + 2) 4 = oui then
        some (cnt, (m (cnt + 1)).toNat + 2)
      else getVendorLoop m inLen oui n (cnt + ((m (cnt + 1)).toNat + 2))
    else none

/-- the length comes in a `sint` -/
def getVendorIe (m : Nat → UInt8) (inLen : Int) (oui : List UInt8) : Option (Nat × Nat) :=
  if inLen ≤ 0 then none else getVendorLoop m inLen.toNat oui inLen.toNat 0

end IeEdit

def rtwGetP2pIe (m : Nat → UInt8) (inLen : Int) : Option (Nat × Nat) := IeEdit.getVendorIe m inLen p2pOui

def rtwGetWfdIe (m : Nat → UInt8) (inLen : Int) : Option (Nat × Nat) := IeEdit.getVendorIe m inLen wfdOui

namespace IeEdit

/-- the removal; the bytes that fall free are cleared -/
def delVendorLoop (oui : List UInt8) : Nat → IeBuf → Bool → Option IesRes
  | 0, _, _ => none
  | n + 1, s, ret =>
    match getVendorIe s.mem (sintOfUint s.len) oui with
    | none => some (.done s ret)
    | some (p, ielen) =>
      if s.len < p + ielen then some .wrapped
      else
        let remain := s.len - (p + ielen)
        let moved := closeGap s.mem p ielen remain
        delVendorLoop oui n ⟨write moved (p + remain) (List.replicate ielen 0), s.len - ielen⟩ true

end IeEdit

def rtwDelP2pIe (s : IeBuf) : Option IesRes := IeEdit.delVendorLoop p2pOui (s.len + 1) s false

def rtwDelWfdIe (s : IeBuf) : Option IesRes := IeEdit.delVendorLoop wfdOui (s.len + 1) s false

/-- `rx_data` is at address 0; the length of the elements is computed as a `uint`.  The bytes of the
frame afterwards, its length, and whether it changed -/
def rtwRframeDelWfdIe (m : Nat → UInt8) (len iesOffset : Nat) :
    Option (Option ((Nat → UInt8) × Nat × Bool)) :=
  let ies := 24 + iesOffset
  let iesLenOri := (len + 2 ^ 32 - ies) % 2 ^ 32
  (rtwDelWfdIe ⟨shift m ies, iesLenOri⟩).map fun
    | .done b _ => some (ahead (read m 0 ies) b.mem, len - (iesLenOri - b.len), iesLenOri != b.len)
    | .wrapped => none

namespace IeEdit

/-! ## what is found -/

/-- the element `e`, compared with `rest` behind it -/
def Met (oui : List UInt8) (e : Elem) (rest : List UInt8) : Prop :=
  e.id = Walk.eidVendorSpecific ∧ oui <+: e.body ++ rest

instance (oui : List UInt8) (e : Elem) (rest : List UInt8) : Decidable (Met oui e rest) :=
  inferInstanceAs (Decidable (_ ∧ _))

/-- the first element that is met, between those before and those behind it -/
def firstMet (oui t : List UInt8) : List Elem → Option (List Elem × Elem × List Elem)
  | [] => none
  | e :: es =>
    if Met oui e (all elems es ++ t) then some ([], e, es)
    else (firstMet oui t es).map fun x => (e :: x.1, x.2)

/-- the element that does not end in the list -/
def RestMet (oui t : List UInt8) : Prop :=
  6 ≤ t.length ∧ t.head? = some Walk.eidVendorSpecific ∧ oui <+: t.drop 2

instance (oui t : List UInt8) : Decidable (RestMet oui t) := inferInstanceAs (Decidable (_ ∧ _))

/-- offset and length of what is found -/
def found (oui t : List UInt8) (es : List Elem) : Option (Nat × Nat) :=
  match firstMet oui t es with
  | some (a, e, _) => some ((all elems a).length, e.bytes.length)
  | none => if RestMet oui t then some ((all elems es).length, (t.getD 1 0).toNat + 2) else none

/-- the elements that stay -/
def strip (oui t : List UInt8) : Nat → List Elem → List Elem
  | 0, es => es
  | n + 1, es =>
    match firstMet oui t es with
    | some (a, _, c) => strip oui t n (a ++ c)
    | none => es

variable {oui t xs ys zs : List UInt8} {m behind : Nat → UInt8} {s : IeBuf} {e : Elem}
  {es a c : List Elem} {cnt inLen n k : Nat} {x : Nat × Nat}

theorem firstMet_some (h : firstMet oui t es = some (a, e, c)) :
    es = a ++ e :: c ∧ Met oui e (all elems c ++ t)
      ∧ ∀ a₁ e' a₂, a = a₁ ++ e' :: a₂ → ¬ Met oui e' (all elems (a₂ ++ e :: c) ++ t) := by
  induction es generalizing a with
  | nil => cases h
  | cons x es ih =>
    rw [firstMet] at h
    split at h
    · rename_i hmet
      cases h
      refine ⟨rfl, hmet, ?_⟩
      intro a₁ e' a₂ ha
      cases a₁ <;> cases ha
    · rename_i hno
      obtain ⟨⟨a', e', c'⟩, hf, he⟩ := Option.map_eq_some_iff.mp h
      cases he
      obtain ⟨rfl, hmet, hbefore⟩ := ih hf
      refine ⟨rfl, hmet, ?_⟩
      intro a₁ e' a₂ ha
      cases a₁ with
      | nil =>
        cases ha
        exact hno
      | cons y a₁ =>
        cases ha
        exact hbefore a₁ e' a₂ rfl

theorem firstMet_none (h : firstMet oui t es = none) (a : List Elem) (e : Elem) (c : List Elem)
    (hes : es = a ++ e :: c) : ¬ Met oui e (all elems c ++ t) := by
  induction es generalizing a with
  | nil => cases a <;> cases hes
  | cons x es ih =>
    rw [firstMet] at h
    split at h
    · cases h
    · rename_i hno
      have hf := Option.map_eq_none_iff.mp h
      cases a with
      | nil =>
        cases hes
        exact hno
      | cons y a =>
        cases hes
        exact ih hf a rfl

theorem found_cons_met (h : Met oui e (all elems es ++ t)) :
    found oui t (e :: es) = some (0, e.bytes.length) := by
  rw [found, firstMet, if_pos h]
  rfl

theorem found_cons_not (h : ¬ Met oui e (all elems es ++ t)) :
    found oui t (e :: es) = (found oui t es).map fun x => (e.bytes.length + x.1, x.2) := by
  rw [found, found, firstMet, if_neg h]
  cases firstMet oui t es with
  | none =>
    dsimp only [Option.map_none]
    split
    · rw [Option.map_some, all_cons, List.length_append]
      rfl
    · rfl
  | some x =>
    dsimp only [Option.map_some]
    rw [all_cons, List.length_append]
    rfl

/-- an OUI needs four bytes behind a header -/
theorem found_short (ho : oui.length = 4) (h : (all elems es ++ t).length < 6) : found oui t es = none := by
  induction es with
  | nil =>
    rw [all_nil, List.nil_append] at h
    rw [found, firstMet, if_neg]
    rintro ⟨h6, -⟩
    omega
  | cons e es ih =>
    have hl := length_all_cons_append e es t
    rw [Elem.length_bytes] at hl
    rw [found_cons_not, ih (by omega)]
    · rfl
    · rintro ⟨-, hp⟩
      have := hp.length_le
      rw [List.length_append] at this
      omega

/-! ## the search -/

/-- the comparison at an element with six bytes left -/
theorem met_iff (ho : oui.length = 4) (hm : shift m cnt = ahead (all elems (e :: es) ++ t) behind)
    (h6 : 6 ≤ (all elems (e :: es) ++ t).length) :
    m cnt = Walk.eidVendorSpecific ∧ read m (cnt + 2) 4 = oui ↔ Met oui e (all elems es ++ t) := by
  have hall := Walk.all_cons_append e es t
  have hid : m cnt = e.id := by
    have := congrFun hm 0
    rw [hall] at this
    exact this
  have hbody : read m (cnt + 2) 4 = (e.body ++ (all elems es ++ t)).take 4 := by
    rw [hall] at hm h6
    simp only [List.length_cons] at h6
    exact read_behind [e.id, UInt8.ofNat e.body.length] hm (by omega)
  rw [hid, hbody, Met, List.prefix_iff_eq_take, ho]
  exact and_congr_right fun _ => eq_comm

/-- the same behind the last complete element -/
theorem restMet_iff (ho : oui.length = 4) (hm : shift m cnt = ahead t behind) (h6 : 6 ≤ t.length) :
    m cnt = Walk.eidVendorSpecific ∧ read m (cnt + 2) 4 = oui ↔ RestMet oui t := by
  match t, h6 with
  | id :: elen :: rest, h6 =>
    have hid : m cnt = id := congrFun hm 0
    have hbody : read m (cnt + 2) 4 = rest.take 4 := by
      simp only [List.length_cons] at h6
      exact read_behind [id, elen] hm (by omega)
    rw [hid, hbody, RestMet, and_iff_right h6, List.prefix_iff_eq_take, ho]
    show id = _ ∧ rest.take 4 = oui ↔ some id = some _ ∧ oui = rest.take 4
    rw [Option.some_inj]
    exact and_congr_right fun _ => eq_comm

theorem getVendorLoop_end (h : ¬ cnt + 1 + 4 < inLen) : getVendorLoop m inLen oui n cnt = none := by
  cases n with
  | zero => rfl
  | succ n => rw [getVendorLoop, if_neg h]

/-- the search finds what there is, unless it gives up behind `MAX_IE_SZ` -/
theorem getVendorLoop_spec (ho : oui.length = 4) (ht : elems.cut t = none) (es : List Elem) (n cnt : Nat)
    (hm : shift m cnt = ahead (all elems es ++ t) behind) (hlen : cnt + (all elems es ++ t).length = inLen)
    (hn : (all elems es ++ t).length ≤ n) :
    (inLen ≤ maxIeSz → getVendorLoop m inLen oui n cnt = (found oui t es).map fun x => (cnt + x.1, x.2))
      ∧ ∀ x, getVendorLoop m inLen oui n cnt = some x →
        (found oui t es).map (fun x => (cnt + x.1, x.2)) = some x := by
  induction n generalizing es cnt with
  | zero =>
    rw [found_short ho (by omega)]
    exact ⟨fun _ => rfl, nofun⟩
  | succ n ih =>
    by_cases h6 : 6 ≤ (all elems es ++ t).length
    · unfold getVendorLoop
      rw [if_pos (by omega)]
      by_cases hmax : maxIeSz ≤ cnt + 1 + 4
      · rw [if_pos hmax]
        exact ⟨fun h => by omega, nofun⟩
      rw [if_neg hmax]
      cases es with
      | nil =>
        rw [all_nil, List.nil_append] at hm hlen h6 hn
        have hne : t ≠ [] := List.length_pos_iff.mp (by omega)
        have hsize := size_rest ht hne hm
        have hfound : found oui t []
            = if RestMet oui t then some (0, (m (cnt + 1)).toNat + 2) else none := by
          have h1 : m (cnt + 1) = t.getD 1 0 := by
            have := congrFun hm 1
            rw [ahead_of_lt (by omega)] at this
            rw [List.getD_eq_getElem?_getD, List.getElem?_eq_getElem (by omega)]
            exact this
          rw [h1]
          rfl
        rw [hfound]
        by_cases hmet : RestMet oui t
        · rw [if_pos ((restMet_iff ho hm h6).mpr hmet), if_pos hmet]
          exact ⟨fun _ => rfl, fun x hx => hx⟩
        · rw [if_neg (mt (restMet_iff ho hm h6).mp hmet), if_neg hmet, getVendorLoop_end (by omega)]
          exact ⟨fun _ => rfl, nofun⟩
      | cons e es =>
        have hk := size_ahead hm
        have hl := length_all_cons_append e es t
        have hpos := length_bytes_pos elems e
        change 0 < e.bytes.length at hpos
        by_cases hmet : Met oui e (all elems es ++ t)
        · rw [if_pos ((met_iff ho hm h6).mpr hmet), found_cons_met hmet, hk]
          exact ⟨fun _ => rfl, fun x hx => hx⟩
        · rw [if_neg (mt (met_iff ho hm h6).mp hmet), found_cons_not hmet, hk, Option.map_map]
          have h := ih es (cnt + e.bytes.length) (shift_size hm) (by omega) (by omega)
          have hadd : (fun x : Nat × Nat => (cnt + x.1, x.2))
                ∘ (fun x : Nat × Nat => (e.bytes.length + x.1, x.2))
              = fun x : Nat × Nat => (cnt + e.bytes.length + x.1, x.2) := by
            funext x
            show (cnt + (e.bytes.length + x.1), x.2) = _
            rw [Nat.add_assoc]
          rw [hadd]
          exact h
    · rw [found_short ho (by omega), getVendorLoop_end (by omega)]
      exact ⟨fun _ => rfl, nofun⟩

/-- the search from the start of the list -/
theorem getVendorIe_spec (ho : oui.length = 4) (ht : elems.cut t = none)
    (hs : read s.mem 0 s.len = all elems es ++ t) (h31 : s.len < 2 ^ 31) :
    (s.len ≤ maxIeSz → getVendorIe s.mem (sintOfUint s.len) oui = found oui t es)
      ∧ ∀ x, getVendorIe s.mem (sintOfUint s.len) oui = some x → found oui t es = some x := by
  have hlen : (all elems es ++ t).length = s.len := by rw [← hs, length_read]
  have hsint : sintOfUint s.len = s.len := if_pos h31
  have hid : (found oui t es).map (fun x => (0 + x.1, x.2)) = found oui t es := by
    cases found oui t es with
    | none => rfl
    | some x =>
      show some (0 + x.1, x.2) = some x
      rw [Nat.zero_add]
  unfold getVendorIe
  rw [hsint]
  by_cases hz : (s.len : Int) ≤ 0
  · have hnone : found oui t es = none := found_short ho (by omega)
    rw [if_pos hz, hnone]
    exact ⟨fun _ => rfl, nofun⟩
  · rw [if_neg hz, Int.toNat_natCast]
    have hm : shift s.mem 0 = ahead (all elems es ++ t) (shift s.mem s.len) := by
      rw [shift_zero, ← hs, ahead_read]
    have h := getVendorLoop_spec ho ht es s.len 0 hm ((Nat.zero_add _).trans hlen)
      (Nat.le_of_eq hlen)
    rw [hid] at h
    exact h

/-! ## the deletion -/

theorem found_of_some (h : firstMet oui t es = some (a, e, c)) :
    found oui t es = some ((all elems a).length, e.bytes.length) := by rw [found, h]

theorem found_of_none (h : firstMet oui t es = none) : found oui t es
    = if RestMet oui t then some ((all elems es).length, (t.getD 1 0).toNat + 2) else none := by
  rw [found, h]

theorem length_lt_size (ht : elems.cut t = none) (hne : t ≠ []) : t.length < (t.getD 1 0).toNat + 2 := by
  rcases Walk.cut_eq_none ht hne with ⟨x, rfl⟩ | ⟨id, elen, rest, rfl, hlt⟩
  · simp only [List.length_singleton]
    omega
  · show rest.length + 2 < elen.toNat + 2
    omega

/-- a piece is cut out of what is read -/
theorem read_closeGap (h : read m 0 n = xs ++ (ys ++ zs)) :
    read (closeGap m xs.length ys.length zs.length) 0 (xs.length + zs.length) = xs ++ zs := by
  have hn : n = xs.length + (ys.length + zs.length) := by
    have := congrArg List.length h
    rwa [length_read, List.length_append, List.length_append] at this
  rw [hn, read_add, read_add] at h
  obtain ⟨hx, hyz⟩ := List.append_inj h length_read
  obtain ⟨-, hz⟩ := List.append_inj hyz length_read
  rw [Nat.zero_add] at hz
  rw [closeGap, hz, read_add, read_write_of_disjoint (Or.inl (by omega)), hx, Nat.zero_add,
    read_write_self rfl]

/-- one removal -/
theorem delVendorLoop_some (hs : read s.mem 0 s.len = all elems es ++ t) (hn : es.length < n + 1)
    (hfirst : firstMet oui t es = some (a, e, c))
    (hget : getVendorIe s.mem (sintOfUint s.len) oui = some ((all elems a).length, e.bytes.length))
    (ret : Bool) :
    ∃ s', delVendorLoop oui (n + 1) s ret = delVendorLoop oui n s' true
      ∧ read s'.mem 0 s'.len = all elems (a ++ c) ++ t ∧ s'.len ≤ s.len ∧ (a ++ c).length < n := by
  obtain ⟨rfl, -, -⟩ := firstMet_some hfirst
  rw [List.length_append, List.length_cons] at hn
  rw [all_append, all_cons, List.append_assoc, List.append_assoc] at hs
  change read s.mem 0 s.len = all elems a ++ (e.bytes ++ (all elems c ++ t)) at hs
  have hlen := congrArg List.length hs
  rw [length_read, List.length_append, List.length_append] at hlen
  have hrem : s.len - ((all elems a).length + e.bytes.length) = (all elems c ++ t).length := by omega
  refine ⟨⟨write (closeGap s.mem (all elems a).length e.bytes.length (all elems c ++ t).length)
    ((all elems a).length + (all elems c ++ t).length) (List.replicate e.bytes.length 0),
    s.len - e.bytes.length⟩, ?_, ?_, Nat.sub_le .., by rw [List.length_append]; omega⟩
  · rw [delVendorLoop, hget]
    dsimp only
    rw [if_neg (by omega), hrem]
  · have hnew : s.len - e.bytes.length = (all elems a).length + (all elems c ++ t).length := by omega
    dsimp only
    rw [hnew, read_write_of_disjoint (Or.inl (by omega)), read_closeGap hs, all_append,
      List.append_assoc]

theorem delVendorLoop_none (h : getVendorIe s.mem (sintOfUint s.len) oui = none) (ret : Bool) :
    delVendorLoop oui (n + 1) s ret = some (.done s ret) := by
  rw [delVendorLoop, h]

/-- **The loop ends with a list** unless the incomplete element is met. -/
theorem ends_delVendorLoop (ho : oui.length = 4) (ht : elems.cut t = none) (hr : ¬ RestMet oui t)
    (n : Nat) (es : List Elem) (s : IeBuf) (ret : Bool) (hs : read s.mem 0 s.len = all elems es ++ t)
    (h31 : s.len < 2 ^ 31) (hn : es.length < n) : Ends (delVendorLoop oui n s ret) := by
  induction n generalizing es s ret with
  | zero => exact absurd hn (Nat.not_lt_zero _)
  | succ n ih =>
    cases hget : getVendorIe s.mem (sintOfUint s.len) oui with
    | none => exact ⟨s, ret, delVendorLoop_none hget ret⟩
    | some x =>
      have hf := (getVendorIe_spec ho ht hs h31).2 x hget
      cases hfirst : firstMet oui t es with
      | none =>
        rw [found_of_none hfirst, if_neg hr] at hf
        cases hf
      | some y =>
        obtain ⟨a, e, c⟩ := y
        rw [found_of_some hfirst] at hf
        cases hf
        obtain ⟨s', hround, hs', hle, hn'⟩ := delVendorLoop_some hs hn hfirst hget ret
        rw [hround]
        exact ih (a ++ c) s' true hs' (by omega) hn'

/-- **On a list of at most `MAX_IE_SZ` bytes** the loop leaves what `strip` leaves, or moves a negative
number of bytes. -/
theorem delVendorLoop_spec (ho : oui.length = 4) (ht : elems.cut t = none) (n : Nat) (es : List Elem)
    (s : IeBuf) (ret : Bool) (hs : read s.mem 0 s.len = all elems es ++ t) (hmax : s.len ≤ maxIeSz)
    (hn : es.length < n) :
    (RestMet oui t → delVendorLoop oui n s ret = some .wrapped)
      ∧ (¬ RestMet oui t → ∃ s' ret', delVendorLoop oui n s ret = some (.done s' ret')
        ∧ read s'.mem 0 s'.len = all elems (strip oui t n es) ++ t) := by
  induction n generalizing es s ret with
  | zero => exact absurd hn (Nat.not_lt_zero _)
  | succ n ih =>
    have h31 : s.len < 2 ^ 31 := Nat.lt_of_le_of_lt hmax (by decide)
    have hget := (getVendorIe_spec ho ht hs h31).1 hmax
    rw [strip]
    cases hfirst : firstMet oui t es with
    | none =>
      rw [found_of_none hfirst] at hget
      dsimp only
      constructor
      · intro hr
        rw [if_pos hr] at hget
        have hlen := congrArg List.length hs
        rw [length_read, List.length_append] at hlen
        have hlong := length_lt_size ht (List.length_pos_iff.mp (Nat.lt_of_lt_of_le (by decide) hr.1))
        rw [delVendorLoop, hget]
        dsimp only
        rw [if_pos (by omega)]
      · intro hr
        rw [if_neg hr] at hget
        exact ⟨s, ret, delVendorLoop_none hget ret, hs⟩
    | some y =>
      obtain ⟨a, e, c⟩ := y
      rw [found_of_some hfirst] at hget
      obtain ⟨s', hround, hs', hle, hn'⟩ := delVendorLoop_some hs hn hfirst hget ret
      rw [hround]
      exact ih (a ++ c) s' true hs' (by omega) hn'

/-! ## what is deleted -/

/-- the vendor elements with this OUI -/
abbrev OfVendor (oui : List UInt8) (e : Elem) : Prop := Wanted Walk.eidVendorSpecific (some oui) e

theorem met_of_vendor (h : OfVendor oui e) (rest : List UInt8) : Met oui e rest :=
  ⟨h.1, (h.2 oui rfl).trans (List.prefix_append ..)⟩

/-- the elements that are kept -/
abbrev others (oui : List UInt8) (es : List Elem) : List Elem := keep Walk.eidVendorSpecific (some oui) es

/-- no other element is met in the list -/
def Clear (oui t : List UInt8) (es : List Elem) : Prop :=
  ∀ a e c, es = a ++ e :: c → Met oui e (all elems c ++ t) → OfVendor oui e

/-- nor in the lists on the way, where the first vendor elements are gone already -/
def Unambiguous (oui t : List UInt8) (es : List Elem) : Prop :=
  ∀ pre post, es = pre ++ post → Clear oui t (others oui pre ++ post)

theorem others_append (a c : List Elem) : others oui (a ++ c) = others oui a ++ others oui c :=
  List.filter_append ..

theorem others_self (h : ∀ e ∈ es, ¬ OfVendor oui e) : others oui es = es :=
  List.filter_eq_self.mpr fun e he => by simpa using h e he

theorem not_vendor_of_none (h : firstMet oui t es = none) (e : Elem) (he : e ∈ es) : ¬ OfVendor oui e := by
  obtain ⟨a, c, rfl⟩ := List.append_of_mem he
  exact fun hw => firstMet_none h a e c rfl (met_of_vendor hw _)

theorem not_vendor_before (h : firstMet oui t es = some (a, e, c)) (x : Elem) (hx : x ∈ a) :
    ¬ OfVendor oui x := by
  obtain ⟨a₁, a₂, rfl⟩ := List.append_of_mem hx
  exact fun hw => (firstMet_some h).2.2 a₁ x a₂ rfl (met_of_vendor hw _)

/-- other elements may go as well, the vendor elements do -/
theorem strip_sublist (n : Nat) (es : List Elem) (hn : es.length < n) :
    (strip oui t n es).Sublist (others oui es) := by
  induction n generalizing es with
  | zero => exact absurd hn (Nat.not_lt_zero _)
  | succ n ih =>
    rw [strip]
    cases hf : firstMet oui t es with
    | none => rw [others_self (not_vendor_of_none hf)]
    | some x =>
      obtain ⟨a, e, c⟩ := x
      obtain ⟨rfl, -, -⟩ := firstMet_some hf
      rw [List.length_append, List.length_cons] at hn
      refine (ih (a ++ c) (by rw [List.length_append]; omega)).trans ?_
      refine List.Sublist.filter _ ?_
      exact (List.Sublist.refl a).append (List.sublist_cons_self e c)

/-- the list without a vendor element that comes first says the same -/
theorem unambiguous_removed (hf : firstMet oui t (a ++ e :: c) = some (a, e, c)) (he : OfVendor oui e) :
    Unambiguous oui t (a ++ c) ↔ Unambiguous oui t (a ++ e :: c) := by
  have ha := not_vendor_before hf
  have hskip : ∀ x, others oui (a ++ e :: x) = others oui (a ++ x) := by
    intro x
    rw [others_append, others_append, others, others, keep_cons_of_wanted he]
  constructor
  · intro h pre post hsplit
    have hclear : Clear oui t (a ++ e :: c) := by
      intro a' y c' hy hm
      rcases List.append_eq_append_iff.mp hy with ⟨x, rfl, hx⟩ | ⟨x, hx, hc⟩
      · cases x with
        | nil =>
          cases hx
          exact he
        | cons z x =>
          -- `y` stands behind `e`, where nothing has changed
          cases hx
          refine h [] _ rfl (a ++ x) y c' ?_ hm
          show a ++ (x ++ y :: c') = a ++ x ++ y :: c'
          rw [List.append_assoc]
      · cases x with
        | nil =>
          cases hc
          exact he
        | cons z x =>
          cases hc
          exact absurd hm ((firstMet_some hf).2.2 a' y x hx)
    rcases List.append_eq_append_iff.mp hsplit with ⟨x, rfl, hx⟩ | ⟨x, rfl, hx⟩
    · cases x with
      | nil =>
        rw [List.nil_append] at hx
        rw [List.append_nil, others_self ha, ← hx]
        exact hclear
      | cons z x =>
        cases hx
        rw [hskip]
        exact h (a ++ x) post (List.append_assoc ..).symm
    · rw [others_self fun y hy => ha y (List.mem_append_left _ hy), hx, ← List.append_assoc]
      exact hclear
  · intro h pre post hsplit
    rcases List.append_eq_append_iff.mp hsplit with ⟨x, rfl, rfl⟩ | ⟨x, rfl, rfl⟩
    · rw [← hskip]
      exact h (a ++ e :: x) post (by rw [List.append_assoc]; rfl)
    · have hall := h (pre ++ x ++ [e]) c (by rw [List.append_assoc _ [e]]; rfl)
      rw [hskip, List.append_nil, others_self ha] at hall
      rw [others_self fun y hy => ha y (List.mem_append_left _ hy), ← List.append_assoc]
      exact hall

/-- **Only the vendor elements go** exactly when no other element is met on the way. -/
theorem strip_eq_iff (n : Nat) (es : List Elem) (hn : es.length < n) :
    strip oui t n es = others oui es ↔ Unambiguous oui t es := by
  induction n generalizing es with
  | zero => exact absurd hn (Nat.not_lt_zero _)
  | succ n ih =>
    rw [strip]
    cases hf : firstMet oui t es with
    | none =>
      have hno := not_vendor_of_none hf
      refine iff_of_true (others_self hno).symm ?_
      rintro pre post rfl
      rw [others_self fun e he => hno e (List.mem_append_left _ he)]
      intro a e c hes hm
      exact absurd hm (firstMet_none hf a e c hes)
    | some x =>
      obtain ⟨a, e, c⟩ := x
      obtain ⟨rfl, hmet, -⟩ := firstMet_some hf
      rw [List.length_append, List.length_cons] at hn
      have hlen : (a ++ c).length < n := by
        rw [List.length_append]
        omega
      by_cases he : OfVendor oui e
      · have hskip : others oui (a ++ e :: c) = others oui (a ++ c) := by
          rw [others_append, others_append, others, others, keep_cons_of_wanted he]
        rw [hskip, ← unambiguous_removed hf he]
        exact ih (a ++ c) hlen
      · refine iff_of_false ?_ fun h => he (h [] _ rfl a e c rfl hmet)
        intro heq
        have hsub : (strip oui t n (a ++ c)).Sublist (others oui (a ++ c)) := strip_sublist n _ hlen
        have hle := hsub.length_le
        dsimp only at heq
        rw [heq, others_append, others_append, List.length_append, List.length_append] at hle
        have hcons : others oui (e :: c) = e :: others oui c := keep_cons_of_not he
        rw [hcons, List.length_cons] at hle
        omega

/-! ## the list afterwards -/

/-- the vendor elements are gone, the others are in order -/
def Deleted (oui : List UInt8) (es : List Elem) (x : Option IesRes) : Prop :=
  ∃ s' ret, x = some (.done s' ret) ∧ read s'.mem 0 s'.len = all elems (others oui es)

theorem delVendor_ends (oui : List UInt8) (ho : oui.length = 4) (ht : elems.cut t = none)
    (hs : read s.mem 0 s.len = all elems es ++ t) (h31 : s.len < 2 ^ 31) (hr : ¬ RestMet oui t) :
    Ends (delVendorLoop oui (s.len + 1) s false) := by
  have hlen := congrArg List.length hs
  have hle := length_le_all (F := elems) es
  rw [length_read, List.length_append] at hlen
  exact ends_delVendorLoop ho ht hr _ es s false hs h31 (by omega)

/-- both deletions on a list of at most `MAX_IE_SZ` bytes -/
theorem delVendor_spec (oui : List UInt8) (s : IeBuf) (es : List Elem) (ho : oui.length = 4)
    (ht : elems.cut t = none) (hs : read s.mem 0 s.len = all elems es ++ t) (hmax : s.len ≤ maxIeSz) :
    (RestMet oui t → ¬ Ends (delVendorLoop oui (s.len + 1) s false))
      ∧ (t = [] → (Deleted oui es (delVendorLoop oui (s.len + 1) s false) ↔ Unambiguous oui t es)) := by
  have hlen := congrArg List.length hs
  have hle := length_le_all (F := elems) es
  rw [length_read, List.length_append] at hlen
  obtain ⟨hwr, hdone⟩ := delVendorLoop_spec ho ht (s.len + 1) es s false hs hmax (by omega)
  constructor
  · rintro hr ⟨s', ret', hres⟩
    rw [hwr hr] at hres
    cases hres
  · rintro rfl
    have hr : ¬ RestMet oui [] := fun h => absurd h.1 (by decide)
    obtain ⟨s', ret', hres, hread⟩ := hdone hr
    rw [List.append_nil] at hread
    rw [← strip_eq_iff (s.len + 1) es (by omega)]
    constructor
    · rintro ⟨s'', ret'', hres', heq⟩
      cases hres.symm.trans hres'
      exact all_injective (hread.symm.trans heq)
    · intro heq
      rw [heq] at hread
      exact ⟨s', ret', hres, hread⟩

/-- the frame is edited like the list of elements in it -/
theorem ends_rframe {m : Nat → UInt8} {iesOffset : Nat} (hm : shift m (24 + iesOffset) = s.mem)
    (h31 : s.len < 2 ^ 31) :
    (∃ r, rtwRframeDelWfdIe m (24 + iesOffset + s.len) iesOffset = some (some r)) ↔ Ends (rtwDelWfdIe s) := by
  have hlen : (24 + iesOffset + s.len + 2 ^ 32 - (24 + iesOffset)) % 2 ^ 32 = s.len := by omega
  unfold rtwRframeDelWfdIe
  dsimp only
  rw [hm, hlen]
  constructor
  · rintro ⟨r, hr⟩
    obtain ⟨res, hres, he⟩ := Option.map_eq_some_iff.mp hr
    cases res with
    | done b ret => exact ⟨b, ret, hres⟩
    | wrapped => cases he
  · rintro ⟨b, ret, hres⟩
    rw [show rtwDelWfdIe ⟨s.mem, s.len⟩ = some (.done b ret) from hres]
    exact ⟨_, rfl⟩

end IeEdit

open IeEdit

/-- **What removal does**: it is a filter for the lists in which no element that is too short for the
OUI is continued to it, and it ends with a list unless an incomplete element at the end is taken. -/
theorem ies_removal_iff (s : IeBuf) (pre post : List Elem) (t : List UInt8) (ht : elems.cut t = none)
    (hs : read s.mem 0 s.len = all elems pre ++ (all elems post ++ t)) (h31 : s.len < 2 ^ 31)
    (eid : UInt8) (oui : Option (List UInt8)) :
    (Ends (rtwIesRemoveIe s (all elems pre).length eid oui)
        ↔ ¬ (t ≠ [] ∧ Taken eid oui (ahead t (swept eid oui t post (shift s.mem s.len)).2)))
      ∧ (¬ RestMet p2pOui t → Ends (rtwDelP2pIe s)) ∧ (¬ RestMet wfdOui t → Ends (rtwDelWfdIe s))
      ∧ (∀ m iesOffset, shift m (24 + iesOffset) = s.mem → ¬ RestMet wfdOui t →
          ∃ r, rtwRframeDelWfdIe m (24 + iesOffset + s.len) iesOffset = some (some r))
      ∧ (s.len ≤ maxIeSz →
        (RestMet p2pOui t → ¬ Ends (rtwDelP2pIe s)) ∧ (RestMet wfdOui t → ¬ Ends (rtwDelWfdIe s))
        ∧ (t = [] →
          (Removed eid oui pre post (rtwIesRemoveIe s (all elems pre).length eid oui)
            ↔ ShortOk eid oui post (shift s.mem s.len))
          ∧ (Deleted p2pOui (pre ++ post) (rtwDelP2pIe s) ↔ Unambiguous p2pOui t (pre ++ post))
          ∧ (Deleted wfdOui (pre ++ post) (rtwDelWfdIe s) ↔ Unambiguous wfdOui t (pre ++ post)))) := by
  have hall : read s.mem 0 s.len = all elems (pre ++ post) ++ t := by
    rw [hs, all_append, List.append_assoc]
  obtain ⟨hends, hremoved⟩ := rtwIesRemoveIe_spec eid oui ht s pre post hs
  have hwfd := delVendor_ends wfdOui rfl ht hall h31
  refine ⟨hends, delVendor_ends p2pOui rfl ht hall h31, hwfd, ?_, fun hmax => ?_⟩
  · intro m iesOffset hm hr
    exact (ends_rframe hm h31).mpr (hwfd hr)
  · obtain ⟨hp, hpd⟩ := delVendor_spec p2pOui s (pre ++ post) rfl ht hall hmax
    obtain ⟨hw, hwd⟩ := delVendor_spec wfdOui s (pre ++ post) rfl ht hall hmax
    exact ⟨hp, hw, fun h => ⟨hremoved h, hpd h, hwd h⟩⟩

theorem ies_removal_iff_two :
    Deleted wfdOui [⟨0xdd, wfdOui, by decide⟩, ⟨0x0a, [], by decide⟩]
      (rtwDelWfdIe ⟨ahead [0xdd, 0x04, 0x50, 0x6f, 0x9a, 0x0a, 0x0a, 0x00] fun _ => 0, 8⟩) := by
  have h := ies_removal_iff ⟨ahead [0xdd, 0x04, 0x50, 0x6f, 0x9a, 0x0a, 0x0a, 0x00] fun _ => 0, 8⟩ []
    [⟨0xdd, wfdOui, by decide⟩, ⟨0x0a, [], by decide⟩] [] rfl (by decide) (by decide) 0xdd (some wfdOui)
  refine ((h.2.2.2.2 (by decide)).2.2 rfl).2.2.mpr ?_
  rw [List.nil_append, ← strip_eq_iff 3 _ (by decide)]
  decide

/-- an element of three bytes and the id behind it are taken for the OUI, and a truncated element is
removed with more bytes than there are -/
theorem short_element_removed :
    ¬ Deleted wfdOui [⟨0xdd, [0x50, 0x6f, 0x9a], by decide⟩, ⟨0x0a, [], by decide⟩]
        (rtwDelWfdIe ⟨ahead [0xdd, 0x03, 0x50, 0x6f, 0x9a, 0x0a, 0x00] fun _ => 0, 7⟩)
      ∧ ¬ Removed 0xdd (some wfdOui) [] [⟨0xdd, [0x50, 0x6f, 0x9a], by decide⟩, ⟨0x0a, [], by decide⟩]
        (rtwIesRemoveIe ⟨ahead [0xdd, 0x03, 0x50, 0x6f, 0x9a, 0x0a, 0x00] fun _ => 0, 7⟩ 0 0xdd
          (some wfdOui))
      ∧ ¬ Ends (rtwDelWfdIe ⟨ahead [0xdd, 0x05, 0x50, 0x6f, 0x9a, 0x0a] fun _ => 0, 6⟩) := by
  refine ⟨?_, ?_, ?_⟩
  · have h := (delVendor_spec wfdOui ⟨ahead [0xdd, 0x03, 0x50, 0x6f, 0x9a, 0x0a, 0x00] fun _ => 0, 7⟩
      [⟨0xdd, [0x50, 0x6f, 0x9a], by decide⟩, ⟨0x0a, [], by decide⟩] rfl
      (show elems.cut [] = none from rfl) (by decide) (by decide)).2 rfl
    intro hd
    exact absurd (h.mp hd [] _ rfl [] _ _ rfl (by decide)) (by decide)
  · have h := (rtwIesRemoveIe_spec 0xdd (some wfdOui) (show elems.cut [] = none from rfl)
      ⟨ahead [0xdd, 0x03, 0x50, 0x6f, 0x9a, 0x0a, 0x00] fun _ => 0, 7⟩ []
      [⟨0xdd, [0x50, 0x6f, 0x9a], by decide⟩, ⟨0x0a, [], by decide⟩] (by decide)).2 rfl
    intro hd
    exact absurd (h.mp hd).1 (by decide)
  · have h := (delVendor_spec wfdOui ⟨ahead [0xdd, 0x05, 0x50, 0x6f, 0x9a, 0x0a] fun _ => 0, 6⟩
      [] rfl (show elems.cut [0xdd, 0x05, 0x50, 0x6f, 0x9a, 0x0a] = none from rfl)
      (by decide) (by decide)).1 (by decide)
    exact h

end Rtl8192eu
