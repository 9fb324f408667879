import Mathlib.Data.Nat.Digits.Defs
import Rtl8192eu.Hal.TxPowerLimit
import Rtl8192eu.Lib.Scanner

/-!
# The text of a parameter file

The scanners of `hal/hal_com.c` that the parsers of `hal/hal_com_phycfg.c` use. A pointer is the list of the
bytes from there up to the end of its line, with the terminator that `strsep` has put there; an array is the
list of its bytes.

* `getLines`      the lines of a text;
* `getFractionValueFromString` and the others    the functions;
* `Live`, `Stays`   the terminator is ahead, so that scanning stays in the line;
* `Decimal`       a number as it is written, and its value in index steps;
* `getFractionValue_text`, `getHexValue_text`   what is read where a number is written;
* `getS1_toDec`   a number that was printed is read again;
* `words_head`    what ends a word.
-/

namespace Rtl8192eu

open Scanner

/-! ## bytes -/

/-- the bytes of a string constant, without its terminator -/
def ascii (s : List Char) : List UInt8 := s.map Char.toUInt8

/-- `' '` and `'\t'` -/
def isBlank (c : UInt8) : Bool := c == 32 || c == 9

/-- `'\r'` and `'\n'` -/
def isEol (c : UInt8) : Bool := c == 13 || c == 10

def isDigit (c : UInt8) : Bool := decide (48 ≤ c ∧ c ≤ 57)

def isHexDigit (c : UInt8) : Bool := decide (48 ≤ c ∧ c ≤ 57 ∨ 97 ≤ c ∧ c ≤ 102 ∨ 65 ≤ c ∧ c ≤ 70)

def isAlpha (c : UInt8) : Bool := decide (97 ≤ c ∧ c ≤ 122 ∨ 65 ≤ c ∧ c ≤ 90)

/-- `strncmp` with a constant and its length finds no difference -/
def startsWith (s : List Char) (p : List UInt8) : Bool := (ascii s).isPrefixOf p

/-- the lines of the text, which ends with the first zero; `strsep` with `"\r\n"`, over and over -/
def getLines (content : List UInt8) : List (List UInt8) := (content.takeWhile fun c => c != 0).splitOnP isEol

/-! ## the scanners -/

/-- with `size` 1, as all calls have it -/
def isAllSpaceOrTab : List UInt8 → Bool
  | [] => false
  | c :: _ => isBlank c || c == 0

def isCommentString (szStr : List UInt8) : Bool := startsWith ['/', '/'] szStr

/-- the parsers pass over the line -/
def skipped (line : List UInt8) : Bool := isAllSpaceOrTab (line ++ [0]) || isCommentString (line ++ [0])

/-- `strncpy` of the bytes to an array that was cleared -/
def strncpy (out src : List UInt8) : Except Stop (List UInt8) :=
  if src.length ≤ out.length then .ok (src ++ out.drop src.length) else .error .outside

def mapCharToHexDigit (c : UInt8) : UInt32 :=
  if 48 ≤ c ∧ c ≤ 57 then (c - 48).toUInt32
  else if 97 ≤ c ∧ c ≤ 102 then 10 + (c - 97).toUInt32
  else if 65 ≤ c ∧ c ≤ 70 then 10 + (c - 65).toUInt32
  else 0

/-- an optional `0x` or `0X` -/
def skipHexPrefix (p : List UInt8) : List UInt8 :=
  if startsWith ['0', 'x'] p || startsWith ['0', 'X'] p then p.drop 2 else p

/-- the value, and the pointer moved behind it -/
def getHexValueFromString (szStr : List UInt8) : Except Stop (UInt32 × List UInt8) := do
  let p ← skip isBlank szStr
  let (ds, p) ← span isHexDigit (skipHexPrefix p)
  if ds = [] then .error .refused
  else .ok (ds.foldl (fun v c => (v <<< 4) + mapCharToHexDigit c) 0, p)

/-- the digits of an integer of eight bits, which wraps around -/
def u8OfDigits (v : UInt8) (ds : List UInt8) : UInt8 := ds.foldl (fun v c => v * 10 + (c - 48)) v

/-- `*pFraction`: behind the point, a digit and perhaps another -/
def getFraction (integer : UInt8) : List UInt8 → Except Stop ((UInt8 × UInt8) × List UInt8)
  | [] => .error .outside
  | d :: p =>
    if !isDigit d then .error .refused
    else
      match p with
      | [] => .error .outside
      | e :: q =>
        if isDigit e then .ok ((integer, (d - 48) * 10 + (e - 48)), q)
        else .ok ((integer, (d - 48) * 10), e :: q)

/-- the two parts of the value, and the pointer moved behind it -/
def getFractionValueFromString (szStr : List UInt8) : Except Stop ((UInt8 × UInt8) × List UInt8) := do
  let p ← skip isBlank szStr
  let (ds, p) ← span isDigit p
  if ds = [] then .error .refused
  else
    match p with
    | [] => .error .outside
    | c :: q => if c == 46 then getFraction (u8OfDigits 0 ds) q else .ok ((u8OfDigits 0 ds, 0), p)

def getU1ByteIntegerFromStringInDecimal (v : UInt8) : List UInt8 → Except Stop UInt8
  | [] => .error .outside
  | c :: p =>
    if c == 0 then .ok v
    else if isDigit c then getU1ByteIntegerFromStringInDecimal (v * 10 + (c - 48)) p
    else .error .refused

/-- the loop of `GetS1ByteIntegerFromStringInDecimal` behind the sign -/
def getS1Digits (v : Int) : List UInt8 → Except Stop Int
  | [] => .error .outside
  | c :: p =>
    if c == 0 then .ok v
    else if isDigit c then getS1Digits (toS8 (toS8 (v * 10) + (c - 48).toNat)) p
    else .error .refused

def getS1ByteIntegerFromStringInDecimal : List UInt8 → Except Stop Int
  | [] => .error .outside
  | c :: p =>
    if c == 45 then (getS1Digits 0 p).map fun v => toS8 (-v)
    else if c == 43 then getS1Digits 0 p
    else getS1Digits 0 (c :: p)

/-- what stands between the qualifiers goes to `out`; the pointer is moved behind the right one -/
def parseQualifiedString (szIn out : List UInt8) (left right : UInt8) :
    Except Stop (List UInt8 × List UInt8) :=
  match szIn with
  | [] => .error .outside
  | c :: p =>
    if c != left then .error .refused
    else do
      let (src, p) ← span (fun c => c != right && c != 0) p
      match p with
      | [] => .error .outside
      | c :: q =>
        if c == 0 then .error .refused
        else do
          let out ← strncpy out src
          .ok (out, q)

/-- `sprintf` with `"%d"` -/
def toDec (v : Int) : List UInt8 :=
  if v < 0 then 45 :: ascii (Nat.toDigits 10 v.natAbs) else ascii (Nat.toDigits 10 v.natAbs)

/-! ## scanning stays in the line -/

/-- the terminator is ahead -/
structure Live (p : List UInt8) : Prop where
  mem : (0 : UInt8) ∈ p

/-- a scanner that has not left the line, and whose pointer is in it -/
inductive Stays {γ : Type*} : Except Stop (γ × List UInt8) → Prop
  | refused : Stays (.error .refused)
  | ok {a : γ} {q : List UInt8} (h : Live q) : Stays (.ok (a, q))

theorem Stays.live {γ : Type*} {a : γ} {q : List UInt8} (h : Stays (.ok (a, q))) : Live q := by
  cases h with
  | ok h => exact h

section
variable {p q l out : List UInt8} {c t : UInt8}

theorem live_line (line : List UInt8) : Live (line ++ [0]) := ⟨List.mem_append_right _ List.mem_cons_self⟩

theorem Live.tail (h : Live (c :: p)) (hc : c ≠ 0) : Live p := by
  rcases List.mem_cons.mp h.mem with h0 | hp
  · exact absurd h0.symm hc
  · exact ⟨hp⟩

theorem Live.ne_nil (h : Live p) : p ≠ [] := List.ne_nil_of_mem h.mem

theorem ne_zero_of_isDigit (h : isDigit c = true) : c ≠ 0 := by
  rintro rfl
  cases h

theorem span_live {f : UInt8 → Bool} (hf : f 0 = false) (h : Live p) :
    span f p = .ok (p.takeWhile f, p.dropWhile f) ∧ Live (p.dropWhile f) :=
  ⟨span_eq_of_mem hf h.mem, ⟨mem_dropWhile hf h.mem⟩⟩

/-- the pointer behind blanks -/
def afterBlanks (p : List UInt8) : List UInt8 := p.dropWhile isBlank

theorem skip_blanks (h : Live p) : skip isBlank p = .ok (afterBlanks p) ∧ Live (afterBlanks p) :=
  ⟨skip_eq_of_mem (t := 0) rfl h.mem, ⟨mem_dropWhile rfl h.mem⟩⟩

theorem getFraction_stays (integer : UInt8) (h : Live p) : Stays (getFraction integer p) := by
  cases p with
  | nil => exact absurd rfl h.ne_nil
  | cons d p =>
    unfold getFraction
    dsimp only
    split
    next => exact .refused
    next hd =>
      have hp := h.tail (ne_zero_of_isDigit (by simpa using hd))
      cases p with
      | nil => exact absurd rfl hp.ne_nil
      | cons e q =>
        show Stays (if isDigit e = true then _ else _)
        split
        next he => exact .ok (hp.tail (ne_zero_of_isDigit he))
        next => exact .ok hp

theorem getFractionValue_stays (h : Live p) : Stays (getFractionValueFromString p) := by
  obtain ⟨hskip, hp⟩ := skip_blanks h
  obtain ⟨hspan, hq⟩ := span_live (f := isDigit) rfl hp
  unfold getFractionValueFromString
  rw [hskip, bind_ok, hspan, bind_ok]
  generalize (afterBlanks p).dropWhile isDigit = q at hq ⊢
  dsimp only
  split
  · exact .refused
  · cases q with
    | nil => exact absurd rfl hq.ne_nil
    | cons c q =>
      show Stays (if (c == 46) = true then _ else _)
      split
      next hc =>
        refine getFraction_stays _ (hq.tail ?_)
        rintro rfl
        cases hc
      next => exact .ok hq

theorem skipHexPrefix_live (h : Live p) : Live (skipHexPrefix p) := by
  unfold skipHexPrefix
  split
  next hpre =>
    rw [Bool.or_eq_true, startsWith, startsWith, List.isPrefixOf_iff_prefix, List.isPrefixOf_iff_prefix] at hpre
    rcases hpre with ⟨q, rfl⟩ | ⟨q, rfl⟩
    · exact (h.tail (by decide)).tail (by decide)
    · exact (h.tail (by decide)).tail (by decide)
  next => exact h

theorem getHexValue_stays (h : Live p) : Stays (getHexValueFromString p) := by
  obtain ⟨hskip, hp⟩ := skip_blanks h
  obtain ⟨hspan, hq⟩ := span_live (f := isHexDigit) rfl (skipHexPrefix_live hp)
  unfold getHexValueFromString
  rw [hskip, bind_ok, hspan, bind_ok]
  dsimp only
  split
  · exact .refused
  · exact .ok hq

theorem strncpy_ok (h : l.length ≤ out.length) : strncpy out l = .ok (l ++ out.drop l.length) := if_pos h

theorem strncpy_outside_iff : strncpy out l = .error .outside ↔ out.length < l.length := by
  unfold strncpy
  split
  next h => exact iff_of_false nofun (Nat.not_lt.mpr h)
  next h => exact iff_of_true rfl (Nat.lt_of_not_le h)

/-- what stands between the qualifiers, if both are there -/
def Qualified (p src q : List UInt8) (left right : UInt8) : Prop :=
  p = left :: (src ++ right :: q) ∧ ∀ c ∈ src, c ≠ right ∧ c ≠ 0

theorem parseQualified_eq {src : List UInt8} {left right : UInt8} (hr : right ≠ 0)
    (h : Qualified p src q left right) :
    parseQualifiedString p out left right = (strncpy out src).map fun out => (out, q) := by
  obtain ⟨rfl, hsrc⟩ := h
  have hspan : span (fun c => c != right && c != 0) (src ++ right :: q) = .ok (src, right :: q) := by
    refine span_append (fun c hc => ?_) (by simp) q
    simp [hsrc c hc]
  unfold parseQualifiedString
  simp only [bne_self_eq_false, Bool.false_eq_true, if_false]
  rw [hspan]
  show (if (right == 0) = true then _ else _) = _
  rw [if_neg (by simpa using hr)]
  cases strncpy out src with
  | error e => rfl
  | ok o => rfl

/-- without both qualifiers, nothing is copied -/
theorem parseQualified_refused {left right : UInt8} (hl : left ≠ 0) (hp : Live p)
    (h : ∀ src q, ¬Qualified p src q left right) : parseQualifiedString p out left right = .error .refused := by
  cases p with
  | nil => exact absurd rfl hp.ne_nil
  | cons c p =>
    unfold parseQualifiedString
    by_cases hc : c = left
    · subst hc
      simp only [bne_self_eq_false, Bool.false_eq_true, if_false]
      obtain ⟨src, q, hspan, -⟩ := span_of_mem (p := fun d => d != right && d != 0) (by simp) (hp.tail hl).mem
      obtain ⟨rfl, hsrc, t, q, rfl, ht⟩ := span_ok_iff.mp hspan
      rw [hspan, bind_ok]
      show (if (t == 0) = true then _ else _) = _
      refine if_pos ?_
      by_contra ht0
      have htr : t = right := by
        by_contra hne
        simp [hne] at ht
        simp [ht] at ht0
      subst htr
      exact h src q ⟨rfl, fun d hd => by simpa using hsrc d hd⟩
    · simp [hc]

end

/-! ## numbers -/

/-- the number that the digits are written for -/
def natOfDigits (v : Nat) (ds : List UInt8) : Nat := ds.foldl (fun v c => v * 10 + (c - 48).toNat) v

section
variable {p q l : List UInt8} {c t : UInt8}

theorem natOfDigits_append (v : Nat) (l l' : List UInt8) :
    natOfDigits v (l ++ l') = natOfDigits (natOfDigits v l) l' := by
  simp [natOfDigits]

theorem natOfDigits_eq (v : Nat) (l : List UInt8) :
    natOfDigits v l = v * 10 ^ l.length + natOfDigits 0 l := by
  induction l generalizing v with
  | nil => simp [natOfDigits]
  | cons c l ih =>
    show natOfDigits (v * 10 + (c - 48).toNat) l = _ + natOfDigits (0 * 10 + (c - 48).toNat) l
    rw [ih, ih (0 * 10 + _), List.length_cons]
    ring

theorem digit_lt (h : isDigit c = true) : (c - 48).toNat < 10 := by
  have hc := of_decide_eq_true h
  simp only [UInt8.le_iff_toNat_le] at hc
  have hsub := UInt8.toNat_sub_of_le c 48 (UInt8.le_iff_toNat_le.mpr hc.1)
  rw [hsub]
  have h48 : (48 : UInt8).toNat = 48 := rfl
  have h57 : (57 : UInt8).toNat = 57 := rfl
  omega

theorem natOfDigits_lt (h : ∀ c ∈ l, isDigit c = true) : natOfDigits 0 l < 10 ^ l.length := by
  induction l with
  | nil => simp [natOfDigits]
  | cons c l ih =>
    have hc := digit_lt (h c List.mem_cons_self)
    have hl := ih fun c hc => h c (List.mem_cons_of_mem _ hc)
    show natOfDigits (0 * 10 + (c - 48).toNat) l < _
    rw [natOfDigits_eq, List.length_cons, pow_succ]
    nlinarith

/-- in eight bits, the number wraps around -/
theorem u8OfDigits_eq (v : Nat) (l : List UInt8) :
    u8OfDigits (UInt8.ofNat v) l = UInt8.ofNat (natOfDigits v l) := by
  induction l generalizing v with
  | nil => rfl
  | cons c l ih =>
    show u8OfDigits (UInt8.ofNat v * 10 + (c - 48)) l = UInt8.ofNat (natOfDigits (v * 10 + (c - 48).toNat) l)
    rw [← ih]
    congr 1
    simp [UInt8.ofNat_add, UInt8.ofNat_mul]

theorem getU1_digits (v : Nat) (h : ∀ c ∈ l, isDigit c = true) (q : List UInt8) :
    getU1ByteIntegerFromStringInDecimal (UInt8.ofNat v) (l ++ 0 :: q)
      = .ok (UInt8.ofNat (natOfDigits v l)) := by
  induction l generalizing v with
  | nil => rfl
  | cons c l ih =>
    have hc := h c List.mem_cons_self
    have hne := ne_zero_of_isDigit hc
    have hl := ih (v * 10 + (c - 48).toNat) fun c hc => h c (List.mem_cons_of_mem _ hc)
    rw [List.cons_append, getU1ByteIntegerFromStringInDecimal, if_neg (by simpa using hne), if_pos hc]
    have hv : UInt8.ofNat v * 10 + (c - 48) = UInt8.ofNat (v * 10 + (c - 48).toNat) := by
      simp [UInt8.ofNat_add, UInt8.ofNat_mul]
    rw [hv, hl]
    rfl

/-- a number that fills its array is not terminated -/
theorem getU1_outside_iff {v : UInt8} :
    getU1ByteIntegerFromStringInDecimal v l = .error .outside ↔ ∀ c ∈ l, isDigit c = true := by
  induction l generalizing v with
  | nil => exact iff_of_true rfl nofun
  | cons c l ih =>
    rw [getU1ByteIntegerFromStringInDecimal, List.forall_mem_cons]
    split
    next hc =>
      refine iff_of_false nofun fun h => ne_zero_of_isDigit h.1 ?_
      simpa using hc
    next =>
      split
      next hc => exact ih.trans ⟨fun h => ⟨hc, h⟩, fun h => h.2⟩
      next hc => exact iff_of_false nofun fun h => hc h.1

theorem not_blank {f : UInt8 → Bool} (h32 : f 32 = false) (h9 : f 9 = false) (hc : f c = true) :
    isBlank c = false := by
  unfold isBlank
  rw [Bool.or_eq_false_iff, beq_eq_false_iff_ne, beq_eq_false_iff_ne]
  constructor
  · rintro rfl
    cases hc.symm.trans h32
  · rintro rfl
    cases hc.symm.trans h9

/-! ## decimal fractions -/

/-- a number without a sign -/
structure Decimal where
  whole : List UInt8
  nonempty : whole ≠ []
  isWhole : ∀ c ∈ whole, isDigit c = true
  /-- what stands behind the point; without any, there is no point -/
  decimals : List UInt8
  isDecimals : ∀ c ∈ decimals, isDigit c = true

namespace Decimal

variable (d : Decimal)

def text : List UInt8 := d.whole ++ if d.decimals = [] then [] else 46 :: d.decimals

/-- the value in steps of the index, rounded down -/
def index : Nat := natOfDigits 0 (d.whole ++ d.decimals) * txgiPdbm.toNat / 10 ^ d.decimals.length

/-- the decimals that are read -/
def hundredths : Nat := natOfDigits 0 ((d.decimals ++ [48, 48]).take 2)

theorem hundredths_lt : d.hundredths < 100 := by
  have hmem : ∀ c ∈ (d.decimals ++ [48, 48]).take 2, isDigit c = true := by
    intro c hc
    rcases List.mem_append.mp (List.mem_of_mem_take hc) with h | h
    · exact d.isDecimals c h
    · rcases List.mem_cons.mp h with rfl | h
      · rfl
      · rw [List.mem_singleton.mp h]
        rfl
  have hlt := natOfDigits_lt hmem
  have hlen : ((d.decimals ++ [48, 48]).take 2).length = 2 := by simp
  rwa [hlen] at hlt

theorem toNat_hundredths : (UInt8.ofNat d.hundredths).toNat = d.hundredths := by
  rw [UInt8.toNat_ofNat']
  exact Nat.mod_eq_of_lt (Nat.lt_trans d.hundredths_lt (by decide))

/-- the index is that of the whole number and of the decimals that are read -/
theorem index_eq : d.index = natOfDigits 0 d.whole * 2 + d.hundredths * 2 / 100 := by
  have hpos : 0 < 10 ^ d.decimals.length := Nat.pow_pos (by decide)
  have hsplit : d.index
      = natOfDigits 0 d.whole * 2 + natOfDigits 0 d.decimals * 2 / 10 ^ d.decimals.length := by
    unfold index
    rw [natOfDigits_append, natOfDigits_eq, show txgiPdbm.toNat = 2 from rfl, add_mul, mul_right_comm,
      Nat.add_comm, Nat.add_mul_div_right _ _ hpos, Nat.add_comm]
  rw [hsplit]
  congr 1
  unfold hundredths
  have hd := d.isDecimals
  generalize d.decimals = ds at hd ⊢
  rcases ds with _ | ⟨c, _ | ⟨e, r⟩⟩
  · rfl
  · show (0 * 10 + (c - 48).toNat) * 2 / 10 = ((0 * 10 + (c - 48).toNat) * 10 + 0) * 2 / 100
    omega
  · -- the decimals behind the second add less than one to a number of hundredths that is even
    have hlt := natOfDigits_lt fun c hc => hd c (List.mem_cons_of_mem _ (List.mem_cons_of_mem _ hc))
    have hr : 0 < 10 ^ r.length := Nat.pow_pos (by decide)
    have hle : natOfDigits 0 r * 2 / 10 ^ r.length < 2 := Nat.div_lt_of_lt_mul (by omega)
    have htwo : natOfDigits 0 (c :: e :: r) = natOfDigits 0 [c, e] * 10 ^ r.length + natOfDigits 0 r :=
      natOfDigits_eq (natOfDigits 0 [c, e]) r
    have hdiv : natOfDigits 0 (c :: e :: r) * 2 / 10 ^ (c :: e :: r).length
        = (natOfDigits 0 [c, e] * 2 + natOfDigits 0 r * 2 / 10 ^ r.length) / 100 := by
      rw [htwo, show (c :: e :: r).length = r.length + 2 from rfl, pow_add, ← Nat.div_div_eq_div_mul, add_mul,
        mul_right_comm, Nat.add_comm, Nat.add_mul_div_right _ _ hr, Nat.add_comm]
      rfl
    have htake : (c :: e :: r ++ [48, 48]).take 2 = [c, e] := rfl
    rw [hdiv, htake]
    generalize natOfDigits 0 r * 2 / 10 ^ r.length = x at hle
    omega

/-- the digits that are left over -/
def left : List UInt8 := d.decimals.drop 2

/-- **What is read of a number**: the whole part and two decimals. -/
theorem getFractionValue_text {bl : List UInt8} (hbl : ∀ c ∈ bl, isBlank c = true) (ht : isDigit t = false)
    (hpoint : t ≠ 46) (q : List UInt8) : getFractionValueFromString (bl ++ (d.text ++ t :: q)) =
      .ok ((UInt8.ofNat (natOfDigits 0 d.whole), UInt8.ofNat d.hundredths), d.left ++ t :: q) := by
  obtain ⟨c, w, hw⟩ := List.exists_cons_of_ne_nil d.nonempty
  have hc : isDigit c = true := d.isWhole c (hw ▸ List.mem_cons_self)
  have hblank : isBlank c = false := not_blank (f := isDigit) rfl rfl hc
  have hskip : skip isBlank (bl ++ (d.text ++ t :: q)) = .ok (d.text ++ t :: q) := by
    unfold text
    rw [hw]
    exact skip_append hbl hblank _
  have hN : u8OfDigits 0 d.whole = UInt8.ofNat (natOfDigits 0 d.whole) := u8OfDigits_eq 0 d.whole
  unfold getFractionValueFromString
  rw [hskip, bind_ok]
  have hds := d.isDecimals
  have hh : d.hundredths = natOfDigits 0 ((d.decimals ++ [48, 48]).take 2) := rfl
  unfold text left
  rw [hh]
  generalize d.decimals = ds at hds ⊢
  rcases ds with _ | ⟨e, ds⟩
  · rw [if_pos rfl, List.append_nil, span_append d.isWhole ht, bind_ok]
    dsimp only
    rw [if_neg d.nonempty, hN]
    simp [hpoint, natOfDigits]
  · have he := hds e List.mem_cons_self
    rw [if_neg (List.cons_ne_nil _ _), List.append_assoc, List.cons_append, span_append d.isWhole rfl, bind_ok]
    dsimp only
    rw [if_neg d.nonempty, hN]
    show getFraction _ (e :: (ds ++ t :: q)) = _
    unfold getFraction
    dsimp only
    rw [if_neg (by simp [he])]
    rcases ds with _ | ⟨f, ds⟩
    · have hval : UInt8.ofNat (natOfDigits 0 [e, 48]) = (e - 48) * 10 := by
        simp [natOfDigits, UInt8.ofNat_mul]
      show (if isDigit t = true then _ else Except.ok ((_, (e - 48) * 10), t :: q)) = _
      rw [if_neg (by simp [ht]), ← hval]
      rfl
    · have hf := hds f (List.mem_cons_of_mem _ List.mem_cons_self)
      have hval : UInt8.ofNat (natOfDigits 0 [e, f]) = (e - 48) * 10 + (f - 48) := by
        simp [natOfDigits, UInt8.ofNat_mul, UInt8.ofNat_add]
      show (if isDigit f = true then Except.ok ((_, (e - 48) * 10 + (f - 48)), ds ++ t :: q) else _) = _
      rw [if_pos hf, ← hval]
      rfl

end Decimal

/-- **What is read of a hexadecimal number.** -/
theorem getHexValue_text {bl pre ds : List UInt8} (hbl : ∀ c ∈ bl, isBlank c = true)
    (hpre : pre = [] ∨ pre = ascii ['0', 'x'] ∨ pre = ascii ['0', 'X']) (hne : ds ≠ [])
    (hds : ∀ c ∈ ds, isHexDigit c = true) (ht : isHexDigit t = false) (hx : t ≠ 120 ∧ t ≠ 88) (q : List UInt8) :
    getHexValueFromString (bl ++ (pre ++ (ds ++ t :: q))) =
      .ok (ds.foldl (fun v c => (v <<< 4) + mapCharToHexDigit c) 0, t :: q) := by
  obtain ⟨c, w, rfl⟩ := List.exists_cons_of_ne_nil hne
  have hskip : skip isBlank (bl ++ (pre ++ (c :: w ++ t :: q))) = .ok (pre ++ (c :: w ++ t :: q)) := by
    rcases hpre with rfl | rfl | rfl
    · exact skip_append hbl (not_blank (f := isHexDigit) rfl rfl (hds c List.mem_cons_self)) _
    · exact skip_append hbl rfl _
    · exact skip_append hbl rfl _
  have hprefix : skipHexPrefix (pre ++ (c :: w ++ t :: q)) = c :: w ++ t :: q := by
    rcases hpre with rfl | rfl | rfl
    · refine if_neg ?_
      have hsecond : ∀ e, e = 120 ∨ e = 88 → ¬∃ r, w ++ t :: q = e :: r := by
        rintro e he ⟨r, hr⟩
        cases w with
        | nil =>
          cases hr
          exact he.elim hx.1 hx.2
        | cons f w =>
          cases hr
          have hf := hds e (by simp)
          rcases he with rfl | rfl
          · cases hf
          · cases hf
      simp only [startsWith, Bool.or_eq_true, List.isPrefixOf_iff_prefix]
      rintro (⟨r, hr⟩ | ⟨r, hr⟩)
      · exact hsecond 120 (Or.inl rfl) ⟨r, (List.cons.inj hr).2.symm⟩
      · exact hsecond 88 (Or.inr rfl) ⟨r, (List.cons.inj hr).2.symm⟩
    · rfl
    · rfl
  unfold getHexValueFromString
  rw [hskip, bind_ok, hprefix, span_append hds ht, bind_ok]
  rfl

/-! ## printed numbers -/

theorem toS8_add_mul (x d : Int) : toS8 (toS8 (toS8 x * 10) + d) = toS8 (x * 10 + d) := by
  unfold toS8
  rw [Int.bmod_add_bmod, ← Int.bmod_add_bmod, Int.bmod_mul_bmod, Int.bmod_add_bmod]

theorem getS1Digits_eq (v : Nat) (h : ∀ c ∈ l, isDigit c = true) (q : List UInt8) :
    getS1Digits (toS8 v) (l ++ 0 :: q) = .ok (toS8 (natOfDigits v l)) := by
  induction l generalizing v with
  | nil => rfl
  | cons c l ih =>
    have hc := h c List.mem_cons_self
    have hne := ne_zero_of_isDigit hc
    have hl := ih (v * 10 + (c - 48).toNat) fun c hc => h c (List.mem_cons_of_mem _ hc)
    rw [List.cons_append, getS1Digits, if_neg (by simpa using hne), if_pos hc, toS8_add_mul]
    push_cast at hl
    rw [hl]
    rfl

/-- the digits of a number of eight bits -/
theorem toDigits_digits : ∀ n < 129, (∀ c ∈ ascii (Nat.toDigits 10 n), isDigit c = true)
    ∧ natOfDigits 0 (ascii (Nat.toDigits 10 n)) = n ∧ (ascii (Nat.toDigits 10 n)).length ≤ 3
    ∧ ascii (Nat.toDigits 10 n) ≠ [] := by
  decide +kernel

/-- **A number that was printed** is read again. -/
theorem getS1_toDec {v : Int} (hlo : -128 ≤ v) (hhi : v ≤ 127) (q : List UInt8) :
    getS1ByteIntegerFromStringInDecimal (toDec v ++ 0 :: q) = .ok v := by
  obtain ⟨hds, hval, -, hne⟩ := toDigits_digits v.natAbs (by omega)
  have hread := getS1Digits_eq 0 hds q
  rw [hval] at hread
  have hself : toS8 v = v := Int.bmod_eq_of_le (by omega) (by omega)
  unfold toDec
  split
  next hneg =>
    have hminus : toS8 (-toS8 v.natAbs) = v := by
      unfold toS8 at hself ⊢
      rw [Int.bmod_neg_bmod, show -(v.natAbs : Int) = v by omega, hself]
    exact (congrArg (Except.map fun w => toS8 (-w)) hread).trans (congrArg Except.ok hminus)
  next hpos =>
    rw [show (v.natAbs : Int) = v by omega, hself] at hread
    obtain ⟨c, w, hw⟩ := List.exists_cons_of_ne_nil hne
    have hc : isDigit c = true := hds c (hw ▸ List.mem_cons_self)
    rw [hw] at hread ⊢
    rw [List.cons_append, getS1ByteIntegerFromStringInDecimal]
    have h45 : c ≠ 45 := by
      rintro rfl
      cases hc
    have h43 : c ≠ 43 := by
      rintro rfl
      cases hc
    rw [if_neg (by simpa using h45), if_neg (by simpa using h43)]
    exact hread

theorem length_toDec {v : Int} (hlo : -128 ≤ v) (hhi : v ≤ 127) : (toDec v).length ≤ 4 := by
  obtain ⟨-, -, hlen, -⟩ := toDigits_digits v.natAbs (by omega)
  unfold toDec
  split
  · exact Nat.succ_le_succ hlen
  · exact Nat.le_trans hlen (by decide)

end

/-! ## words one after the other -/

/-- a blank, or the terminator -/
def isEnd (e : UInt8) : Bool := isBlank e || e == 0

theorem eq_false_of_isEnd {e : UInt8} {f : UInt8 → Bool} (he : isEnd e = true) (h32 : f 32 = false)
    (h9 : f 9 = false) (h0 : f 0 = false) : f e = false := by
  unfold isEnd isBlank at he
  rw [Bool.or_eq_true, Bool.or_eq_true, beq_iff_eq, beq_iff_eq, beq_iff_eq] at he
  rcases he with (rfl | rfl) | rfl
  · exact h32
  · exact h9
  · exact h0

theorem ne_of_isEnd {e c : UInt8} (he : isEnd e = true) (hc : isEnd c = false) : e ≠ c := by
  rintro rfl
  cases he.symm.trans hc

theorem no_blanks : ∀ c ∈ ([] : List UInt8), isBlank c = true := nofun

/-- what stands in front of words, or behind the last one -/
theorem words_head {γ : Type*} (blanks text : γ → List UInt8) {tail : List UInt8}
    (htail : ∀ c ∈ tail.head?, isBlank c = true) {words : List γ}
    (hw : ∀ w ∈ words, blanks w ≠ [] ∧ ∀ c ∈ blanks w, isBlank c = true) :
    ∃ e q, words.flatMap (fun w => blanks w ++ text w) ++ (tail ++ [0]) = e :: q ∧ isEnd e = true := by
  have hend : ∀ e, isBlank e = true → isEnd e = true := fun e he => by simp [isEnd, he]
  cases words with
  | nil =>
    cases tail with
    | nil => exact ⟨0, [], rfl, rfl⟩
    | cons e r => exact ⟨e, r ++ [0], rfl, hend e (htail e rfl)⟩
  | cons w words =>
    obtain ⟨hne, hb⟩ := hw w List.mem_cons_self
    obtain ⟨e, r, hr⟩ := List.exists_cons_of_ne_nil hne
    refine ⟨e, r ++ (text w ++ (words.flatMap (fun w => blanks w ++ text w) ++ (tail ++ [0]))), ?_,
      hend e (hb e (hr ▸ List.mem_cons_self))⟩
    simp [hr]

end Rtl8192eu
