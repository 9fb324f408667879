import Mathlib.Data.List.GetD
import Rtl8192eu.Hal.ByRateFile
import Rtl8192eu.Lib.Keyed

/-!
# What a file of powers by rate says

The layout of the file that `phy_ParseBBPgParaFile` is for, and the table that it stands for.

* `PgRow`, `PgTable`, `PgWritten`   the layout;
* `pgTable`        the table that is written there;
* `toNat_combine`, `rateValues_word`   what is packed into a word is unpacked again;
* `pgFile_loads`   what is loaded of a file in the layout;
* `pgFile_iff`     the files that the parser is right about.
-/

namespace Rtl8192eu

open Scanner Run

/-! ## the layout -/

/-- a hexadecimal number as it is written -/
structure HexText where
  blanks : List UInt8
  isBlanks : ∀ c ∈ blanks, isBlank c = true
  mark : List UInt8
  isMark : mark = [] ∨ mark = ascii ['0', 'x'] ∨ mark = ascii ['0', 'X']
  digits : List UInt8
  nonempty : digits ≠ []
  isDigits : ∀ c ∈ digits, isHexDigit c = true

/-- the number that hexadecimal digits are written for -/
def natOfHex (v : Nat) (ds : List UInt8) : Nat := ds.foldl (fun v c => v * 16 + (mapCharToHexDigit c).toNat) v

namespace HexText

variable (x : HexText)

def text : List UInt8 := x.blanks ++ (x.mark ++ x.digits)

def value : UInt32 := UInt32.ofNat (natOfHex 0 x.digits)

end HexText

/-- a row `[nTx]`, with a value for each byte of the register, the highest first -/
structure PgRow where
  txNum : Fin 4
  offset : HexText
  mask : HexText
  separateMask : mask.blanks ≠ []
  /-- the values, each with the blanks in front of it -/
  values : List (List UInt8 × Decimal)
  four : values.length = 4
  separate : ∀ v ∈ values, v.1 ≠ [] ∧ ∀ c ∈ v.1, isBlank c = true
  twoDecimals : ∀ v ∈ values, v.2.decimals.length ≤ 2
  bounded : ∀ v ∈ values, (v.2.index : Int) ≤ txgiMax
  tail : List UInt8
  isTail : ∀ c ∈ tail.head?, isBlank c = true

namespace PgRow

variable (r : PgRow)

def text : List UInt8 :=
  91 :: (49 + UInt8.ofNat r.txNum) :: 84 :: 120 :: 93
    :: (r.offset.text ++ (r.mask.text ++ (r.values.flatMap (fun v => v.1 ++ v.2.text) ++ r.tail)))

/-- the steps of the column of a byte -/
def column (byte : Nat) : Nat := (r.values.reverse.map fun v => v.2.index).getD byte 0

/-- each rate of the register and the mask gets its column -/
def assigns (path : Fin 4) : List (RateCell × Int) :=
  (ratesOfReg r.offset.value r.mask.value).map fun n => (rateCell 0 path n.1, (r.column n.2 : Int))

end PgRow

structure PgTable where
  path : Fin 4
  labelTail : List UInt8
  rows : List PgRow
  /-- what stands behind each `#[END]#` -/
  ends : List (List UInt8)

def endText : List UInt8 := ascii ['#', '[', 'E', 'N', 'D', ']', '#']

namespace PgTable

variable (t : PgTable)

def labelText : List UInt8 :=
  ascii ['#', '[', '2', '.', '4', 'G', ']', '[']
    ++ (65 + UInt8.ofNat t.path) :: (ascii [']', '#'] ++ t.labelTail)

def lines : List (List UInt8) :=
  t.labelText :: (t.rows.map PgRow.text ++ t.ends.map fun tail => endText ++ tail)

def assigns : List (RateCell × Int) := t.rows.flatMap fun r => r.assigns t.path

end PgTable

inductive PgVersion where
  | v1 | v2
  deriving DecidableEq, Repr

def PgVersion.number : PgVersion → UInt8
  | .v1 => 1
  | .v2 => 2

/-- `#[v1][Exact]#`, or `#[v2][Exact]#` -/
def PgVersion.text (version : PgVersion) : List UInt8 :=
  35 :: 91 :: 118 :: (48 + version.number) :: 93 :: ascii ['[', 'E', 'x', 'a', 'c', 't', ']', '#']

def closeText : List UInt8 := ascii ['0', 'x', 'f', 'f', 'f', 'f']

/-- but for blank lines and comments, the text begins with the header and the tables, up to the line `0xffff` -/
def PgWritten (version : PgVersion) (tables : List PgTable) (content : List UInt8) : Prop :=
  ∃ headTail closeTail rest, (getLines content).filter (fun line => !skipped line)
    = (version.text ++ headTail) :: (tables.flatMap PgTable.lines ++ (closeText ++ closeTail) :: rest)

/-- **The table that is written**: of each rate, the last value, and what was there if there is none. -/
def pgTable (tables : List PgTable) (t : TxPwrByRate) : TxPwrByRate := fun cell =>
  ((Keyed.get Prod.fst cell (tables.flatMap PgTable.assigns).reverse).map Prod.snd).getD (t cell)

/-! ## words of four bytes -/

theorem byte_ofDigits {l : List Nat} (h : ∀ x ∈ l, x < 256) (i : Nat) :
    Nat.ofDigits 256 l / 256 ^ i % 256 = l.getD i 0 := by
  rw [Nat.ofDigits_div_pow_eq_ofDigits_drop i (by decide) l h]
  have hget : l.getD i 0 = (l.drop i).getD 0 0 := by simp
  have hdrop : ∀ x ∈ l.drop i, x < 256 := fun x hx => h x (List.mem_of_mem_drop hx)
  rw [hget]
  cases hd : l.drop i with
  | nil => rfl
  | cons x r =>
    rw [Nat.ofDigits_cons, Nat.add_mul_mod_self_left]
    exact Nat.mod_eq_of_lt (hdrop x (hd ▸ List.mem_cons_self))

theorem toNat_push {v b : UInt32} {l : List Nat} (hv : v.toNat = Nat.ofDigits 256 l) (hl : ∀ x ∈ l, x < 256)
    (hlen : l.length < 4) (hb : b.toNat < 256) : (v <<< 8 ||| b).toNat = Nat.ofDigits 256 (b.toNat :: l) := by
  have hlt : v.toNat < 256 ^ 3 := by
    rw [hv]
    refine (Nat.ofDigits_lt_base_pow_length (by decide) hl).trans_le ?_
    exact Nat.pow_le_pow_right (by decide) (Nat.le_of_lt_succ hlen)
  have h8 : (8 : UInt32).toNat % 32 = 8 := rfl
  have hshift : (v <<< 8).toNat = v.toNat <<< 8 := by
    rw [UInt32.toNat_shiftLeft, h8]
    refine Nat.mod_eq_of_lt ?_
    rw [Nat.shiftLeft_eq]
    omega
  rw [UInt32.toNat_or, hshift, Nat.ofDigits_cons, ← hv, ← Nat.shiftLeft_add_eq_or_of_lt hb, Nat.shiftLeft_eq]
  omega

theorem toNat_getValFromHex (hex : UInt32) {i : Nat} (hi : i < 4) :
    (getValFromHex hex i).toNat = hex.toNat / 256 ^ i % 256 := by
  have hi8 : (UInt32.ofNat (i * 8)).toNat % 32 = i * 8 := by
    rw [UInt32.toNat_ofNat']
    omega
  have hpow : 256 ^ i = 2 ^ (i * 8) := by rw [Nat.mul_comm, Nat.pow_mul]
  unfold getValFromHex
  rw [UInt32.toNat_toUInt8, UInt32.toNat_and, UInt32.toNat_shiftRight, hi8, Nat.shiftRight_eq_div_pow, hpow]
  show (hex.toNat / 2 ^ (i * 8) &&& (2 ^ 8 - 1)) % 2 ^ 8 = _
  rw [Nat.and_two_pow_sub_one_eq_mod, Nat.mod_mod]

/-- two decimal digits, each in half a byte -/
theorem toNat_getValFromDhex (dhex : UInt32) {i : Nat} (hi : i < 4) :
    (getValFromDhex dhex i).toNat
      = dhex.toNat / 256 ^ i % 256 / 16 * 10 + dhex.toNat / 256 ^ i % 256 % 16 := by
  have hi8 : (UInt32.ofNat (i * 8)).toNat % 32 = i * 8 := by
    rw [UInt32.toNat_ofNat']
    omega
  have hi4 : (UInt32.ofNat (i * 8 + 4)).toNat % 32 = i * 8 + 4 := by
    rw [UInt32.toNat_ofNat']
    omega
  have hpow : 256 ^ i = 2 ^ (i * 8) := by rw [Nat.mul_comm, Nat.pow_mul]
  have hF : ∀ x, x &&& (0xF : UInt32).toNat = x % 16 := fun x => Nat.and_two_pow_sub_one_eq_mod x 4
  unfold getValFromDhex
  rw [UInt32.toNat_toUInt8, UInt32.toNat_add, UInt32.toNat_mul, UInt32.toNat_and, UInt32.toNat_and,
    UInt32.toNat_shiftRight, UInt32.toNat_shiftRight, hi8, hi4, Nat.shiftRight_eq_div_pow,
    Nat.shiftRight_eq_div_pow, hpow, hF, hF, Nat.pow_add, ← Nat.div_div_eq_div_mul]
  have h10 : (10 : UInt32).toNat = 10 := rfl
  rw [h10]
  generalize dhex.toNat / 2 ^ (i * 8) = x
  have hhigh : x / 2 ^ 4 % 16 = x % 256 / 16 := by omega
  have hlow : x % 16 = x % 256 % 16 := by omega
  rw [hhigh, hlow]
  have hlt : x % 256 < 256 := Nat.mod_lt x (by decide)
  omega

/-- the byte of a value that is packed -/
def packed (version : PgVersion) (x : Nat) : Nat :=
  match version with
  | .v1 => x / 10 * 16 + x % 10
  | .v2 => x

theorem packed_lt (version : PgVersion) {x : Nat} (hx : x ≤ 63) : packed version x < 256 := by
  cases version with
  | v1 =>
    show x / 10 * 16 + x % 10 < 256
    omega
  | v2 => exact Nat.lt_of_le_of_lt hx (by decide)

theorem toNat_packValue (version : PgVersion) {x : Nat} (hx : x ≤ 63) :
    (packValue version.number (UInt8.ofNat x)).toNat = packed version x := by
  have hxx : (UInt8.ofNat x).toNat = x := by
    rw [UInt8.toNat_ofNat']
    exact Nat.mod_eq_of_lt (Nat.lt_of_le_of_lt hx (by decide))
  unfold packValue
  rw [hxx]
  cases version with
  | v1 =>
    show (UInt32.ofNat (x / 10 * 16 + x % 10)).toNat = x / 10 * 16 + x % 10
    rw [UInt32.toNat_ofNat']
    omega
  | v2 =>
    show (UInt8.ofNat x).toUInt32.toNat = x
    rw [UInt8.toNat_toUInt32, hxx]

theorem getD_le {l : List Nat} {n : Nat} (hl : ∀ x ∈ l, x ≤ n) (i : Nat) : l.getD i 0 ≤ n := by
  rcases Nat.lt_or_ge i l.length with h | h
  · rw [List.getD_eq_getElem l 0 h]
    exact hl _ (List.getElem_mem h)
  · rw [List.getD_eq_default l 0 h]
    exact Nat.zero_le n

/-- **What is packed into a word** is unpacked again, in both versions. -/
theorem getVal_word (version : PgVersion) {l : List Nat} (hl : ∀ x ∈ l, x ≤ 63) {w : UInt32}
    (hw : w.toNat = Nat.ofDigits 256 (l.map (packed version))) {i : Nat} (hi : i < 4) :
    (if version.number = 1 then getValFromDhex w i else getValFromHex w i).toNat = l.getD i 0 := by
  have hbytes : ∀ b ∈ l.map (packed version), b < 256 := by
    intro b hb
    obtain ⟨x, hx, rfl⟩ := List.mem_map.mp hb
    exact packed_lt version (hl x hx)
  have hbyte : w.toNat / 256 ^ i % 256 = (l.map (packed version)).getD i 0 := by
    rw [hw]
    exact byte_ofDigits hbytes i
  have hzero : packed version 0 = 0 := by
    cases version with
    | v1 => rfl
    | v2 => rfl
  have hget := List.getD_map (n := i) l 0 (packed version)
  rw [hzero] at hget
  have hle := getD_le hl i
  rw [hget] at hbyte
  cases version with
  | v1 =>
    have h1 : PgVersion.number .v1 = 1 := rfl
    rw [if_pos h1, toNat_getValFromDhex w hi, hbyte]
    show (l.getD i 0 / 10 * 16 + l.getD i 0 % 10) / 16 * 10 + (l.getD i 0 / 10 * 16 + l.getD i 0 % 10) % 16 = _
    omega
  | v2 =>
    have h2 : ¬PgVersion.number .v2 = 1 := by decide
    rw [if_neg h2, toNat_getValFromHex w hi, hbyte]
    rfl

/-- what a register and a mask can stand for -/
def knownRates : List (List (MgnRate × Nat)) :=
  [] :: (ratesFrom .cck 0 1).zipIdx 1 :: (ratesFrom .cck 1 3).zipIdx 1 :: (ratesFrom .cck 3 1).zipIdx
    :: (ratesFrom .cck 0 3).zipIdx 1 :: rateRegs.map fun r => r.2.zipIdx

theorem ratesOfReg_mem (regAddr bitMask : UInt32) : ratesOfReg regAddr bitMask ∈ knownRates := by
  unfold ratesOfReg knownRates
  split_ifs
  · simp
  · simp
  · simp
  · simp
  · simp
  · cases hfind : rateRegs.find? fun r => r.1.contains regAddr with
    | none => simp
    | some r =>
      have hr := List.mem_map_of_mem (f := fun r => r.2.zipIdx) (List.mem_of_find?_eq_some hfind)
      simp only [List.mem_cons]
      exact Or.inr (Or.inr (Or.inr (Or.inr (Or.inr hr))))

theorem ratesOfReg_byte {regAddr bitMask : UInt32} {r : MgnRate × Nat} (hr : r ∈ ratesOfReg regAddr bitMask) :
    r.2 < 4 := by
  have hall : ∀ l ∈ knownRates, ∀ r ∈ l, r.2 < 4 := by decide
  exact hall _ (ratesOfReg_mem regAddr bitMask) r hr

theorem toS8_small {x : Nat} (hx : x ≤ 63) : toS8 x = x := Int.bmod_eq_of_le (by omega) (by omega)

theorem rateValues_word (version : PgVersion) {l : List Nat} (hl : ∀ x ∈ l, x ≤ 63) {w : UInt32}
    (hw : w.toNat = Nat.ofDigits 256 (l.map (packed version))) (regAddr bitMask : UInt32) :
    phyGetRateValuesOfTxPowerByRate version.number regAddr bitMask w
      = (ratesOfReg regAddr bitMask).map fun r => (r.1, (l.getD r.2 0 : Int)) := by
  refine List.map_congr_left fun r hr => ?_
  have hval := getVal_word version hl hw (ratesOfReg_byte hr)
  rw [hval, toS8_small (getD_le hl r.2)]

/-! ## a row is loaded -/

theorem scaleValue_index (d : Decimal) :
    scaleValue (UInt8.ofNat (natOfDigits 0 d.whole)) (UInt8.ofNat d.hundredths) = UInt8.ofNat d.index := by
  unfold scaleValue
  rw [d.toNat_hundredths, d.index_eq, UInt8.ofNat_add, UInt8.ofNat_mul]
  rfl

section
variable {tail p : List UInt8} {e : UInt8}

theorem combineValues_text (version : PgVersion) (htail : ∀ c ∈ tail.head?, isBlank c = true)
    {vals : List (List UInt8 × Decimal)} (hsep : ∀ v ∈ vals, v.1 ≠ [] ∧ ∀ c ∈ v.1, isBlank c = true)
    (htwo : ∀ v ∈ vals, v.2.decimals.length ≤ 2) (hle : ∀ v ∈ vals, v.2.index ≤ 63) {l : List Nat}
    (hl : ∀ x ∈ l, x ≤ 63) {w : UInt32} (hw : w.toNat = Nat.ofDigits 256 (l.map (packed version)))
    (hlen : l.length + vals.length ≤ 4) :
    ∃ w', combineValues version.number vals.length w (vals.flatMap (fun v => v.1 ++ v.2.text) ++ (tail ++ [0]))
        = .ok w'
      ∧ w'.toNat = Nat.ofDigits 256 (((vals.reverse.map fun v => v.2.index) ++ l).map (packed version)) := by
  induction vals generalizing l w with
  | nil => exact ⟨w, rfl, hw⟩
  | cons v vals ih =>
    obtain ⟨hv, hsep⟩ := List.forall_mem_cons.mp hsep
    obtain ⟨hv2, htwo⟩ := List.forall_mem_cons.mp htwo
    obtain ⟨hvle, hle⟩ := List.forall_mem_cons.mp hle
    obtain ⟨e, q, hrest, he⟩ := words_head Prod.fst (fun v => v.2.text) htail hsep
    have hread := v.2.getFractionValue_text hv.2 (eq_false_of_isEnd he rfl rfl rfl) (ne_of_isEnd he rfl) q
    have hleft : v.2.left = [] := List.drop_eq_nil_of_le hv2
    rw [hleft, List.nil_append, ← hrest] at hread
    have htext : (v :: vals).flatMap (fun v => v.1 ++ v.2.text) ++ (tail ++ [0])
        = v.1 ++ (v.2.text ++ (vals.flatMap (fun v => v.1 ++ v.2.text) ++ (tail ++ [0]))) := by simp
    have hpack := toNat_packValue version hvle
    have hbytes : ∀ b ∈ l.map (packed version), b < 256 := by
      intro b hb
      obtain ⟨x, hx, rfl⟩ := List.mem_map.mp hb
      exact packed_lt version (hl x hx)
    have hlen' : (l.map (packed version)).length < 4 := by
      rw [List.length_map]
      rw [List.length_cons] at hlen
      omega
    have hword := toNat_push hw hbytes hlen' (by rw [hpack]; exact packed_lt version hvle)
    rw [hpack] at hword
    obtain ⟨w', hrun, hw'⟩ := ih hsep htwo hle (List.forall_mem_cons.mpr ⟨hvle, hl⟩) hword
      (by rw [List.length_cons] at hlen ⊢; omega)
    refine ⟨w', ?_, ?_⟩
    · rw [htext, List.length_cons, combineValues, hread, bind_ok]
      dsimp only
      rw [scaleValue_index]
      exact hrun
    · rw [hw']
      simp

/-- in 32 bits, the number wraps around -/
theorem hexDigits_eq (v : Nat) (ds : List UInt8) :
    ds.foldl (fun (v : UInt32) c => (v <<< 4) + mapCharToHexDigit c) (UInt32.ofNat v)
      = UInt32.ofNat (natOfHex v ds) := by
  induction ds generalizing v with
  | nil => rfl
  | cons c ds ih =>
    have hstep : (UInt32.ofNat v <<< 4) + mapCharToHexDigit c
        = UInt32.ofNat (v * 16 + (mapCharToHexDigit c).toNat) := by
      rw [← UInt32.toNat_inj, UInt32.toNat_add, UInt32.toNat_shiftLeft, UInt32.toNat_ofNat',
        UInt32.toNat_ofNat']
      show ((v % 2 ^ 32) <<< 4 % 2 ^ 32 + _) % 2 ^ 32 = _
      rw [Nat.shiftLeft_eq]
      omega
    rw [List.foldl_cons, hstep, ih]
    rfl

theorem HexText.read (x : HexText) (he : isEnd e = true) (q : List UInt8) :
    getHexValueFromString (x.text ++ e :: q) = .ok (x.value, e :: q) := by
  have hread := getHexValue_text x.isBlanks x.isMark x.nonempty x.isDigits (eq_false_of_isEnd he rfl rfl rfl)
    ⟨ne_of_isEnd he rfl, ne_of_isEnd he rfl⟩ q
  have hval : x.digits.foldl (fun (v : UInt32) c => (v <<< 4) + mapCharToHexDigit c) 0 = x.value :=
    hexDigits_eq 0 x.digits
  rw [hval] at hread
  unfold text
  rw [List.append_assoc, List.append_assoc]
  exact hread

end

namespace PgRow

variable (r : PgRow)

theorem index_le {v : List UInt8 × Decimal} (hv : v ∈ r.values) : v.2.index ≤ 63 := by
  have hb := r.bounded v hv
  have hmax : txgiMax = 63 := rfl
  omega

theorem parseRow_text (version : PgVersion) :
    ∃ w, parseRow version.number true (r.text ++ [0]) = .ok (r.offset.value, r.mask.value, some w)
      ∧ w.toNat = Nat.ofDigits 256 ((r.values.reverse.map fun v => v.2.index).map (packed version)) := by
  obtain ⟨e, q, hrest, he⟩ := words_head Prod.fst (fun v => v.2.text) r.isTail r.separate
  obtain ⟨f, s, hs⟩ := List.exists_cons_of_ne_nil r.separateMask
  have hf : isEnd f = true := by
    have hb := r.mask.isBlanks f (hs ▸ List.mem_cons_self)
    simp [isEnd, hb]
  have hw0 : (0 : UInt32).toNat = Nat.ofDigits 256 (([] : List Nat).map (packed version)) := rfl
  obtain ⟨w, hcomb, hw⟩ := combineValues_text version r.isTail r.separate r.twoDecimals
    (fun v hv => r.index_le hv) (l := []) (List.forall_mem_nil _) hw0 (by rw [r.four]; decide)
  rw [r.four] at hcomb
  rw [List.append_nil] at hw
  refine ⟨w, ?_, hw⟩
  have htext : r.text ++ [0] = [91, 49 + UInt8.ofNat r.txNum, 84, 120] ++ 93 :: (r.offset.text ++ (r.mask.text
      ++ (r.values.flatMap (fun v => v.1 ++ v.2.text) ++ (r.tail ++ [0])))) := by
    simp [text]
  have hbracket : ∀ n : Fin 4, [91, 49 + UInt8.ofNat n, 84, 120].all (fun c => c != 93) = true := by decide
  have hmask : r.mask.text ++ (r.values.flatMap (fun v => v.1 ++ v.2.text) ++ (r.tail ++ [0]))
      = f :: (s ++ (r.mask.mark ++ r.mask.digits) ++ e :: q) := by
    rw [hrest]
    unfold HexText.text
    rw [hs]
    simp
  unfold parseRow
  rw [htext, span_append (List.all_eq_true.mp (hbracket r.txNum)) rfl, bind_ok]
  dsimp only
  rw [List.drop_one, List.tail_cons, hmask, r.offset.read hf, bind_ok]
  dsimp only
  rw [← hmask, hrest, r.mask.read he, bind_ok]
  dsimp only
  rw [if_pos rfl, ← hrest, hcomb, bind_ok]

end PgRow

/-! ## the lines -/

/-- the assignments one after the other -/
def assignAll (l : List (RateCell × Int)) (t : TxPwrByRate) : TxPwrByRate :=
  l.foldl (fun t a => Function.update t a.1 a.2) t

theorem assignAll_append (l l' : List (RateCell × Int)) (t : TxPwrByRate) :
    assignAll (l ++ l') t = assignAll l' (assignAll l t) := List.foldl_append

theorem assignAll_eq (l : List (RateCell × Int)) (t : TxPwrByRate) (cell : RateCell) :
    assignAll l t cell = ((Keyed.get Prod.fst cell l.reverse).map Prod.snd).getD (t cell) :=
  congrFun (Keyed.foldl_update Prod.snd l t) cell

/-- the header has been read -/
structure PgFile.Ready (version : PgVersion) (st : PgFile) : Prop where
  firstLine : st.firstLine = false
  phyRegPgVersion : st.phyRegPgVersion = version.number
  exactValue : st.exactValue = true

namespace PgFile

variable {version : PgVersion} {st : PgFile} {line : List UInt8}

theorem Ready.loadLine (h : Ready version st) (hs : skipped line = false) : st.loadLine line =
    if startsWith ['0', 'x', 'f', 'f', 'f', 'f'] (line ++ [0]) then .stop true st
    else if startsWith ['#', '[', 'E', 'N', 'D', ']', '#'] (line ++ [0]) then .next st
    else if (line ++ [0])[0]? = some 35 then st.loadLabel (line ++ [0])
    else st.loadRow (line ++ [0]) := by
  have hpos : 0 < st.phyRegPgVersion := by
    rw [h.phyRegPgVersion]
    cases version with
    | v1 => decide
    | v2 => decide
  unfold PgFile.loadLine
  rw [hs, h.firstLine, if_neg Bool.false_ne_true, if_neg Bool.false_ne_true, if_pos hpos]

theorem loadLine_header (version : PgVersion) (tail : List UInt8) (h : st.firstLine = true) :
    st.loadLine (version.text ++ tail)
      = .next { st with phyRegPgVersion := version.number, exactValue := true, firstLine := false } := by
  cases version with
  | v1 =>
    have hs : skipped (PgVersion.v1.text ++ tail) = false := rfl
    unfold loadLine
    rw [hs, h]
    rfl
  | v2 =>
    have hs : skipped (PgVersion.v2.text ++ tail) = false := rfl
    unfold loadLine
    rw [hs, h]
    rfl

theorem Ready.loadLine_close (h : Ready version st) (tail : List UInt8) :
    st.loadLine (closeText ++ tail) = .stop true st := by
  have hs : skipped (closeText ++ tail) = false := rfl
  have hclose : startsWith ['0', 'x', 'f', 'f', 'f', 'f'] (closeText ++ tail ++ [0]) = true := rfl
  rw [h.loadLine hs, if_pos hclose]

theorem Ready.loadLine_end (h : Ready version st) (tail : List UInt8) :
    st.loadLine (endText ++ tail) = .next st := by
  have hs : skipped (endText ++ tail) = false := rfl
  have hclose : startsWith ['0', 'x', 'f', 'f', 'f', 'f'] (endText ++ tail ++ [0]) = false := rfl
  have hend : startsWith ['#', '[', 'E', 'N', 'D', ']', '#'] (endText ++ tail ++ [0]) = true := rfl
  rw [h.loadLine hs, hclose, if_neg Bool.false_ne_true, if_pos hend]

theorem Ready.loadLine_label (h : Ready version st) (t : PgTable) :
    st.loadLine t.labelText = .next { st with band := 0, rfPath := UInt8.ofNat t.path } := by
  have hs : skipped t.labelText = false := rfl
  have hclose : startsWith ['0', 'x', 'f', 'f', 'f', 'f'] (t.labelText ++ [0]) = false := rfl
  have hend : startsWith ['#', '[', 'E', 'N', 'D', ']', '#'] (t.labelText ++ [0]) = false := rfl
  have hhash : (t.labelText ++ [0])[0]? = some 35 := rfl
  have hband : startsWith ['#', '[', '2', '.', '4', 'G', ']'] (t.labelText ++ [0]) = true := rfl
  have hpath : (t.labelText ++ [0])[8]? = some (65 + UInt8.ofNat t.path) := rfl
  rw [h.loadLine hs, hclose, if_neg Bool.false_ne_true, hend, if_neg Bool.false_ne_true, if_pos hhash]
  have hletter : ∀ path : Fin 4, 65 + UInt8.ofNat path - 65 = UInt8.ofNat path := by decide
  unfold loadLabel
  rw [if_pos hband, hpath]
  dsimp only
  rw [hletter t.path]

theorem store_assigns (version : PgVersion) (path : Fin 4) (r : PgRow) (t : TxPwrByRate) {w : UInt32}
    (hw : w.toNat = Nat.ofDigits 256 ((r.values.reverse.map fun v => v.2.index).map (packed version))) :
    phyStoreTxPowerByRate t version.number 0 (UInt8.ofNat path) r.offset.value r.mask.value w
      = .ok (assignAll (r.assigns path) t) := by
  have hle : ∀ x ∈ r.values.reverse.map (fun v => v.2.index), x ≤ 63 := by
    intro x hx
    obtain ⟨v, hv, rfl⟩ := List.mem_map.mp hx
    exact r.index_le (List.mem_reverse.mp hv)
  have hvals := rateValues_word version hle hw r.offset.value r.mask.value
  have hpath : ∀ path : Fin 4, ¬3 < UInt8.ofNat path ∧ (UInt8.ofNat path).toNat = path := by decide
  have hpos : 0 < version.number := by
    cases version with
    | v1 => decide
    | v2 => decide
  unfold phyStoreTxPowerByRate phyStoreTxPowerByRateNew
  rw [if_pos hpos, if_neg (by decide), if_neg (hpath path).1, (hpath path).2, hvals]
  refine (storeAll_ok 0 path _ t).trans ?_
  unfold assignAll PgRow.assigns
  rw [List.foldl_map, List.foldl_map]
  rfl

/-- **A row is loaded.** -/
theorem Ready.loadLine_row (h : Ready version st) {path : Fin 4} (hb : st.band = 0)
    (hp : st.rfPath = UInt8.ofNat path) (r : PgRow) :
    st.loadLine r.text = .next { st with txPwrByRate := assignAll (r.assigns path) st.txPwrByRate } := by
  have hs : skipped r.text = false := rfl
  have hclose : startsWith ['0', 'x', 'f', 'f', 'f', 'f'] (r.text ++ [0]) = false := rfl
  have hend : startsWith ['#', '[', 'E', 'N', 'D', ']', '#'] (r.text ++ [0]) = false := rfl
  have hhash : ¬(r.text ++ [0])[0]? = some 35 := by
    show ¬some (91 : UInt8) = some 35
    decide
  have htx : (r.text ++ [0])[1]? = some (49 + UInt8.ofNat r.txNum) := rfl
  have hnum : ∀ n : Fin 4, isTxNum (49 + UInt8.ofNat n) = true := by decide
  obtain ⟨w, hrow, hw⟩ := r.parseRow_text version
  rw [← h.phyRegPgVersion, ← h.exactValue] at hrow
  have hstore := store_assigns version path r st.txPwrByRate hw
  rw [← h.phyRegPgVersion, ← hb, ← hp] at hstore
  rw [h.loadLine hs, hclose, if_neg Bool.false_ne_true, hend, if_neg Bool.false_ne_true, if_neg hhash]
  unfold loadRow
  rw [htx]
  dsimp only
  rw [if_pos (hnum r.txNum), hrow]
  show Next.ofScan (phyStoreTxPowerByRate _ _ _ _ _ _ _) st _ = _
  rw [hstore]
  rfl

theorem run_rows (h : Ready version st) {path : Fin 4} (hb : st.band = 0)
    (hp : st.rfPath = UInt8.ofNat path) (rows : List PgRow) :
    run (feed PgFile.loadLine) (.next st) (rows.map PgRow.text)
      = .next
          { st with txPwrByRate := assignAll (rows.flatMap fun r => r.assigns path) st.txPwrByRate } := by
  induction rows generalizing st with
  | nil => rfl
  | cons r rows ih =>
    show run (feed PgFile.loadLine) (st.loadLine r.text) (rows.map PgRow.text) = _
    rw [h.loadLine_row hb hp r, List.flatMap_cons, assignAll_append]
    exact ih ⟨h.firstLine, h.phyRegPgVersion, h.exactValue⟩ hb hp

theorem run_ends (h : Ready version st) (ends : List (List UInt8)) :
    run (feed PgFile.loadLine) (.next st) (ends.map fun tail => endText ++ tail) = .next st := by
  induction ends with
  | nil => rfl
  | cons tail ends ih =>
    show run (feed PgFile.loadLine) (st.loadLine (endText ++ tail)) _ = _
    rw [h.loadLine_end tail]
    exact ih

theorem run_table (h : Ready version st) (t : PgTable) :
    ∃ st', run (feed PgFile.loadLine) (.next st) t.lines = .next st' ∧ Ready version st'
      ∧ st'.txPwrByRate = assignAll t.assigns st.txPwrByRate := by
  have hlabel : Ready version { st with band := 0, rfPath := UInt8.ofNat t.path } :=
    ⟨h.firstLine, h.phyRegPgVersion, h.exactValue⟩
  have hrows := run_rows hlabel rfl rfl t.rows
  have hends : Ready version
      { st with
        band := 0, rfPath := UInt8.ofNat t.path, txPwrByRate := assignAll t.assigns st.txPwrByRate } :=
    ⟨h.firstLine, h.phyRegPgVersion, h.exactValue⟩
  refine ⟨_, ?_, hends, rfl⟩
  show run (feed PgFile.loadLine) (st.loadLine t.labelText) _ = _
  rw [h.loadLine_label t, run_append, hrows]
  exact run_ends hends t.ends

theorem run_tables (h : Ready version st) (tables : List PgTable) :
    ∃ st', run (feed PgFile.loadLine) (.next st) (tables.flatMap PgTable.lines) = .next st' ∧ Ready version st'
      ∧ st'.txPwrByRate = assignAll (tables.flatMap PgTable.assigns) st.txPwrByRate := by
  induction tables generalizing st with
  | nil => exact ⟨st, rfl, h, rfl⟩
  | cons t tables ih =>
    obtain ⟨st₁, hrun₁, h₁, ht₁⟩ := run_table h t
    obtain ⟨st₂, hrun₂, h₂, ht₂⟩ := ih h₁
    refine ⟨st₂, ?_, h₂, ?_⟩
    · rw [List.flatMap_cons, run_append, hrun₁, hrun₂]
    · rw [ht₂, ht₁, List.flatMap_cons, assignAll_append]

end PgFile

/-! ## the files that the parser is right about -/

theorem pgTable_eq (tables : List PgTable) (t : TxPwrByRate) :
    assignAll (tables.flatMap PgTable.assigns) t = pgTable tables t :=
  funext fun cell => assignAll_eq (tables.flatMap PgTable.assigns) t cell

/-- **A file in the layout is loaded**, in either version. -/
theorem pgFile_loads (hal : PgHal) {version : PgVersion} {tables : List PgTable} {content : List UInt8}
    (h : PgWritten version tables content) :
    ∃ st, phyParseBBPgParaFile hal content = .stop true st
      ∧ st.txPwrByRate = pgTable tables hal.txPwrByRate := by
  obtain ⟨headTail, closeTail, rest, hlines⟩ := h
  have hskip : ∀ (st : PgFile) line, (!skipped line) = false → st.loadLine line = .next st := by
    intro st line hs
    unfold PgFile.loadLine
    exact if_pos (by simpa using hs)
  have hhead : PgFile.loadLine { hal with } (version.text ++ headTail) = _ :=
    PgFile.loadLine_header version headTail rfl
  have hready : PgFile.Ready version
      { hal with phyRegPgVersion := version.number, exactValue := true, firstLine := false } := ⟨rfl, rfl, rfl⟩
  obtain ⟨st, hrun, hst, htable⟩ := PgFile.run_tables hready tables
  refine ⟨st, ?_, htable.trans (pgTable_eq tables hal.txPwrByRate)⟩
  unfold phyParseBBPgParaFile
  rw [run_filter hskip, hlines]
  show (run (feed PgFile.loadLine) (PgFile.loadLine { hal with } (version.text ++ headTail)) _).finish = _
  rw [hhead, run_append, hrun]
  show (run (feed PgFile.loadLine) (st.loadLine (closeText ++ closeTail)) rest).finish = _
  rw [hst.loadLine_close closeTail, run_stop]
  rfl

/-- the parser does not leave a line or the table, and loads what is written in the text, in either version -/
structure PgFileExact (hal : PgHal) (content : List UInt8) : Prop where
  contained : phyParseBBPgParaFile hal content ≠ .outside
  loads : ∀ version tables, PgWritten version tables content →
    ∃ st, phyParseBBPgParaFile hal content = .stop true st
      ∧ st.txPwrByRate = pgTable tables hal.txPwrByRate
  sameTable : ∀ tables content', PgWritten .v1 tables content → PgWritten .v2 tables content' →
    ∃ st st', phyParseBBPgParaFile hal content = .stop true st
      ∧ phyParseBBPgParaFile hal content' = .stop true st' ∧ st.txPwrByRate = st'.txPwrByRate

/-- **The parser is right** about the text if and only if each line is in order where it is met. -/
theorem pgFile_iff (hal : PgHal) (content : List UInt8) :
    PgFileExact hal content ↔ AllOk PgFile.loadLine PgFile.LineOk { hal with } (getLines content) := by
  rw [← pgFile_contained_iff]
  constructor
  · exact fun h => h.contained
  · intro h
    refine ⟨h, fun version tables hw => pgFile_loads hal hw, fun tables content' h1 h2 => ?_⟩
    obtain ⟨st, hst, ht⟩ := pgFile_loads hal h1
    obtain ⟨st', hst', ht'⟩ := pgFile_loads hal h2
    exact ⟨st, st', hst, hst', ht.trans ht'.symm⟩

/-- a row without its bracket -/
def openRow : List UInt8 := PgVersion.v1.text ++ 10 :: ascii ['[', '1', 'T', 'x']

/-- a label without its path -/
def shortLabel : List UInt8 := PgVersion.v1.text ++ 10 :: ascii ['#', '[', '2', '.', '4', 'G', ']']

def clearHal : PgHal where
  phyRegPgVersion := 0
  exactValue := false
  txPwrByRate := fun _ => 0

/-- **Not every text**: the search for a bracket, and the path of a label, leave the line. -/
theorem pgFile_not_exact : ¬PgFileExact clearHal openRow ∧ ¬PgFileExact clearHal shortLabel := by
  have hrow : phyParseBBPgParaFile clearHal openRow = .outside := rfl
  have hlabel : phyParseBBPgParaFile clearHal shortLabel = .outside := rfl
  exact ⟨fun h => h.contained hrow, fun h => h.contained hlabel⟩

end Rtl8192eu
