import Rtl8192eu.Hal.ParaFile
import Rtl8192eu.Hal.TxPower
import Rtl8192eu.Lib.Scanner

/-!
# The file of the powers by rate

`phy_ParseBBPgParaFile` of `hal/hal_com_phycfg.c`. The file is not encrypted, and messages are not compiled in.

* `phyGetRateValuesOfTxPowerByRate`, `phyStoreTxPowerByRateNew`   the values of a register, and the store;
* `PgFile.loadLine`, `phyParseBBPgParaFile`   a line, and the loop over the lines;
* `phyStoreTxPowerByRateNew_ok`   the store stays in the table;
* `PgFile.LineOk`   a line that the parser does not leave;
* `pgFile_contained_iff`   the files whose lines it does not leave.
-/

namespace Rtl8192eu

open Scanner Run

/-! ## the table by rate -/

/-- an index of `TxPwrByRate`: band, path and rate -/
abbrev RateCell := Fin 2 × Fin 4 × Fin 84

abbrev TxPwrByRate := RateCell → Int

def TxPwrByRate.store (t : TxPwrByRate) (band path rateIdx : Nat) (v : Int) : Except Stop TxPwrByRate :=
  if h : band < 2 ∧ path < 4 ∧ rateIdx < 84 then
    .ok (Function.update t (⟨band, h.1⟩, ⟨path, h.2.1⟩, ⟨rateIdx, h.2.2⟩) v)
  else .error .outside

def phyGetRateIndexOfTxPowerByRate : MgnRate → Nat
  | .cck i => i
  | .ofdm i => 4 + i
  | .ht i => 12 + i
  | .vht i => 44 + i

/-! ## the registers -/

def getValFromDhex (dhex : UInt32) (i : Nat) : UInt8 :=
  (((dhex >>> UInt32.ofNat (i * 8 + 4)) &&& 0xF) * 10 + ((dhex >>> UInt32.ofNat (i * 8)) &&& 0xF)).toUInt8

def getValFromHex (hex : UInt32) (i : Nat) : UInt8 := ((hex >>> UInt32.ofNat (i * 8)) &&& 0xFF).toUInt8

/-- `len` rates in a row, from the `i`-th on -/
def ratesFrom {n : Nat} (rate : Fin n → MgnRate) (i len : Nat) : List MgnRate :=
  (((List.finRange n).drop i).take len).map rate

/-- registers of four rates, which are those of the bytes from the lowest on -/
def rateRegs : List (List UInt32 × List MgnRate) := [
  ([0xe00, 0x830], ratesFrom .ofdm 0 4),
  ([0xe04, 0x834], ratesFrom .ofdm 4 4),
  ([0xe10, 0x83c], ratesFrom .ht 0 4),
  ([0xe14, 0x848], ratesFrom .ht 4 4),
  ([0xe18, 0x84c], ratesFrom .ht 8 4),
  ([0xe1c, 0x868], ratesFrom .ht 12 4),
  ([0xC20, 0xE20, 0x1820, 0x1a20], ratesFrom .cck 0 4),
  ([0xC24, 0xE24, 0x1824, 0x1a24], ratesFrom .ofdm 0 4),
  ([0xC28, 0xE28, 0x1828, 0x1a28], ratesFrom .ofdm 4 4),
  ([0xC2C, 0xE2C, 0x182C, 0x1a2C], ratesFrom .ht 0 4),
  ([0xC30, 0xE30, 0x1830, 0x1a30], ratesFrom .ht 4 4),
  ([0xC34, 0xE34, 0x1834, 0x1a34], ratesFrom .ht 8 4),
  ([0xC38, 0xE38, 0x1838, 0x1a38], ratesFrom .ht 12 4),
  ([0xC3C, 0xE3C, 0x183C, 0x1a3C], ratesFrom .vht 0 4),
  ([0xC40, 0xE40, 0x1840, 0x1a40], ratesFrom .vht 4 4),
  ([0xC44, 0xE44, 0x1844, 0x1a44], ratesFrom .vht 8 4),
  ([0xC48, 0xE48, 0x1848, 0x1a48], ratesFrom .vht 12 4),
  ([0xC4C, 0xE4C, 0x184C, 0x1a4C], ratesFrom .vht 16 4),
  ([0xCD8, 0xED8, 0x18D8, 0x1aD8], ratesFrom .ht 16 4),
  ([0xCDC, 0xEDC, 0x18DC, 0x1aDC], ratesFrom .ht 20 4),
  ([0x3a24], ratesFrom .ht 24 4),
  ([0x3a28], ratesFrom .ht 28 4),
  ([0xCE0, 0xEE0, 0x18E0, 0x1aE0], ratesFrom .vht 20 4),
  ([0xCE4, 0xEE4, 0x18E4, 0x1aE4], ratesFrom .vht 24 4),
  ([0xCE8, 0xEE8, 0x18E8, 0x1aE8, 0x3a48], ratesFrom .vht 28 4),
  ([0x3a4c], ratesFrom .vht 32 4),
  ([0x3a50], ratesFrom .vht 36 4)]

/-- the rates of a register, each with its byte; of a register that is not known, there are none -/
def ratesOfReg (regAddr bitMask : UInt32) : List (MgnRate × Nat) :=
  -- `rTxAGC_A_CCK1_Mcs32`
  if regAddr = 0xe08 then (ratesFrom .cck 0 1).zipIdx 1
  -- `rTxAGC_B_CCK11_A_CCK2_11`
  else if regAddr = 0x86c then
    if bitMask = 0xffffff00 then (ratesFrom .cck 1 3).zipIdx 1
    else if bitMask = 0x000000ff then (ratesFrom .cck 3 1).zipIdx
    else []
  -- `rTxAGC_B_CCK1_55_Mcs32`
  else if regAddr = 0x838 then (ratesFrom .cck 0 3).zipIdx 1
  else
    match rateRegs.find? fun r => r.1.contains regAddr with
    | some r => r.2.zipIdx
    | none => []

/-- the rates of a register, each with its value -/
def phyGetRateValuesOfTxPowerByRate (version : UInt8) (regAddr bitMask value : UInt32) : List (MgnRate × Int) :=
  (ratesOfReg regAddr bitMask).map fun r =>
    (r.1, toS8 (if version = 1 then getValFromDhex value r.2 else getValFromHex value r.2).toNat)

def phyStoreTxPowerByRateNew (t : TxPwrByRate) (version band rfPath : UInt8) (regAddr bitMask data : UInt32) :
    Except Stop TxPwrByRate :=
  if band ≠ 0 ∧ band ≠ 1 then .ok t
  else if 3 < rfPath then .ok t
  else
    (phyGetRateValuesOfTxPowerByRate version regAddr bitMask data).foldlM
      (fun t r => t.store band.toNat rfPath.toNat (phyGetRateIndexOfTxPowerByRate r.1) r.2) t

def phyStoreTxPowerByRate (t : TxPwrByRate) (version band rfPath : UInt8) (regAddr bitMask data : UInt32) :
    Except Stop TxPwrByRate :=
  if 0 < version then phyStoreTxPowerByRateNew t version band rfPath regAddr bitMask data else .ok t

/-! ## the state of the parser -/

/-- what is kept behind the parser -/
structure PgHal where
  phyRegPgVersion : UInt8
  /-- `phy_reg_pg_value_type` is `PHY_REG_PG_EXACT_VALUE` -/
  exactValue : Bool
  txPwrByRate : TxPwrByRate

structure PgFile extends PgHal where
  firstLine : Bool := true
  band : UInt8 := 0
  rfPath : UInt8 := 0

/-! ## the rows -/

/-- the steps of a value, in eight bits -/
def scaleValue (integer fraction : UInt8) : UInt8 :=
  integer * UInt8.ofNat txgiPdbm.toNat + UInt8.ofNat (fraction.toNat * txgiPdbm.toNat / 100)

/-- the byte of a value: two decimal digits in version 1, and the number itself otherwise -/
def packValue (version integer : UInt8) : UInt32 :=
  if version = 1 then UInt32.ofNat (integer.toNat / 10 * 16 + integer.toNat % 10) else integer.toUInt32

/-- so many values, the first of them in the highest byte -/
def combineValues (version : UInt8) : Nat → UInt32 → List UInt8 → Except Stop UInt32
  | 0, combineValue, _ => .ok combineValue
  | n + 1, combineValue, szLine => do
    let ((integer, fraction), szLine) ← getFractionValueFromString szLine
    combineValues version n (combineValue <<< 8 ||| packValue version (scaleValue integer fraction)) szLine

/-- the register, the mask, and the word of the values, if they are exact -/
def parseRow (version : UInt8) (exactValue : Bool) (szLine : List UInt8) :
    Except Stop (UInt32 × UInt32 × Option UInt32) := do
  -- nothing stops the search for the bracket
  let (_, szLine) ← span (fun c => c != 93) szLine
  let (regOffset, szLine) ← getHexValueFromString (szLine.drop 1)
  let (regMask, szLine) ← getHexValueFromString szLine
  if exactValue then do
    let combineValue ← combineValues version 4 0 szLine
    .ok (regOffset, regMask, some combineValue)
  else .ok (regOffset, regMask, none)

/-- `'1'` to `'4'` -/
def isTxNum (c : UInt8) : Bool := c == 49 || c == 50 || c == 51 || c == 52

namespace PgFile

variable (st : PgFile)

/-- the first line: the version, and that the values are exact -/
def loadHeader (szLine : List UInt8) : Next PgFile :=
  if startsWith ['#', '[', 'v', '1', ']'] szLine || startsWith ['#', '[', 'v', '2', ']'] szLine then
    match szLine[3]? with
    | none => .outside
    | some c =>
      if startsWith ['[', 'E', 'x', 'a', 'c', 't', ']', '#'] (szLine.drop 5) then
        .next { st with phyRegPgVersion := c - 48, exactValue := true, firstLine := false }
      else .stop false { st with phyRegPgVersion := c - 48 }
  else .stop false st

/-- the byte of the path may be behind the end of the line -/
def loadLabel (szLine : List UInt8) : Next PgFile :=
  if startsWith ['#', '[', '2', '.', '4', 'G', ']'] szLine then
    match szLine[8]? with
    | none => .outside
    | some c => .next { st with band := 0, rfPath := c - 65 }
  else if startsWith ['#', '[', '5', 'G', ']'] szLine then
    match szLine[6]? with
    | none => .outside
    | some c => .next { st with band := 1, rfPath := c - 65 }
  else .stop false st

/-- what a row stores -/
def storeRow : UInt32 × UInt32 × Option UInt32 → Next PgFile
  | (_, _, none) => .next st
  | (regOffset, regMask, some combineValue) =>
    Next.ofScan
      (phyStoreTxPowerByRate st.txPwrByRate st.phyRegPgVersion st.band st.rfPath regOffset regMask combineValue)
      st fun t => .next { st with txPwrByRate := t }

def loadRow (szLine : List UInt8) : Next PgFile :=
  match szLine[1]? with
  | none => .outside
  | some c =>
    if isTxNum c then Next.ofScan (parseRow st.phyRegPgVersion st.exactValue szLine) st st.storeRow
    else .stop false st

def loadLine (line : List UInt8) : Next PgFile :=
  if skipped line then .next st
  else if st.firstLine then st.loadHeader (line ++ [0])
  else if 0 < st.phyRegPgVersion then
    if startsWith ['0', 'x', 'f', 'f', 'f', 'f'] (line ++ [0]) then .stop true st
    else if startsWith ['#', '[', 'E', 'N', 'D', ']', '#'] (line ++ [0]) then .next st
    else if (line ++ [0])[0]? = some 35 then st.loadLabel (line ++ [0])
    else st.loadRow (line ++ [0])
  else .next st

end PgFile

def phyParseBBPgParaFile (hal : PgHal) (content : List UInt8) : Next PgFile :=
  (run (feed PgFile.loadLine) (.next { hal with }) (getLines content)).finish

/-! ## the store stays in the table -/

theorem rateIndex_lt (rate : MgnRate) : phyGetRateIndexOfTxPowerByRate rate < 84 := by
  cases rate with
  | cck i => exact Nat.lt_of_lt_of_le i.isLt (by decide)
  | ofdm i => exact Nat.add_lt_add_left i.isLt 4 |>.trans_le (by decide)
  | ht i => exact Nat.add_lt_add_left i.isLt 12 |>.trans_le (by decide)
  | vht i => exact Nat.add_lt_add_left i.isLt 44

/-- where the value of a rate is kept -/
def rateCell (band : Fin 2) (path : Fin 4) (rate : MgnRate) : RateCell :=
  (band, path, ⟨phyGetRateIndexOfTxPowerByRate rate, rateIndex_lt rate⟩)

theorem storeAll_ok (band : Fin 2) (path : Fin 4) (l : List (MgnRate × Int)) (t : TxPwrByRate) :
    l.foldlM (fun t r => t.store band path (phyGetRateIndexOfTxPowerByRate r.1) r.2) t
      = .ok (l.foldl (fun t r => Function.update t (rateCell band path r.1) r.2) t) := by
  induction l generalizing t with
  | nil => rfl
  | cons r l ih =>
    rw [List.foldlM_cons]
    have hstore : t.store band path (phyGetRateIndexOfTxPowerByRate r.1) r.2
        = .ok (Function.update t (rateCell band path r.1) r.2) :=
      dif_pos ⟨band.isLt, path.isLt, rateIndex_lt r.1⟩
    rw [hstore]
    exact ih _

/-- **The store stays in the table**, for any band and path. -/
theorem phyStoreTxPowerByRateNew_ok (t : TxPwrByRate) (version band rfPath : UInt8)
    (regAddr bitMask data : UInt32) :
    ∃ t', phyStoreTxPowerByRateNew t version band rfPath regAddr bitMask data = .ok t' := by
  unfold phyStoreTxPowerByRateNew
  split
  · exact ⟨t, rfl⟩
  next hband =>
    split
    · exact ⟨t, rfl⟩
    next hpath =>
      have hb : band.toNat < 2 := by
        rcases Decidable.not_and_iff_or_not.mp hband with h | h
        · rw [Decidable.not_not.mp h]
          decide
        · rw [Decidable.not_not.mp h]
          decide
      have hp : rfPath.toNat < 4 := by
        have hle := UInt8.le_iff_toNat_le.mp (UInt8.not_lt.mp hpath)
        exact Nat.lt_succ_of_le hle
      exact ⟨_, storeAll_ok ⟨band.toNat, hb⟩ ⟨rfPath.toNat, hp⟩ _ t⟩

theorem phyStoreTxPowerByRate_ok (t : TxPwrByRate) (version band rfPath : UInt8)
    (regAddr bitMask data : UInt32) :
    ∃ t', phyStoreTxPowerByRate t version band rfPath regAddr bitMask data = .ok t' := by
  unfold phyStoreTxPowerByRate
  split
  · exact phyStoreTxPowerByRateNew_ok t version band rfPath regAddr bitMask data
  · exact ⟨t, rfl⟩

/-! ## the rows stay in the line -/

section
variable {p line : List UInt8}

theorem combineValues_contained (version : UInt8) (n : Nat) (combineValue : UInt32) (hp : Live p) :
    combineValues version n combineValue p ≠ .error .outside := by
  induction n generalizing combineValue p with
  | zero => nofun
  | succ n ih =>
    have hstays := getFractionValue_stays hp
    unfold combineValues
    cases hval : getFractionValueFromString p with
    | error e =>
      rw [hval] at hstays
      cases hstays
      nofun
    | ok r =>
      rw [hval] at hstays
      exact ih _ hstays.live

theorem hexValue_contained {γ : Type} {k : UInt32 × List UInt8 → Except Stop γ} (hp : Live p)
    (hk : ∀ v q, Live q → k (v, q) ≠ .error .outside) :
    (getHexValueFromString p >>= k) ≠ .error .outside := by
  have hstays := getHexValue_stays hp
  cases hval : getHexValueFromString p with
  | error e =>
    rw [hval] at hstays
    cases hstays
    nofun
  | ok r =>
    rw [hval] at hstays
    exact hk r.1 r.2 hstays.live

/-- a row is left if and only if it has no bracket -/
theorem parseRow_contained (version : UInt8) (exactValue : Bool) (line : List UInt8) :
    parseRow version exactValue (line ++ [0]) ≠ .error .outside ↔ 93 ∈ line := by
  unfold parseRow
  by_cases h : 93 ∈ line
  · refine iff_of_true ?_ h
    obtain ⟨l, q, rfl, hl⟩ := List.eq_append_cons_of_mem h
    have hspan : span (fun c => c != 93) (l ++ 93 :: q ++ [0]) = .ok (l, 93 :: (q ++ [0])) := by
      rw [List.append_assoc, List.cons_append]
      refine span_append (fun c hc => ?_) rfl _
      rw [bne_iff_ne]
      rintro rfl
      exact hl hc
    rw [hspan, bind_ok]
    refine hexValue_contained (live_line q) fun regOffset q hq => ?_
    refine hexValue_contained hq fun regMask q hq => ?_
    dsimp only
    split
    next =>
      have hvalues := combineValues_contained version 4 0 hq
      cases hv : combineValues version 4 0 q with
      | error e =>
        rw [hv] at hvalues
        cases e with
        | outside => exact absurd rfl hvalues
        | refused => nofun
      | ok v => nofun
    next => nofun
  · have hspan : span (fun c => c != 93) (line ++ [0]) = .error .outside := by
      refine span_error_iff.mpr ⟨rfl, fun c hc => ?_⟩
      rw [bne_iff_ne]
      rintro rfl
      rcases List.mem_append.mp hc with hc | hc
      · exact h hc
      · cases List.mem_singleton.mp hc
    rw [hspan]
    exact iff_of_false (fun hne => hne rfl) h

end

/-! ## the lines -/

namespace PgFile

/-- the label goes on up to its path -/
def LabelOk (line : List UInt8) : Prop :=
  (startsWith ['#', '[', '2', '.', '4', 'G', ']'] (line ++ [0]) = true → 8 ≤ line.length)
    ∧ (startsWith ['#', '[', '5', 'G', ']'] (line ++ [0]) = true → 6 ≤ line.length)

/-- a row with a number of antennas has a bracket -/
def RowOk (line : List UInt8) : Prop := ∀ c ∈ (line ++ [0])[1]?, isTxNum c = true → 93 ∈ line

/-- the parser does not leave the line -/
def LineOk (st : PgFile) (line : List UInt8) : Prop :=
  skipped line = false → st.firstLine = false → 0 < st.phyRegPgVersion →
    startsWith ['0', 'x', 'f', 'f', 'f', 'f'] (line ++ [0]) = false →
      startsWith ['#', '[', 'E', 'N', 'D', ']', '#'] (line ++ [0]) = false →
        if (line ++ [0])[0]? = some 35 then LabelOk line else RowOk line

section
variable {line : List UInt8}

theorem loadHeader_contained (st : PgFile) (p : List UInt8) : st.loadHeader p ≠ .outside := by
  unfold loadHeader
  split
  next h =>
    rw [Bool.or_eq_true, startsWith, startsWith, List.isPrefixOf_iff_prefix, List.isPrefixOf_iff_prefix] at h
    obtain ⟨c, hc⟩ : ∃ c, p[3]? = some c := by
      rcases h with ⟨q, rfl⟩ | ⟨q, rfl⟩
      · exact ⟨_, rfl⟩
      · exact ⟨_, rfl⟩
    rw [hc]
    dsimp only
    split
    · exact Next.next_ne_outside _
    · exact Next.stop_ne_outside _ _
  next => exact Next.stop_ne_outside _ _

/-- a byte of the line, or its terminator -/
theorem get_line_none_iff {n : Nat} : (line ++ [0])[n]? = none ↔ line.length < n := by
  rw [List.getElem?_eq_none_iff, List.length_append, List.length_singleton]
  exact Nat.succ_le_iff

theorem loadLabel_contained (st : PgFile) : st.loadLabel (line ++ [0]) ≠ .outside ↔ LabelOk line := by
  have hget : ∀ (n : Nat) (f : UInt8 → PgFile),
      (match (line ++ [0])[n]? with
        | none => Next.outside
        | some c => Next.next (f c)) ≠ .outside ↔ n ≤ line.length := by
    intro n f
    rw [← Nat.not_lt, ← get_line_none_iff]
    cases (line ++ [0])[n]? with
    | none => exact iff_of_false (fun h => h rfl) fun h => h rfl
    | some c => exact iff_of_true (Next.next_ne_outside _) (Option.some_ne_none c)
  unfold loadLabel LabelOk
  split
  next h24 =>
    have h5 : ¬startsWith ['#', '[', '5', 'G', ']'] (line ++ [0]) = true := by
      rw [startsWith, List.isPrefixOf_iff_prefix] at h24 ⊢
      rintro ⟨q, hq⟩
      obtain ⟨r, hr⟩ := h24
      rw [← hr] at hq
      cases hq
    rw [hget 8]
    exact ⟨fun h => ⟨fun _ => h, fun h' => absurd h' h5⟩, fun h => h.1 h24⟩
  next h24 =>
    split
    next h5 =>
      rw [hget 6]
      exact ⟨fun h => ⟨fun h' => absurd h' h24, fun _ => h⟩, fun h => h.2 h5⟩
    next h5 => exact iff_of_true (Next.stop_ne_outside _ _) ⟨fun h => absurd h h24, fun h => absurd h h5⟩

theorem storeRow_contained (st : PgFile) (r : UInt32 × UInt32 × Option UInt32) : st.storeRow r ≠ .outside := by
  obtain ⟨regOffset, regMask, combineValue⟩ := r
  cases combineValue with
  | none => exact Next.next_ne_outside _
  | some v =>
    obtain ⟨t, ht⟩ :=
      phyStoreTxPowerByRate_ok st.txPwrByRate st.phyRegPgVersion st.band st.rfPath regOffset regMask v
    show Next.ofScan (phyStoreTxPowerByRate _ _ _ _ _ _ _) st _ ≠ .outside
    rw [ht]
    exact Next.next_ne_outside _

theorem loadRow_contained (st : PgFile) (hline : line ≠ []) :
    st.loadRow (line ++ [0]) ≠ .outside ↔ RowOk line := by
  obtain ⟨c, hc⟩ : ∃ c, (line ++ [0])[1]? = some c := by
    obtain ⟨a, w, rfl⟩ := List.exists_cons_of_ne_nil hline
    cases w with
    | nil => exact ⟨0, rfl⟩
    | cons b w => exact ⟨b, rfl⟩
  unfold loadRow RowOk
  rw [hc]
  simp only [Option.mem_some_iff, forall_eq']
  split
  next h =>
    rw [← parseRow_contained st.phyRegPgVersion st.exactValue line]
    simp only [h, true_imp_iff]
    match hrow : parseRow st.phyRegPgVersion st.exactValue (line ++ [0]) with
    | .error .outside => exact iff_of_false (fun h => h rfl) fun h => h rfl
    | .error .refused => exact iff_of_true nofun nofun
    | .ok r => exact iff_of_true (storeRow_contained st r) nofun
  next h => exact iff_of_true (Next.stop_ne_outside _ _) fun h' => absurd h' h

theorem loadLine_contained (st : PgFile) (line : List UInt8) :
    st.loadLine line ≠ .outside ↔ st.LineOk line := by
  unfold loadLine LineOk
  cases hs : skipped line with
  | true => exact iff_of_true nofun nofun
  | false =>
    have hline : line ≠ [] := by
      rintro rfl
      cases hs
    simp only [Bool.false_eq_true, if_false, true_imp_iff]
    cases st.firstLine with
    | true => exact iff_of_true (loadHeader_contained st _) nofun
    | false =>
      simp only [Bool.false_eq_true, if_false, true_imp_iff]
      by_cases hv : 0 < st.phyRegPgVersion
      · simp only [hv, if_true, true_imp_iff]
        cases startsWith ['0', 'x', 'f', 'f', 'f', 'f'] (line ++ [0]) with
        | true => exact iff_of_true nofun nofun
        | false =>
          cases startsWith ['#', '[', 'E', 'N', 'D', ']', '#'] (line ++ [0]) with
          | true => exact iff_of_true nofun nofun
          | false =>
            simp only [Bool.false_eq_true, if_false, true_imp_iff]
            split
            · exact loadLabel_contained st
            · exact loadRow_contained st hline
      · rw [if_neg hv]
        exact iff_of_true (Next.next_ne_outside _) fun h => absurd h hv

end

end PgFile

/-- **The files whose lines the parser does not leave**: each is in order in the state that it is met in. -/
theorem pgFile_contained_iff (hal : PgHal) (content : List UInt8) :
    phyParseBBPgParaFile hal content ≠ .outside
      ↔ AllOk PgFile.loadLine PgFile.LineOk { hal with } (getLines content) := by
  rw [← contained_iff PgFile.loadLine_contained]
  exact not_congr Next.finish_outside_iff

end Rtl8192eu
