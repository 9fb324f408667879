import Rtl8192eu.Hal.LimitFile

/-!
# What a file of power limits says

The layout of the file that `phy_ParsePowerLimitTableFile` is for, and the limits that it stands for.

* `LimitText`, `ChRow`, `LimitTable`   the layout;
* `LimitTable.limits`   the limits of a table;
* `readLimit_text`, `run_tables`   what is read of a limit, and of the tables;
* `LimitTable.Kept`   the tables that are loaded as they are written;
* `limitFile_iff`   the files that the parser is right about.
-/

namespace Rtl8192eu

open Scanner Run

/-! ## the layout -/

/-- a limit as it is written -/
inductive LimitText where
  | ww | na
  | dbm (sign : Option Bool) (d : Decimal)

/-- `-`, `+`, or nothing -/
def signText : Option Bool → List UInt8
  | none => []
  | some true => [45]
  | some false => [43]

/-- digits that are left over are read as a number -/
def leftPieces (ds : List UInt8) : List Int := if ds = [] then [] else [(natOfDigits 0 ds * 2 : Nat)]

namespace LimitText

def text : LimitText → List UInt8
  | .ww => ascii ['W', 'W']
  | .na => ascii ['N', 'A']
  | .dbm sign d => signText sign ++ d.text

/-- the value in index steps, of any size -/
def index : LimitText → Int
  | .ww => wwLmtVal
  | .na => txgiMax
  | .dbm sign d => if sign = some true then -(d.index : Int) else d.index

/-- the limit to be stored -/
def limit (v : LimitText) : LmtVal := ⟨clampLimit v.index, clampLimit_bounds v.index⟩

/-- decimals behind the second are not read with their number -/
def left : LimitText → List UInt8
  | .dbm _ d => d.left
  | _ => []

/-- the numbers that are read one after the other -/
def pieces (v : LimitText) : List Int := v.index :: leftPieces v.left

end LimitText

/-- a row `ch..` -/
structure ChRow where
  c : UInt8
  h : UInt8
  isCh : LmtFile.isChannelRow [c, h] = true
  channel : List UInt8
  isChannel : ∀ c ∈ channel, isDigit c = true
  /-- the limits, each with the blanks in front of it -/
  values : List (List UInt8 × LimitText)
  separate : ∀ v ∈ values, v.1 ≠ [] ∧ ∀ c ∈ v.1, isBlank c = true
  tail : List UInt8
  isTail : ∀ c ∈ tail.head?, isBlank c = true

namespace ChRow

/-- the number of the channel -/
def chan (r : ChRow) : Nat := natOfDigits 0 r.channel

def text (r : ChRow) : List UInt8 :=
  r.c :: r.h :: (r.channel ++ (r.values.flatMap (fun v => v.1 ++ v.2.text) ++ r.tail))

/-- a row begins with a letter -/
theorem c_eq (r : ChRow) : r.c = 99 ∨ r.c = 67 := by
  have hch := r.isCh
  unfold LmtFile.isChannelRow at hch
  simp at hch
  exact hch.1

theorem not_skipped (r : ChRow) : skipped r.text = false := by
  unfold text
  rcases r.c_eq with hc | hc
  · rw [hc]
    rfl
  · rw [hc]
    rfl

theorem not_hash (r : ChRow) : startsWith ['#', '#'] (r.text ++ [0]) = false := by
  unfold text
  rcases r.c_eq with hc | hc
  · rw [hc]
    rfl
  · rw [hc]
    rfl

end ChRow

inductive LabelBand where
  | b24 | b5
  deriving DecidableEq, Repr

inductive LabelWidth where
  | w20 | w40 | w80 | w160
  deriving DecidableEq, Repr

def LabelBand.text : LabelBand → List UInt8
  | .b24 => ascii ['2', '.', '4', 'G']
  | .b5 => ascii ['5', 'G']

def LabelWidth.text : LabelWidth → List UInt8
  | .w20 => ascii ['2', '0', 'M']
  | .w40 => ascii ['4', '0', 'M']
  | .w80 => ascii ['8', '0', 'M']
  | .w160 => ascii ['1', '6', '0', 'M']

/-- the widths of the 2.4 GHz band -/
def LabelWidth.bw : LabelWidth → Option ChannelWidth
  | .w20 => some .w20
  | .w40 => some .w40
  | _ => none

def ntxText (ntx : Fin maxTxCount) : List UInt8 := [49 + UInt8.ofNat ntx, 84]

def rsText : LmtRs → List UInt8
  | .cck => ascii ['C', 'C', 'K']
  | .ofdm => ascii ['O', 'F', 'D', 'M']
  | .ht => ascii ['H', 'T']
  | .vht => ascii ['V', 'H', 'T']

/-- a line that begins with `##` -/
structure HashLine where
  blanks : List UInt8
  isBlanks : ∀ c ∈ blanks, isBlank c = true
  tail : List UInt8

def HashLine.text (l : HashLine) (body : List UInt8) : List UInt8 := 35 :: 35 :: (l.blanks ++ (body ++ l.tail))

/-- the name of a regulation, and the blanks in front of it -/
structure ColumnName where
  blanks : List UInt8
  separate : blanks ≠ [] ∧ ∀ c ∈ blanks, isBlank c = true
  name : List UInt8
  isName : name ≠ [] ∧ ∀ c ∈ name, isBlank c = false ∧ c ≠ 0

structure LimitTable where
  band : LabelBand
  width : LabelWidth
  ntx : Fin maxTxCount
  rs : LmtRs
  label : HashLine
  start : HashLine
  columnLine : HashLine
  isTail : ∀ c ∈ columnLine.tail.head?, isBlank c = true
  columns : List ColumnName
  some_column : columns ≠ []
  /-- the number of columns, as it is written -/
  count : List UInt8
  isCount : ∀ c ∈ count, isDigit c = true
  count_eq : natOfDigits 0 count = columns.length
  rows : List ChRow
  full : ∀ r ∈ rows, r.values.length = columns.length
  inBand : band = .b24 → ∀ r ∈ rows, 1 ≤ r.chan ∧ r.chan ≤ centerCh2gNum
  finish : HashLine

namespace LimitTable

variable (t : LimitTable)

/-- each part of the label ends with a comma -/
def labelText : List UInt8 :=
  t.band.text ++ 44 :: 32 :: (t.width.text ++ 44 :: 32 :: (ntxText t.ntx ++ 44 :: 32 :: (rsText t.rs ++ [44])))

def columnText : List UInt8 := 35 :: (t.count ++ 35 :: t.columns.flatMap fun n => n.blanks ++ n.name)

def lines : List (List UInt8) :=
  t.label.text t.labelText :: t.start.text (ascii ['S', 'T', 'A', 'R', 'T']) :: t.columnLine.text t.columnText
    :: (t.rows.map ChRow.text ++ [t.finish.text (ascii ['E', 'N', 'D'])])

/-- the width whose limits the table holds; there are limits of the 2.4 GHz band only -/
def bw : Option ChannelWidth := if t.band = .b24 then t.width.bw else none

/-- the limit of a channel and a regulation -/
def row (bw : ChannelWidth) (ch : Fin centerCh2gNum) (n : ColumnName) (lmt : LmtVal) : LmtRow where
  regdName := regdString n.name
  named := regdString_ne n.isName.1
  bw := bw
  tlrs := t.rs
  ntxIdx := t.ntx
  chIdx := ch
  lmt := lmt

/-- the limits of some columns of a row -/
def rowLimits (ch : Nat) (names : List ColumnName) (lmts : List LmtVal) : List LmtRow :=
  match t.bw with
  | none => []
  | some bw =>
    if h : ch - 1 < centerCh2gNum then List.zipWith (t.row bw ⟨ch - 1, h⟩) names lmts else []

/-- **The limits of the table.** -/
def limits : List LmtRow :=
  t.rows.flatMap fun r => t.rowLimits r.chan t.columns (r.values.map fun v => v.2.limit)

end LimitTable

/-- but for blank lines and comments, the text consists of the tables -/
def Written (tables : List LimitTable) (content : List UInt8) : Prop :=
  (getLines content).filter (fun line => !skipped line) = tables.flatMap LimitTable.lines

/-! ## a limit is read -/

section
variable {bl q : List UInt8} {t : UInt8}

theorem toS8_neg_toS8 (x : Int) : toS8 (-toS8 x) = toS8 (-x) := Int.bmod_neg_bmod

/-- the steps that are computed in eight bits -/
theorem toS8_index (d : Decimal) : toS8 ((UInt8.ofNat (natOfDigits 0 d.whole)).toNat * txgiPdbm
    + (UInt8.ofNat d.hundredths).toNat * txgiPdbm / 100) = toS8 d.index := by
  have hN : ((natOfDigits 0 d.whole % 256 : Nat) : Int) * 2 + (d.hundredths : Int) * 2 / 100
      + 256 * (2 * (natOfDigits 0 d.whole / 256 : Nat)) = d.index := by
    rw [d.index_eq]
    push_cast
    omega
  rw [d.toNat_hundredths, UInt8.toNat_ofNat', ← hN]
  exact (Int.add_mul_bmod_self_left _ _ _).symm

theorem not_startsWith {c a b : UInt8} {s : List Char} (hs : ascii s = [a, b]) (h : c ≠ a) (p : List UInt8) :
    startsWith s (c :: p) = false := by
  unfold startsWith
  rw [hs]
  simp [List.isPrefixOf, Ne.symm h]

theorem readDbm_text (negative : Bool) (d : Decimal) (ht : isDigit t = false) (hpoint : t ≠ 46)
    (q : List UInt8) : readDbm negative (d.text ++ t :: q) =
      .ok (decBuf (toS8 (if negative = true then -(d.index : Int) else d.index)), d.left ++ t :: q) := by
  have hval := d.getFractionValue_text no_blanks ht hpoint q
  rw [List.nil_append] at hval
  unfold readDbm
  rw [hval, bind_ok]
  dsimp only
  rw [toS8_index, toS8_neg_toS8]
  cases negative with
  | true =>
    simp only [if_true]
    rw [sprintfDec_eq (toS8_bounds _).1 (toS8_bounds _).2]
    rfl
  | false =>
    simp only [Bool.false_eq_true, if_false]
    rw [sprintfDec_eq (toS8_bounds _).1 (toS8_bounds _).2]
    rfl

/-- a number, with a sign or without -/
theorem readLimit_number {c : UInt8} {p : List UInt8} (hbl : ∀ c ∈ bl, isBlank c = true)
    (hc : isDigit c = true ∨ c = 43 ∨ c = 45) :
    readLimit (bl ++ c :: p) = readDbm (c == 45) (if c == 43 || c == 45 then p else c :: p) := by
  have hblank : isBlank c = false := by
    rcases hc with hc | rfl | rfl
    · exact not_blank (f := isDigit) rfl rfl hc
    · rfl
    · rfl
  have hne : ∀ e : UInt8, isDigit e = false → e ≠ 43 → e ≠ 45 → c ≠ e := by
    rintro e he h43 h45 rfl
    rcases hc with hc | hc | hc
    · cases hc.symm.trans he
    · exact h43 hc
    · exact h45 hc
  have hnum : (isDigit c || c == 46 || c == 43 || c == 45) = true := by
    rcases hc with hc | rfl | rfl
    · simp [hc]
    · rfl
    · rfl
  unfold readLimit
  rw [skip_append hbl hblank, bind_ok]
  rw [if_neg (by simp [not_startsWith (s := ['W', 'W']) rfl (hne 87 rfl (by decide) (by decide))])]
  rw [if_neg (by simp [not_startsWith (s := ['N', 'A']) rfl (hne 78 rfl (by decide) (by decide))])]
  exact if_pos hnum

/-- **A limit is read** in eight bits, up to its second decimal. -/
theorem readLimit_text (v : LimitText) (hbl : ∀ c ∈ bl, isBlank c = true) (ht : isDigit t = false)
    (hpoint : t ≠ 46) (q : List UInt8) :
    readLimit (bl ++ (v.text ++ t :: q)) = .ok (decBuf (toS8 v.index), v.left ++ t :: q) := by
  cases v with
  | ww =>
    have hskip : skip isBlank (bl ++ (LimitText.ww.text ++ t :: q)) = .ok (87 :: 87 :: t :: q) :=
      skip_append hbl rfl _
    have hw : startsWith ['W', 'W'] (87 :: 87 :: t :: q) = true := rfl
    unfold readLimit
    rw [hskip, bind_ok, if_pos hw, sprintfDec_eq (by decide) (by decide)]
    rfl
  | na =>
    have hskip : skip isBlank (bl ++ (LimitText.na.text ++ t :: q)) = .ok (78 :: 65 :: t :: q) :=
      skip_append hbl rfl _
    have hw : ¬startsWith ['W', 'W'] (78 :: 65 :: t :: q) = true := Bool.false_ne_true
    have hn : startsWith ['N', 'A'] (78 :: 65 :: t :: q) = true := rfl
    unfold readLimit
    rw [hskip, bind_ok, if_neg hw, if_pos hn, sprintfDec_eq (by decide) (by decide)]
    rfl
  | dbm sign d =>
    match sign with
    | some true => exact (readLimit_number hbl (Or.inr (Or.inr rfl))).trans (readDbm_text true d ht hpoint q)
    | some false => exact (readLimit_number hbl (Or.inr (Or.inl rfl))).trans (readDbm_text false d ht hpoint q)
    | none =>
      obtain ⟨c, w, hw⟩ := List.exists_cons_of_ne_nil d.nonempty
      have hc : isDigit c = true := d.isWhole c (hw ▸ List.mem_cons_self)
      have hne : ∀ e : UInt8, isDigit e = false → (c == e) = false := by
        intro e he
        rw [beq_eq_false_iff_ne]
        rintro rfl
        cases hc.symm.trans he
      have hread := readDbm_text false d ht hpoint q
      have hcons : d.text ++ t :: q
          = c :: (w ++ (if d.decimals = [] then [] else 46 :: d.decimals) ++ t :: q) := by
        unfold Decimal.text
        rw [hw]
        rfl
      show readLimit (bl ++ (d.text ++ t :: q)) = _
      rw [hcons, readLimit_number hbl (Or.inl hc), hne 43 rfl, hne 45 rfl, ← hcons]
      exact hread

end

theorem LimitText.left_digits (v : LimitText) : ∀ c ∈ v.left, isDigit c = true := by
  intro c hc
  cases v with
  | ww => cases hc
  | na => cases hc
  | dbm sign d => exact d.isDecimals c (List.mem_of_mem_drop hc)

/-- a number without decimals -/
def Decimal.ofWhole {ds : List UInt8} (hne : ds ≠ []) (hds : ∀ c ∈ ds, isDigit c = true) : Decimal where
  whole := ds
  nonempty := hne
  isWhole := hds
  decimals := []
  isDecimals := nofun

theorem Decimal.index_ofWhole {ds : List UInt8} (hne : ds ≠ []) (hds : ∀ c ∈ ds, isDigit c = true) :
    (Decimal.ofWhole hne hds).index = natOfDigits 0 ds * 2 := by
  simp [Decimal.index, Decimal.ofWhole, txgiPdbm]

/-! ## a row is loaded -/

theorem rateSectionOf_text (rs : LmtRs) : rateSectionOf (padded (rsText rs)) = some rs := by
  cases rs <;> rfl

theorem ntxIdxOf_text : ∀ ntx : Fin maxTxCount, ntxIdxOf (padded (ntxText ntx)) = some ntx := by
  decide

theorem bandwidthOf_text (w : LabelWidth) : bandwidthOf (padded w.text) = w.bw := by
  cases w <;> rfl

theorem band_text (b : LabelBand) : startsWith ['2', '.', '4', 'G'] (padded b.text) = decide (b = .b24) := by
  cases b <;> rfl

/-- what is stored for a number that is read -/
def lmtOfByte (x : Int) : LmtVal := ⟨clampLimit (toS8 x), clampLimit_bounds (toS8 x)⟩

namespace LimitTable

variable (t : LimitTable) {st : LmtFile} {ds : List UInt8}

/-- the label of the table has been read -/
structure Labelled (st : LmtFile) : Prop where
  band : st.band = padded t.band.text
  bandwidth : st.bandwidth = padded t.width.text
  ntx : st.ntx = padded (ntxText t.ntx)
  rateSection : st.rateSection = padded (rsText t.rs)

/-- what a column of a row stores -/
def stored (ch : Nat) (n : ColumnName) (lmt : LmtVal) : Option LmtRow :=
  match t.bw with
  | none => none
  | some bw => if h : ch - 1 < centerCh2gNum then some (t.row bw ⟨ch - 1, h⟩ n lmt) else none

theorem rowLimits_cons (ch : Nat) (n : ColumnName) (ns : List ColumnName) (l : LmtVal) (ls : List LmtVal) :
    t.rowLimits ch (n :: ns) (l :: ls) = (t.stored ch n l).toList ++ t.rowLimits ch ns ls := by
  unfold rowLimits stored
  cases t.bw with
  | none => rfl
  | some bw =>
    dsimp only
    split
    · rfl
    · rfl

theorem rowLimits_nil (ch : Nat) (ls : List LmtVal) : t.rowLimits ch [] ls = [] := by
  unfold rowLimits
  cases t.bw with
  | none => rfl
  | some bw => simp

variable {t}

theorem phySet_stored (hl : t.Labelled st) (hds : ∀ c ∈ ds, isDigit c = true) (hlen : ds.length < 10)
    (hch : t.band = .b24 → 1 ≤ natOfDigits 0 ds ∧ natOfDigits 0 ds ≤ centerCh2gNum) (n : ColumnName) (x : Int) :
    phySetTxPowerLimit n.name st.band st.bandwidth st.rateSection st.ntx (padded ds) (decBuf (toS8 x))
      = .ok (t.stored (natOfDigits 0 ds) n (lmtOfByte x)) := by
  unfold phySetTxPowerLimit
  rw [getU1_padded hds hlen, getS1_decBuf (toS8_bounds x).1 (toS8_bounds x).2, hl.band, hl.bandwidth, hl.ntx,
    hl.rateSection, rateSectionOf_text, ntxIdxOf_text, bandwidthOf_text, band_text]
  unfold stored bw
  by_cases hb : t.band = .b24
  · obtain ⟨hlo, hhi⟩ := hch hb
    have h14 : centerCh2gNum = 14 := rfl
    have hmod : natOfDigits 0 ds % 256 = natOfDigits 0 ds := Nat.mod_eq_of_lt (by omega)
    have hnz : UInt8.ofNat (natOfDigits 0 ds) ≠ 0 := by
      intro hzero
      have hn := congrArg UInt8.toNat hzero
      rw [UInt8.toNat_ofNat'] at hn
      change natOfDigits 0 ds % 256 = 0 at hn
      omega
    have hpred : (UInt8.ofNat (natOfDigits 0 ds) - 1).toNat = natOfDigits 0 ds - 1 := by
      rw [toNat_pred_ofNat (by omega), hmod]
    rw [if_pos hb]
    cases t.width.bw with
    | none => rfl
    | some bw =>
      dsimp only
      rw [decide_eq_true hb, if_neg (by simp), if_neg hnz]
      unfold rtwTxpwrLmtAdd
      have hidx : natOfDigits 0 ds - 1 < centerCh2gNum := by omega
      rw [dif_neg n.isName.1, dif_pos (by rw [hpred]; exact hidx), dif_pos hidx]
      unfold row lmtOfByte
      simp only [hpred]
  · rw [if_neg hb]
    cases t.width.bw with
    | none => rfl
    | some bw =>
      dsimp only
      rw [decide_eq_false hb]
      rfl

/-- behind a value there is no digit and no point -/
theorem rest_head {tail : List UInt8} (htail : ∀ c ∈ tail.head?, isBlank c = true)
    (vals : List (List UInt8 × LimitText)) (hv : ∀ v ∈ vals, v.1 ≠ [] ∧ ∀ c ∈ v.1, isBlank c = true) :
    ∃ e q, vals.flatMap (fun v => v.1 ++ v.2.text) ++ (tail ++ [0]) = e :: q ∧ isDigit e = false ∧ e ≠ 46 := by
  obtain ⟨e, q, hrest, he⟩ := words_head Prod.fst (fun v => v.2.text) htail hv
  exact ⟨e, q, hrest, eq_false_of_isEnd he rfl rfl rfl, ne_of_isEnd he rfl⟩

theorem no_digits : ∀ c ∈ ([] : List UInt8), isDigit c = true := nofun

/-- a column takes a number -/
theorem loadColumns_cons (hl : t.Labelled st) (hds : ∀ c ∈ ds, isDigit c = true) (hlen : ds.length < 10)
    (hch : t.band = .b24 → 1 ≤ natOfDigits 0 ds ∧ natOfDigits 0 ds ≤ centerCh2gNum) (n : ColumnName)
    (names : List (List UInt8)) {p q : List UInt8} {x : Int} (hread : readLimit p = .ok (decBuf (toS8 x), q)) :
    st.loadColumns (padded ds) (n.name :: names) p =
      LmtFile.loadColumns { st with rows := st.rows ++ (t.stored (natOfDigits 0 ds) n (lmtOfByte x)).toList }
        (padded ds) names q := by
  rw [LmtFile.loadColumns, hread]
  show Next.ofScan (phySetTxPowerLimit n.name _ _ _ _ _ (decBuf _)) st _ = _
  rw [phySet_stored hl hds hlen hch n x]
  rfl

/-- **The columns of a row**: each takes the next number. -/
theorem loadColumns_values (hl : t.Labelled st) (hds : ∀ c ∈ ds, isDigit c = true) (hlen : ds.length < 10)
    (hch : t.band = .b24 → 1 ≤ natOfDigits 0 ds ∧ natOfDigits 0 ds ≤ centerCh2gNum) {tail : List UInt8}
    (htail : ∀ c ∈ tail.head?, isBlank c = true) (ns : List ColumnName) {pend : List UInt8}
    (hpend : ∀ c ∈ pend, isDigit c = true) {vals : List (List UInt8 × LimitText)}
    (hv : ∀ v ∈ vals, v.1 ≠ [] ∧ ∀ c ∈ v.1, isBlank c = true)
    (hn : ns.length ≤ (leftPieces pend ++ vals.flatMap fun v => v.2.pieces).length) :
    st.loadColumns (padded ds) (ns.map ColumnName.name)
        (pend ++ (vals.flatMap (fun v => v.1 ++ v.2.text) ++ (tail ++ [0]))) =
      .next
        { st with
          rows := st.rows ++ t.rowLimits (natOfDigits 0 ds) ns
            ((leftPieces pend ++ vals.flatMap fun v => v.2.pieces).map lmtOfByte) } := by
  induction ns generalizing st pend vals with
  | nil => simp [rowLimits_nil, LmtFile.loadColumns]
  | cons n ns ih =>
    have hl' : ∀ row : Option LmtRow, t.Labelled { st with rows := st.rows ++ row.toList } :=
      fun row => ⟨hl.band, hl.bandwidth, hl.ntx, hl.rateSection⟩
    obtain ⟨e, q, hrest, he, hpoint⟩ := rest_head htail vals hv
    rw [List.map_cons]
    by_cases hp : pend = []
    · subst hp
      cases vals with
      | nil => simp [leftPieces] at hn
      | cons v vals =>
        obtain ⟨hsep, hvals⟩ := List.forall_mem_cons.mp hv
        obtain ⟨e, q, hrest, he, hpoint⟩ := rest_head htail vals hvals
        have hread := readLimit_text v.2 hsep.2 he hpoint q
        rw [← hrest] at hread
        have htext : [] ++ ((v :: vals).flatMap (fun v => v.1 ++ v.2.text) ++ (tail ++ [0]))
            = v.1 ++ (v.2.text ++ (vals.flatMap (fun v => v.1 ++ v.2.text) ++ (tail ++ [0]))) := by simp
        rw [htext, loadColumns_cons hl hds hlen hch n _ hread]
        have hpieces : leftPieces [] ++ (v :: vals).flatMap (fun v => v.2.pieces)
            = v.2.index :: (leftPieces v.2.left ++ vals.flatMap fun v => v.2.pieces) := rfl
        rw [hpieces] at hn ⊢
        refine (ih (hl' _) v.2.left_digits hvals (Nat.le_of_succ_le_succ hn)).trans ?_
        rw [List.map_cons, rowLimits_cons, List.append_assoc]
    · have hread := readLimit_text (.dbm none (Decimal.ofWhole hp hpend)) no_blanks he hpoint q
      rw [← hrest] at hread
      have htext : pend ++ (vals.flatMap (fun v => v.1 ++ v.2.text) ++ (tail ++ [0]))
          = [] ++ ((LimitText.dbm none (Decimal.ofWhole hp hpend)).text
            ++ (vals.flatMap (fun v => v.1 ++ v.2.text) ++ (tail ++ [0]))) := by
        simp [LimitText.text, signText, Decimal.text, Decimal.ofWhole]
      have hpieces : leftPieces pend ++ vals.flatMap (fun v => v.2.pieces)
          = (LimitText.dbm none (Decimal.ofWhole hp hpend)).index
            :: (leftPieces [] ++ vals.flatMap fun v => v.2.pieces) := by
        have hindex : (LimitText.dbm none (Decimal.ofWhole hp hpend)).index = (natOfDigits 0 pend * 2 : Nat) :=
          congrArg Nat.cast (Decimal.index_ofWhole hp hpend)
        rw [hindex, leftPieces, if_neg hp]
        rfl
      rw [htext, loadColumns_cons hl hds hlen hch n _ hread]
      rw [hpieces] at hn ⊢
      refine (ih (hl' _) no_digits hv (Nat.le_of_succ_le_succ hn)).trans ?_
      rw [List.map_cons, rowLimits_cons, List.append_assoc]

end LimitTable

/-! ## the lines of a table -/

theorem HashLine.skip_text (l : HashLine) {c : UInt8} (hc : isBlank c = false) (w : List UInt8) :
    skip isBlank ((l.text (c :: w) ++ [0]).drop 2) = .ok (c :: w ++ (l.tail ++ [0])) := by
  have htext : (l.text (c :: w) ++ [0]).drop 2 = l.blanks ++ c :: (w ++ (l.tail ++ [0])) := by
    simp [HashLine.text]
  rw [htext]
  exact skip_append l.isBlanks hc _

/-- neither a comma nor the terminator -/
def isInWord (c : UInt8) : Bool := c != 44 && c != 0

theorem parse_word {w : List UInt8} (hw : w.all isInWord = true) (hlen : w.length ≤ 10) (q : List UInt8) :
    parseQualifiedString (32 :: (w ++ 44 :: q)) cleared 32 44 = .ok (padded w, q) := by
  have hsrc : ∀ c ∈ w, c ≠ 44 ∧ c ≠ 0 := by
    intro c hc
    have h := List.all_eq_true.mp hw c hc
    simpa [isInWord] using h
  rw [parseQualified_eq (by decide) ⟨rfl, hsrc⟩, strncpy_cleared hlen]
  rfl

theorem LabelBand.word (b : LabelBand) : b.text.all isInWord = true ∧ b.text.length ≤ 10 := by
  cases b <;> decide

theorem LabelWidth.word (w : LabelWidth) : w.text.all isInWord = true ∧ w.text.length ≤ 10 := by
  cases w <;> decide

theorem ntx_word : ∀ ntx : Fin maxTxCount, (ntxText ntx).all isInWord = true ∧ (ntxText ntx).length ≤ 10 := by
  decide

theorem rs_word (rs : LmtRs) : (rsText rs).all isInWord = true ∧ (rsText rs).length ≤ 10 := by
  cases rs <;> decide

theorem LabelBand.head (b : LabelBand) : ∃ c w, b.text = c :: w ∧ isBlank c = false := by
  cases b with
  | b24 => exact ⟨_, _, rfl, rfl⟩
  | b5 => exact ⟨_, _, rfl, rfl⟩

namespace LimitTable

variable (t : LimitTable) {st : LmtFile} {p : List UInt8}

theorem parseLabel_text : parseLabel (t.label.text t.labelText ++ [0]) =
    .ok (padded t.band.text, padded t.width.text, padded (ntxText t.ntx), padded (rsText t.rs)) := by
  obtain ⟨c, w, hw, hc⟩ := t.band.head
  have hcons : t.labelText = c :: (w ++ 44 :: 32 :: (t.width.text
      ++ 44 :: 32 :: (ntxText t.ntx ++ 44 :: 32 :: (rsText t.rs ++ [44])))) := by
    unfold labelText
    rw [hw]
    rfl
  have hskip := t.label.skip_text hc (w ++ 44 :: 32 :: (t.width.text
    ++ 44 :: 32 :: (ntxText t.ntx ++ 44 :: 32 :: (rsText t.rs ++ [44]))))
  rw [← hcons] at hskip
  have htext : t.labelText ++ (t.label.tail ++ [0]) = t.band.text ++ 44 :: (32 :: (t.width.text
      ++ 44 :: (32 :: (ntxText t.ntx ++ 44 :: (32 :: (rsText t.rs ++ 44 :: (t.label.tail ++ [0]))))))) := by
    simp [labelText]
  unfold parseLabel
  rw [hskip, bind_ok, htext, parse_word t.band.word.1 t.band.word.2, bind_ok]
  dsimp only
  rw [parse_word t.width.word.1 t.width.word.2, bind_ok]
  dsimp only
  rw [parse_word (ntx_word t.ntx).1 (ntx_word t.ntx).2, bind_ok]
  dsimp only
  rw [parse_word (rs_word t.rs).1 (rs_word t.rs).2, bind_ok]

/-- the state behind the label -/
def labelled (st : LmtFile) : LmtFile :=
  { st with
    loadingStage := .tabStart, band := padded t.band.text, bandwidth := padded t.width.text,
    ntx := padded (ntxText t.ntx), rateSection := padded (rsText t.rs) }

theorem loadLine_label (h : st.loadingStage = .excMapping ∨ st.loadingStage = .tabDefine) :
    st.loadLine (t.label.text t.labelText) = .next (t.labelled st) := by
  have hskipped : skipped (t.label.text t.labelText) = false := rfl
  have hload : ∀ st : LmtFile, st.loadTabDefine (t.label.text t.labelText ++ [0]) = .next (t.labelled st) := by
    intro st
    have hhash : startsWith ['#', '#'] (t.label.text t.labelText ++ [0]) = true := rfl
    unfold LmtFile.loadTabDefine
    rw [hhash, parseLabel_text]
    rfl
  unfold LmtFile.loadLine
  rw [hskipped, if_neg Bool.false_ne_true]
  rcases h with h | h
  · rw [h]
    exact hload { st with loadingStage := .tabDefine }
  · rw [h]
    exact hload st

theorem loadLine_start (h : st.loadingStage = .tabStart) :
    st.loadLine (t.start.text (ascii ['S', 'T', 'A', 'R', 'T']))
      = .next { st with loadingStage := .columnDefine } := by
  have hskipped : skipped (t.start.text (ascii ['S', 'T', 'A', 'R', 'T'])) = false := rfl
  have hhash : startsWith ['#', '#'] (t.start.text (ascii ['S', 'T', 'A', 'R', 'T']) ++ [0]) = true := rfl
  have hskip := t.start.skip_text (c := 83) rfl (ascii ['T', 'A', 'R', 'T'])
  unfold LmtFile.loadLine
  rw [hskipped, if_neg Bool.false_ne_true, h]
  dsimp only
  unfold LmtFile.loadTabStart
  rw [hhash]
  simp only [Bool.not_true, Bool.false_eq_true, if_false]
  rw [show ascii ['S', 'T', 'A', 'R', 'T'] = 83 :: ascii ['T', 'A', 'R', 'T'] from rfl, hskip]
  rfl

theorem loadLine_chRow {line : List UInt8} (hs : skipped line = false) (h : st.loadingStage = .chRow) :
    st.loadLine line = st.loadChRow (line ++ [0]) := by
  unfold LmtFile.loadLine
  rw [hs, if_neg Bool.false_ne_true, h]

theorem loadLine_finish (h : st.loadingStage = .chRow) :
    st.loadLine (t.finish.text (ascii ['E', 'N', 'D']))
      = .next { st with loadingStage := .tabDefine, regulation := [] } := by
  have hskipped : skipped (t.finish.text (ascii ['E', 'N', 'D'])) = false := rfl
  have hhash : startsWith ['#', '#'] (t.finish.text (ascii ['E', 'N', 'D']) ++ [0]) = true := rfl
  have hskip := t.finish.skip_text (c := 69) rfl (ascii ['N', 'D'])
  rw [loadLine_chRow hskipped h]
  unfold LmtFile.loadChRow
  rw [if_pos hhash, show ascii ['E', 'N', 'D'] = 69 :: ascii ['N', 'D'] from rfl, hskip]
  rfl

/-! ## the line of the columns -/

/-- so many names are read -/
theorem columnNames_text {tail : List UInt8} (htail : ∀ c ∈ tail.head?, isBlank c = true) (k : Nat)
    {ns : List ColumnName} (hk : k ≤ ns.length) :
    columnNames k (ns.flatMap (fun n => n.blanks ++ n.name) ++ (tail ++ [0]))
      = .ok ((ns.take k).map ColumnName.name) := by
  induction k generalizing ns with
  | zero => rfl
  | succ k ih =>
    cases ns with
    | nil => cases hk
    | cons n ns =>
      obtain ⟨c, w, hw⟩ := List.exists_cons_of_ne_nil n.isName.1
      obtain ⟨e, q, hrest, hend⟩ := words_head ColumnName.blanks ColumnName.name htail
        fun n (_ : n ∈ ns) => n.separate
      have he : (!isBlank e && e != 0) = false :=
        eq_false_of_isEnd (f := fun c => !isBlank c && c != 0) hend rfl rfl rfl
      have hc : isBlank c = false := (n.isName.2 c (hw ▸ List.mem_cons_self)).1
      have htext : (n :: ns).flatMap (fun n => n.blanks ++ n.name) ++ (tail ++ [0])
          = n.blanks ++ c :: (w ++ e :: q) := by
        rw [← hrest, List.flatMap_cons, hw]
        simp
      have hspan : span (fun c => !isBlank c && c != 0) (c :: (w ++ e :: q)) = .ok (n.name, e :: q) := by
        rw [hw]
        refine span_append (l := c :: w) (fun d hd => ?_) he q
        obtain ⟨hb, h0⟩ := n.isName.2 d (hw ▸ hd)
        simp [hb, h0]
      unfold columnNames
      rw [htext, skip_append n.separate.2 hc, bind_ok, hspan, bind_ok]
      dsimp only
      rw [← hrest, ih (Nat.le_of_succ_le_succ hk), bind_ok]
      rfl

/-- the number of columns, as it is kept -/
def colNum : Nat := t.columns.length % 256

theorem count_qualified (q : List UInt8) : Qualified (35 :: (t.count ++ 35 :: q)) t.count q 35 35 := by
  refine ⟨rfl, fun c hc => ?_⟩
  have hd := t.isCount c hc
  refine ⟨?_, ne_zero_of_isDigit hd⟩
  rintro rfl
  cases hd

theorem parseColumns_text : parseColumns (t.columnLine.text t.columnText ++ [0]) =
    if t.count.length < 10 then
      if t.colNum = 0 then .error .refused else .ok ((t.columns.take t.colNum).map ColumnName.name)
    else .error .outside := by
  have hskip := t.columnLine.skip_text (c := 35) rfl
    (t.count ++ 35 :: t.columns.flatMap fun n => n.blanks ++ n.name)
  have htext : (35 :: (t.count ++ 35 :: t.columns.flatMap fun n => n.blanks ++ n.name))
        ++ (t.columnLine.tail ++ [0])
      = 35 :: (t.count ++ 35 :: (t.columns.flatMap (fun n => n.blanks ++ n.name)
        ++ (t.columnLine.tail ++ [0]))) := by
    simp
  unfold parseColumns columnText
  rw [hskip, bind_ok, htext, parseQualified_eq (by decide) (t.count_qualified _)]
  split
  next hlen =>
    have hu8 : (UInt8.ofNat (natOfDigits 0 t.count)).toNat = t.colNum := by
      rw [UInt8.toNat_ofNat', t.count_eq]
      rfl
    rw [strncpy_cleared (Nat.le_of_lt hlen)]
    show (getU1ByteIntegerFromStringInDecimal 0 (padded t.count) >>= _) = _
    rw [getU1_padded t.isCount hlen, bind_ok]
    have hzero : UInt8.ofNat (natOfDigits 0 t.count) = 0 ↔ t.colNum = 0 := by
      rw [← hu8, ← UInt8.toNat_inj]
      rfl
    by_cases h0 : t.colNum = 0
    · rw [if_pos (hzero.mpr h0), if_pos h0]
    · rw [if_neg (fun h => h0 (hzero.mp h)), if_neg h0, hu8]
      exact columnNames_text t.isTail _ (Nat.mod_le _ _)
  next hlen =>
    rcases Nat.eq_or_lt_of_le (Nat.le_of_not_lt hlen) with h10 | hlt
    · rw [strncpy_cleared (Nat.le_of_eq h10.symm)]
      show (getU1ByteIntegerFromStringInDecimal 0 (padded t.count) >>= _) = _
      rw [getU1_outside_iff.mpr ((padded_digits_iff (Nat.le_of_eq h10.symm)).mpr ⟨h10.symm, t.isCount⟩)]
      rfl
    · rw [strncpy_outside_iff.mpr (show cleared.length < t.count.length from hlt)]
      rfl

theorem loadLine_columns (h : st.loadingStage = .columnDefine) :
    st.loadLine (t.columnLine.text t.columnText) =
      if t.count.length < 10 then
        if t.colNum = 0 then .stop false st
        else
          .next { st with loadingStage := .chRow, regulation := (t.columns.take t.colNum).map ColumnName.name }
      else .outside := by
  have hskipped : skipped (t.columnLine.text t.columnText) = false := rfl
  have hhash : startsWith ['#', '#'] (t.columnLine.text t.columnText ++ [0]) = true := rfl
  unfold LmtFile.loadLine
  rw [hskipped, if_neg Bool.false_ne_true, h]
  dsimp only
  unfold LmtFile.loadColumnDefine
  rw [hhash, parseColumns_text]
  simp only [Bool.not_true, Bool.false_eq_true, if_false]
  split
  · split
    · rfl
    · rfl
  · rfl

/-! ## the rows of the channels -/

/-- what a row stores -/
def rowLoads (r : ChRow) : List LmtRow :=
  t.rowLimits r.chan (t.columns.take t.colNum) ((r.values.flatMap fun v => v.2.pieces).map lmtOfByte)

variable {t}

theorem length_pieces (vals : List (List UInt8 × LimitText)) :
    vals.length ≤ (vals.flatMap fun v => v.2.pieces).length := by
  induction vals with
  | nil => exact Nat.le_refl _
  | cons v vals ih =>
    rw [List.flatMap_cons, List.length_append, List.length_cons]
    have hone : 1 ≤ v.2.pieces.length := Nat.succ_le_succ (Nat.zero_le _)
    omega

/-- the state behind the line of the columns -/
structure InRows (t : LimitTable) (st : LmtFile) : Prop where
  stage : st.loadingStage = .chRow
  labelled : t.Labelled st
  regulation : st.regulation = (t.columns.take t.colNum).map ColumnName.name

/-- a channel that fills its array is not terminated, and is read all the same -/
theorem loadColumns_outside {channel p : List UInt8} {n : List UInt8} {ns : List (List UInt8)}
    (hc : ∀ c ∈ channel, isDigit c = true) {v : Int} {q : List UInt8} (hr : readLimit p = .ok (decBuf v, q)) :
    st.loadColumns channel (n :: ns) p = .outside := by
  rw [LmtFile.loadColumns, hr]
  show Next.ofScan (phySetTxPowerLimit n _ _ _ _ channel (decBuf v)) st _ = _
  unfold phySetTxPowerLimit
  rw [getU1_outside_iff.mpr hc]
  rfl

/-- ten digits fill the array of the channel: the first column leads out of it -/
theorem loadColumns_tenDigits (h : InRows t st) (h0 : t.colNum ≠ 0) {r : ChRow} (hr : r ∈ t.rows)
    (h10 : r.channel.length = 10) :
    st.loadColumns (padded r.channel) st.regulation
      (r.values.flatMap (fun v => v.1 ++ v.2.text) ++ (r.tail ++ [0])) = .outside := by
  have hfull := t.full r hr
  obtain ⟨n, ns, hcols⟩ := List.exists_cons_of_ne_nil t.some_column
  obtain ⟨k, hk⟩ := Nat.exists_eq_succ_of_ne_zero h0
  have hreg : st.regulation = n.name :: (ns.take k).map ColumnName.name := by
    rw [h.regulation, hcols, hk]
    rfl
  have hvals : r.values ≠ [] := by
    intro hnil
    rw [hnil, hcols] at hfull
    cases hfull
  obtain ⟨v, vals, hv⟩ := List.exists_cons_of_ne_nil hvals
  have hsep := r.separate
  rw [hv] at hsep ⊢
  obtain ⟨hsep, hvals⟩ := List.forall_mem_cons.mp hsep
  obtain ⟨e, q, hrest, he, hpoint⟩ := rest_head r.isTail vals hvals
  have hread := readLimit_text v.2 hsep.2 he hpoint q
  have htext : (v :: vals).flatMap (fun v => v.1 ++ v.2.text) ++ (r.tail ++ [0])
      = v.1 ++ (v.2.text ++ e :: q) := by
    rw [← hrest]
    simp
  rw [htext, hreg]
  exact loadColumns_outside ((padded_digits_iff (Nat.le_of_eq h10)).mpr ⟨h10, r.isChannel⟩) hread

theorem loadColumns_row (h : InRows t st) {r : ChRow} (hr : r ∈ t.rows) (hlen : r.channel.length < 10) :
    st.loadColumns (padded r.channel) st.regulation
      (r.values.flatMap (fun v => v.1 ++ v.2.text) ++ (r.tail ++ [0]))
      = .next { st with rows := st.rows ++ t.rowLoads r } := by
  have hfull := t.full r hr
  have hn : (t.columns.take t.colNum).length ≤
      (leftPieces [] ++ r.values.flatMap fun v => v.2.pieces).length := by
    have hp := length_pieces r.values
    rw [List.length_take]
    show _ ≤ (r.values.flatMap fun v => v.2.pieces).length
    omega
  have hload := loadColumns_values h.labelled r.isChannel hlen (fun hb => t.inBand hb r hr) r.isTail _ no_digits
    r.separate hn
  rw [← h.regulation] at hload
  exact hload

theorem loadLine_row (h : InRows t st) (h0 : t.colNum ≠ 0) {r : ChRow} (hr : r ∈ t.rows) :
    st.loadLine r.text =
      if r.channel.length < 10 then .next { st with rows := st.rows ++ t.rowLoads r } else .outside := by
  have hrow : LmtFile.isChannelRow (r.text ++ [0]) = true := r.isCh
  obtain ⟨e, q, hrest, he, -⟩ := rest_head r.isTail r.values r.separate
  have htext : (r.text ++ [0]).drop 2 = r.channel ++ e :: q := by
    rw [← hrest]
    simp [ChRow.text]
  rw [loadLine_chRow r.not_skipped h.stage]
  unfold LmtFile.loadChRow channelDigits
  rw [r.not_hash, hrow, if_neg Bool.false_ne_true, htext, span_append r.isChannel he, bind_ok]
  simp only [Bool.not_true, Bool.false_eq_true, if_false]
  rw [← hrest]
  split
  next hlen =>
    rw [strncpy_cleared (Nat.le_of_lt hlen)]
    exact loadColumns_row h hr hlen
  next hlen =>
    rcases Nat.eq_or_lt_of_le (Nat.le_of_not_lt hlen) with h10 | hlt
    · rw [strncpy_cleared (Nat.le_of_eq h10.symm)]
      exact loadColumns_tenDigits h h0 hr h10.symm
    · rw [strncpy_outside_iff.mpr (show cleared.length < r.channel.length from hlt)]
      rfl

/-- the rows one after the other -/
theorem run_rows (h0 : t.colNum ≠ 0) (rows : List ChRow) (hrows : ∀ r ∈ rows, r ∈ t.rows) (h : InRows t st) :
    run (feed LmtFile.loadLine) (.next st) (rows.map ChRow.text) =
      if ∀ r ∈ rows, r.channel.length < 10 then .next { st with rows := st.rows ++ rows.flatMap t.rowLoads }
      else .outside := by
  induction rows generalizing st with
  | nil => simp [run]
  | cons r rows ih =>
    obtain ⟨hr, hrest⟩ := List.forall_mem_cons.mp hrows
    show run (feed LmtFile.loadLine) (st.loadLine r.text) (rows.map ChRow.text) = _
    rw [loadLine_row h h0 hr]
    by_cases hlen : r.channel.length < 10
    · have hnext : InRows t { st with rows := st.rows ++ t.rowLoads r } := by
        refine ⟨h.stage, ⟨h.labelled.band, h.labelled.bandwidth, h.labelled.ntx, h.labelled.rateSection⟩,
          h.regulation⟩
      rw [if_pos hlen, ih hrest hnext]
      simp only [List.forall_mem_cons, hlen, true_and, List.flatMap_cons, List.append_assoc]
    · rw [if_neg hlen, run_outside, if_neg fun hall => hlen (hall r List.mem_cons_self)]

end LimitTable

/-! ## a table is loaded -/

namespace LimitTable

variable (t : LimitTable) {st : LmtFile}

/-- the numbers fit into their arrays, and the number of columns is not taken for zero -/
structure Fits : Prop where
  count : t.count.length < 10
  columns : t.colNum ≠ 0
  channels : ∀ r ∈ t.rows, r.channel.length < 10

/-- the state behind `START` -/
def started (st : LmtFile) : LmtFile := { t.labelled st with loadingStage := .columnDefine }

/-- the state behind the line of the columns -/
def columned (st : LmtFile) : LmtFile :=
  { t.started st with loadingStage := .chRow, regulation := (t.columns.take t.colNum).map ColumnName.name }

theorem inRows_columned (st : LmtFile) : InRows t (t.columned st) := ⟨rfl, ⟨rfl, rfl, rfl, rfl⟩, rfl⟩

/-- the state behind the table -/
def finished (st : LmtFile) : LmtFile :=
  { t.labelled st with
    loadingStage := .tabDefine, regulation := [], rows := st.rows ++ t.rows.flatMap t.rowLoads }

theorem run_lines (h : st.loadingStage = .excMapping ∨ st.loadingStage = .tabDefine) :
    run (feed LmtFile.loadLine) (.next st) t.lines =
      run (feed LmtFile.loadLine) ((t.started st).loadLine (t.columnLine.text t.columnText))
        (t.rows.map ChRow.text ++ [t.finish.text (ascii ['E', 'N', 'D'])]) := by
  have hlabel := t.loadLine_label h
  have hstart := t.loadLine_start (show (t.labelled st).loadingStage = .tabStart from rfl)
  show run (feed LmtFile.loadLine) (feed LmtFile.loadLine (st.loadLine (t.label.text t.labelText)) _) _ = _
  rw [hlabel]
  show run (feed LmtFile.loadLine) (feed LmtFile.loadLine ((t.labelled st).loadLine _) _) _ = _
  rw [hstart]
  rfl

theorem run_table (h : st.loadingStage = .excMapping ∨ st.loadingStage = .tabDefine) (hf : t.Fits) :
    run (feed LmtFile.loadLine) (.next st) t.lines = .next (t.finished st) := by
  have hcolumns := t.loadLine_columns (show (t.started st).loadingStage = .columnDefine from rfl)
  rw [if_pos hf.count, if_neg hf.columns] at hcolumns
  have hrows := run_rows hf.columns t.rows (fun r hr => hr) (t.inRows_columned st)
  rw [if_pos hf.channels] at hrows
  rw [t.run_lines h, hcolumns, run_append]
  show run (feed LmtFile.loadLine) (run (feed LmtFile.loadLine) (.next (t.columned st)) _) _ = _
  rw [hrows]
  have hstage : LmtFile.loadingStage { t.columned st with rows := st.rows ++ t.rows.flatMap t.rowLoads }
      = .chRow := rfl
  exact t.loadLine_finish hstage

/-- a table that does not fit ends the loop -/
theorem run_misfit (h : st.loadingStage = .excMapping ∨ st.loadingStage = .tabDefine) (hf : ¬t.Fits) :
    run (feed LmtFile.loadLine) (.next st) t.lines = .outside
      ∨ ∃ st', run (feed LmtFile.loadLine) (.next st) t.lines = .stop false st' := by
  have hcolumns := t.loadLine_columns (show (t.started st).loadingStage = .columnDefine from rfl)
  rw [t.run_lines h, hcolumns]
  by_cases hcount : t.count.length < 10
  · rw [if_pos hcount]
    by_cases h0 : t.colNum = 0
    · rw [if_pos h0, run_stop]
      exact Or.inr ⟨_, rfl⟩
    · have hrows := run_rows h0 t.rows (fun r hr => hr) (t.inRows_columned st)
      rw [if_neg fun hall => hf ⟨hcount, h0, hall⟩] at hrows
      rw [if_neg h0, run_append]
      show run (feed LmtFile.loadLine) (run (feed LmtFile.loadLine) (.next (t.columned st)) _) _ = _ ∨ _
      rw [hrows]
      exact Or.inl (run_outside _)
  · rw [if_neg hcount]
    exact Or.inl (run_outside _)

end LimitTable

/-- what is stored of the tables -/
def fileLoads (tables : List LimitTable) : List LmtRow := tables.flatMap fun t => t.rows.flatMap t.rowLoads

section
variable {tables : List LimitTable} {st : LmtFile} {content : List UInt8}

theorem run_tables (h : st.loadingStage = .excMapping ∨ st.loadingStage = .tabDefine)
    (hf : ∀ t ∈ tables, t.Fits) :
    ∃ st', run (feed LmtFile.loadLine) (.next st) (tables.flatMap LimitTable.lines) = .next st'
      ∧ st'.rows = st.rows ++ fileLoads tables := by
  induction tables generalizing st with
  | nil => exact ⟨st, rfl, (List.append_nil _).symm⟩
  | cons t tables ih =>
    obtain ⟨ht, htables⟩ := List.forall_mem_cons.mp hf
    have hstage : (t.finished st).loadingStage = .tabDefine := rfl
    obtain ⟨st', hrun, hrows⟩ := ih (Or.inr hstage) htables
    refine ⟨st', ?_, ?_⟩
    · rw [List.flatMap_cons, run_append, t.run_table h ht]
      exact hrun
    · rw [hrows]
      simp [LimitTable.finished, fileLoads]

theorem run_tables_misfit (h : st.loadingStage = .excMapping ∨ st.loadingStage = .tabDefine)
    (hf : ¬∀ t ∈ tables, t.Fits) :
    run (feed LmtFile.loadLine) (.next st) (tables.flatMap LimitTable.lines) = .outside
      ∨ ∃ st', run (feed LmtFile.loadLine) (.next st) (tables.flatMap LimitTable.lines) = .stop false st' := by
  induction tables generalizing st with
  | nil => exact absurd nofun hf
  | cons t tables ih =>
    rw [List.flatMap_cons, run_append]
    by_cases ht : t.Fits
    · rw [t.run_table h ht]
      exact ih (Or.inr rfl) fun hall => hf (List.forall_mem_cons.mpr ⟨ht, hall⟩)
    · rcases t.run_misfit h ht with hout | ⟨st', hstop⟩
      · rw [hout]
        exact Or.inl (run_outside _)
      · rw [hstop]
        exact Or.inr ⟨st', run_stop _ _ _⟩

/-- **A file of tables is read to its end** if and only if they fit. -/
theorem parse_written_iff (h : Written tables content) {rows : List LmtRow} :
    (∃ st, phyParsePowerLimitTableFile content = .stop true st ∧ st.rows = rows)
      ↔ (∀ t ∈ tables, t.Fits) ∧ fileLoads tables = rows := by
  have hskip : ∀ (st : LmtFile) line, (!skipped line) = false → st.loadLine line = .next st := by
    intro st line hs
    unfold LmtFile.loadLine
    exact if_pos (by simpa using hs)
  unfold phyParsePowerLimitTableFile
  rw [run_filter hskip, h]
  have hstage : ({} : LmtFile).loadingStage = .excMapping := rfl
  by_cases hf : ∀ t ∈ tables, t.Fits
  · obtain ⟨st, hrun, hrows⟩ := run_tables (Or.inl hstage) hf
    rw [hrun]
    change st.rows = fileLoads tables at hrows
    constructor
    · rintro ⟨st', hst, rfl⟩
      cases hst
      exact ⟨hf, hrows.symm⟩
    · rintro ⟨-, rfl⟩
      exact ⟨st, rfl, hrows⟩
  · refine iff_of_false ?_ fun hall => hf hall.1
    rintro ⟨st, hst, -⟩
    rcases run_tables_misfit (Or.inl hstage) hf with hout | ⟨st', hstop⟩
    · rw [hout] at hst
      cases hst
    · rw [hstop] at hst
      cases hst

end

/-! ## the limits that are kept -/

section
variable {α β : Type*} {f g : α → List β} {l : List α}

theorem length_flatMap_le (h : ∀ a ∈ l, (f a).length ≤ (g a).length) :
    (l.flatMap f).length ≤ (l.flatMap g).length := by
  induction l with
  | nil => exact Nat.le_refl _
  | cons a l ih =>
    obtain ⟨ha, hl⟩ := List.forall_mem_cons.mp h
    rw [List.flatMap_cons, List.flatMap_cons, List.length_append, List.length_append]
    exact Nat.add_le_add ha (ih hl)

/-- parts that are not longer than the others -/
theorem flatMap_eq_iff (h : ∀ a ∈ l, (f a).length ≤ (g a).length) :
    l.flatMap f = l.flatMap g ↔ ∀ a ∈ l, f a = g a := by
  induction l with
  | nil => exact iff_of_true rfl nofun
  | cons a l ih =>
    obtain ⟨ha, hl⟩ := List.forall_mem_cons.mp h
    have hsum := length_flatMap_le hl
    rw [List.flatMap_cons, List.flatMap_cons, List.forall_mem_cons, ← ih hl]
    constructor
    · intro heq
      have hlen := congrArg List.length heq
      rw [List.length_append, List.length_append] at hlen
      exact List.append_inj heq (by omega)
    · rintro ⟨heq, hrest⟩
      rw [heq, hrest]

end

namespace LimitTable

variable (t : LimitTable)

/-- **The tables that are loaded as they are written.** -/
structure Kept : Prop where
  fits : t.Fits
  limits : t.bw = none ∨ ∀ r ∈ t.rows, t.columns.length < 256 ∧ r.values.map (fun v => v.2.limit)
    = ((r.values.flatMap fun v => v.2.pieces).take t.columns.length).map lmtOfByte

variable {t}

theorem zipWith_row_lmt (bw : ChannelWidth) (ch : Fin centerCh2gNum) (names : List ColumnName)
    (lmts : List LmtVal) :
    (List.zipWith (t.row bw ch) names lmts).map LmtRow.lmt = lmts.take names.length := by
  induction names generalizing lmts with
  | nil => rfl
  | cons n names ih =>
    cases lmts with
    | nil => rfl
    | cons l lmts => exact congrArg (l :: ·) (ih lmts)

theorem zipWith_row_take (bw : ChannelWidth) (ch : Fin centerCh2gNum) (names : List ColumnName)
    (lmts : List LmtVal) :
    List.zipWith (t.row bw ch) names (lmts.take names.length) = List.zipWith (t.row bw ch) names lmts := by
  induction names generalizing lmts with
  | nil => rfl
  | cons n names ih =>
    cases lmts with
    | nil => rfl
    | cons l lmts => exact congrArg (t.row bw ch n l :: ·) (ih lmts)

theorem bw_band {bw : ChannelWidth} (h : t.bw = some bw) : t.band = .b24 := by
  unfold LimitTable.bw at h
  split at h
  next hb => exact hb
  next => cases h

theorem row_kept_iff {r : ChRow} (hr : r ∈ t.rows) :
    (t.rowLoads r).length ≤ (t.rowLimits r.chan t.columns (r.values.map fun v => v.2.limit)).length
      ∧ (t.rowLoads r = t.rowLimits r.chan t.columns (r.values.map fun v => v.2.limit)
        ↔ t.bw = none ∨ t.columns.length < 256 ∧ r.values.map (fun v => v.2.limit)
          = ((r.values.flatMap fun v => v.2.pieces).take t.columns.length).map lmtOfByte) := by
  have hfull := t.full r hr
  have hpieces := length_pieces r.values
  have hmod : t.colNum ≤ t.columns.length := Nat.mod_le _ _
  unfold rowLoads rowLimits
  cases hbw : t.bw with
  | none => exact ⟨Nat.le_refl _, iff_of_true rfl (Or.inl rfl)⟩
  | some bw =>
    have hch : r.chan - 1 < centerCh2gNum := by
      have hband := t.inBand (bw_band hbw) r hr
      omega
    dsimp only
    rw [dif_pos hch, dif_pos hch]
    generalize (⟨r.chan - 1, hch⟩ : Fin centerCh2gNum) = ch
    constructor
    · simp only [List.length_zipWith, List.length_take, List.length_map]
      omega
    have hspec : (r.values.map fun v => v.2.limit).take t.columns.length = r.values.map fun v => v.2.limit :=
      List.take_of_length_le (by rw [List.length_map]; omega)
    constructor
    · intro heq
      have hlen := congrArg List.length heq
      simp only [List.length_zipWith, List.length_take, List.length_map] at hlen
      have hcol : t.colNum = t.columns.length := by omega
      have hlt : t.columns.length < 256 := by
        have hmod : t.columns.length % 256 < 256 := Nat.mod_lt _ (by decide)
        unfold colNum at hcol
        omega
      refine Or.inr ⟨hlt, ?_⟩
      have hlmt := congrArg (List.map LmtRow.lmt) heq
      rw [zipWith_row_lmt, zipWith_row_lmt, hspec, hcol, List.take_length] at hlmt
      rw [← hlmt, List.map_take]
    · rintro (hnone | ⟨hlt, heq⟩)
      · cases hnone
      · have hcol : t.colNum = t.columns.length := Nat.mod_eq_of_lt hlt
        rw [hcol, List.take_length, heq, List.map_take, zipWith_row_take]

theorem kept_iff : t.Kept ↔ t.Fits ∧ t.rows.flatMap t.rowLoads = t.limits := by
  unfold limits
  rw [flatMap_eq_iff fun r hr => (row_kept_iff hr).1]
  constructor
  · rintro ⟨hfits, hlimits⟩
    refine ⟨hfits, fun r hr => (row_kept_iff hr).2.mpr ?_⟩
    exact hlimits.imp_right fun hall => hall r hr
  · rintro ⟨hfits, hall⟩
    refine ⟨hfits, ?_⟩
    by_cases hbw : t.bw = none
    · exact Or.inl hbw
    · exact Or.inr fun r hr => ((row_kept_iff hr).2.mp (hall r hr)).resolve_left hbw

theorem length_loads (t : LimitTable) : (t.rows.flatMap t.rowLoads).length ≤ t.limits.length :=
  length_flatMap_le fun _ hr => (row_kept_iff hr).1

end LimitTable

theorem fileLoads_iff {tables : List LimitTable} : (∀ t ∈ tables, t.Fits) ∧ fileLoads tables
    = tables.flatMap LimitTable.limits ↔ ∀ t ∈ tables, t.Kept := by
  unfold fileLoads
  rw [flatMap_eq_iff fun t _ => t.length_loads, ← forall₂_and]
  exact forall₂_congr fun t _ => LimitTable.kept_iff.symm

/-! ## limits of any size -/

/-! ## the files that the parser is right about -/

/-- the parser stays in the buffers, and loads the tables that are written in the text -/
structure LimitFileExact (content : List UInt8) : Prop where
  contained : phyParsePowerLimitTableFile content ≠ .outside
  loads : ∀ tables, Written tables content →
    ∃ st, phyParsePowerLimitTableFile content = .stop true st ∧ st.rows = tables.flatMap LimitTable.limits

/-- **The parser is right** about the text if and only if each line is in order where it is met, and the tables
that are written in it are loaded as they are. -/
theorem limitFile_iff (content : List UInt8) : LimitFileExact content ↔
    AllOk LmtFile.loadLine LmtFile.LineOk {} (getLines content)
      ∧ ∀ tables, Written tables content → ∀ t ∈ tables, t.Kept := by
  rw [← limitFile_contained_iff]
  have hloads : ∀ tables, Written tables content →
      ((∃ st, phyParsePowerLimitTableFile content = .stop true st ∧ st.rows = tables.flatMap LimitTable.limits)
        ↔ ∀ t ∈ tables, t.Kept) :=
    fun tables h => (parse_written_iff h).trans fileLoads_iff
  constructor
  · rintro ⟨hcontained, h⟩
    exact ⟨hcontained, fun tables hw => (hloads tables hw).mp (h tables hw)⟩
  · rintro ⟨hcontained, h⟩
    exact ⟨hcontained, fun tables hw => (hloads tables hw).mpr (h tables hw)⟩

/-- 64 dBm for channel 1 -/
def loudRow : ChRow where
  c := 99
  h := 104
  isCh := rfl
  channel := [48, 49]
  isChannel := List.all_eq_true.mp rfl
  values := [([32], .dbm none (Decimal.ofWhole (List.cons_ne_nil 54 [52]) (List.all_eq_true.mp rfl)))]
  separate := by simp [isBlank]
  tail := []
  isTail := nofun

def spaced : HashLine where
  blanks := [32]
  isBlanks := List.all_eq_true.mp rfl
  tail := []

def fccName : ColumnName where
  blanks := [32]
  separate := by simp [isBlank]
  name := [70, 67, 67]
  isName := by simp [isBlank]

def loudTable : LimitTable where
  band := .b24
  width := .w20
  ntx := ⟨0, oneTx_lt⟩
  rs := .cck
  label := spaced
  start := spaced
  columnLine := spaced
  isTail := nofun
  columns := [fccName]
  some_column := nofun
  count := [49]
  isCount := List.all_eq_true.mp rfl
  count_eq := rfl
  rows := [loudRow]
  full := by
    intro r hr
    rw [List.mem_singleton.mp hr]
    rfl
  inBand := by
    intro _ r hr
    rw [List.mem_singleton.mp hr]
    decide
  finish := spaced

/-- a label of eleven bytes -/
def longLabel : List UInt8 := 35 :: 35 :: (List.replicate 11 49 ++ [44])

/-- **Not every text**: a label leaves its array, and 64 dBm are stored as -62 steps. -/
theorem limitFile_not_exact :
    ¬LimitFileExact longLabel ∧ ¬LimitFileExact (loudTable.lines.flatMap fun line => line ++ [10]) := by
  have hlong : phyParsePowerLimitTableFile longLabel = .outside := rfl
  refine ⟨fun h => h.contained hlong, fun h => ?_⟩
  have hwritten : Written [loudTable] (loudTable.lines.flatMap fun line => line ++ [10]) := by
    unfold Written
    decide +kernel
  have hkept := fileLoads_iff.mp ((parse_written_iff hwritten).mp (h.loads [loudTable] hwritten)) loudTable
    List.mem_cons_self
  rcases hkept.limits with hnone | hall
  · cases hnone
  · have hrow := (hall loudRow List.mem_cons_self).2
    revert hrow
    decide +kernel

end Rtl8192eu
