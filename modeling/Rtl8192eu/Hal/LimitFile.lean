import Rtl8192eu.Hal.ParaFile
import Rtl8192eu.Hal.TxPowerLoad

/-!
# The file of the power limits

`phy_ParsePowerLimitTableFile` of `hal/hal_com_phycfg.c` with `CONFIG_TXPWR_LIMIT`. The file is not encrypted,
memory can be allocated, and messages are not compiled in. A row of the result is a call of `rtw_txpwr_lmt_add`
that changes the table, so that the table of a file is `addRow` over its rows.

* `parseRegExcConfig`, `phySetTxPowerLimit`, `LmtFile.loadLine`   the functions;
* `phyParsePowerLimitTableFile`   the loop over the lines;
* `LmtFile.LineOk`   a line that stays in the buffers;
* `limitFile_contained_iff`   the files that do.
-/

namespace Rtl8192eu

open Scanner Run

/-- an array of ten bytes after `_rtw_memset` -/
def cleared : List UInt8 := List.replicate 10 0

/-! ## exceptions of the regulation -/

/-- what `rtw_regd_exc_add_with_nlen` gets -/
structure RegdExcEnt where
  country : Option (List UInt8)
  domain : UInt8
  regdName : List UInt8
  deriving DecidableEq, Repr

/-- the string up to `','`, and the pointer to it -/
def upToComma (p : List UInt8) : Except Stop (List UInt8 × List UInt8) := do
  let (val, p) ← span (fun c => c != 44 && c != 0) p
  match p with
  | [] => .error .outside
  | c :: _ => if c == 0 then .error .refused else .ok (val, p)

/-- from `move to 'R'` on -/
def parseRegulation (country : Option (List UInt8)) (domain : UInt8) (p : List UInt8) :
    Except Stop (Option RegdExcEnt) := do
  let (_, p) ← span (fun c => c != 82 && c != 0) p
  if !startsWith ['R', 'e', 'g', 'u', 'l', 'a', 't', 'i', 'o', 'n', '='] p then .error .refused
  else do
    let (regdName, _) ← span (fun c => !isBlank c && c != 0) (p.drop 11)
    if regdName = [] then .error .refused
    else .ok (some { country := country, domain := domain, regdName := regdName })

/-- `PARSE_RET_FAIL` is refused -/
def parseRegExcConfig (szLine : List UInt8) : Except Stop (Option RegdExcEnt) :=
  if !startsWith ['@', '@'] szLine then .ok none
  else if startsWith ['V', 'e', 'r', '='] (szLine.drop 2) then .ok none
  else if startsWith ['D', 'o', 'm', 'a', 'i', 'n', 'C', 'o', 'd', 'e', '=', '0', 'x'] (szLine.drop 2) then do
    let (val, p) ← upToComma (szLine.drop 15)
    -- `sscanf` finds no number in an empty string
    if !val.all isHexDigit || val.isEmpty then .error .refused
    else parseRegulation none (val.foldl (fun v c => v * 16 + (mapCharToHexDigit c).toUInt8) 0) p
  else if startsWith ['C', 'o', 'u', 'n', 't', 'r', 'y', 'C', 'o', 'd', 'e', '='] (szLine.drop 2) then do
    let (val, p) ← upToComma (szLine.drop 14)
    if val.length != 2 || !val.all isAlpha then .error .refused
    else parseRegulation (some val) 255 p
  else .error .refused

/-! ## one limit -/

/-- a value above the range, or below it -/
def clampLimit (powerLimit : Int) : Int :=
  if powerLimit ≠ wwLmtVal then
    if txgiMax < powerLimit then txgiMax else if powerLimit < -txgiMax then wwLmtVal + 1 else powerLimit
  else powerLimit

theorem clampLimit_bounds (v : Int) : -63 ≤ clampLimit v ∧ clampLimit v ≤ 63 := by
  have hww : wwLmtVal = -63 := rfl
  have hmax : txgiMax = 63 := rfl
  unfold clampLimit
  split_ifs <;> omega

def rateSectionOf (rateSection : List UInt8) : Option LmtRs :=
  if startsWith ['C', 'C', 'K'] rateSection then some .cck
  else if startsWith ['O', 'F', 'D', 'M'] rateSection then some .ofdm
  else if startsWith ['H', 'T'] rateSection then some .ht
  else if startsWith ['V', 'H', 'T'] rateSection then some .vht
  else none

theorem oneTx_lt : 0 < maxTxCount := by decide

theorem twoTx_lt : 1 < maxTxCount := by decide

def ntxIdxOf (ntx : List UInt8) : Option (Fin maxTxCount) :=
  if startsWith ['1', 'T'] ntx then some ⟨0, oneTx_lt⟩
  else if startsWith ['2', 'T'] ntx then some ⟨1, twoTx_lt⟩
  else if startsWith ['3', 'T'] ntx then some ⟨2, by decide⟩
  else if startsWith ['4', 'T'] ntx then some ⟨3, by decide⟩
  else none

/-- the widths of the 2.4 GHz band; `CHANNEL_WIDTH_80` and `CHANNEL_WIDTH_160` are not stored -/
def bandwidthOf (bandwidth : List UInt8) : Option ChannelWidth :=
  if startsWith ['2', '0', 'M'] bandwidth then some .w20
  else if startsWith ['4', '0', 'M'] bandwidth then some .w40
  else none

/-- the name of a regulation -/
def regdString (name : List UInt8) : String := String.ofList (name.map fun c => Char.ofNat c.toNat)

theorem regdString_ne {name : List UInt8} (h : name ≠ []) : regdString name ≠ "" := by
  obtain ⟨c, w, rfl⟩ := List.exists_cons_of_ne_nil h
  intro hs
  have hl := congrArg String.toList hs
  simp [regdString] at hl

/-- the index of the channel has to be inside `lmt_2g`; a regulation without a name is not stored -/
def rtwTxpwrLmtAdd (regdName : List UInt8) (bw : ChannelWidth) (tlrs : LmtRs) (ntxIdx : Fin maxTxCount)
    (chIdx : UInt8) (lmt : Int) : Except Stop (Option LmtRow) :=
  if hname : regdName = [] then .ok none
  else if hch : chIdx.toNat < centerCh2gNum then
    .ok (some
      { regdName := regdString regdName, named := regdString_ne hname, bw := bw, tlrs := tlrs, ntxIdx := ntxIdx,
        chIdx := ⟨chIdx.toNat, hch⟩, lmt := ⟨clampLimit lmt, clampLimit_bounds lmt⟩ })
  else .error .outside

/-- a string that is no number, or a label that is not known, changes nothing -/
def phySetTxPowerLimit (regulation band bandwidth rateSection ntx channel powerLimit : List UInt8) :
    Except Stop (Option LmtRow) :=
  match getU1ByteIntegerFromStringInDecimal 0 channel with
  | .error .outside => .error .outside
  | .error .refused => .ok none
  | .ok channel =>
    match getS1ByteIntegerFromStringInDecimal powerLimit with
    | .error .outside => .error .outside
    | .error .refused => .ok none
    | .ok powerLimit =>
      match rateSectionOf rateSection, ntxIdxOf ntx, bandwidthOf bandwidth with
      | some tlrs, some ntxIdx, some bw =>
        if !startsWith ['2', '.', '4', 'G'] band then .ok none
        -- `phy_GetChannelIndexOfTxPowerLimit` has no index for channel 0
        else if channel = 0 then .ok none
        else rtwTxpwrLmtAdd regulation bw tlrs ntxIdx (channel - 1) powerLimit
      | _, _, _ => .ok none

/-! ## the state of the parser -/

/-- `LD_STAGE_..` -/
inductive LdStage where
  | excMapping | tabDefine | tabStart | columnDefine | chRow
  deriving DecidableEq, Repr

structure LmtFile where
  loadingStage : LdStage := .excMapping
  band : List UInt8 := cleared
  bandwidth : List UInt8 := cleared
  ntx : List UInt8 := cleared
  rateSection : List UInt8 := cleared
  /-- the names of the columns, `colNum` of them -/
  regulation : List (List UInt8) := []
  regExc : List RegdExcEnt := []
  rows : List LmtRow := []

/-! ## the parts of a line -/

/-- the label of the table: band, bandwidth, number of antennas, rate section -/
def parseLabel (szLine : List UInt8) : Except Stop (List UInt8 × List UInt8 × List UInt8 × List UInt8) := do
  let p ← skip isBlank (szLine.drop 2)
  -- the byte in front is overwritten with a space
  let (band, p) ← parseQualifiedString (32 :: p) cleared 32 44
  let (bandwidth, p) ← parseQualifiedString p cleared 32 44
  let (ntx, p) ← parseQualifiedString p cleared 32 44
  let (rateSection, _) ← parseQualifiedString p cleared 32 44
  .ok (band, bandwidth, ntx, rateSection)

/-- so many names; at the end of the line they are empty -/
def columnNames : Nat → List UInt8 → Except Stop (List (List UInt8))
  | 0, _ => .ok []
  | n + 1, p => do
    let p ← skip isBlank p
    let (name, p) ← span (fun c => !isBlank c && c != 0) p
    let names ← columnNames n p
    .ok (name :: names)

def parseColumns (szLine : List UInt8) : Except Stop (List (List UInt8)) := do
  let p ← skip isBlank (szLine.drop 2)
  let (colNumBuf, p) ← parseQualifiedString p cleared 35 35
  let colNum ← getU1ByteIntegerFromStringInDecimal 0 colNumBuf
  if colNum = 0 then .error .refused else columnNames colNum.toNat p

/-- the digits behind `ch`, in their array -/
def channelDigits (szLine : List UInt8) : Except Stop (List UInt8 × List UInt8) := do
  let (ds, p) ← span isDigit (szLine.drop 2)
  let channel ← strncpy cleared ds
  .ok (channel, p)

/-- `sprintf` of a number to an array that was cleared -/
def sprintfDec (v : Int) : Except Stop (List UInt8) := strncpy cleared (toDec v ++ [0])

/-- `case of dBm value`, behind the sign -/
def readDbm (negative : Bool) (p : List UInt8) : Except Stop (List UInt8 × List UInt8) := do
  let ((integer, fraction), p) ← getFractionValueFromString p
  let lmt := toS8 (integer.toNat * txgiPdbm + fraction.toNat * txgiPdbm / 100)
  let powerLimit ← sprintfDec (if negative then toS8 (-lmt) else lmt)
  .ok (powerLimit, p)

/-- the limit of a column as a string -/
def readLimit (p : List UInt8) : Except Stop (List UInt8 × List UInt8) := do
  let p ← skip isBlank p
  if startsWith ['W', 'W'] p then do
    let powerLimit ← sprintfDec wwLmtVal
    .ok (powerLimit, p.drop 2)
  else if startsWith ['N', 'A'] p then do
    let powerLimit ← sprintfDec txgiMax
    .ok (powerLimit, p.drop 2)
  else
    match p with
    | [] => .error .outside
    | c :: q =>
      if isDigit c || c == 46 || c == 43 || c == 45 then
        readDbm (c == 45) (if c == 43 || c == 45 then q else p)
      else .error .refused

namespace LmtFile

variable (st : LmtFile)

/-- a limit for each column; those in front of a value that is not valid stay -/
def loadColumns (st : LmtFile) (channel : List UInt8) : List (List UInt8) → List UInt8 → Next LmtFile
  | [], _ => .next st
  | name :: names, p =>
    Next.ofScan (readLimit p) st fun r =>
      Next.ofScan
        (phySetTxPowerLimit name st.band st.bandwidth st.rateSection st.ntx channel r.1) st fun row =>
          loadColumns { st with rows := st.rows ++ row.toList } channel names r.2

/-! ## the stages -/

def loadTabDefine (szLine : List UInt8) : Next LmtFile :=
  if !startsWith ['#', '#'] szLine then .next st
  else
    Next.ofScan (parseLabel szLine) st fun (band, bandwidth, ntx, rateSection) =>
      .next
        { st with
          loadingStage := .tabStart, band := band, bandwidth := bandwidth, ntx := ntx,
          rateSection := rateSection }

def loadTabStart (szLine : List UInt8) : Next LmtFile :=
  if !startsWith ['#', '#'] szLine then .next st
  else
    Next.ofScan (skip isBlank (szLine.drop 2)) st fun p =>
      if startsWith ['S', 'T', 'A', 'R', 'T'] p then .next { st with loadingStage := .columnDefine }
      else .stop false st

def loadColumnDefine (szLine : List UInt8) : Next LmtFile :=
  if !startsWith ['#', '#'] szLine then .next st
  else
    Next.ofScan (parseColumns szLine) st fun names =>
      .next { st with loadingStage := .chRow, regulation := names }

/-- `ch`, in upper or lower case -/
def isChannelRow : List UInt8 → Bool
  | a :: b :: _ => (a == 99 || a == 67) && (b == 104 || b == 72)
  | _ => false

def loadChRow (szLine : List UInt8) : Next LmtFile :=
  if startsWith ['#', '#'] szLine then
    Next.ofScan (skip isBlank (szLine.drop 2)) st fun p =>
      if startsWith ['E', 'N', 'D'] p then .next { st with loadingStage := .tabDefine, regulation := [] }
      else .stop false st
  else if !isChannelRow szLine then .next st
  else Next.ofScan (channelDigits szLine) st fun r => st.loadColumns r.1 st.regulation r.2

def loadExcMapping (szLine : List UInt8) : Next LmtFile :=
  if szLine[0]? = some 35 ∨ szLine[1]? = some 35 then
    loadTabDefine { st with loadingStage := .tabDefine } szLine
  else
    Next.ofScan (parseRegExcConfig szLine) st fun ent => .next { st with regExc := st.regExc ++ ent.toList }

def loadLine (line : List UInt8) : Next LmtFile :=
  if skipped line then .next st
  else
    match st.loadingStage with
    | .excMapping => st.loadExcMapping (line ++ [0])
    | .tabDefine => st.loadTabDefine (line ++ [0])
    | .tabStart => st.loadTabStart (line ++ [0])
    | .columnDefine => st.loadColumnDefine (line ++ [0])
    | .chRow => st.loadChRow (line ++ [0])

end LmtFile

def phyParsePowerLimitTableFile (content : List UInt8) : Next LmtFile :=
  (run (feed LmtFile.loadLine) (.next {}) (getLines content)).finish

/-! ## what stays in the buffers -/

/-- the string in its array -/
def padded (src : List UInt8) : List UInt8 := src ++ cleared.drop src.length

section
variable {p q src name : List UInt8}

theorem strncpy_cleared (h : src.length ≤ 10) : strncpy cleared src = .ok (padded src) := strncpy_ok h

theorem Qualified.live {left right : UInt8} (h : Qualified p src q left right) (hl : left ≠ 0) (hr : right ≠ 0)
    (hp : Live p) : Live q := by
  obtain ⟨rfl, hsrc⟩ := h
  have hmem := (hp.tail hl).mem
  rcases List.mem_append.mp hmem with h0 | h0
  · exact absurd rfl (hsrc 0 h0).2
  · exact Live.tail ⟨h0⟩ hr

/-- a string that is copied fits into its array -/
theorem qualified_contained {γ : Type} {left right : UInt8} (hl : left ≠ 0) (hr : right ≠ 0) (hp : Live p)
    {k : List UInt8 × List UInt8 → Except Stop γ} :
    (parseQualifiedString p cleared left right >>= k) ≠ .error .outside ↔
      ∀ src q, Qualified p src q left right → src.length ≤ 10 ∧ k (padded src, q) ≠ .error .outside := by
  constructor
  · intro h src q hq
    rw [parseQualified_eq hr hq] at h
    by_cases hlen : src.length ≤ 10
    · rw [strncpy_cleared hlen] at h
      exact ⟨hlen, h⟩
    · rw [strncpy_outside_iff.mpr (Nat.lt_of_not_le hlen)] at h
      exact absurd rfl h
  · intro h
    by_cases hq : ∃ src q, Qualified p src q left right
    · obtain ⟨src, q, hq⟩ := hq
      obtain ⟨hlen, hk⟩ := h src q hq
      rw [parseQualified_eq hr hq, strncpy_cleared hlen]
      exact hk
    · rw [parseQualified_refused hl hp fun src q hq' => hq ⟨src, q, hq'⟩]
      nofun

/-- so many labels, each with a space in front and a comma behind, are no longer than their arrays -/
def LabelsFit : Nat → List UInt8 → Prop
  | 0, _ => True
  | n + 1, p => ∀ src q, Qualified p src q 32 44 → src.length ≤ 10 ∧ LabelsFit n q

theorem label_contained {γ : Type} {n : Nat} {k : List UInt8 × List UInt8 → Except Stop γ} (hp : Live p)
    (hk : ∀ out q, Live q → (k (out, q) ≠ .error .outside ↔ LabelsFit n q)) :
    (parseQualifiedString p cleared 32 44 >>= k) ≠ .error .outside ↔ LabelsFit (n + 1) p := by
  rw [qualified_contained (by decide) (by decide) hp]
  refine forall₂_congr fun src q => forall_congr' fun hq => and_congr_right fun _ => ?_
  exact hk _ q (hq.live (by decide) (by decide) hp)

theorem parseLabel_contained (hp : Live (p.drop 2)) :
    parseLabel p ≠ .error .outside ↔ LabelsFit 4 (32 :: afterBlanks (p.drop 2)) := by
  obtain ⟨hskip, hlive⟩ := skip_blanks hp
  have hstart : Live (32 :: afterBlanks (p.drop 2)) := ⟨List.mem_cons_of_mem _ hlive.mem⟩
  unfold parseLabel
  rw [hskip, bind_ok]
  refine label_contained hstart fun band p hp => ?_
  refine label_contained hp fun bandwidth p hp => ?_
  refine label_contained hp fun ntx p hp => ?_
  refine label_contained hp fun rateSection p hp => ?_
  exact iff_of_true nofun trivial

theorem Live.drop {s : List Char} (hp : Live p) (hs : (0 : UInt8) ∉ ascii s) (h : startsWith s p = true) :
    Live (p.drop s.length) := by
  rw [startsWith, List.isPrefixOf_iff_prefix] at h
  obtain ⟨q, rfl⟩ := h
  have hlen : (ascii s).length = s.length := List.length_map _
  rw [← hlen, List.drop_left]
  exact ⟨(List.mem_append.mp hp.mem).resolve_left hs⟩

theorem columnNames_live (n : Nat) (hp : Live p) : ∃ names, columnNames n p = .ok names := by
  induction n generalizing p with
  | zero => exact ⟨[], rfl⟩
  | succ n ih =>
    obtain ⟨hskip, hp⟩ := skip_blanks hp
    obtain ⟨hspan, hp⟩ := span_live (f := fun c => !isBlank c && c != 0) (by simp) hp
    obtain ⟨names, hn⟩ := ih hp
    refine ⟨(afterBlanks p).takeWhile (fun c => !isBlank c && c != 0) :: names, ?_⟩
    unfold columnNames
    rw [hskip, bind_ok, hspan, bind_ok]
    dsimp only
    rw [hn]
    rfl

/-- the number of columns is shorter than its array, or no number at all -/
def CountFits (p : List UInt8) : Prop :=
  ∀ src q, Qualified p src q 35 35 →
    src.length ≤ 10 ∧ (src.length = 10 → ∃ c ∈ src, isDigit c = false)

theorem padded_digits_iff (h : src.length ≤ 10) :
    (∀ c ∈ padded src, isDigit c = true) ↔ src.length = 10 ∧ ∀ c ∈ src, isDigit c = true := by
  unfold padded cleared
  rw [List.drop_replicate, List.forall_mem_append, and_comm]
  refine and_congr_left fun _ => ?_
  rcases Nat.eq_or_lt_of_le h with h10 | hlt
  · exact iff_of_true (by simp [h10]) h10
  · refine iff_of_false (fun hall => ?_) (Nat.ne_of_lt hlt)
    have hzero := hall 0 (List.mem_replicate.mpr ⟨by omega, rfl⟩)
    cases hzero

theorem parseColumns_contained (hp : Live (p.drop 2)) :
    parseColumns p ≠ .error .outside ↔ CountFits (afterBlanks (p.drop 2)) := by
  obtain ⟨hskip, hlive⟩ := skip_blanks hp
  unfold parseColumns CountFits
  rw [hskip, bind_ok, qualified_contained (by decide) (by decide) hlive]
  refine forall₂_congr fun src q => forall_congr' fun hq => and_congr_right fun hlen => ?_
  have hq := hq.live (by decide) (by decide) hlive
  dsimp only
  have hfull : getU1ByteIntegerFromStringInDecimal 0 (padded src) ≠ .error .outside ↔
      (src.length = 10 → ∃ c ∈ src, isDigit c = false) := by
    rw [ne_eq, getU1_outside_iff, padded_digits_iff hlen, not_and]
    refine imp_congr_right fun _ => ?_
    simp
  rw [← hfull]
  cases getU1ByteIntegerFromStringInDecimal 0 (padded src) with
  | error e =>
    cases e with
    | outside => exact iff_of_false (fun h => h rfl) fun h => h rfl
    | refused => exact iff_of_true nofun nofun
  | ok n =>
    refine iff_of_true ?_ nofun
    rw [bind_ok]
    split
    · nofun
    · obtain ⟨names, hn⟩ := columnNames_live n.toNat hq
      rw [hn]
      nofun

/-! ## the limit of a column -/

/-- a printed number in its array -/
def decBuf (v : Int) : List UInt8 := padded (toDec v ++ [0])

theorem sprintfDec_eq {v : Int} (hlo : -128 ≤ v) (hhi : v ≤ 127) : sprintfDec v = .ok (decBuf v) := by
  refine strncpy_cleared ?_
  have hlen := length_toDec hlo hhi
  rw [List.length_append, List.length_singleton]
  omega

theorem getS1_decBuf {v : Int} (hlo : -128 ≤ v) (hhi : v ≤ 127) :
    getS1ByteIntegerFromStringInDecimal (decBuf v) = .ok v := by
  unfold decBuf padded
  rw [List.append_assoc]
  exact getS1_toDec hlo hhi _

theorem toS8_bounds (x : Int) : -128 ≤ toS8 x ∧ toS8 x ≤ 127 := (toS8_spec x).choose_spec.2

theorem readDbm_live (negative : Bool) (hp : Live p) : readDbm negative p = .error .refused ∨
    ∃ v q, -128 ≤ v ∧ v ≤ 127 ∧ readDbm negative p = .ok (decBuf v, q) ∧ Live q := by
  have hstays := getFractionValue_stays hp
  unfold readDbm
  cases hval : getFractionValueFromString p with
  | error e =>
    rw [hval] at hstays
    cases hstays
    exact Or.inl rfl
  | ok r =>
    rw [hval] at hstays
    obtain ⟨⟨integer, fraction⟩, q⟩ := r
    rw [bind_ok]
    dsimp only
    generalize hx : (integer.toNat * txgiPdbm + fraction.toNat * txgiPdbm / 100) = x
    have hv : -128 ≤ (if negative = true then toS8 (-toS8 x) else toS8 x)
        ∧ (if negative = true then toS8 (-toS8 x) else toS8 x) ≤ 127 := by
      split
      · exact toS8_bounds _
      · exact toS8_bounds _
    refine Or.inr ⟨_, q, hv.1, hv.2, ?_, hstays.live⟩
    rw [sprintfDec_eq hv.1 hv.2]
    rfl

/-- **What a column gives**: nothing that is taken, or a number of eight bits. -/
theorem readLimit_live (hp : Live p) : readLimit p = .error .refused ∨
    ∃ v q, -128 ≤ v ∧ v ≤ 127 ∧ readLimit p = .ok (decBuf v, q) ∧ Live q := by
  obtain ⟨hskip, hlive⟩ := skip_blanks hp
  unfold readLimit
  rw [hskip, bind_ok]
  generalize afterBlanks p = p at hlive
  split
  next hw =>
    refine Or.inr ⟨wwLmtVal, p.drop 2, by decide, by decide, ?_, hlive.drop (by decide) hw⟩
    rw [sprintfDec_eq (by decide) (by decide)]
    rfl
  next =>
    split
    next hn =>
      refine Or.inr ⟨txgiMax, p.drop 2, by decide, by decide, ?_, hlive.drop (by decide) hn⟩
      rw [sprintfDec_eq (by decide) (by decide)]
      rfl
    next =>
      cases p with
      | nil => exact absurd rfl hlive.ne_nil
      | cons c q =>
        dsimp only
        split
        next =>
          refine readDbm_live _ ?_
          split
          next hs =>
            refine hlive.tail ?_
            rintro rfl
            cases hs
          next => exact hlive
        next => exact Or.inl rfl

/-! ## the rows of channels -/

/-- the cells of the table that the label stands for, if there are any -/
def LmtFile.cell (st : LmtFile) : Option (LmtRs × Fin maxTxCount × ChannelWidth) :=
  match rateSectionOf st.rateSection, ntxIdxOf st.ntx, bandwidthOf st.bandwidth with
  | some tlrs, some ntxIdx, some bw =>
    if startsWith ['2', '.', '4', 'G'] st.band then some (tlrs, ntxIdx, bw) else none
  | _, _, _ => none

/-- the channel of a row leads out of its array, or out of `lmt_2g` for a column with a name -/
def LmtFile.Astray (st : LmtFile) (ds name : List UInt8) : Prop :=
  ds.length = 10 ∨ name ≠ [] ∧ st.cell.isSome ∧ 14 < natOfDigits 0 ds % 256

theorem rtwTxpwrLmtAdd_outside_iff {bw : ChannelWidth} {tlrs : LmtRs} {ntxIdx : Fin maxTxCount} {chIdx : UInt8}
    {lmt : Int} : rtwTxpwrLmtAdd name bw tlrs ntxIdx chIdx lmt = .error .outside ↔
      name ≠ [] ∧ centerCh2gNum ≤ chIdx.toNat := by
  unfold rtwTxpwrLmtAdd
  split
  next h => exact iff_of_false nofun fun hne => hne.1 h
  next h =>
    split
    next hch => exact iff_of_false nofun fun hle => Nat.not_le_of_lt hch hle.2
    next hch => exact iff_of_true rfl ⟨h, Nat.le_of_not_lt hch⟩

theorem getU1_padded {ds : List UInt8} (hds : ∀ c ∈ ds, isDigit c = true) (hlen : ds.length < 10) :
    getU1ByteIntegerFromStringInDecimal 0 (padded ds) = .ok (UInt8.ofNat (natOfDigits 0 ds)) := by
  obtain ⟨k, hk⟩ : ∃ k, 10 - ds.length = k + 1 := ⟨9 - ds.length, by omega⟩
  have hpad : padded ds = ds ++ 0 :: List.replicate k 0 := by
    unfold padded cleared
    rw [List.drop_replicate, hk, List.replicate_succ]
  rw [hpad]
  exact getU1_digits 0 hds _

theorem toNat_pred_ofNat {n : Nat} (h : n % 256 ≠ 0) : (UInt8.ofNat n - 1).toNat = n % 256 - 1 := by
  have h1 : (1 : UInt8) ≤ UInt8.ofNat n := by
    rw [UInt8.le_iff_toNat_le, UInt8.toNat_ofNat']
    show 1 ≤ n % 256
    omega
  rw [UInt8.toNat_sub_of_le _ _ h1, UInt8.toNat_ofNat']
  rfl

theorem phySet_outside_iff (st : LmtFile) (name : List UInt8) {ds powerLimit : List UInt8} {v : Int}
    (hds : ∀ c ∈ ds, isDigit c = true) (hlen : ds.length ≤ 10)
    (hv : getS1ByteIntegerFromStringInDecimal powerLimit = .ok v) :
    phySetTxPowerLimit name st.band st.bandwidth st.rateSection st.ntx (padded ds) powerLimit = .error .outside
      ↔ st.Astray ds name := by
  unfold phySetTxPowerLimit LmtFile.Astray LmtFile.cell
  rcases Nat.eq_or_lt_of_le hlen with h10 | hlt
  · rw [getU1_outside_iff.mpr ((padded_digits_iff hlen).mpr ⟨h10, hds⟩)]
    exact iff_of_true rfl (Or.inl h10)
  · rw [getU1_padded hds hlt, hv]
    dsimp only
    have hne : ds.length ≠ 10 := Nat.ne_of_lt hlt
    cases rateSectionOf st.rateSection with
    | none => simp [hne]
    | some tlrs =>
      cases ntxIdxOf st.ntx with
      | none => simp [hne]
      | some ntxIdx =>
        cases bandwidthOf st.bandwidth with
        | none => simp [hne]
        | some bw =>
          dsimp only
          cases startsWith ['2', '.', '4', 'G'] st.band with
          | false => simp [hne]
          | true =>
            simp only [Bool.not_true, Bool.false_eq_true, if_false, if_true, Option.isSome_some, true_and, hne,
              false_or]
            by_cases h0 : natOfDigits 0 ds % 256 = 0
            · have hzero : UInt8.ofNat (natOfDigits 0 ds) = 0 := by
                apply UInt8.toNat_inj.mp
                rw [UInt8.toNat_ofNat']
                exact h0
              rw [if_pos hzero]
              exact iff_of_false nofun fun h => absurd h.2 (by omega)
            · have hnz : UInt8.ofNat (natOfDigits 0 ds) ≠ 0 := by
                intro hzero
                have hn := congrArg UInt8.toNat hzero
                rw [UInt8.toNat_ofNat'] at hn
                exact h0 hn
              rw [if_neg hnz, rtwTxpwrLmtAdd_outside_iff, toNat_pred_ofNat h0]
              refine and_congr_right fun _ => ?_
              unfold centerCh2gNum
              omega

theorem phySet_ne_refused {band bandwidth rateSection ntx channel powerLimit : List UInt8} :
    phySetTxPowerLimit name band bandwidth rateSection ntx channel powerLimit ≠ .error .refused := by
  unfold phySetTxPowerLimit rtwTxpwrLmtAdd
  split
  · nofun
  · nofun
  · split
    · nofun
    · nofun
    · split
      · split_ifs <;> nofun
      · nofun

/-- no column that is reached leads astray -/
def ColumnsOk (bad : List UInt8 → Prop) : List (List UInt8) → List UInt8 → Prop
  | [], _ => True
  | name :: names, p => ∀ r, readLimit p = .ok r → ¬bad name ∧ ColumnsOk bad names r.2

theorem loadColumns_contained (st : LmtFile) {ds : List UInt8} (hds : ∀ c ∈ ds, isDigit c = true)
    (hlen : ds.length ≤ 10) (names : List (List UInt8)) (hp : Live p) :
    st.loadColumns (padded ds) names p ≠ .outside ↔ ColumnsOk (st.Astray ds) names p := by
  induction names generalizing st p with
  | nil => exact iff_of_true nofun trivial
  | cons name names ih =>
    unfold LmtFile.loadColumns ColumnsOk
    rcases readLimit_live hp with hr | ⟨v, q, hlo, hhi, hr, hq⟩
    · rw [hr]
      exact iff_of_true nofun nofun
    · rw [hr]
      have hv := getS1_decBuf hlo hhi
      have hout := phySet_outside_iff st name hds hlen hv
      have hone : (∀ r, Except.ok (decBuf v, q) = Except.ok (ε := Stop) r →
          ¬st.Astray ds name ∧ ColumnsOk (st.Astray ds) names r.2)
          ↔ ¬st.Astray ds name ∧ ColumnsOk (st.Astray ds) names q :=
        ⟨fun h => h _ rfl, fun h r hr => by cases hr; exact h⟩
      rw [hone, ← hout]
      show Next.ofScan (phySetTxPowerLimit name _ _ _ _ (padded ds) (decBuf v)) st _ ≠ .outside ↔ _
      cases hset :
        phySetTxPowerLimit name st.band st.bandwidth st.rateSection st.ntx (padded ds) (decBuf v) with
      | error e =>
        cases e with
        | outside => exact iff_of_false (fun h => h rfl) fun h => h.1 rfl
        | refused => exact absurd hset phySet_ne_refused
      | ok row =>
        have hrest := ih { st with rows := st.rows ++ row.toList } hq
        exact hrest.trans ⟨fun h => ⟨nofun, h⟩, fun h => h.2⟩

/-! ## the exceptions stay in the line -/

theorem upToComma_stays (hp : Live p) : Stays (upToComma p) := by
  obtain ⟨hspan, hq⟩ := span_live (f := fun c => c != 44 && c != 0) (by simp) hp
  unfold upToComma
  rw [hspan, bind_ok]
  dsimp only
  generalize p.dropWhile (fun c => c != 44 && c != 0) = q at hq
  cases q with
  | nil => exact absurd rfl hq.ne_nil
  | cons c q =>
    dsimp only
    split
    · exact .refused
    · exact .ok hq

theorem parseRegulation_contained {country : Option (List UInt8)} {domain : UInt8} (hp : Live p) :
    parseRegulation country domain p ≠ .error .outside := by
  obtain ⟨hspan, hq⟩ := span_live (f := fun c => c != 82 && c != 0) (by simp) hp
  unfold parseRegulation
  rw [hspan, bind_ok]
  dsimp only
  generalize p.dropWhile (fun c => c != 82 && c != 0) = q at hq
  split
  · nofun
  next h =>
    have hpre : startsWith ['R', 'e', 'g', 'u', 'l', 'a', 't', 'i', 'o', 'n', '='] q = true := by simpa using h
    have hname : Live (q.drop 11) := hq.drop (by decide) hpre
    obtain ⟨hspan, -⟩ := span_live (f := fun c => !isBlank c && c != 0) (by simp) hname
    rw [hspan, bind_ok]
    dsimp only
    split
    · nofun
    · nofun

theorem upToComma_contained {γ : Type} {k : List UInt8 × List UInt8 → Except Stop γ} (hp : Live p)
    (hk : ∀ val q, Live q → k (val, q) ≠ .error .outside) : (upToComma p >>= k) ≠ .error .outside := by
  have hstays := upToComma_stays hp
  cases hu : upToComma p with
  | error e =>
    rw [hu] at hstays
    cases hstays
    nofun
  | ok r =>
    rw [hu] at hstays
    exact hk r.1 r.2 hstays.live

theorem parseRegExcConfig_contained (hp : Live p) : parseRegExcConfig p ≠ .error .outside := by
  unfold parseRegExcConfig
  split
  · nofun
  next hat =>
    have h2 : Live (p.drop 2) := hp.drop (s := ['@', '@']) (by decide) (by simpa using hat)
    split
    · nofun
    · split
      next hdom =>
        have hval := h2.drop (by decide) hdom
        rw [List.drop_drop] at hval
        refine upToComma_contained hval fun val q hq => ?_
        dsimp only
        split
        · nofun
        · exact parseRegulation_contained hq
      next =>
        split
        next hctry =>
          have hval := h2.drop (by decide) hctry
          rw [List.drop_drop] at hval
          refine upToComma_contained hval fun val q hq => ?_
          dsimp only
          split
          · nofun
          · exact parseRegulation_contained hq
        next => nofun

/-! ## the lines -/

theorem Live.drop_channelRow (hp : Live p) (h : LmtFile.isChannelRow p = true) : Live (p.drop 2) := by
  rcases p with _ | ⟨a, _ | ⟨b, q⟩⟩
  · cases h
  · cases h
  · have hab : (a == 99 || a == 67) = true ∧ (b == 104 || b == 72) = true := Bool.and_eq_true_iff.mp h
    refine (hp.tail ?_).tail ?_
    · rintro rfl
      cases hab.1
    · rintro rfl
      cases hab.2

namespace LmtFile

/-- the labels of a line `##` fit into their arrays -/
def LabelOk (szLine : List UInt8) : Prop :=
  startsWith ['#', '#'] szLine = true → LabelsFit 4 (32 :: afterBlanks (szLine.drop 2))

/-- the channel of a row fits into its array, and no column that is reached leads astray -/
def RowOk (st : LmtFile) (szLine : List UInt8) : Prop :=
  startsWith ['#', '#'] szLine = false → isChannelRow szLine = true →
    ((szLine.drop 2).takeWhile isDigit).length ≤ 10
      ∧ ColumnsOk (st.Astray ((szLine.drop 2).takeWhile isDigit)) st.regulation
        ((szLine.drop 2).dropWhile isDigit)

/-- the line stays in the buffers -/
def LineOk (st : LmtFile) (line : List UInt8) : Prop :=
  skipped line = false →
    match st.loadingStage with
    | .excMapping =>
      (line ++ [0])[0]? = some 35 ∨ (line ++ [0])[1]? = some 35 → LabelOk (line ++ [0])
    | .tabDefine => LabelOk (line ++ [0])
    | .tabStart => True
    | .columnDefine =>
      startsWith ['#', '#'] (line ++ [0]) = true → CountFits (afterBlanks ((line ++ [0]).drop 2))
    | .chRow => st.RowOk (line ++ [0])

theorem loadTabDefine_contained (st : LmtFile) (hp : Live p) : st.loadTabDefine p ≠ .outside ↔ LabelOk p := by
  unfold loadTabDefine LabelOk
  cases h : startsWith ['#', '#'] p with
  | false => exact iff_of_true nofun nofun
  | true =>
    have hlive : Live (p.drop 2) := hp.drop (by decide) h
    simp only [Bool.not_true, Bool.false_eq_true, if_false, true_imp_iff]
    rw [← parseLabel_contained hlive]
    exact not_congr Next.ofScan_next_iff

theorem loadTabStart_contained (st : LmtFile) (hp : Live p) : st.loadTabStart p ≠ .outside := by
  unfold loadTabStart
  cases h : startsWith ['#', '#'] p with
  | false => nofun
  | true =>
    obtain ⟨hskip, -⟩ := skip_blanks (hp.drop (by decide) h)
    simp only [Bool.not_true, Bool.false_eq_true, if_false]
    rw [show List.drop 2 p = List.drop ['#', '#'].length p from rfl, hskip]
    show (if _ then _ else _) ≠ _
    split
    · exact Next.next_ne_outside _
    · exact Next.stop_ne_outside _ _

theorem loadColumnDefine_contained (st : LmtFile) (hp : Live p) : st.loadColumnDefine p ≠ .outside ↔
    (startsWith ['#', '#'] p = true → CountFits (afterBlanks (p.drop 2))) := by
  unfold loadColumnDefine
  cases h : startsWith ['#', '#'] p with
  | false => exact iff_of_true nofun nofun
  | true =>
    have hlive : Live (p.drop 2) := hp.drop (by decide) h
    simp only [Bool.not_true, Bool.false_eq_true, if_false, true_imp_iff]
    rw [← parseColumns_contained hlive]
    exact not_congr Next.ofScan_next_iff

theorem loadChRow_contained (st : LmtFile) (hp : Live p) : st.loadChRow p ≠ .outside ↔ st.RowOk p := by
  unfold loadChRow RowOk
  cases h : startsWith ['#', '#'] p with
  | true =>
    obtain ⟨hskip, -⟩ := skip_blanks (hp.drop (by decide) h)
    refine iff_of_true ?_ nofun
    rw [if_pos rfl, show List.drop 2 p = List.drop ['#', '#'].length p from rfl, hskip]
    show (if _ then _ else _) ≠ _
    split
    · exact Next.next_ne_outside _
    · exact Next.stop_ne_outside _ _
  | false =>
    simp only [Bool.false_eq_true, if_false, true_imp_iff]
    cases hch : isChannelRow p with
    | false => exact iff_of_true nofun nofun
    | true =>
      have hlive : Live (p.drop 2) := hp.drop_channelRow hch
      obtain ⟨hspan, hq⟩ := span_live (f := isDigit) rfl hlive
      have hds : ∀ c ∈ (p.drop 2).takeWhile isDigit, isDigit c = true := fun c hc => List.mem_takeWhile_imp hc
      simp only [Bool.not_true, Bool.false_eq_true, if_false, true_imp_iff]
      unfold channelDigits
      rw [hspan, bind_ok]
      generalize (p.drop 2).takeWhile isDigit = ds at hds
      generalize (p.drop 2).dropWhile isDigit = q at hq
      dsimp only
      by_cases hlen : ds.length ≤ 10
      · rw [strncpy_cleared hlen]
        exact (loadColumns_contained st hds hlen st.regulation hq).trans ⟨fun h => ⟨hlen, h⟩, fun h => h.2⟩
      · rw [strncpy_outside_iff.mpr (Nat.lt_of_not_le hlen)]
        exact iff_of_false (fun h => h rfl) fun h => hlen h.1

theorem loadLine_contained (st : LmtFile) (line : List UInt8) :
    st.loadLine line ≠ .outside ↔ st.LineOk line := by
  have hp := live_line line
  unfold loadLine LineOk
  cases hs : skipped line with
  | true => exact iff_of_true (Next.next_ne_outside st) fun h => absurd h.symm Bool.false_ne_true
  | false =>
    simp only [Bool.false_eq_true, if_false, true_imp_iff]
    cases st.loadingStage with
    | excMapping =>
      dsimp only
      unfold loadExcMapping
      split
      next h => exact (loadTabDefine_contained _ hp).trans ⟨fun hl _ => hl, fun hl => hl h⟩
      next h =>
        refine iff_of_true (fun hout => ?_) fun h' => absurd h' h
        exact parseRegExcConfig_contained hp (Next.ofScan_next_iff.mp hout)
    | tabDefine => exact loadTabDefine_contained st hp
    | tabStart => exact iff_of_true (loadTabStart_contained st hp) trivial
    | columnDefine => exact loadColumnDefine_contained st hp
    | chRow => exact loadChRow_contained st hp

end LmtFile

/-- **The files that stay in the buffers**: each line is in order in the state that it is met in. -/
theorem limitFile_contained_iff (content : List UInt8) : phyParsePowerLimitTableFile content ≠ .outside ↔
    AllOk LmtFile.loadLine LmtFile.LineOk {} (getLines content) := by
  rw [← contained_iff LmtFile.loadLine_contained]
  exact not_congr Next.finish_outside_iff

end

end Rtl8192eu
