import Rtl8192eu.Efuse.Log

/-!
# Reading the efuse

`Hal_EfuseReadEFuse8192E` builds the map up from the log, `hal_EfuseGetCurrentSize_8192E` looks for
its end.  Both are written for any content, with headers that are half written or that disable all
words.

* `readWords`, `readLoop`, `getCurrentSizeLoop`   the loops;
* `readEFuse_log`, `getCurrentSize_log`   what they answer for a log;
* `getCurrentSize_blank`   behind the end of any content nothing is written.
-/

namespace Rtl8192eu

open Mem

namespace Efuse

/-- a word of `eFuseWord`, as two bytes of `efuseTbl`; with the low byte the high one is cleared -/
def setLow (tbl : Nat → UInt8) (offset i : Nat) (b : UInt8) : Nat → UInt8 :=
  Function.update (Function.update tbl (offset * 8 + i * 2) b) (offset * 8 + i * 2 + 1) 0

def orHigh (tbl : Nat → UInt8) (offset i : Nat) (b : UInt8) : Nat → UInt8 :=
  Function.update tbl (offset * 8 + i * 2 + 1) (tbl (offset * 8 + i * 2 + 1) ||| b)

/-- the `n` words from word `i` on, of a section in range -/
def readWords (content : Nat → UInt8) (offset : Nat) :
    Nat → Nat → Nat → Nat → (Nat → UInt8) → Nat × (Nat → UInt8)
  | 0, _, _, addr, tbl => (addr, tbl)
  | n + 1, i, wren, addr, tbl =>
    if wren.testBit 0 then readWords content offset n (i + 1) (wren >>> 1) addr tbl
    else
      let tbl := setLow tbl offset i (content addr)
      if efuseRealContentLen ≤ addr + 1 then (addr + 1, tbl)
      else
        let tbl := orHigh tbl offset i (content (addr + 1))
        if efuseRealContentLen ≤ addr + 2 then (addr + 2, tbl)
        else readWords content offset n (i + 1) (wren >>> 1) (addr + 2) tbl

/-- `n` words of a section out of range; the mask is not shifted -/
def skipWords (wren : Nat) : Nat → Nat → Nat
  | 0, addr => addr
  | n + 1, addr =>
    if wren.testBit 0 then skipWords wren n addr
    else if efuseRealContentLen ≤ addr + 1 then addr + 1
    else if efuseRealContentLen ≤ addr + 2 then addr + 2
    else skipWords wren n (addr + 2)

def readSection (content : Nat → UInt8) (offset wren addr : Nat) (tbl : Nat → UInt8) :
    Nat × (Nat → UInt8) :=
  if offset < efuseMaxSection then readWords content offset efuseMaxWordUnit 0 wren addr tbl
  else (skipWords wren efuseMaxWordUnit addr, tbl)

/-- behind a header that was read at `addr` -/
def nextAddr (content : Nat → UInt8) (addr : Nat) : Nat :=
  if content addr ≠ 0xFF ∧ addr < efuseRealContentLen then addr + 1 else addr

/-- the loop over the packets, with the last header read; every second round gets further -/
def readLoop : Nat → Chip → UInt8 → Nat → (Nat → UInt8) → Chip × Nat × (Nat → UInt8)
  | 0, c, _, addr, tbl => (c, addr, tbl)
  | fuel + 1, c, rtemp8, addr, tbl =>
    if rtemp8 ≠ 0xFF ∧ addr < efuseRealContentLen then
      if extHeader rtemp8 then
        let b := c.content addr
        if allWordsDisabled b && b != 0xFF then
          readLoop fuel c (c.content (addr + 1)) (nextAddr c.content (addr + 1)) tbl
        else if b = 0xFF then
          -- the second byte was never written: it is made one that disables all words
          readLoop fuel (c.oneByteWrite addr 0x0F) 0x0F addr tbl
        else
          let r := readSection c.content (extOffset rtemp8 b) (hdrWordEn b) (addr + 1) tbl
          readLoop fuel c (c.content r.1) (nextAddr c.content r.1) r.2
      else
        let r := readSection c.content (hdrOffset rtemp8) (hdrWordEn rtemp8) addr tbl
        readLoop fuel c (c.content r.1) (nextAddr c.content r.1) r.2
    else (c, addr, tbl)

/-- an empty efuse leaves `pbuf` as it is -/
def readEFuse (c : Chip) (offset sizeByte : Nat) (pbuf : Nat → UInt8) : Chip × (Nat → UInt8) :=
  if efuseMapLen < offset + sizeByte then (c, pbuf)
  else if c.content 0 = 0xFF then (c, pbuf)
  else
    let r := readLoop (2 * efuseRealContentLen) c (c.content 0) 1 fun _ => 0xFF
    ({ r.1 with usedBytes := r.2.1 }, write pbuf 0 (read r.2.2 offset sizeByte))

/-- `_FAIL` and the buffer, or `_SUCCESS` and what was read into it -/
def rtwEfuseMapRead (c : Chip) (addr cnts : Nat) (data : Nat → UInt8) :
    Chip × (Nat → UInt8) × Bool :=
  if efuseMapLen < addr + cnts then (c, data, false)
  else
    let r := readEFuse c addr cnts data
    (r.1, r.2, true)

/-- the loop of `hal_EfuseGetCurrentSize_8192E`; every round gets further -/
def getCurrentSizeLoop (content : Nat → UInt8) : Nat → Nat → Nat
  | 0, addr => addr
  | fuel + 1, addr =>
    if addr < efuseRealContentLen ∧ content addr ≠ 0xFF then
      if extHeader (content addr) then
        let b := content (addr + 1)
        if allWordsDisabled b && b != 0xFF then getCurrentSizeLoop content fuel (addr + 2)
        else getCurrentSizeLoop content fuel (addr + 1 + calculateWordCnts (hdrWordEn b) * 2 + 1)
      else
        getCurrentSizeLoop content fuel
          (addr + calculateWordCnts (hdrWordEn (content addr)) * 2 + 1)
    else addr

def getCurrentSize (c : Chip) : Chip × Nat :=
  let addr := getCurrentSizeLoop c.content efuseRealContentLen c.usedBytes
  ({ c with usedBytes := addr }, addr)

/-! ## a packet -/

section
variable {content : Nat → UInt8} {tbl data : Nat → UInt8} {offset wordEn addr i n : Nat}

/-- the map with the enabled words among the `n` from word `i` on -/
def withWords (offset wordEn : Nat) (data : Nat → UInt8) (i n : Nat) (tbl : Nat → UInt8) :
    Nat → UInt8 := fun a =>
  if a / 8 = offset ∧ i ≤ a % 8 / 2 ∧ a % 8 / 2 < i + n ∧ wordEn.testBit (a % 8 / 2) = false then
    data (a % 8)
  else tbl a

theorem withWords_zero : withWords offset wordEn data i 0 tbl = tbl := by
  funext a
  exact if_neg (by omega)

theorem withWords_disabled (h : wordEn.testBit i = true) :
    withWords offset wordEn data i (n + 1) tbl = withWords offset wordEn data (i + 1) n tbl := by
  funext a
  unfold withWords
  refine if_congr ?_ rfl rfl
  constructor
  · rintro ⟨ho, hi, hn, hb⟩
    have hne : a % 8 / 2 ≠ i := by
      intro he
      rw [he, h] at hb
      cases hb
    exact ⟨ho, by omega, by omega, hb⟩
  · rintro ⟨ho, hi, hn, hb⟩
    exact ⟨ho, by omega, by omega, hb⟩

theorem setWord_apply (lo hi : UInt8) (a : Nat) :
    orHigh (setLow tbl offset i lo) offset i hi a =
      if a = offset * 8 + i * 2 then lo else if a = offset * 8 + i * 2 + 1 then hi else tbl a := by
  unfold orHigh setLow
  rw [Function.update_self, UInt8.zero_or, Function.update_idem]
  by_cases h1 : a = offset * 8 + i * 2 + 1
  · subst h1
    rw [Function.update_self, if_neg (Nat.succ_ne_self _), if_pos rfl]
  · rw [Function.update_of_ne h1, if_neg h1]
    by_cases h0 : a = offset * 8 + i * 2
    · subst h0
      rw [Function.update_self, if_pos rfl]
    · rw [Function.update_of_ne h0, if_neg h0]

theorem withWords_enabled (h : wordEn.testBit i = false) (hn : i + (n + 1) ≤ 4) :
    withWords offset wordEn data i (n + 1) tbl = withWords offset wordEn data (i + 1) n
      (orHigh (setLow tbl offset i (data (2 * i))) offset i (data (2 * i + 1))) := by
  funext a
  unfold withWords
  rw [setWord_apply]
  by_cases hw : a / 8 = offset ∧ a % 8 / 2 = i
  · obtain ⟨ho, hi⟩ := hw
    rw [if_pos ⟨ho, by omega, by omega, by rw [hi]; exact h⟩, if_neg (by omega)]
    by_cases h0 : a = offset * 8 + i * 2
    · rw [if_pos h0]
      exact congrArg data (by omega)
    · rw [if_neg h0, if_pos (by omega)]
      exact congrArg data (by omega)
  · rw [if_neg (show ¬a = offset * 8 + i * 2 by omega),
      if_neg (show ¬a = offset * 8 + i * 2 + 1 by omega)]
    refine if_congr ?_ rfl rfl
    constructor
    · rintro ⟨ho, hi, hn, hb⟩
      exact ⟨ho, by omega, by omega, hb⟩
    · rintro ⟨ho, hi, hn, hb⟩
      exact ⟨ho, by omega, by omega, hb⟩

/-- nothing is enabled if there are no bytes -/
theorem withWords_of_nil (h : wordBytes wordEn data i n = []) :
    withWords offset wordEn data i n tbl = tbl := by
  induction n generalizing i with
  | zero => exact withWords_zero
  | succ n ih =>
    obtain ⟨h1, h2⟩ := List.append_eq_nil_iff.mp h
    cases hb : wordEn.testBit i with
    | true =>
      rw [withWords_disabled hb]
      exact ih h2
    | false =>
      rw [hb, if_neg Bool.false_ne_true] at h1
      cases h1

theorem readWords_spec (hn : i + n ≤ 4)
    (hb : read content addr (wordBytes wordEn data i n).length = wordBytes wordEn data i n)
    (hfit : addr + (wordBytes wordEn data i n).length ≤ efuseRealContentLen) :
    readWords content offset n i (wordEn >>> i) addr tbl =
      (addr + (wordBytes wordEn data i n).length, withWords offset wordEn data i n tbl) := by
  induction n generalizing i addr tbl with
  | zero =>
    rw [withWords_zero]
    rfl
  | succ n ih =>
    have hbit : (wordEn >>> i).testBit 0 = wordEn.testBit i := Nat.testBit_shiftRight ..
    have hshift : (wordEn >>> i) >>> 1 = wordEn >>> (i + 1) := (Nat.shiftRight_add ..).symm
    unfold readWords
    rw [hbit, hshift]
    cases h : wordEn.testBit i with
    | true =>
      rw [wordBytes_disabled h] at hb hfit ⊢
      rw [if_pos rfl, withWords_disabled h]
      exact ih (by omega) hb hfit
    | false =>
      obtain ⟨hlo, hhi, hrest⟩ := read_enabled h hb
      rw [wordBytes_enabled h, List.length_append] at hfit ⊢
      have hlen : [data (2 * i), data (2 * i + 1)].length = 2 := rfl
      rw [hlen] at hfit ⊢
      rw [if_neg Bool.false_ne_true, withWords_enabled h hn]
      dsimp only
      rw [hlo, hhi, if_neg (by omega)]
      by_cases hend : efuseRealContentLen ≤ addr + 2
      · -- the content is full, so this was the last word
        have hnil : wordBytes wordEn data (i + 1) n = [] := List.length_eq_zero_iff.mp (by omega)
        rw [if_pos hend, hnil, withWords_of_nil hnil]
        rfl
      · rw [if_neg hend, ih (by omega) hrest (by omega), ← Nat.add_assoc]

end

/-! ## a log -/

section
variable {content : Nat → UInt8} {tbl : Nat → UInt8} {a fuel : Nat} {p : Packet} {ps qs : List Packet}
  {c : Chip}

theorem withWords_all (offset wordEn : Nat) (data tbl : Nat → UInt8) :
    withWords offset wordEn data 0 efuseMaxWordUnit tbl = fun a =>
      if a / pgpktDataSize = offset ∧ wordEn.testBit (a % pgpktDataSize / 2) = false then
        data (a % pgpktDataSize)
      else tbl a := by
  funext a
  unfold withWords
  refine if_congr ?_ rfl rfl
  exact ⟨fun h => ⟨h.1, h.2.2.2⟩, fun h => ⟨h.1, Nat.zero_le _, by
    show a % 8 / 2 < 0 + 4
    omega, h.2⟩⟩

theorem withWords_packet (p : Packet) (tbl : Nat → UInt8) :
    withWords p.offset p.wordEn p.data 0 efuseMaxWordUnit tbl = p.apply tbl :=
  withWords_all p.offset p.wordEn p.data tbl

/-- a packet behind its header -/
theorem readSection_packet (tbl : Nat → UInt8)
    (hb : read content a (wordBytes p.wordEn p.data 0 efuseMaxWordUnit).length =
      wordBytes p.wordEn p.data 0 efuseMaxWordUnit)
    (hfit : a + (wordBytes p.wordEn p.data 0 efuseMaxWordUnit).length ≤ efuseRealContentLen) :
    readSection content p.offset p.wordEn a tbl =
      (a + (wordBytes p.wordEn p.data 0 efuseMaxWordUnit).length, p.apply tbl) := by
  unfold readSection
  rw [if_pos p.offset_lt, ← withWords_packet]
  exact readWords_spec (Nat.le_refl 4) hb hfit

/-- behind the last packet both loops stop -/
theorem blank_of_nil (h : LogAt content a []) : ¬(a < efuseRealContentLen ∧ content a ≠ 0xFF) := by
  rintro ⟨hlt, hne⟩
  exact hne (h.blank a (Nat.le_refl a) hlt)

/-- a round of the loop -/
theorem readLoop_packet (h : LogAt c.content a (p :: ps)) :
    readLoop (fuel + 1) c (c.content a) (nextAddr c.content a) tbl =
      readLoop fuel c (c.content (a + p.bytes.length)) (nextAddr c.content (a + p.bytes.length))
        (p.apply tbl) := by
  obtain ⟨-, hwords, hfit, -⟩ := h.head
  have hlt := p.lt_length_bytes
  have hlen : a + p.header.length + (wordBytes p.wordEn p.data 0 efuseMaxWordUnit).length =
      a + p.bytes.length := by
    unfold Packet.bytes
    rw [List.length_append, Nat.add_assoc]
  have hsec := readSection_packet tbl hwords (by rw [hlen]; exact hfit)
  rw [hlen] at hsec
  have hnext : nextAddr c.content a = a + 1 := if_pos ⟨h.ne_blank, by omega⟩
  rw [hnext, readLoop]
  by_cases ho : p.offset < efuseMaxSectionBase
  · -- a header of one byte
    obtain ⟨hne, hext, hoff, hen⟩ := pgHeader_spec ho p.wordEn_lt
    obtain ⟨ha, hone⟩ := h.short ho
    rw [hone] at hsec
    rw [ha, if_pos ⟨hne, by omega⟩, hext, if_neg Bool.false_ne_true, hoff, hen, hsec]
  · -- a header of two bytes
    obtain ⟨hne, hext⟩ := pgHeaderExt_spec p.offset_lt
    obtain ⟨hne', hall, hoff, hen⟩ := pgExtHeader_spec p.offset_lt p.wordEn_lt
    obtain ⟨ha, hb, htwo⟩ := h.long ho
    rw [htwo] at hsec
    rw [ha, if_pos ⟨hne, by omega⟩, hext, if_pos rfl]
    dsimp only
    rw [hb, hall, Bool.false_and, if_neg Bool.false_ne_true, if_neg hne', hoff, hen, hsec]

theorem readLoop_log (tbl : Nat → UInt8) (h : LogAt c.content a ps) (hfuel : ps.length < fuel) :
    readLoop fuel c (c.content a) (nextAddr c.content a) tbl =
      (c, a + logLen ps, ps.foldl (fun tbl p => p.apply tbl) tbl) := by
  induction ps generalizing a tbl fuel with
  | nil =>
    obtain ⟨fuel, rfl⟩ := Nat.exists_eq_succ_of_ne_zero (Nat.ne_zero_of_lt hfuel)
    have hno := blank_of_nil h
    have hnext : nextAddr c.content a = a := if_neg fun hc => hno ⟨hc.2, hc.1⟩
    rw [hnext]
    exact if_neg fun hc => hno ⟨hc.2, hc.1⟩
  | cons p ps ih =>
    obtain ⟨fuel, rfl⟩ := Nat.exists_eq_succ_of_ne_zero (Nat.ne_zero_of_lt hfuel)
    rw [readLoop_packet h, ih _ h.head.2.2.2 (Nat.lt_of_succ_lt_succ hfuel), logLen_cons, Nat.add_assoc]
    rfl

/-- a packet has three bytes at least -/
theorem length_le_logLen (ps : List Packet) : ps.length * 3 ≤ logLen ps := by
  induction ps with
  | nil => exact Nat.zero_le _
  | cons p ps ih =>
    have hlt := p.lt_length_bytes
    have hpos : 0 < p.header.length := by
      rw [p.length_header]
      split <;> decide
    rw [logLen_cons, List.length_cons]
    omega

/-- the first byte tells whether there is a packet -/
theorem content_zero_iff (h : IsLog content ps) : content 0 = 0xFF ↔ ps = [] := by
  cases ps with
  | nil => exact iff_of_true (h.blank 0 (Nat.le_refl _) (by decide)) rfl
  | cons p ps => exact iff_of_false (LogAt.ne_blank h) (List.cons_ne_nil p ps)

/-- what is read from a log into `pbuf` -/
theorem readEFuse_log (h : IsLog c.content ps) {offset sizeByte : Nat}
    (hsize : offset + sizeByte ≤ efuseMapLen) (pbuf : Nat → UInt8) :
    readEFuse c offset sizeByte pbuf =
      if ps = [] then (c, pbuf)
      else ({ c with usedBytes := logLen ps }, write pbuf 0 (read (mapOf ps) offset sizeByte)) := by
  unfold readEFuse
  rw [if_neg (Nat.not_lt.mpr hsize)]
  by_cases hps : ps = []
  · rw [if_pos hps, if_pos ((content_zero_iff h).mpr hps)]
  · have hne : c.content 0 ≠ 0xFF := fun h0 => hps ((content_zero_iff h).mp h0)
    have hfuel : ps.length < 2 * efuseRealContentLen := by
      have hfit : 0 + logLen ps ≤ 512 := h.fits
      have hle := length_le_logLen ps
      show ps.length < 2 * 512
      omega
    have hloop := readLoop_log (fun _ => 0xFF) h hfuel
    have hnext : nextAddr c.content 0 = 1 := if_pos ⟨hne, by decide⟩
    rw [hnext, Nat.zero_add] at hloop
    rw [if_neg hps, if_neg hne, hloop]
    rfl

/-! ## the end of the log -/

theorem getCurrentSizeLoop_packet (h : LogAt content a (p :: ps)) :
    getCurrentSizeLoop content (fuel + 1) a = getCurrentSizeLoop content fuel (a + p.bytes.length) := by
  obtain ⟨-, -, hfit, -⟩ := h.head
  have hlt := p.lt_length_bytes
  rw [getCurrentSizeLoop, if_pos ⟨by omega, h.ne_blank⟩, p.length_bytes]
  by_cases ho : p.offset < efuseMaxSectionBase
  · obtain ⟨-, hext, -, hen⟩ := pgHeader_spec ho p.wordEn_lt
    obtain ⟨ha, hone⟩ := h.short ho
    rw [ha, hext, if_neg Bool.false_ne_true, hen, hone]
    congr 1
    omega
  · obtain ⟨-, hext⟩ := pgHeaderExt_spec p.offset_lt
    obtain ⟨-, hall, -, hen⟩ := pgExtHeader_spec p.offset_lt p.wordEn_lt
    obtain ⟨ha, hb, htwo⟩ := h.long ho
    rw [ha, hext, if_pos rfl]
    dsimp only
    rw [hb, hall, Bool.false_and, if_neg Bool.false_ne_true, hen, htwo]
    congr 1
    omega

theorem getCurrentSizeLoop_log (h : LogAt content a ps) (hfuel : ps.length < fuel) :
    getCurrentSizeLoop content fuel a = a + logLen ps := by
  induction ps generalizing a fuel with
  | nil =>
    obtain ⟨fuel, rfl⟩ := Nat.exists_eq_succ_of_ne_zero (Nat.ne_zero_of_lt hfuel)
    exact if_neg (blank_of_nil h)
  | cons p ps ih =>
    obtain ⟨fuel, rfl⟩ := Nat.exists_eq_succ_of_ne_zero (Nat.ne_zero_of_lt hfuel)
    rw [getCurrentSizeLoop_packet h, ih h.head.2.2.2 (Nat.lt_of_succ_lt_succ hfuel), logLen_cons,
      Nat.add_assoc]

/-- from the end of any packet -/
theorem getCurrentSize_log (h : IsLog c.content (ps ++ qs)) (hused : c.usedBytes = logLen ps) :
    getCurrentSize c = ({ c with usedBytes := logLen (ps ++ qs) }, logLen (ps ++ qs)) := by
  have hat := LogAt.drop h
  have hfuel : qs.length < efuseRealContentLen := by
    have hfit : 0 + logLen ps + logLen qs ≤ 512 := hat.fits
    have hle := length_le_logLen qs
    show qs.length < 512
    omega
  have hloop := getCurrentSizeLoop_log hat hfuel
  rw [Nat.zero_add, ← hused, hused, ← logLen_append] at hloop
  unfold getCurrentSize
  rw [hused, hloop]

/-- where the search ends, of any content, no packet starts -/
theorem getCurrentSizeLoop_blank (hfuel : efuseRealContentLen ≤ fuel + a)
    (hlt : getCurrentSizeLoop content fuel a < efuseRealContentLen) :
    content (getCurrentSizeLoop content fuel a) = 0xFF := by
  induction fuel generalizing a with
  | zero =>
    rw [Nat.zero_add] at hfuel
    exact absurd hlt (Nat.not_lt.mpr hfuel)
  | succ fuel ih =>
    unfold getCurrentSizeLoop at hlt ⊢
    split at hlt
    · rename_i hc
      rw [if_pos hc]
      split at hlt
      · rename_i hext
        rw [if_pos hext]
        dsimp only at hlt ⊢
        split at hlt
        · rename_i hall
          rw [if_pos hall]
          exact ih (by omega) hlt
        · rename_i hall
          rw [if_neg hall]
          exact ih (by omega) hlt
      · rename_i hext
        rw [if_neg hext]
        exact ih (by omega) hlt
    · rename_i hc
      rw [if_neg hc]
      exact not_not.mp fun hne => hc ⟨hlt, hne⟩

theorem getCurrentSize_blank (c : Chip) : ∃ addr,
    getCurrentSize c = ({ c with usedBytes := addr }, addr) ∧
      (addr < efuseRealContentLen → c.content addr = 0xFF) :=
  ⟨_, rfl, getCurrentSizeLoop_blank (Nat.le_add_right _ _)⟩

end

end Efuse

end Rtl8192eu
