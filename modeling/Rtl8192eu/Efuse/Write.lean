import Rtl8192eu.Efuse.Read

/-!
# Writing a packet

`hal_EfusePgPacketWrite_8192E` and what it calls, for any content: the search for a header without
data (`efuse_PgPacketPartialWrite`), the header writers with their retries, and the data writer.

* `pgPacketWrite`   the whole; words that come out bad are written again in a new packet;
* `partialWrite_blank`   the search starts where nothing is written, so it ends at once;
* `Chip.burn`   what is left of the writers where nothing was written before;
* `pgPacketWrite_log`   a packet is added to a log.
-/

namespace Rtl8192eu

open Mem

namespace Efuse

def efuseRepeatThreshold : Nat := 3

/-- no code sets `MaxSecNum_WiFi` -/
def maxSecNumWiFi : Nat := 0

/-- `mask &= ~BIT(k)` -/
def clearBit (mask k : Nat) : Nat := mask &&& (0xFF ^^^ (1 <<< k))

/-- `PGPKT_STRUCT`; `word_cnts` is `calculateWordCnts` of `word_en` throughout -/
structure PgPkt where
  offset : Nat
  wordEn : Nat
  data : Nat → UInt8

/-! ## data -/

def wordEnableDataRead (wordEn : Nat) (sourdata : Nat → UInt8) : Nat → UInt8 := fun i =>
  if wordEn.testBit (i / 2) then 0xFF else sourdata i

/-- the `n` words from word `i` on, and `badworden` -/
def wordEnableDataWrite (wordEn : Nat) (data : Nat → UInt8) :
    Nat → Nat → Chip → Nat → Nat → Chip × Nat
  | _, 0, c, _, badworden => (c, badworden)
  | i, n + 1, c, addr, badworden =>
    if wordEn.testBit i then wordEnableDataWrite wordEn data (i + 1) n c addr badworden
    else
      let c := (c.oneByteWrite addr (data (2 * i))).oneByteWrite (addr + 1) (data (2 * i + 1))
      let bad := data (2 * i) != c.content addr || data (2 * i + 1) != c.content (addr + 1)
      wordEnableDataWrite wordEn data (i + 1) n c (addr + 2)
        (if bad then clearBit badworden i else badworden)

/-- `Hal_EfuseWordEnableDataWrite8192E` -/
def efuseWordEnableDataWrite (c : Chip) (addr wordEn : Nat) (data : Nat → UInt8) : Chip × Nat :=
  wordEnableDataWrite wordEn data 0 efuseMaxWordUnit c addr 0x0F

/-! ## headers without data -/

/-- three tries -/
def writeFake (addr : Nat) (v : UInt8) : Nat → Chip → Chip
  | 0, c => c
  | n + 1, c =>
    let c := c.oneByteWrite addr v
    if c.content addr = v then c else writeFake addr v n c

/-- the recovered address, or `ErrOffset`; the part for a header of one byte is inside of the other -/
def pgPacketExceptionHandle (c : Chip) (errOffset : Nat) : Chip × Nat :=
  let header := c.content errOffset
  if extHeader header then
    let s := (header.toNat &&& 0xF0) >>> 4
    let offset := errOffset + 1
    if c.content (offset + 1) = 0xFF ∧ c.content (offset + 2) = 0xFF then
      if s ∈ [0x0, 0x2, 0x4, 0x6, 0x8, 0xA, 0xC] then (writeFake offset 0x27 3 c, errOffset)
      else if s = 0xE then (writeFake offset 0x17 3 c, errOffset)
      else ((c.oneByteWrite (offset + 1) 0xFF).oneByteWrite (offset + 2) 0xFF, offset + 3)
    else if allWordsDisabled header && c.content (offset + 1) == 0xFF then
      let c := writeFake offset ((header &&& 0xF0) ||| 0x7) 3 c
      ((c.oneByteWrite (offset + 1) 0xFF).oneByteWrite (offset + 2) 0xFF, offset + 2)
    else (c, errOffset)
  else (c, errOffset)

def checkIfDatafollowed (c : Chip) (wordCnts startAddr : Nat) : Bool :=
  (List.range (wordCnts * 2)).any fun i => c.content (startAddr + i) != 0xFF

/-- the words that are enabled in both -/
def wordEnMatched (target cur : Nat) : Nat :=
  [0, 1, 2, 3].foldl
    (fun m k => if !target.testBit k && !cur.testBit k then clearBit m k else m) 0x0F

/-- the words of `matchedWden` are disabled -/
def disableWords (wordEn matchedWden : Nat) : Nat :=
  [0, 1, 2, 3].foldl (fun m k => if matchedWden.testBit k then m else m ||| 1 <<< k) wordEn

/-- a header with the number of a section and a mask, whose last byte is at `startAddr`: the next
address to look at, and what is left of the target -/
def partialPacket (pgPacketWrite : Chip → Nat → Nat → (Nat → UInt8) → Chip × Bool) (c : Chip)
    (startAddr : Nat) (target : PgPkt) (offset wordEn : Nat) : Chip × Option (Nat × PgPkt) :=
  let next := startAddr + calculateWordCnts wordEn * 2 + 1
  let matchedWden := wordEnMatched target.wordEn wordEn
  if maxSecNumWiFi < offset then (c, none)
  else if offset = target.offset ∧
      checkIfDatafollowed c (calculateWordCnts wordEn) (startAddr + 1) = false ∧
      matchedWden ≠ 0xF then
    let r := efuseWordEnableDataWrite c (startAddr + 1) matchedWden target.data
    -- bad words are written again
    let w := if r.2 ≠ 0x0F then pgPacketWrite r.1 target.offset r.2 target.data else (r.1, true)
    if w.2 then (w.1, some (next, { target with wordEn := disableWords target.wordEn matchedWden }))
    else (w.1, none)
  else (c, some (next, target))

/-- the loop of `efuse_PgPacketPartialWrite`; every round gets further -/
def partialWriteLoop (pgPacketWrite : Chip → Nat → Nat → (Nat → UInt8) → Chip × Bool) :
    Nat → Chip → Nat → PgPkt → Chip × Option (Nat × PgPkt)
  | 0, c, _, _ => (c, none)
  | fuel + 1, c, startAddr, target =>
    if efuseMaxAvailableLen ≤ startAddr then (c, none)
    else if c.content startAddr = 0xFF then (c, some (startAddr, target))
    else
      let header := c.content startAddr
      if extHeader header then
        let b := c.content (startAddr + 1)
        if allWordsDisabled b then
          let r := pgPacketExceptionHandle c startAddr
          if r.2 = startAddr then (r.1, none) else partialWriteLoop pgPacketWrite fuel r.1 r.2 target
        else
          match partialPacket pgPacketWrite c (startAddr + 1) target (extOffset header b)
              (hdrWordEn b) with
          | (c, none) => (c, none)
          | (c, some (next, target)) => partialWriteLoop pgPacketWrite fuel c next target
      else
        let r := if allWordsDisabled header then pgPacketExceptionHandle c startAddr
          else (c, startAddr)
        let header := if r.2 ≠ startAddr then r.1.content startAddr else header
        match partialPacket pgPacketWrite r.1 startAddr target (hdrOffset header)
            (hdrWordEn header) with
        | (c, none) => (c, none)
        | (c, some (next, target)) => partialWriteLoop pgPacketWrite fuel c next target

/-- where the header goes, and what is left of the target -/
def partialWrite (pgPacketWrite : Chip → Nat → Nat → (Nat → UInt8) → Chip × Bool) (c : Chip)
    (target : PgPkt) : Chip × Option (Nat × PgPkt) :=
  partialWriteLoop pgPacketWrite efuseRealContentLen c (c.usedBytes % efuseRealContentLen) target

/-! ## headers -/

/-- the tries of a header byte that are left, or `none` if there are no more -/
def retryHeader (addr : Nat) (header : UInt8) : Nat → Chip → Chip × Option Nat
  | left, c =>
    if c.content addr = 0xFF ∨ header ≠ c.content addr then
      match left with
      | 0 => (c, none)
      | left + 1 => retryHeader addr header left (c.oneByteWrite addr header)
    else (c, some left)

def writeHeaderByte (c : Chip) (addr : Nat) (header : UInt8) (left : Nat) : Chip × Option Nat :=
  retryHeader addr header left (c.oneByteWrite addr header)

/-- the address of the last byte of the header.  Behind the retries the byte is right, so that
`hal_EfuseFixHeaderProcess` is never called; a mask without words ends a round -/
def pgPacketWrite2ByteLoop (target : PgPkt) : Nat → Chip → Nat → Nat → Chip × Option Nat
  | 0, c, addr, _ => (c, some addr)
  | fuel + 1, c, addr, left =>
    if addr < efuseMaxAvailableLen then
      match writeHeaderByte c addr (pgHeaderExt target.offset) left with
      | (c, none) => (c, none)
      | (c, some left) =>
        let header := pgExtHeader target.offset target.wordEn
        match writeHeaderByte c (addr + 1) header left with
        | (c, none) => (c, none)
        | (c, some left) =>
          if allWordsDisabled header then
            match left with
            | 0 => (c, none)
            | left + 1 => pgPacketWrite2ByteLoop target fuel c (addr + 2) left
          else (c, some (addr + 1))
    else (c, some addr)

def pgPacketWrite2ByteHeader (c : Chip) (addr : Nat) (target : PgPkt) : Chip × Option Nat :=
  if efuseMaxAvailableLen ≤ addr then (c, none)
  -- every round but the last takes a try
  else pgPacketWrite2ByteLoop target (efuseRepeatThreshold + 2) c addr (efuseRepeatThreshold + 1)

def pgPacketWrite1ByteHeader (c : Chip) (addr : Nat) (target : PgPkt) : Chip × Option Nat :=
  let r := writeHeaderByte c addr (pgHeader target.offset target.wordEn) (efuseRepeatThreshold + 1)
  (r.1, r.2.map fun _ => addr)

def pgPacketWriteHeader (c : Chip) (addr : Nat) (target : PgPkt) : Chip × Option Nat :=
  if efuseMaxSectionBase ≤ target.offset then pgPacketWrite2ByteHeader c addr target
  else pgPacketWrite1ByteHeader c addr target

def pgPacketWriteData (c : Chip) (addr : Nat) (target : PgPkt) : Chip × Bool :=
  let r := efuseWordEnableDataWrite c (addr + 1) target.wordEn target.data
  (r.1, r.2 == 0x0F)

/-! ## packets -/

/-- `hal_EfusePgPacketWrite_8192E`, with the call for bad words -/
def pgPacketWriteWith (rewrite : Chip → Nat → Nat → (Nat → UInt8) → Chip × Bool) (c : Chip)
    (offset wordEn : Nat) (pData : Nat → UInt8) : Chip × Bool :=
  -- `efuse_PgPacketCheck`
  let s := getCurrentSize c
  if efuseMaxAvailableLen ≤ s.2 then (s.1, false)
  else
    match partialWrite rewrite s.1 ⟨offset, wordEn, wordEnableDataRead wordEn pData⟩ with
    | (c, none) => (c, false)
    | (c, some (startAddr, target)) =>
      match pgPacketWriteHeader c startAddr target with
      | (c, none) => (c, false)
      | (c, some addr) => pgPacketWriteData c addr target

/-- with `depth` calls inside of each other -/
def pgPacketWrite : Nat → Chip → Nat → Nat → (Nat → UInt8) → Chip × Bool
  | 0, c, _, _, _ => (c, false)
  | depth + 1, c, offset, wordEn, pData =>
    pgPacketWriteWith (pgPacketWrite depth) c offset wordEn pData

/-! ## where nothing is written -/

/-- `bs` is programmed from `addr` on -/
def Chip.burn (c : Chip) (addr : Nat) (bs : List UInt8) : Chip :=
  { c with content := write c.content addr bs, writes := c.writes + bs.length }

/-- nothing is written in `n` bytes from `addr` on -/
def Chip.Blank (c : Chip) (addr n : Nat) : Prop := ∀ i, addr ≤ i → i < addr + n → c.content i = 0xFF

section
variable {c : Chip} {addr n i wordEn offset : Nat} {b header : UInt8} {xs ys : List UInt8}
  {data : Nat → UInt8}

theorem Chip.Blank.head (h : c.Blank addr (n + 1)) : c.content addr = 0xFF :=
  h addr (Nat.le_refl _) (by omega)

/-- behind what was programmed it is still so -/
theorem Chip.Blank.burn (h : c.Blank addr (xs.length + n)) :
    (c.burn addr xs).Blank (addr + xs.length) n := by
  intro i hi hlt
  show write c.content addr xs i = 0xFF
  rw [write_of_ge hi]
  exact h i (by omega) (by omega)

theorem Chip.burn_nil : c.burn addr [] = c := by
  unfold Chip.burn
  rw [write_nil]
  rfl

theorem Chip.burn_append (xs ys : List UInt8) :
    (c.burn addr xs).burn (addr + xs.length) ys = c.burn addr (xs ++ ys) := by
  unfold Chip.burn
  dsimp only
  rw [write_append, List.length_append, Nat.add_assoc]

theorem Chip.burn_one : (c.burn addr [b]).content addr = b := write_one_self b

theorem Chip.oneByteWrite_blank (h : c.content addr = 0xFF) :
    c.oneByteWrite addr b = c.burn addr [b] := by
  have hand : c.content addr &&& b = b := by
    rw [h]
    exact UInt8.toBitVec_inj.mp (BitVec.allOnes_and)
  have hw : Function.update c.content addr b = write c.content addr [b] := by
    funext i
    by_cases hi : i = addr
    · subst hi
      rw [Function.update_self, write_one_self]
    · rw [Function.update_of_ne hi, write_one_of_ne b hi]
  unfold Chip.oneByteWrite Chip.burn
  rw [hand, hw]
  rfl

/-- the words come out as they were given -/
theorem wordEnableDataWrite_blank (badworden : Nat)
    (h : c.Blank addr (wordBytes wordEn data i n).length) :
    wordEnableDataWrite wordEn data i n c addr badworden =
      (c.burn addr (wordBytes wordEn data i n), badworden) := by
  induction n generalizing i c addr with
  | zero => exact Prod.ext Chip.burn_nil.symm rfl
  | succ n ih =>
    unfold wordEnableDataWrite
    unfold wordBytes at h ⊢
    cases hi : wordEn.testBit i with
    | true =>
      rw [hi, if_pos rfl, List.nil_append] at h
      rw [if_pos rfl, if_pos rfl, List.nil_append]
      exact ih h
    | false =>
      rw [hi, if_neg Bool.false_ne_true, List.length_append] at h
      rw [if_neg Bool.false_ne_true, if_neg Bool.false_ne_true]
      -- both bytes of the word, and the words behind it
      have hword : (c.oneByteWrite addr (data (2 * i))).oneByteWrite (addr + 1) (data (2 * i + 1)) =
          c.burn addr [data (2 * i), data (2 * i + 1)] := by
        have hlo : c.content addr = 0xFF := h addr (Nat.le_refl _) (by
          show addr < addr + (2 + _)
          omega)
        have hhi : (c.burn addr [data (2 * i)]).content (addr + 1) = 0xFF := by
          refine (write_one_of_ne _ (Nat.succ_ne_self addr)).trans (h (addr + 1) (Nat.le_succ _) ?_)
          show addr + 1 < addr + (2 + _)
          omega
        rw [Chip.oneByteWrite_blank hlo, Chip.oneByteWrite_blank hhi]
        exact Chip.burn_append [data (2 * i)] [data (2 * i + 1)]
      have hread : read (c.burn addr [data (2 * i), data (2 * i + 1)]).content addr 2 =
          [data (2 * i), data (2 * i + 1)] := read_write_self rfl
      have hlo : (c.burn addr [data (2 * i), data (2 * i + 1)]).content addr = data (2 * i) :=
        List.head_eq_of_cons_eq hread
      have hhi : (c.burn addr [data (2 * i), data (2 * i + 1)]).content (addr + 1) =
          data (2 * i + 1) := List.head_eq_of_cons_eq (List.tail_eq_of_cons_eq hread)
      have hrest : wordEnableDataWrite wordEn data (i + 1) n
          (c.burn addr [data (2 * i), data (2 * i + 1)]) (addr + 2) badworden =
            ((c.burn addr [data (2 * i), data (2 * i + 1)]).burn (addr + 2)
              (wordBytes wordEn data (i + 1) n), badworden) := ih h.burn
      dsimp only
      rw [hword, hlo, hhi, bne_self_eq_false, bne_self_eq_false, Bool.or_false,
        if_neg Bool.false_ne_true, hrest, ← Chip.burn_append]
      rfl

/-- a header byte is right at once -/
theorem writeHeaderByte_blank (h : c.content addr = 0xFF) (hne : header ≠ 0xFF) (left : Nat) :
    writeHeaderByte c addr header left = (c.burn addr [header], some left) := by
  unfold writeHeaderByte
  rw [Chip.oneByteWrite_blank h]
  unfold retryHeader
  rw [Chip.burn_one, if_neg (not_or.mpr ⟨hne, not_not.mpr rfl⟩)]

/-- the search begins behind the last packet, and ends there -/
theorem partialWrite_blank (pgPacketWrite : Chip → Nat → Nat → (Nat → UInt8) → Chip × Bool)
    (target : PgPkt) (hlt : c.usedBytes < efuseMaxAvailableLen)
    (h : c.content c.usedBytes = 0xFF) :
    partialWrite pgPacketWrite c target = (c, some (c.usedBytes, target)) := by
  have hmod : c.usedBytes % efuseRealContentLen = c.usedBytes :=
    Nat.mod_eq_of_lt (Nat.lt_of_lt_of_le hlt (by decide))
  unfold partialWrite
  rw [hmod]
  show partialWriteLoop pgPacketWrite (511 + 1) c c.usedBytes target = _
  rw [partialWriteLoop, if_neg (Nat.not_le.mpr hlt), if_pos h]

/-- of any content: the search never gets to a header, and no bad words are written again -/
theorem pgPacketWriteWith_eq (rewrite rewrite' : Chip → Nat → Nat → (Nat → UInt8) → Chip × Bool)
    (c : Chip) (offset wordEn : Nat) (pData : Nat → UInt8) :
    pgPacketWriteWith rewrite c offset wordEn pData =
      pgPacketWriteWith rewrite' c offset wordEn pData := by
  obtain ⟨addr, hsize, hblank⟩ := getCurrentSize_blank c
  unfold pgPacketWriteWith
  rw [hsize]
  dsimp only
  by_cases hmax : efuseMaxAvailableLen ≤ addr
  · rw [if_pos hmax, if_pos hmax]
  · have hlt := Nat.lt_of_not_le hmax
    have hff := hblank (Nat.lt_trans hlt (by decide))
    rw [if_neg hmax, if_neg hmax, partialWrite_blank (c := { c with usedBytes := addr }) rewrite _ hlt hff,
      partialWrite_blank (c := { c with usedBytes := addr }) rewrite' _ hlt hff]

theorem pgPacketWriteHeader_blank (p : Packet) (d : Nat → UInt8)
    (h : c.Blank addr p.bytes.length) (hlt : addr < efuseMaxAvailableLen) :
    pgPacketWriteHeader c addr ⟨p.offset, p.wordEn, d⟩ =
      (c.burn addr p.header, some (addr + p.header.length - 1)) := by
  have hlen := p.lt_length_bytes
  have hblank : c.content addr = 0xFF := h addr (Nat.le_refl _) (by omega)
  unfold pgPacketWriteHeader
  by_cases ho : p.offset < efuseMaxSectionBase
  · have hheader : p.header = [pgHeader p.offset p.wordEn] := if_pos ho
    rw [if_neg (Nat.not_le.mpr ho), hheader]
    unfold pgPacketWrite1ByteHeader
    rw [writeHeaderByte_blank hblank (pgHeader_spec ho p.wordEn_lt).1]
    rfl
  · have hheader : p.header = [pgHeaderExt p.offset, pgExtHeader p.offset p.wordEn] := if_neg ho
    obtain ⟨hne, -⟩ := pgHeaderExt_spec p.offset_lt
    obtain ⟨hne', hall, -, -⟩ := pgExtHeader_spec p.offset_lt p.wordEn_lt
    have hblank' : (c.burn addr [pgHeaderExt p.offset]).content (addr + 1) = 0xFF :=
      (write_one_of_ne _ (Nat.succ_ne_self addr)).trans (h (addr + 1) (Nat.le_succ _) (by omega))
    have hburn : (c.burn addr [pgHeaderExt p.offset]).burn (addr + 1)
        [pgExtHeader p.offset p.wordEn] = c.burn addr p.header := by
      rw [hheader]
      exact Chip.burn_append [pgHeaderExt p.offset] [pgExtHeader p.offset p.wordEn]
    rw [if_pos (Nat.le_of_not_lt ho)]
    unfold pgPacketWrite2ByteHeader
    rw [if_neg (Nat.not_le.mpr hlt), pgPacketWrite2ByteLoop, if_pos hlt,
      writeHeaderByte_blank hblank hne]
    dsimp only
    rw [writeHeaderByte_blank hblank' hne']
    dsimp only
    rw [hall, if_neg Bool.false_ne_true, hburn, hheader]
    rfl

/-- the words that are not enabled do not get into the packet -/
theorem wordBytes_dataRead : wordBytes wordEn (wordEnableDataRead wordEn data) i n =
    wordBytes wordEn data i n := by
  induction n generalizing i with
  | zero => rfl
  | succ n ih =>
    unfold wordBytes
    rw [ih]
    cases hi : wordEn.testBit i with
    | true => rfl
    | false =>
      have hlo : wordEnableDataRead wordEn data (2 * i) = data (2 * i) := by
        unfold wordEnableDataRead
        rw [Nat.mul_div_cancel_left i (by decide), hi, if_neg Bool.false_ne_true]
      have hhi : wordEnableDataRead wordEn data (2 * i + 1) = data (2 * i + 1) := by
        unfold wordEnableDataRead
        rw [show (2 * i + 1) / 2 = i by omega, hi, if_neg Bool.false_ne_true]
      rw [hlo, hhi]

/-- the words behind a header -/
theorem pgPacketWriteData_blank (p : Packet) (h : c.Blank (addr + 1)
      (wordBytes p.wordEn p.data 0 efuseMaxWordUnit).length) :
    pgPacketWriteData c addr ⟨p.offset, p.wordEn, wordEnableDataRead p.wordEn p.data⟩
      = (c.burn (addr + 1) (wordBytes p.wordEn p.data 0 efuseMaxWordUnit), true) := by
  rw [← wordBytes_dataRead] at h ⊢
  unfold pgPacketWriteData efuseWordEnableDataWrite
  rw [wordEnableDataWrite_blank 0x0F h]
  rfl

/-- **A packet goes behind the log.** -/
theorem pgPacketWrite_log {ps qs : List Packet} (p : Packet) (depth : Nat)
    (h : IsLog c.content (ps ++ qs)) (hused : c.usedBytes = logLen ps)
    (hfit : logLen (ps ++ qs) + p.bytes.length ≤ efuseMaxAvailableLen) :
    pgPacketWrite (depth + 1) c p.offset p.wordEn p.data
      = (({ c with usedBytes := logLen (ps ++ qs) } : Chip).burn (logLen (ps ++ qs)) p.bytes, true) := by
  have hlen := p.lt_length_bytes
  have hlt : logLen (ps ++ qs) < efuseMaxAvailableLen := by omega
  have hmax : efuseMaxAvailableLen ≤ efuseRealContentLen := by decide
  have hpos : 0 < p.header.length := by
    rw [p.length_header]
    split <;> decide
  have hblank : ({ c with usedBytes := logLen (ps ++ qs) } : Chip).Blank (logLen (ps ++ qs))
      p.bytes.length := by
    intro i hi hilt
    exact h.blank i (by rw [Nat.zero_add]; exact hi) (by omega)
  have hstart : partialWrite (pgPacketWrite depth) { c with usedBytes := logLen (ps ++ qs) }
      ⟨p.offset, p.wordEn, wordEnableDataRead p.wordEn p.data⟩ = _ :=
    partialWrite_blank (pgPacketWrite depth) _ hlt
      (hblank _ (Nat.le_refl _) (by show logLen (ps ++ qs) < _; omega))
  have hheader := pgPacketWriteHeader_blank p (wordEnableDataRead p.wordEn p.data) hblank hlt
  have hsplit : p.bytes.length
      = p.header.length + (wordBytes p.wordEn p.data 0 efuseMaxWordUnit).length := List.length_append
  rw [hsplit] at hblank
  have hwords := hblank.burn
  have hnext : logLen (ps ++ qs) + p.header.length - 1 + 1 = logLen (ps ++ qs) + p.header.length := by
    omega
  rw [← hnext] at hwords
  rw [pgPacketWrite]
  unfold pgPacketWriteWith
  rw [getCurrentSize_log h hused]
  dsimp only
  rw [if_neg (Nat.not_le.mpr hlt), hstart]
  dsimp only
  rw [hheader]
  dsimp only
  rw [pgPacketWriteData_blank p hwords, hnext, Chip.burn_append]
  rfl

end

end Efuse

end Rtl8192eu
