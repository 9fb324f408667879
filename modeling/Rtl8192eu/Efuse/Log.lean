import Mathlib.Logic.Function.Basic
import Rtl8192eu.Lib.Mem

/-!
# The log in the efuse

The efuse is an array of bytes whose bits can be cleared and never set.  The map of 64 sections of 8
bytes is kept in it as a log of packets, each with the number of its section, a mask of the words
that it does not change, and the new words.  Behind the last packet all bytes are `0xFF`.

* `Chip`       the content, and what the driver remembers of it;
* `Packet`, `Packet.bytes`   a packet, with a header of one or two bytes;
* `IsLog content ps`   the content is the log of `ps`;
* `mapOf ps`   the map that the packets build up.
-/

namespace Rtl8192eu

open Mem

namespace Efuse

def efuseRealContentLen : Nat := 512
def efuseMapLen : Nat := 512
def efuseMaxSection : Nat := 64
def efuseMaxWordUnit : Nat := 4
/-- from here on a section has a header of two bytes -/
def efuseMaxSectionBase : Nat := 16
def efuseOobProtectBytes : Nat := 15
def pgpktDataSize : Nat := 8

/-- `TYPE_AVAILABLE_EFUSE_BYTES_TOTAL`, and `.._BANK`: there is one bank -/
def efuseMaxAvailableLen : Nat := efuseRealContentLen - efuseOobProtectBytes

structure Chip where
  content : Nat → UInt8
  /-- `EfuseUsedBytes` -/
  usedBytes : Nat := 0
  /-- how many bytes were programmed -/
  writes : Nat := 0

/-- a bit is never set -/
def Chip.oneByteWrite (c : Chip) (addr : Nat) (data : UInt8) : Chip :=
  { c with
    content := Function.update c.content addr (c.content addr &&& data)
    writes := c.writes + 1 }

/-! ## headers -/

def extHeader (header : UInt8) : Bool := header &&& 0x1F == 0x0F
def allWordsDisabled (wde : UInt8) : Bool := wde &&& 0x0F == 0x0F

/-- a word is enabled by a bit that is zero -/
def calculateWordCnts (wordEn : Nat) : Nat :=
  (if wordEn.testBit 0 then 0 else 1) + (if wordEn.testBit 1 then 0 else 1)
    + (if wordEn.testBit 2 then 0 else 1) + (if wordEn.testBit 3 then 0 else 1)

def pgHeader (offset wordEn : Nat) : UInt8 := UInt8.ofNat (((offset <<< 4) &&& 0xF0) ||| wordEn)

/-- the two bytes of a long header -/
def pgHeaderExt (offset : Nat) : UInt8 := UInt8.ofNat (((offset &&& 0x07) <<< 5) ||| 0x0F)
def pgExtHeader (offset wordEn : Nat) : UInt8 := UInt8.ofNat (((offset &&& 0x78) <<< 1) ||| wordEn)

def hdrOffset (b : UInt8) : Nat := (b.toNat >>> 4) &&& 0x0F
def hdrWordEn (b : UInt8) : Nat := b.toNat &&& 0x0F
def extOffset (b b' : UInt8) : Nat := ((b'.toNat &&& 0xF0) >>> 1) ||| ((b.toNat &&& 0xE0) >>> 5)

/-- what is read in a short header -/
theorem pgHeader_spec {offset wordEn : Nat} (ho : offset < efuseMaxSectionBase) (hw : wordEn < 15) :
    pgHeader offset wordEn ≠ 0xFF ∧ extHeader (pgHeader offset wordEn) = false ∧
      hdrOffset (pgHeader offset wordEn) = offset ∧ hdrWordEn (pgHeader offset wordEn) = wordEn := by
  have h : ∀ o < 16, ∀ w < 15, pgHeader o w ≠ 0xFF ∧ extHeader (pgHeader o w) = false ∧
      hdrOffset (pgHeader o w) = o ∧ hdrWordEn (pgHeader o w) = w := by
    decide +kernel
  exact h offset ho wordEn hw

theorem pgHeaderExt_spec {offset : Nat} (ho : offset < efuseMaxSection) :
    pgHeaderExt offset ≠ 0xFF ∧ extHeader (pgHeaderExt offset) = true := by
  have h : ∀ o < 64, pgHeaderExt o ≠ 0xFF ∧ extHeader (pgHeaderExt o) = true := by
    decide +kernel
  exact h offset ho

/-- what is read in a long header -/
theorem pgExtHeader_spec {offset wordEn : Nat} (ho : offset < efuseMaxSection) (hw : wordEn < 15) :
    pgExtHeader offset wordEn ≠ 0xFF ∧ allWordsDisabled (pgExtHeader offset wordEn) = false ∧
      extOffset (pgHeaderExt offset) (pgExtHeader offset wordEn) = offset ∧
      hdrWordEn (pgExtHeader offset wordEn) = wordEn := by
  have h : ∀ o < 64, ∀ w < 15, pgExtHeader o w ≠ 0xFF ∧
      allWordsDisabled (pgExtHeader o w) = false ∧
      extOffset (pgHeaderExt o) (pgExtHeader o w) = o ∧ hdrWordEn (pgExtHeader o w) = w := by
    decide +kernel
  exact h offset ho wordEn hw

/-! ## packets -/

structure Packet where
  /-- the section -/
  offset : Nat
  wordEn : Nat
  /-- the words of the section; those that are not enabled do not matter -/
  data : Nat → UInt8
  offset_lt : offset < efuseMaxSection
  /-- a word is enabled -/
  wordEn_lt : wordEn < 15

/-- the bytes of the enabled words among the `n` from word `i` on -/
def wordBytes (wordEn : Nat) (data : Nat → UInt8) : Nat → Nat → List UInt8
  | _, 0 => []
  | i, n + 1 => (if wordEn.testBit i then [] else [data (2 * i), data (2 * i + 1)])
      ++ wordBytes wordEn data (i + 1) n

namespace Packet

def header (p : Packet) : List UInt8 :=
  if p.offset < efuseMaxSectionBase then [pgHeader p.offset p.wordEn]
  else [pgHeaderExt p.offset, pgExtHeader p.offset p.wordEn]

def bytes (p : Packet) : List UInt8 := p.header ++ wordBytes p.wordEn p.data 0 efuseMaxWordUnit

/-- the map with the words of the packet -/
def apply (p : Packet) (tbl : Nat → UInt8) : Nat → UInt8 := fun a =>
  if a / pgpktDataSize = p.offset ∧ p.wordEn.testBit (a % pgpktDataSize / 2) = false then
    p.data (a % pgpktDataSize)
  else tbl a

end Packet

def logBytes (ps : List Packet) : List UInt8 := ps.flatMap Packet.bytes

/-- where the log ends -/
def logLen (ps : List Packet) : Nat := (logBytes ps).length

def mapOf (ps : List Packet) : Nat → UInt8 := ps.foldl (fun tbl p => p.apply tbl) fun _ => 0xFF

/-- from `a` on there are the packets `ps`, and nothing behind them -/
structure LogAt (content : Nat → UInt8) (a : Nat) (ps : List Packet) : Prop where
  packets : read content a (logLen ps) = logBytes ps
  fits : a + logLen ps ≤ efuseRealContentLen
  blank : ∀ i, a + logLen ps ≤ i → i < efuseRealContentLen → content i = 0xFF

def IsLog (content : Nat → UInt8) (ps : List Packet) : Prop := LogAt content 0 ps

variable {content : Nat → UInt8} {a : Nat} {ps qs : List Packet} {p : Packet} {wordEn : Nat}
  {data : Nat → UInt8}

theorem wordBytes_disabled {i n : Nat} (h : wordEn.testBit i = true) :
    wordBytes wordEn data i (n + 1) = wordBytes wordEn data (i + 1) n := by
  rw [wordBytes, h, if_pos rfl, List.nil_append]

theorem wordBytes_enabled {i n : Nat} (h : wordEn.testBit i = false) :
    wordBytes wordEn data i (n + 1) = [data (2 * i), data (2 * i + 1)] ++ wordBytes wordEn data (i + 1) n := by
  rw [wordBytes, h, if_neg Bool.false_ne_true]

/-- the first word, and those behind it -/
theorem read_enabled {addr i n : Nat} (h : wordEn.testBit i = false)
    (hb : read content addr (wordBytes wordEn data i (n + 1)).length = wordBytes wordEn data i (n + 1)) :
    content addr = data (2 * i) ∧ content (addr + 1) = data (2 * i + 1)
      ∧ read content (addr + 2) (wordBytes wordEn data (i + 1) n).length = wordBytes wordEn data (i + 1) n := by
  rw [wordBytes_enabled h] at hb
  obtain ⟨hword, hrest⟩ := read_eq_append.mp hb
  exact ⟨List.head_eq_of_cons_eq hword, List.head_eq_of_cons_eq (List.tail_eq_of_cons_eq hword), hrest⟩

theorem length_wordBytes (wordEn : Nat) (data : Nat → UInt8) :
    (wordBytes wordEn data 0 efuseMaxWordUnit).length = calculateWordCnts wordEn * 2 := by
  unfold calculateWordCnts
  show (wordBytes wordEn data 0 4).length = _
  simp only [wordBytes]
  cases wordEn.testBit 0 <;> cases wordEn.testBit 1 <;> cases wordEn.testBit 2 <;>
    cases wordEn.testBit 3 <;> rfl

theorem calculateWordCnts_pos (h : wordEn < 15) : 0 < calculateWordCnts wordEn := by
  have hall : ∀ w < 15, 0 < calculateWordCnts w := by decide
  exact hall wordEn h

theorem Packet.length_header (p : Packet) :
    p.header.length = if p.offset < efuseMaxSectionBase then 1 else 2 := by
  unfold Packet.header
  split <;> rfl

theorem Packet.length_bytes (p : Packet) :
    p.bytes.length = p.header.length + calculateWordCnts p.wordEn * 2 := by
  unfold Packet.bytes
  rw [List.length_append, length_wordBytes]

theorem Packet.lt_length_bytes (p : Packet) : p.header.length + 1 < p.bytes.length := by
  have hpos := calculateWordCnts_pos p.wordEn_lt
  rw [p.length_bytes]
  omega

theorem logBytes_append : logBytes (ps ++ qs) = logBytes ps ++ logBytes qs := List.flatMap_append

theorem logLen_append : logLen (ps ++ qs) = logLen ps + logLen qs := by
  unfold logLen
  rw [logBytes_append, List.length_append]

theorem logLen_cons : logLen (p :: ps) = p.bytes.length + logLen ps := by
  unfold logLen logBytes
  rw [List.flatMap_cons, List.length_append]

theorem mapOf_append : mapOf (ps ++ qs) = qs.foldl (fun tbl p => p.apply tbl) (mapOf ps) :=
  List.foldl_append

theorem logBytes_cons : logBytes (p :: ps) = p.bytes ++ logBytes ps := List.flatMap_cons

theorem logLen_nil : logLen [] = 0 := rfl

/-- a packet is written behind the last one -/
theorem LogAt.append (h : LogAt content a ps)
    (hfit : a + logLen ps + p.bytes.length ≤ efuseRealContentLen) :
    LogAt (write content (a + logLen ps) p.bytes) a (ps ++ [p]) where
  packets := by
    have hl : logBytes (ps ++ [p]) = logBytes ps ++ p.bytes := by
      rw [logBytes_append, logBytes_cons]
      exact congrArg (logBytes ps ++ ·) (List.append_nil _)
    have hlen : logLen (ps ++ [p]) = logLen ps + p.bytes.length := by
      rw [logLen_append, logLen_cons, logLen_nil, Nat.add_zero]
    rw [hlen, read_write_append, h.packets, hl]
  fits := by
    rw [logLen_append, logLen_cons, logLen_nil]
    omega
  blank i hi hlt := by
    rw [logLen_append, logLen_cons, logLen_nil] at hi
    rw [write_of_ge (by omega)]
    exact h.blank i (by omega) hlt

/-- the packets behind `ps` -/
theorem LogAt.drop (h : LogAt content a (ps ++ qs)) : LogAt content (a + logLen ps) qs where
  packets := by
    have hp := h.packets
    rw [logBytes_append] at hp
    unfold logLen at hp ⊢
    rw [logBytes_append] at hp
    exact (read_eq_append.mp hp).2
  fits := by
    have hf := h.fits
    rw [logLen_append] at hf
    omega
  blank i hi hlt := by
    refine h.blank i ?_ hlt
    rw [logLen_append]
    omega

/-- the first packet: its header, its words, and the packets behind it -/
theorem LogAt.head (h : LogAt content a (p :: ps)) :
    read content a p.header.length = p.header ∧
      read content (a + p.header.length) (wordBytes p.wordEn p.data 0 efuseMaxWordUnit).length =
        wordBytes p.wordEn p.data 0 efuseMaxWordUnit ∧
      a + p.bytes.length ≤ efuseRealContentLen ∧ LogAt content (a + p.bytes.length) ps := by
  have hp := h.packets
  have hf := h.fits
  have htail : LogAt content (a + logLen [p]) ps := @LogAt.drop content a [p] ps h
  rw [logLen_cons, logLen_nil, Nat.add_zero] at htail
  rw [logLen_cons] at hf
  unfold logLen at hp
  rw [logBytes_cons] at hp
  obtain ⟨hbytes, -⟩ := read_eq_append.mp hp
  obtain ⟨hheader, hwords⟩ := read_eq_append.mp hbytes
  exact ⟨hheader, hwords, by omega, htail⟩

theorem LogAt.short (h : LogAt content a (p :: ps)) (ho : p.offset < efuseMaxSectionBase) :
    content a = pgHeader p.offset p.wordEn ∧ p.header.length = 1 := by
  have hheader := h.head.1
  unfold Packet.header at hheader ⊢
  rw [if_pos ho] at hheader ⊢
  exact ⟨List.head_eq_of_cons_eq hheader, rfl⟩

theorem LogAt.long (h : LogAt content a (p :: ps)) (ho : ¬p.offset < efuseMaxSectionBase) :
    content a = pgHeaderExt p.offset ∧ content (a + 1) = pgExtHeader p.offset p.wordEn ∧
      p.header.length = 2 := by
  have hheader := h.head.1
  unfold Packet.header at hheader ⊢
  rw [if_neg ho] at hheader ⊢
  exact ⟨List.head_eq_of_cons_eq hheader,
    List.head_eq_of_cons_eq (List.tail_eq_of_cons_eq hheader), rfl⟩

/-- a packet does not look like the end of the log -/
theorem LogAt.ne_blank (h : LogAt content a (p :: ps)) : content a ≠ 0xFF := by
  by_cases ho : p.offset < efuseMaxSectionBase
  · rw [(h.short ho).1]
    exact (pgHeader_spec ho p.wordEn_lt).1
  · rw [(h.long ho).1]
    exact (pgHeaderExt_spec p.offset_lt).1

/-! ## contents -/

/-- the content with the packets `ps`, and nothing behind them -/
def contentOf (ps : List Packet) : Nat → UInt8 := write (fun _ => 0xFF) 0 (logBytes ps)

theorem isLog_contentOf (h : logLen ps ≤ efuseRealContentLen) : IsLog (contentOf ps) ps where
  packets := read_write_self rfl
  fits := by rwa [Nat.zero_add]
  blank _ hi _ := write_of_ge hi

/-- the whole section 1, one word of section 20, which has a long header, and the word 0 again -/
def sampleLog : List Packet :=
  [⟨1, 0, UInt8.ofNat, by decide, by decide⟩, ⟨20, 14, fun _ => 0x55, by decide, by decide⟩,
    ⟨1, 14, fun _ => 0xAA, by decide, by decide⟩]

theorem isLog_sampleLog : IsLog (contentOf sampleLog) sampleLog := isLog_contentOf (by decide)

end Efuse

end Rtl8192eu
