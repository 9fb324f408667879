import Rtl8192eu.Efuse.ReadAny

/-!
# Logs with any section and any mask

A header can name 128 sections; the map has the first 64 of them.

* `RawPacket`, `RawLog`   packets with a header of one or two bytes, and logs of them;
* `rawMap`      the map of the packets in range;
* `Faithful`    the map that is read, and how a packet out of range is passed;
* `ExactSkip`   the packets that are passed with their words;
* `readEFuse_iff`   a content that is read as it is meant.
-/

namespace Rtl8192eu

open Mem Loop

namespace Efuse

structure RawPacket where
  /-- the section -/
  offset : Nat
  wordEn : Nat
  /-- the header has two bytes -/
  ext : Bool
  data : Nat → UInt8
  offset_lt : offset < 128
  wordEn_lt : wordEn < 16
  /-- a header of one byte is read as one -/
  short : ext = false → offset < efuseMaxSectionBase ∧ extHeader (pgHeader offset wordEn) = false ∧
    pgHeader offset wordEn ≠ 0xFF

namespace RawPacket

def header (p : RawPacket) : List UInt8 :=
  if p.ext then [pgHeaderExt p.offset, pgExtHeader p.offset p.wordEn] else [pgHeader p.offset p.wordEn]

def words (p : RawPacket) : List UInt8 := wordBytes p.wordEn p.data 0 efuseMaxWordUnit

def bytes (p : RawPacket) : List UInt8 := p.header ++ p.words

def InRange (p : RawPacket) : Prop := p.offset < efuseMaxSection

instance (p : RawPacket) : Decidable p.InRange := inferInstanceAs (Decidable (_ < _))

/-- the map with the words of the packet, if it has the section -/
def apply (p : RawPacket) (tbl : Nat → UInt8) : Nat → UInt8 :=
  if p.InRange then fun a =>
    if a / pgpktDataSize = p.offset ∧ p.wordEn.testBit (a % pgpktDataSize / 2) = false then
      p.data (a % pgpktDataSize)
    else tbl a
  else tbl

end RawPacket

def rawBytes (ps : List RawPacket) : List UInt8 := ps.flatMap RawPacket.bytes

def rawLen (ps : List RawPacket) : Nat := (rawBytes ps).length

def rawMap (ps : List RawPacket) : Nat → UInt8 := ps.foldl (fun tbl p => p.apply tbl) fun _ => 0xFF

/-- from `a` on there are the packets `ps`, and nothing behind them -/
structure RawLogAt (content : Nat → UInt8) (a : Nat) (ps : List RawPacket) : Prop where
  packets : read content a (rawLen ps) = rawBytes ps
  fits : a + rawLen ps ≤ efuseRealContentLen
  blank : ∀ i, a + rawLen ps ≤ i → i < efuseRealContentLen → content i = 0xFF

def RawLog (content : Nat → UInt8) (ps : List RawPacket) : Prop := RawLogAt content 0 ps

/-- the header at `a` was read, with the map `tbl` so far, and nothing was written -/
structure At (content : Nat → UInt8) (a : Nat) (tbl : Nat → UInt8) (s : ReadState) : Prop where
  header : AtHeader content s
  hdr : s.hdr = a
  tbl_eq : s.tbl = tbl
  writes : s.writes = []

/-- the packet behind `qs` is passed in one round, to the header behind its words -/
def Skipped (takes : Nat → Bool) (content : Nat → UInt8) (qs : List RawPacket) (p : RawPacket) : Prop :=
  ∀ s, At content (rawLen qs) (rawMap qs) s →
    ∃ s', readRound takes s = .again s' ∧ At content (rawLen (qs ++ [p])) (rawMap qs) s'

/-- the whole map is read as the one of the packets in range, and the other packets are skipped -/
def Faithful (takes : Nat → Bool) (content : Nat → UInt8) (ps : List RawPacket) (pbuf : Nat → UInt8) :
    Prop :=
  (∃ s buf, ReadsTo takes content 0 efuseMapLen pbuf s buf ∧
    read buf 0 efuseMapLen = read (rawMap ps) 0 efuseMapLen) ∧
  ∀ qs p rs, ps = qs ++ p :: rs → ¬p.InRange → Skipped takes content qs p

/-- a packet out of range that ends at `e`: all words are disabled, but not by `0xFF`, or enabled, or
the content ends there -/
def ExactSkip (p : RawPacket) (e : Nat) : Prop :=
  p.wordEn = 15 ∧ p.offset < 120 ∨ p.wordEn = 0 ∨ p.wordEn.testBit 0 = false ∧ e = efuseRealContentLen

/-! ## headers -/

theorem pgHeader_read {offset wordEn : Nat} (ho : offset < efuseMaxSectionBase) (hw : wordEn < 16) :
    hdrOffset (pgHeader offset wordEn) = offset ∧ hdrWordEn (pgHeader offset wordEn) = wordEn := by
  have h : ∀ o < 16, ∀ w < 16, hdrOffset (pgHeader o w) = o ∧ hdrWordEn (pgHeader o w) = w := by
    decide +kernel
  exact h offset ho wordEn hw

theorem pgHeaderExt_read {offset : Nat} (ho : offset < 128) :
    pgHeaderExt offset ≠ 0xFF ∧ extHeader (pgHeaderExt offset) = true := by
  have h : ∀ o < 128, pgHeaderExt o ≠ 0xFF ∧ extHeader (pgHeaderExt o) = true := by
    decide +kernel
  exact h offset ho

theorem pgExtHeader_read {offset wordEn : Nat} (ho : offset < 128) (hw : wordEn < 16) :
    extOffset (pgHeaderExt offset) (pgExtHeader offset wordEn) = offset ∧
      hdrWordEn (pgExtHeader offset wordEn) = wordEn ∧
      (allWordsDisabled (pgExtHeader offset wordEn) = true ↔ wordEn = 15) ∧
      (pgExtHeader offset wordEn = 0xFF ↔ wordEn = 15 ∧ 120 ≤ offset) := by
  have h : ∀ o < 128, ∀ w < 16, extOffset (pgHeaderExt o) (pgExtHeader o w) = o ∧
      hdrWordEn (pgExtHeader o w) = w ∧ (allWordsDisabled (pgExtHeader o w) = true ↔ w = 15) ∧
      (pgExtHeader o w = 0xFF ↔ w = 15 ∧ 120 ≤ o) := by
    decide +kernel
  exact h offset ho wordEn hw

/-! ## a log -/

section
variable {content tbl : Nat → UInt8} {a : Nat} {ps qs : List RawPacket} {p : RawPacket} {s : ReadState}
  {takes : Nat → Bool}

theorem RawPacket.length_header (p : RawPacket) : p.header.length = if p.ext then 2 else 1 := by
  unfold RawPacket.header
  split
  · rfl
  · rfl

theorem RawPacket.length_words (p : RawPacket) : p.words.length = calculateWordCnts p.wordEn * 2 :=
  length_wordBytes p.wordEn p.data

theorem RawPacket.length_bytes (p : RawPacket) : p.bytes.length = p.header.length + p.words.length :=
  List.length_append

theorem RawPacket.header_pos (p : RawPacket) : 0 < p.header.length := by
  rw [p.length_header]
  split
  · decide
  · decide

theorem calculateWordCnts_facts {w : Nat} (h : w < 16) :
    (calculateWordCnts w = 0 ↔ w = 15) ∧ (calculateWordCnts w = 4 ↔ w = 0) ∧ calculateWordCnts w ≤ 4 := by
  have hall : ∀ w < 16, (calculateWordCnts w = 0 ↔ w = 15) ∧ (calculateWordCnts w = 4 ↔ w = 0) ∧
      calculateWordCnts w ≤ 4 := by decide
  exact hall w h

theorem apply_of_out (hout : ¬p.InRange) (tbl : Nat → UInt8) : p.apply tbl = tbl := if_neg hout

/-- a packet without words changes nothing -/
theorem apply_of_no_words (h : p.words.length = 0) (tbl : Nat → UInt8) : p.apply tbl = tbl := by
  have hw : p.wordEn = 15 := by
    have hcnt := p.length_words
    exact (calculateWordCnts_facts p.wordEn_lt).1.mp (by omega)
  by_cases hin : p.InRange
  · funext i
    unfold RawPacket.apply
    rw [if_pos hin, hw]
    refine if_neg ?_
    rintro ⟨-, hb⟩
    have hlt : i % pgpktDataSize / 2 < 4 := by
      have : i % pgpktDataSize < 8 := Nat.mod_lt i (by decide)
      omega
    have hall : ∀ k < 4, Nat.testBit 15 k = true := by decide
    rw [hall _ hlt] at hb
    cases hb
  · exact apply_of_out hin tbl

theorem rawBytes_append : rawBytes (ps ++ qs) = rawBytes ps ++ rawBytes qs := List.flatMap_append

theorem rawLen_append : rawLen (ps ++ qs) = rawLen ps + rawLen qs := by
  unfold rawLen
  rw [rawBytes_append, List.length_append]

theorem rawBytes_singleton (p : RawPacket) : rawBytes [p] = p.bytes := List.append_nil _

theorem rawLen_singleton (p : RawPacket) : rawLen [p] = p.bytes.length := by
  unfold rawLen
  rw [rawBytes_singleton]

/-- the packets behind `ps` -/
theorem RawLogAt.drop (h : RawLogAt content a (ps ++ qs)) : RawLogAt content (a + rawLen ps) qs where
  packets := by
    have hp := h.packets
    unfold rawLen at hp ⊢
    rw [rawBytes_append] at hp
    exact (read_eq_append.mp hp).2
  fits := by
    have hf := h.fits
    rw [rawLen_append] at hf
    omega
  blank i hi hlt := by
    refine h.blank i ?_ hlt
    rw [rawLen_append]
    omega

/-- the first packet: its header, its words, and the packets behind it -/
theorem RawLogAt.head (h : RawLogAt content a (p :: ps)) :
    read content a p.header.length = p.header ∧
      read content (a + p.header.length) p.words.length = p.words ∧
      a + p.bytes.length ≤ efuseRealContentLen ∧ RawLogAt content (a + p.bytes.length) ps := by
  have hcons : rawLen (p :: ps) = p.bytes.length + rawLen ps := List.length_append
  have hp := h.packets
  have hf := h.fits
  have htail : RawLogAt content (a + rawLen [p]) ps := @RawLogAt.drop content a [p] ps h
  rw [rawLen_singleton] at htail
  unfold rawLen at hp
  obtain ⟨hbytes, -⟩ := read_eq_append.mp (show read content a (p.bytes ++ rawBytes ps).length = _ from hp)
  obtain ⟨hheader, hwords⟩ := read_eq_append.mp hbytes
  exact ⟨hheader, hwords, by omega, htail⟩

theorem RawLogAt.head_short (h : RawLogAt content a (p :: ps)) (he : p.ext = false) :
    content a = pgHeader p.offset p.wordEn ∧ p.header.length = 1 := by
  have hh := h.head.1
  unfold RawPacket.header at hh ⊢
  rw [he] at hh ⊢
  exact ⟨List.head_eq_of_cons_eq hh, rfl⟩

theorem RawLogAt.head_long (h : RawLogAt content a (p :: ps)) (he : p.ext = true) :
    content a = pgHeaderExt p.offset ∧ content (a + 1) = pgExtHeader p.offset p.wordEn ∧
      p.header.length = 2 := by
  have hh := h.head.1
  unfold RawPacket.header at hh ⊢
  rw [he] at hh ⊢
  exact ⟨List.head_eq_of_cons_eq hh, List.head_eq_of_cons_eq (List.tail_eq_of_cons_eq hh), rfl⟩

/-- a packet does not look like the end of the log -/
theorem RawLogAt.ne_blank (h : RawLogAt content a (p :: ps)) : content a ≠ 0xFF := by
  cases he : p.ext with
  | false =>
    rw [(h.head_short he).1]
    exact (p.short he).2.2
  | true =>
    rw [(h.head_long he).1]
    exact (pgHeaderExt_read p.offset_lt).1

/-! ### a round -/

/-- the words of a packet are read behind its header -/
theorem readRound_words (h : RawLogAt content a (p :: ps)) (hs : At content a tbl s)
    (hm : a + 1 < efuseRealContentLen) (hw : p.ext = true → p.wordEn ≠ 15) :
    readRound takes s = .again (s.readSection p.offset p.wordEn (a + p.header.length)) := by
  have hmore : More content s.hdr := by
    rw [hs.hdr]
    exact ⟨h.ne_blank, hm⟩
  have haddr : s.addr = a + 1 := by rw [addr_of_more hs.header hmore, hs.hdr]
  have hr : s.rtemp8 = content a := by rw [hs.header.rtemp8_eq, hs.hdr]
  unfold readRound
  rw [if_pos ((more_iff hs.header).mpr hmore), hr, haddr]
  cases he : p.ext with
  | false =>
    obtain ⟨ha, hone⟩ := h.head_short he
    obtain ⟨ho, hw'⟩ := pgHeader_read (p.short he).1 p.wordEn_lt
    rw [ha, (p.short he).2.1, if_neg Bool.false_ne_true, ho, hw', hone]
  | true =>
    obtain ⟨ha, hb, htwo⟩ := h.head_long he
    obtain ⟨ho, hw', hall, hff⟩ := pgExtHeader_read p.offset_lt p.wordEn_lt
    have hno : allWordsDisabled (pgExtHeader p.offset p.wordEn) = false :=
      Bool.eq_false_iff.mpr fun hc => hw he (hall.mp hc)
    have hne : pgExtHeader p.offset p.wordEn ≠ 0xFF := fun hc => hw he (hff.mp hc).1
    rw [ha, (pgHeaderExt_read p.offset_lt).2, if_pos rfl, hs.header.content_eq, hb]
    dsimp only
    rw [hno, Bool.false_and, if_neg Bool.false_ne_true, if_neg hne, ho, hw', htwo]

/-- a long header that disables all words -/
theorem readRound_disabled (h : RawLogAt content a (p :: ps)) (hs : At content a tbl s) (he : p.ext = true)
    (hw : p.wordEn = 15) (ho : p.offset < 120) : readRound takes s = .again (s.next (a + 2)) := by
  obtain ⟨ha, hb, htwo⟩ := h.head_long he
  have hfit := h.head.2.2.1
  rw [p.length_bytes, htwo] at hfit
  have hmore : More content s.hdr := by
    rw [hs.hdr]
    exact ⟨h.ne_blank, by omega⟩
  have haddr : s.addr = a + 1 := by rw [addr_of_more hs.header hmore, hs.hdr]
  have hr : s.rtemp8 = content a := by rw [hs.header.rtemp8_eq, hs.hdr]
  obtain ⟨-, -, hall, hff⟩ := pgExtHeader_read p.offset_lt p.wordEn_lt
  have hne : pgExtHeader p.offset p.wordEn ≠ 0xFF := fun hc => absurd (hff.mp hc).2 (Nat.not_le.mpr ho)
  unfold readRound
  rw [if_pos ((more_iff hs.header).mpr hmore), hr, haddr, ha, (pgHeaderExt_read p.offset_lt).2, if_pos rfl,
    hs.header.content_eq, hb]
  dsimp only
  rw [if_pos (by rw [hall.mpr hw, Bool.true_and]; exact bne_iff_ne.mpr hne)]

theorem At.next (hs : At content a tbl s) (b : Nat) : At content b tbl (s.next b) :=
  ⟨AtHeader.next hs.header.content_eq b, rfl, hs.tbl_eq, hs.writes⟩

theorem At.readSection {b e offset wren : Nat} {tbl' : Nat → UInt8} (hs : At content a tbl s)
    (hr : Efuse.readSection content offset wren b tbl = (e, tbl')) :
    At content e tbl' (s.readSection offset wren b) := by
  unfold ReadState.readSection
  rw [hs.header.content_eq, hs.tbl_eq, hr]
  exact ⟨⟨rfl, rfl, rfl⟩, rfl, rfl, hs.writes⟩

theorem readWords_packet (tbl : Nat → UInt8) (h : RawLogAt content a (p :: ps)) (hin : p.InRange) :
    readSection content p.offset p.wordEn (a + p.header.length) tbl = (a + p.bytes.length, p.apply tbl) := by
  obtain ⟨-, hwords, hfit, -⟩ := h.head
  rw [p.length_bytes] at hfit ⊢
  have hlt : p.offset < efuseMaxSection := hin
  have hspec : readWords content p.offset efuseMaxWordUnit 0 (p.wordEn >>> 0) (a + p.header.length) tbl = _ :=
    readWords_spec (Nat.le_refl 4) hwords (by rw [Nat.add_assoc]; exact hfit)
  unfold readSection
  rw [if_pos hlt]
  refine hspec.trans ?_
  rw [withWords_all]
  unfold RawPacket.apply
  rw [if_pos hin, ← Nat.add_assoc]
  rfl

/-- a packet in range is used in one round -/
theorem step_in (h : RawLogAt content a (p :: ps)) (hin : p.InRange) (hs : At content a tbl s)
    (hm : a + 1 < efuseRealContentLen) :
    ∃ s', readRound takes s = .again s' ∧ At content (a + p.bytes.length) (p.apply tbl) s' := by
  by_cases hw : p.ext = true ∧ p.wordEn = 15
  · have hlt : p.offset < efuseMaxSection := hin
    have hwords : p.words.length = 0 := by rw [p.length_words, hw.2]; rfl
    have hlen : p.bytes.length = 2 := by
      rw [p.length_bytes, (h.head_long hw.1).2.2, hwords]
    refine ⟨_, readRound_disabled h hs hw.1 hw.2 (Nat.lt_of_lt_of_le hlt (by decide)), ?_⟩
    rw [hlen, apply_of_no_words hwords]
    exact hs.next _
  · refine ⟨_, readRound_words h hs hm fun he h15 => hw ⟨he, h15⟩, ?_⟩
    exact hs.readSection (readWords_packet tbl h hin)

/-! ### packets out of range -/

theorem ext_of_not_inRange (hout : ¬p.InRange) : p.ext = true := by
  cases he : p.ext with
  | true => rfl
  | false =>
    exact absurd (Nat.lt_of_lt_of_le (p.short he).1 (by decide)) hout

/-- all words are disabled: a mask that looks like a byte that was not written is written -/
theorem step_disabled (h : RawLogAt content a (p :: ps)) (he : p.ext = true) (hw : p.wordEn = 15)
    (hs : At content a tbl s) :
    (∃ s', readRound takes s = .again s' ∧ At content (a + 2) tbl s') ↔ p.offset < 120 := by
  obtain ⟨ha, hb, htwo⟩ := h.head_long he
  have hfit := h.head.2.2.1
  rw [p.length_bytes, htwo] at hfit
  by_cases ho : p.offset < 120
  · exact iff_of_true ⟨_, readRound_disabled h hs he hw ho, hs.next _⟩ ho
  · have hff : content (s.hdr + 1) = 0xFF := by
      rw [hs.hdr, hb]
      exact (pgExtHeader_read p.offset_lt p.wordEn_lt).2.2.2.mpr ⟨hw, Nat.not_lt.mp ho⟩
    have hext : extHeader (content s.hdr) = true := by
      rw [hs.hdr, ha]
      exact (pgHeaderExt_read p.offset_lt).2
    have hmore : More content s.hdr := by
      rw [hs.hdr]
      exact ⟨h.ne_blank, by omega⟩
    refine iff_of_false ?_ ho
    rintro ⟨s', hs', hat⟩
    cases (readRound_write hs.header hmore hext hff).symm.trans hs'
    exact List.append_ne_nil_of_right_ne_nil _ (List.cons_ne_nil _ _) hat.writes

/-- some words are enabled: the loop that passes them has to end behind them -/
theorem step_skip (h : RawLogAt content a (p :: ps)) (hout : ¬p.InRange) (hw : p.wordEn ≠ 15)
    (hs : At content a tbl s) {e : Nat} (hm : a + 1 < efuseRealContentLen) :
    (∃ s', readRound takes s = .again s' ∧ At content e tbl s') ↔
      skipWords p.wordEn efuseMaxWordUnit (a + 2) = e := by
  have hround : readRound takes s = _ := readRound_words h hs hm fun _ => hw
  rw [(h.head_long (ext_of_not_inRange hout)).2.2] at hround
  have hsec : Efuse.readSection content p.offset p.wordEn (a + 2) tbl =
      (skipWords p.wordEn efuseMaxWordUnit (a + 2), tbl) := if_neg hout
  have hat := hs.readSection hsec
  constructor
  · rintro ⟨s', hs', hat'⟩
    cases hround.symm.trans hs'
    exact hat.hdr.symm.trans hat'.hdr
  · intro heq
    rw [heq] at hat
    exact ⟨_, hround, hat⟩

/-- **A packet out of range** is passed with its words just when `ExactSkip` holds. -/
theorem step_out (h : RawLogAt content a (p :: ps)) (hout : ¬p.InRange) (hs : At content a tbl s) :
    (∃ s', readRound takes s = .again s' ∧ At content (a + p.bytes.length) tbl s') ↔
      ExactSkip p (a + p.bytes.length) := by
  have he := ext_of_not_inRange hout
  have hfit := h.head.2.2.1
  have hcnt := calculateWordCnts_facts p.wordEn_lt
  have hlen : a + p.bytes.length = a + 2 + calculateWordCnts p.wordEn * 2 := by
    rw [p.length_bytes, (h.head_long he).2.2, p.length_words, Nat.add_assoc]
  rw [hlen] at hfit ⊢
  unfold ExactSkip
  by_cases hw : p.wordEn = 15
  · rw [hcnt.1.mpr hw, hw]
    refine (step_disabled h he hw hs).trans ⟨fun ho => Or.inl ⟨rfl, ho⟩, ?_⟩
    rintro (⟨-, ho⟩ | h' | ⟨h', -⟩)
    · exact ho
    · omega
    · exact absurd h' (by decide)
  · have hpos : calculateWordCnts p.wordEn ≠ 0 := fun hz => hw (hcnt.1.mp hz)
    refine (step_skip h hout hw hs (by omega)).trans ?_
    cases hbit : p.wordEn.testBit 0 with
    | true =>
      rw [skipWords_of_set hbit]
      refine iff_of_false (by omega) ?_
      rintro (⟨h', -⟩ | h' | ⟨h', -⟩)
      · exact hw h'
      · rw [h'] at hbit
        exact absurd hbit (by decide)
      · cases h'
    | false =>
      have hmin : skipWords p.wordEn efuseMaxWordUnit (a + 2) = min (a + 2 + 8) efuseRealContentLen :=
        skipWords_of_clear hbit (by omega) (by omega)
      have h4 := hcnt.2.1
      have hle := hcnt.2.2
      rw [hmin]
      constructor
      · intro heq
        by_cases hend : a + 2 + calculateWordCnts p.wordEn * 2 = efuseRealContentLen
        · exact Or.inr (Or.inr ⟨rfl, hend⟩)
        · exact Or.inr (Or.inl (h4.mp (by omega)))
      · rintro (⟨h', -⟩ | h' | ⟨-, h'⟩)
        · exact absurd h' hw
        · have := h4.mpr h'
          omega
        · omega

/-! ### the whole log -/

/-- packets that are passed as they should be -/
def AllExact (a : Nat) : List RawPacket → Prop
  | [] => True
  | p :: ps => (¬p.InRange → ExactSkip p (a + p.bytes.length)) ∧ AllExact (a + p.bytes.length) ps

/-- a header in the last byte is the last packet, and has no words -/
theorem RawLogAt.last_byte (h : RawLogAt content a (p :: ps)) (hm : ¬a + 1 < efuseRealContentLen) :
    ps = [] ∧ p.words.length = 0 := by
  have hfit := h.head.2.2.1
  have hlen := p.length_bytes
  have hpos := p.header_pos
  refine ⟨?_, by omega⟩
  cases ps with
  | nil => rfl
  | cons q qs =>
    have hfit' := h.head.2.2.2.head.2.2.1
    have hlen' := q.length_bytes
    have hpos' := q.header_pos
    omega

/-- **The run over a log.** -/
theorem run_log (h : RawLogAt content a ps) (hex : AllExact a ps) (hs : At content a tbl s) :
    ∃ r, Ends (readRound takes) s r ∧ r.tbl = ps.foldl (fun tbl p => p.apply tbl) tbl := by
  induction ps generalizing a tbl s with
  | nil =>
    have hstop : readRound takes s = .stop s := by
      refine readRound_stop hs.header ?_
      rintro ⟨hne, hlt⟩
      rw [hs.hdr] at hne hlt
      exact hne (h.blank a (Nat.le_refl a) (Nat.lt_of_succ_lt hlt))
    exact ⟨s, (ends_stop hstop).mpr rfl, hs.tbl_eq⟩
  | cons p ps ih =>
    by_cases hm : a + 1 < efuseRealContentLen
    · have hstep : ∃ s', readRound takes s = .again s' ∧
          At content (a + p.bytes.length) (p.apply tbl) s' := by
        by_cases hin : p.InRange
        · exact step_in h hin hs hm
        · rw [apply_of_out hin]
          exact (step_out h hin hs).mpr (hex.1 hin)
      obtain ⟨s', hs', hat⟩ := hstep
      obtain ⟨r, hr, htbl⟩ := ih h.head.2.2.2 hex.2 hat
      exact ⟨r, (ends_again hs').mpr hr, htbl⟩
    · have hstop : readRound takes s = .stop s := by
        refine readRound_stop hs.header ?_
        rintro ⟨-, hlt⟩
        rw [hs.hdr] at hlt
        exact hm hlt
      obtain ⟨rfl, hnone⟩ := h.last_byte hm
      refine ⟨s, (ends_stop hstop).mpr rfl, ?_⟩
      show s.tbl = p.apply tbl
      rw [hs.tbl_eq, apply_of_no_words hnone]

theorem allExact_of (h : ∀ qs p rs, ps = qs ++ p :: rs → ¬p.InRange → ExactSkip p (a + rawLen (qs ++ [p]))) :
    AllExact a ps := by
  induction ps generalizing a with
  | nil => exact trivial
  | cons p ps ih =>
    refine ⟨fun hout => ?_, ih fun qs q rs hps hout => ?_⟩
    · have hp := h [] p ps rfl hout
      rw [List.nil_append, rawLen_singleton] at hp
      exact hp
    · have hq := h (p :: qs) q rs (by rw [hps]; rfl) hout
      have hlen : rawLen (p :: (qs ++ [q])) = p.bytes.length + rawLen (qs ++ [q]) := List.length_append
      rw [List.cons_append, hlen, ← Nat.add_assoc] at hq
      exact hq

/-- there is a state at every header -/
theorem exists_at (content : Nat → UInt8) (a : Nat) (tbl : Nat → UInt8) : ∃ s, At content a tbl s :=
  ⟨⟨content, content a, a, nextAddr content a, tbl, [], []⟩, ⟨rfl, rfl, rfl⟩, rfl, rfl, rfl⟩

theorem skipped_iff {rs : List RawPacket} (h : RawLog content (qs ++ p :: rs)) (hout : ¬p.InRange) :
    Skipped takes content qs p ↔ ExactSkip p (rawLen (qs ++ [p])) := by
  have hat : RawLogAt content (0 + rawLen qs) (p :: rs) := RawLogAt.drop h
  rw [Nat.zero_add] at hat
  have hlen : rawLen (qs ++ [p]) = rawLen qs + p.bytes.length := by
    rw [rawLen_append, rawLen_singleton]
  unfold Skipped
  rw [hlen]
  constructor
  · intro hskip
    obtain ⟨s, hs⟩ := exists_at content (rawLen qs) (rawMap qs)
    exact (step_out hat hout hs).mp (hskip s hs)
  · intro hex s hs
    exact (step_out hat hout hs).mpr hex

theorem content_zero (h : RawLog content ps) : content 0 = 0xFF ↔ ps = [] := by
  cases ps with
  | nil => exact iff_of_true (h.blank 0 (Nat.le_refl _) (by decide)) rfl
  | cons p ps => exact iff_of_false (RawLogAt.ne_blank h) (List.cons_ne_nil p ps)

/-- **The map of a log.** -/
theorem faithful_iff (takes : Nat → Bool) (pbuf : Nat → UInt8) (h : RawLog content ps) :
    Faithful takes content ps pbuf ↔
      (ps = [] → ∀ i < efuseMapLen, pbuf i = 0xFF) ∧
        ∀ qs p rs, ps = qs ++ p :: rs → ¬p.InRange → ExactSkip p (rawLen (qs ++ [p])) := by
  have hskip : (∀ qs p rs, ps = qs ++ p :: rs → ¬p.InRange → Skipped takes content qs p) ↔
      ∀ qs p rs, ps = qs ++ p :: rs → ¬p.InRange → ExactSkip p (rawLen (qs ++ [p])) := by
    refine forall_congr' fun qs => forall_congr' fun p => forall_congr' fun rs => ?_
    refine forall_congr' fun hps => forall_congr' fun hout => ?_
    rw [hps] at h
    exact skipped_iff h hout
  unfold Faithful
  rw [hskip]
  refine and_congr_left fun hex => ?_
  have hsize : ¬efuseMapLen < 0 + efuseMapLen := by decide
  unfold ReadsTo
  by_cases hps : ps = []
  · have h0 := (content_zero h).mpr hps
    simp only [if_pos (Or.inr h0 : efuseMapLen < 0 + efuseMapLen ∨ content 0 = 0xFF)]
    subst hps
    constructor
    · rintro ⟨s, buf, ⟨-, rfl⟩, hbuf⟩ - i hi
      have hcell := cell_congr hbuf hi
      rw [Nat.zero_add] at hcell
      exact hcell
    · intro hpbuf
      exact ⟨_, _, ⟨rfl, rfl⟩, read_congr fun i _ hi => hpbuf rfl i (by omega)⟩
  · have h0 : content 0 ≠ 0xFF := fun hc => hps ((content_zero h).mp hc)
    have hin : ¬(efuseMapLen < 0 + efuseMapLen ∨ content 0 = 0xFF) := fun hc => hc.elim hsize h0
    simp only [if_neg hin]
    refine iff_of_true ?_ (fun hc => absurd hc hps)
    have hexact : AllExact 0 ps := allExact_of fun qs p rs hsplit hout => by
      rw [Nat.zero_add]
      exact hex qs p rs hsplit hout
    have hfirst : At content 0 (fun _ => 0xFF) (.first content) := ⟨atHeader_first h0, rfl, rfl, rfl⟩
    obtain ⟨r, hr, htbl⟩ : ∃ r, Ends (readRound takes) (.first content) r ∧ _ := run_log h hexact hfirst
    refine ⟨r, _, ⟨hr, rfl⟩, ?_⟩
    rw [read_write_self length_read.symm, htbl]
    rfl

end

end Efuse

open Efuse

/-- **reading the efuse** only reads, and ends, unless a header is dangling; a log is read as it is meant
unless a packet out of range is not passed exactly, or `pbuf` is left as it is -/
theorem readEFuse_iff (takes : Nat → Bool) (content : Nat → UInt8) (offset sizeByte : Nat)
    (pbuf : Nat → UInt8) :
    (SafeRead takes content offset sizeByte pbuf ↔
      efuseMapLen < offset + sizeByte ∨ ∀ a, ¬Dangling content a) ∧
    ∀ ps, RawLog content ps → (Faithful takes content ps pbuf ↔
      (ps = [] → ∀ i < efuseMapLen, pbuf i = 0xFF) ∧
        ∀ qs p rs, ps = qs ++ p :: rs → ¬p.InRange → ExactSkip p (rawLen (qs ++ [p]))) :=
  ⟨safeRead_iff takes content offset sizeByte pbuf, fun _ h => faithful_iff takes pbuf h⟩

namespace Efuse

/-- the first byte of a header, and nothing behind it -/
def half : Nat → UInt8 := fun i => if i = 0 then 0x0F else 0xFF

/-- section 64, with the word 0 -/
def outOfRange : RawPacket where
  offset := 64
  wordEn := 14
  ext := true
  data _ := 0xAA
  offset_lt := by decide
  wordEn_lt := by decide
  short h := nomatch h

def outOfRangeContent : Nat → UInt8 := write (fun _ => 0xFF) 0 outOfRange.bytes

theorem outOfRange_log : RawLog outOfRangeContent [outOfRange] where
  packets := by decide
  fits := by decide
  blank i hi _ := write_of_ge hi

/-- one word of section 20, and the whole of section 64, which is skipped -/
def wholePackets : List RawPacket :=
  [⟨20, 14, true, fun _ => 0x55, by decide, by decide, nofun⟩,
    ⟨64, 0, true, fun _ => 0xAA, by decide, by decide, nofun⟩]

def wholeContent : Nat → UInt8 := write (fun _ => 0xFF) 0 (rawBytes wholePackets)

theorem wholePackets_log : RawLog wholeContent wholePackets where
  packets := by decide
  fits := by decide
  blank i hi _ := write_of_ge hi

theorem wholeContent_headers {a : Nat} (h : HeaderAt wholeContent a) : a = 0 ∨ a = 4 ∨ a = 14 := by
  induction h with
  | first => exact Or.inl rfl
  | next _ _ hne ih =>
    rcases ih with rfl | rfl | rfl
    · exact Or.inr (Or.inl (by decide))
    · exact Or.inr (Or.inr (by decide))
    · exact absurd hne (by decide)

end Efuse

theorem readEFuse_iff_half :
    (¬SafeRead (fun _ => true) half 0 1 half ∧
        ¬Faithful (fun _ => true) outOfRangeContent [outOfRange] half) ∧
      SafeRead (fun _ => true) wholeContent 0 1 half ∧
        Faithful (fun _ => true) wholeContent wholePackets half := by
  have h := readEFuse_iff (fun _ => true) half 0 1 half
  have h' := (readEFuse_iff (fun _ => true) outOfRangeContent 0 1 half).2 _ outOfRange_log
  have hw := readEFuse_iff (fun _ => true) wholeContent 0 1 half
  refine ⟨⟨fun hs => ?_, fun hf => ?_⟩, hw.1.mpr (Or.inr fun a ha => ?_), ?_⟩
  · rcases h.1.mp hs with hlt | hno
    · exact absurd hlt (by decide)
    · exact hno 0 ⟨HeaderAt.first, by decide, by decide, by decide⟩
  · exact absurd ((h'.mp hf).2 [] outOfRange [] rfl (by decide)) (by unfold ExactSkip; decide)
  · rcases wholeContent_headers ha.1 with rfl | rfl | rfl
    · exact absurd ha.2.2.2 (by decide)
    · exact absurd ha.2.2.2 (by decide)
    · exact absurd ha.2.2.1 (by decide)
  · refine (hw.2 _ wholePackets_log).mpr ⟨nofun, fun qs p rs hsplit hout => Or.inr (Or.inl ?_)⟩
    have hmem : p ∈ wholePackets := hsplit ▸ List.mem_append_right qs List.mem_cons_self
    rcases List.mem_pair.mp hmem with rfl | rfl
    · exact absurd (show RawPacket.InRange _ by decide) hout
    · rfl

/-- if the write has no effect, the call does not end -/
theorem readEFuse_stuck : ¬∃ s buf, ReadsTo (fun _ => false) half 0 efuseMapLen half s buf := by
  rintro ⟨s, buf, h⟩
  have hin : ¬(efuseMapLen < 0 + efuseMapLen ∨ half 0 = 0xFF) := by decide
  unfold ReadsTo at h
  rw [if_neg hin] at h
  have hstays : ∀ s : ReadState, s.content = half ∧ s.rtemp8 = 0x0F ∧ s.addr = 1 →
      ∃ s', readRound (fun _ => false) s = .again s' ∧ s'.content = half ∧ s'.rtemp8 = 0x0F ∧ s'.addr = 1 := by
    rintro s ⟨hc, hr, ha⟩
    refine ⟨{ s.oneByteWrite (fun _ => false) 0x0F with rtemp8 := 0x0F }, ?_, hc, rfl, ha⟩
    unfold readRound
    rw [hr, ha, hc]
    rfl
  exact not_ends_of_stays hstays ⟨rfl, rfl, rfl⟩ h.1

end Rtl8192eu
