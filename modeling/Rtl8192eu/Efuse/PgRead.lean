import Mathlib.Data.List.Induction
import Rtl8192eu.Efuse.Read
import Rtl8192eu.Lib.Loop

/-!
# Reading a section of the efuse

`hal_EfusePgPacketRead_8192E` goes through the log for the packets of one section.  The words of a
packet are read one behind the other into `tmpdata`, and are taken from there as if each were at its
own place.

* `pgRound`      a round of the loop: a header is read, or the words are taken;
* `pgStep`       what a packet does to `tmpdata` and `data`;
* `pgRead_log`   what is read of a log;
* `latest`, `taken`   a byte of the map, and of the section that is read, from the packets, the
                         newest first.
-/

namespace Rtl8192eu

open Mem Loop

namespace Efuse

/-- `PG_STATE_HEADER`, or `PG_STATE_DATA` with `hworden` -/
inductive PgState where
  | header
  | data (hworden : Nat)
  deriving DecidableEq, Repr

structure PgRead where
  addr : Nat
  state : PgState
  tmpdata : Nat → UInt8
  data : Nat → UInt8

/-- `efuse_WordEnableDataRead` of eight bytes -/
def takeWords (wordEn : Nat) (sourdata targetdata : Nat → UInt8) : Nat → UInt8 := fun i =>
  if i < pgpktDataSize ∧ wordEn.testBit (i / 2) = false then sourdata i else targetdata i

/-- a byte that is not `0xFF`: `bDataEmpty` is false -/
def notEmpty (l : List UInt8) : Bool := l.any (· != 0xFF)

/-- behind the header of a packet, the last byte of which is at `addr` -/
def PgRead.packet (content : Nat → UInt8) (offset : Nat) (s : PgRead) (hoffset hworden addr : Nat) :
    PgRead :=
  let wordCnts := calculateWordCnts hworden
  if hoffset = offset then
    let words := read content (addr + 1) (wordCnts * 2)
    let s := { s with tmpdata := write s.tmpdata 0 words }
    if notEmpty words then { s with addr := addr, state := .data hworden }
    else { s with addr := addr + wordCnts * 2 + 1 }
  else { s with addr := addr + wordCnts * 2 + 1 }

def pgRound (content : Nat → UInt8) (offset : Nat) (s : PgRead) : Next PgRead (Nat → UInt8) :=
  if s.addr < efuseRealContentLen then
    match s.state with
    | .header =>
      if content s.addr = 0xFF then .stop s.data
      else if extHeader (content s.addr) then
        let b := content (s.addr + 1)
        if allWordsDisabled b then .again { s with addr := s.addr + 2 }
        else .again (s.packet content offset (extOffset (content s.addr) b) (hdrWordEn b) (s.addr + 1))
      else
        .again (s.packet content offset (hdrOffset (content s.addr)) (hdrWordEn (content s.addr)) s.addr)
    | .data hworden =>
      .again
        { s with
          addr := s.addr + calculateWordCnts hworden * 2 + 1
          state := .header
          data := takeWords hworden s.tmpdata s.data }
  else .stop s.data

/-- eight bytes of `0xFF` -/
def blankData : Nat → UInt8 := fun _ => 0xFF

/-- `hal_EfusePgPacketRead_8192E` ends with `data`, and what it returns -/
def PgReads (content : Nat → UInt8) (offset : Nat) (data : Nat → UInt8) (ret : Bool) : Prop :=
  if efuseMaxSection < offset then ret = false
  else Ends (pgRound content offset) ⟨0, .header, blankData, blankData⟩ data ∧
    ret = notEmpty (read data 0 pgpktDataSize)

/-! ## a log -/

namespace Packet

/-- the enabled words, one behind the other -/
def words (p : Packet) : List UInt8 := wordBytes p.wordEn p.data 0 efuseMaxWordUnit

/-- the word of byte `j` is enabled -/
def Has (p : Packet) (j : Nat) : Prop := p.wordEn.testBit (j / 2) = false

instance (p : Packet) (j : Nat) : Decidable (p.Has j) := inferInstanceAs (Decidable (_ = _))

end Packet

/-- `tmpdata` and `data` behind a packet -/
def pgStep (offset : Nat) (x : (Nat → UInt8) × (Nat → UInt8)) (p : Packet) :
    (Nat → UInt8) × (Nat → UInt8) :=
  if p.offset = offset then
    let tmpdata := write x.1 0 p.words
    (tmpdata, if notEmpty p.words then takeWords p.wordEn tmpdata x.2 else x.2)
  else x

section
variable {content : Nat → UInt8} {a offset : Nat} {p : Packet} {ps : List Packet} {tmp data r : Nat → UInt8}

theorem Packet.length_words (p : Packet) : p.words.length = calculateWordCnts p.wordEn * 2 :=
  length_wordBytes p.wordEn p.data

/-- behind the header of a packet of a log -/
theorem packet_ends (h : LogAt content a (p :: ps)) :
    Ends (pgRound content offset) (PgRead.packet content offset ⟨a, .header, tmp, data⟩ p.offset p.wordEn
      (a + p.header.length - 1)) r ↔
    Ends (pgRound content offset) ⟨a + p.bytes.length, .header, (pgStep offset (tmp, data) p).1,
      (pgStep offset (tmp, data) p).2⟩ r := by
  obtain ⟨-, hwords, hfit, -⟩ := h.head
  have hlen := p.length_bytes
  have hcnt := calculateWordCnts_pos p.wordEn_lt
  have hpos : 0 < p.header.length := by
    rw [p.length_header]
    split
    · decide
    · decide
  have hread : read content (a + p.header.length - 1 + 1) (calculateWordCnts p.wordEn * 2) = p.words := by
    rw [Nat.sub_add_cancel (by omega), ← p.length_words]
    exact hwords
  have hend : a + p.header.length - 1 + calculateWordCnts p.wordEn * 2 + 1 = a + p.bytes.length := by omega
  unfold PgRead.packet pgStep
  by_cases ho : p.offset = offset
  · simp only [if_pos ho, hread, hend]
    cases he : notEmpty p.words with
    | false => exact Iff.rfl
    | true =>
      -- the words are taken in a round of its own
      have hround : pgRound content offset
          ⟨a + p.header.length - 1, .data p.wordEn, write tmp 0 p.words, data⟩ =
            .again ⟨a + p.bytes.length, .header, write tmp 0 p.words,
              takeWords p.wordEn (write tmp 0 p.words) data⟩ := by
        unfold pgRound
        rw [if_pos (by show a + p.header.length - 1 < efuseRealContentLen; omega)]
        dsimp only
        rw [hend]
      exact ends_again hround
  · simp only [if_neg ho, hend]

theorem pgRound_packet (h : LogAt content a (p :: ps)) :
    Ends (pgRound content offset) ⟨a, .header, tmp, data⟩ r ↔
    Ends (pgRound content offset) ⟨a + p.bytes.length, .header, (pgStep offset (tmp, data) p).1,
      (pgStep offset (tmp, data) p).2⟩ r := by
  have hfit := h.head.2.2.1
  have hlt := p.lt_length_bytes
  have hin : a < efuseRealContentLen := by omega
  rw [← packet_ends h]
  by_cases ho : p.offset < efuseMaxSectionBase
  · obtain ⟨-, hext, hoff, hen⟩ := pgHeader_spec ho p.wordEn_lt
    obtain ⟨ha, hone⟩ := h.short ho
    refine ends_again ?_
    unfold pgRound
    rw [if_pos hin]
    dsimp only
    rw [if_neg h.ne_blank, ha, hext, if_neg Bool.false_ne_true, hoff, hen, hone, Nat.add_sub_cancel]
  · obtain ⟨-, hext⟩ := pgHeaderExt_spec p.offset_lt
    obtain ⟨-, hall, hoff, hen⟩ := pgExtHeader_spec p.offset_lt p.wordEn_lt
    obtain ⟨ha, hb, htwo⟩ := h.long ho
    refine ends_again ?_
    unfold pgRound
    rw [if_pos hin]
    dsimp only
    rw [if_neg h.ne_blank, ha, hext, if_pos rfl, hb, hall, if_neg Bool.false_ne_true, hoff, hen, htwo]
    rfl

/-- **The run over a log.** -/
theorem pgRead_log (h : LogAt content a ps) (tmp data : Nat → UInt8) :
    Ends (pgRound content offset) ⟨a, .header, tmp, data⟩ (ps.foldl (pgStep offset) (tmp, data)).2 := by
  induction ps generalizing a tmp data with
  | nil =>
    have hstop : pgRound content offset ⟨a, .header, tmp, data⟩ = .stop data := by
      unfold pgRound
      by_cases hin : a < efuseRealContentLen
      · rw [if_pos hin]
        exact if_pos (h.blank a (Nat.le_refl a) hin)
      · exact if_neg hin
    exact (ends_stop hstop).mpr rfl
  | cons p ps ih => exact (pgRound_packet h).mpr (ih h.head.2.2.2 _ _)

end

/-! ## the bytes of a section -/

/-- byte `j` of the section, from packets with the newest first -/
def latest (offset : Nat) (rs : List Packet) (j : Nat) : UInt8 :=
  (rs.findSome? fun p => if p.offset = offset ∧ p.Has j then some (p.data j) else none).getD 0xFF

/-- byte `j` of `tmpdata` -/
def packed (offset : Nat) (rs : List Packet) (j : Nat) : UInt8 :=
  (rs.findSome? fun p => if p.offset = offset then p.words[j]? else none).getD 0xFF

/-- the packet is used for byte `j` -/
def Packet.Used (offset j : Nat) (p : Packet) : Prop :=
  p.offset = offset ∧ p.Has j ∧ notEmpty p.words = true

instance (offset j : Nat) (p : Packet) : Decidable (p.Used offset j) :=
  inferInstanceAs (Decidable (_ ∧ _ ∧ _))

/-- byte `j` that is read: it was in `tmpdata` with the newest packet that is used for it -/
def taken (offset : Nat) (rs : List Packet) (j : Nat) : UInt8 :=
  match rs.dropWhile fun p => decide ¬p.Used offset j with
  | [] => 0xFF
  | p :: rs => packed offset (p :: rs) j

section
variable {offset j : Nat} {p : Packet} {rs : List Packet}

theorem latest_cons : latest offset (p :: rs) j =
    if p.offset = offset ∧ p.Has j then p.data j else latest offset rs j := by
  unfold latest
  rw [List.findSome?_cons]
  split
  · rename_i h
    split at h
    · rename_i hc
      cases h
      rw [if_pos hc]
      rfl
    · cases h
  · rename_i h
    split at h
    · cases h
    · rename_i hc
      rw [if_neg hc]

theorem packed_cons_ne (h : p.offset ≠ offset) : packed offset (p :: rs) j = packed offset rs j := by
  unfold packed
  rw [List.findSome?_cons, if_neg h]

theorem packed_cons (h : p.offset = offset) :
    packed offset (p :: rs) j = (p.words[j]?).getD (packed offset rs j) := by
  unfold packed
  rw [List.findSome?_cons, if_pos h]
  cases p.words[j]? with
  | none => rfl
  | some b => rfl

theorem taken_cons_used (h : p.Used offset j) : taken offset (p :: rs) j = packed offset (p :: rs) j := by
  unfold taken
  rw [List.dropWhile_cons_of_neg (by rw [decide_eq_true_iff]; exact not_not_intro h)]

theorem taken_cons_unused (h : ¬p.Used offset j) : taken offset (p :: rs) j = taken offset rs j := by
  unfold taken
  rw [List.dropWhile_cons_of_pos (by rw [decide_eq_true_iff]; exact h)]

/-- a byte behind a write at the start -/
theorem write_start (m : Nat → UInt8) (bs : List UInt8) (j : Nat) : write m 0 bs j = (bs[j]?).getD (m j) := by
  rcases Nat.lt_or_ge j bs.length with h | h
  · rw [write_zero, ahead_of_lt h, List.getElem?_eq_getElem h, Option.getD_some]
  · rw [write_of_ge (by omega), List.getElem?_eq_none h, Option.getD_none]

/-- `tmpdata` and `data` behind the packets `ps` -/
theorem pgFold_eq (offset : Nat) (ps : List Packet) :
    (∀ j, (ps.foldl (pgStep offset) (blankData, blankData)).1 j = packed offset ps.reverse j) ∧
      ∀ j < pgpktDataSize,
        (ps.foldl (pgStep offset) (blankData, blankData)).2 j = taken offset ps.reverse j := by
  induction ps using List.reverseRecOn with
  | nil => exact ⟨fun _ => rfl, fun _ _ => rfl⟩
  | append_singleton ps p ih =>
    obtain ⟨ih1, ih2⟩ := ih
    rw [List.foldl_append, List.reverse_append]
    generalize ps.foldl (pgStep offset) (blankData, blankData) = x at ih1 ih2
    show (∀ j, (pgStep offset x p).1 j = packed offset (p :: ps.reverse) j) ∧
      ∀ j < pgpktDataSize, (pgStep offset x p).2 j = taken offset (p :: ps.reverse) j
    unfold pgStep
    by_cases ho : p.offset = offset
    · rw [if_pos ho]
      have htmp : ∀ j, write x.1 0 p.words j = packed offset (p :: ps.reverse) j := by
        intro j
        rw [write_start, packed_cons ho, ih1]
      refine ⟨htmp, fun j hj => ?_⟩
      dsimp only
      by_cases hu : p.Used offset j
      · rw [taken_cons_used hu, if_pos hu.2.2]
        unfold takeWords
        rw [if_pos ⟨hj, hu.2.1⟩, htmp]
      · rw [taken_cons_unused hu, ← ih2 j hj]
        split
        · rename_i he
          unfold takeWords
          exact if_neg fun hc => hu ⟨ho, hc.2, he⟩
        · rfl
    · rw [if_neg ho]
      refine ⟨fun j => ?_, fun j hj => ?_⟩
      · rw [packed_cons_ne ho, ih1]
      · rw [taken_cons_unused fun hu => ho hu.1, ih2 j hj]

theorem mapOf_eq (offset : Nat) (ps : List Packet) (hj : j < pgpktDataSize) :
    mapOf ps (pgpktDataSize * offset + j) = latest offset ps.reverse j := by
  have hdiv : (pgpktDataSize * offset + j) / pgpktDataSize = offset := by
    unfold pgpktDataSize at hj ⊢
    omega
  have hmod : (pgpktDataSize * offset + j) % pgpktDataSize = j := by
    unfold pgpktDataSize at hj ⊢
    omega
  induction ps using List.reverseRecOn with
  | nil => rfl
  | append_singleton ps p ih =>
    rw [mapOf_append, List.reverse_append]
    show p.apply (mapOf ps) _ = latest offset (p :: ps.reverse) j
    rw [latest_cons, ← ih]
    unfold Packet.apply
    rw [hdiv, hmod]
    refine if_congr ?_ rfl rfl
    exact and_congr_left fun _ => eq_comm

end

end Efuse

end Rtl8192eu
