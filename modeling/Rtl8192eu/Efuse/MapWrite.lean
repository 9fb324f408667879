import Rtl8192eu.Efuse.Write

/-!
# Writing the map

`rtw_efuse_map_write`, with `boffefusemask` set: the map is read and compared with the wanted one,
section by section, once to add up what has to be programmed and once to program it.

* `sectionLoop`   the words of one section that differ;
* `spaceCheck`    the first pass, against what is left of the efuse;
* `rtwEfuseMapWrite`   the whole;
* `Holds`         a chip with a log, and what the driver remembers of it;
* `writeLoop_spec`   the second pass appends a packet for every section that differs;
* `efuse_rewrite_iff`   what a read gives afterwards.
-/

namespace Rtl8192eu

open Mem

namespace Efuse

/-! ## the source -/

/-- the inner loop of both passes, with `idx`, `word_en` and `newdata`; the first pass has no `newdata` -/
def sectionLoop (efuse map : Nat → UInt8) (addr cnts : Nat) :
    Nat → Nat → Nat → Nat → (Nat → UInt8) → Nat × Nat × (Nat → UInt8)
  | 0, _, idx, wordEn, newdata => (idx, wordEn, newdata)
  | n + 1, i, idx, wordEn, newdata =>
    if i < pgpktDataSize ∧ idx < cnts then
      if efuse (addr + idx) ≠ map (addr + idx) then
        sectionLoop efuse map addr cnts n (i + 1) (idx + 1) (clearBit wordEn (i / 2))
          (Function.update newdata i (efuse (addr + idx)))
      else sectionLoop efuse map addr cnts n (i + 1) (idx + 1) wordEn newdata
    else (idx, wordEn, newdata)

/-- the part of the section `offset` from `addr + idx` on -/
def sectionAt (efuse map : Nat → UInt8) (addr cnts idx offset : Nat) : Nat × Nat × (Nat → UInt8) :=
  sectionLoop efuse map addr cnts pgpktDataSize ((addr + idx) % 8) idx 0x0F fun i => map (offset * 8 + i)

/-- the first pass, with `chk_total_byte`; every round but the last gets further -/
def chkTotalByte (efuse map : Nat → UInt8) (addr cnts : Nat) : Nat → Nat → Nat → Nat → Nat
  | 0, _, _, total => total
  | n + 1, idx, offset, total =>
    if idx < cnts then
      let r := sectionAt efuse map addr cnts idx offset
      chkTotalByte efuse map addr cnts n r.1 (offset + 1)
        (if r.2.1 ≠ 0x0F then
          total + calculateWordCnts r.2.1 * 2 + if efuseMaxSectionBase ≤ offset then 2 else 1
        else total)
    else total

def spaceCheck (c : Chip) (efuse map : Nat → UInt8) (addr cnts : Nat) : Chip × Bool :=
  let total := chkTotalByte efuse map addr cnts (cnts + 1) 0 (addr / 8) 0
  let s := if c.usedBytes = 0 then getCurrentSize c else (c, c.usedBytes)
  (s.1, decide (s.2 + total < efuseMaxAvailableLen))

/-- no call is made inside of another one (`pgPacketWriteWith_eq`) -/
def efusePgPacketWrite (c : Chip) (offset wordEn : Nat) (pData : Nat → UInt8) : Chip × Bool :=
  pgPacketWrite 1 c offset wordEn pData

/-- the second pass -/
def writeLoop (efuse map : Nat → UInt8) (addr cnts : Nat) : Nat → Chip → Nat → Nat → Chip × Bool
  | 0, c, _, _ => (c, true)
  | n + 1, c, idx, offset =>
    if idx < cnts then
      let r := sectionAt efuse map addr cnts idx offset
      if r.2.1 ≠ 0x0F then
        let w := efusePgPacketWrite c offset r.2.1 r.2.2
        if w.2 then writeLoop efuse map addr cnts n w.1 r.1 (offset + 1) else (w.1, false)
      else writeLoop efuse map addr cnts n c r.1 (offset + 1)
    else (c, true)

/-- `efuse`: the map with `data` -/
def wanted (map : Nat → UInt8) (addr cnts : Nat) (data : Nat → UInt8) : Nat → UInt8 :=
  write map addr (read data 0 cnts)

/-- the map, into a buffer of `0xFF` -/
def readMap (c : Chip) : Chip × (Nat → UInt8) × Bool := rtwEfuseMapRead c 0 efuseMapLen fun _ => 0xFF

end Efuse

open Efuse

/-- with `_SUCCESS` or `_FAIL` -/
def rtwEfuseMapWrite (c : Chip) (addr cnts : Nat) (data : Nat → UInt8) : Chip × Bool :=
  if efuseMapLen < addr + cnts then (c, false)
  else
    let r := readMap c
    if r.2.2 then
      let map := r.2.1
      let efuse := wanted map addr cnts data
      let s := spaceCheck r.1 efuse map addr cnts
      if s.2 then writeLoop efuse map addr cnts (cnts + 1) s.1 0 (addr / 8) else (s.1, false)
    else (r.1, false)

namespace Efuse

/-- there is room for what differs -/
def PassesSpaceCheck (c : Chip) (addr cnts : Nat) (data : Nat → UInt8) : Prop :=
  (spaceCheck (readMap c).1 (wanted (readMap c).2.1 addr cnts data) (readMap c).2.1 addr cnts).2 = true

instance (c : Chip) (addr cnts : Nat) (data : Nat → UInt8) :
    Decidable (PassesSpaceCheck c addr cnts data) :=
  inferInstanceAs (Decidable (_ = true))

/-! ## one section -/

/-- the words of the section `s` that differ in its first `i` bytes, and the bytes themselves -/
structure Seen (efuse map : Nat → UInt8) (s i wordEn : Nat) (newdata : Nat → UInt8) : Prop where
  lt : wordEn < 16
  bit : ∀ k < 4, wordEn.testBit k = false
    ↔ ∃ b < i, b / 2 = k ∧ efuse (s * 8 + b) ≠ map (s * 8 + b)
  data : ∀ b < 8, newdata b = if b < i then efuse (s * 8 + b) else map (s * 8 + b)

/-- what is wanted differs from the map in the given range only -/
def Outside (efuse map : Nat → UInt8) (addr cnts : Nat) : Prop :=
  ∀ a, a < addr ∨ addr + cnts ≤ a → efuse a = map a

/-- the passes come to the section `s` with `idx` -/
def Comes (addr cnts idx s : Nat) : Prop :=
  (idx = 0 ∧ s = addr / 8) ∨ addr + idx = s * 8 ∨ (cnts ≤ idx ∧ addr + cnts ≤ s * 8)

variable {efuse map newdata : Nat → UInt8} {addr cnts idx s i n wordEn : Nat} {c : Chip}
  {ps : List Packet}

theorem clearBit_spec {k : Nat} (hw : wordEn < 16) (hk : k < 4) :
    clearBit wordEn k < 16
      ∧ ∀ j < 4, (clearBit wordEn k).testBit j = false ↔ j = k ∨ wordEn.testBit j = false := by
  have hall : ∀ w < 16, ∀ k < 4, clearBit w k < 16
      ∧ ∀ j < 4, (clearBit w k).testBit j = false ↔ j = k ∨ w.testBit j = false := by
    decide +kernel
  exact hall wordEn hw k hk

/-- a byte that differs -/
theorem Seen.differs (h : Seen efuse map s i wordEn newdata) (hi : i < 8)
    (hne : efuse (s * 8 + i) ≠ map (s * 8 + i)) :
    Seen efuse map s (i + 1) (clearBit wordEn (i / 2)) (Function.update newdata i (efuse (s * 8 + i))) := by
  obtain ⟨hlt, hbit⟩ := clearBit_spec h.lt (show i / 2 < 4 by omega)
  refine ⟨hlt, fun k hk => ?_, fun b hb => ?_⟩
  · rw [hbit k hk, h.bit k hk]
    constructor
    · rintro (rfl | ⟨b, hb, hbk, hd⟩)
      · exact ⟨i, Nat.lt_succ_self i, rfl, hne⟩
      · exact ⟨b, Nat.lt_succ_of_lt hb, hbk, hd⟩
    · rintro ⟨b, hb, hbk, hd⟩
      rcases Nat.lt_succ_iff_lt_or_eq.mp hb with hb | rfl
      · exact Or.inr ⟨b, hb, hbk, hd⟩
      · exact Or.inl hbk.symm
  · by_cases hbi : b = i
    · subst hbi
      rw [Function.update_self, if_pos (Nat.lt_succ_self b)]
    · rw [Function.update_of_ne hbi, h.data b hb]
      exact if_congr (by omega) rfl rfl

/-- a byte that does not -/
theorem Seen.same (h : Seen efuse map s i wordEn newdata) (he : efuse (s * 8 + i) = map (s * 8 + i)) :
    Seen efuse map s (i + 1) wordEn newdata := by
  refine ⟨h.lt, fun k hk => ?_, fun b hb => ?_⟩
  · rw [h.bit k hk]
    constructor
    · rintro ⟨b, hb, hbk, hd⟩
      exact ⟨b, Nat.lt_succ_of_lt hb, hbk, hd⟩
    · rintro ⟨b, hb, hbk, hd⟩
      rcases Nat.lt_succ_iff_lt_or_eq.mp hb with hb | rfl
      · exact ⟨b, hb, hbk, hd⟩
      · exact absurd he hd
  · rw [h.data b hb]
    by_cases hbi : b = i
    · subst hbi
      rw [if_neg (Nat.lt_irrefl b), if_pos (Nat.lt_succ_self b), he]
    · exact if_congr (by omega) rfl rfl

/-- where nothing differs from `i` on -/
theorem Seen.rest (h : Seen efuse map s i wordEn newdata)
    (he : ∀ b, i ≤ b → b < 8 → efuse (s * 8 + b) = map (s * 8 + b)) :
    Seen efuse map s 8 wordEn newdata := by
  refine ⟨h.lt, fun k hk => ?_, fun b hb => ?_⟩
  · rw [h.bit k hk]
    constructor
    · rintro ⟨b, hb, hbk, hd⟩
      exact ⟨b, by omega, hbk, hd⟩
    · rintro ⟨b, hb, hbk, hd⟩
      exact ⟨b, Nat.lt_of_not_le fun hib => hd (he b hib hb), hbk, hd⟩
  · rw [h.data b hb, if_pos hb]
    by_cases hbi : b < i
    · rw [if_pos hbi]
    · rw [if_neg hbi, he b (Nat.le_of_not_lt hbi) hb]

theorem Seen.init (he : ∀ b < i, efuse (s * 8 + b) = map (s * 8 + b)) :
    Seen efuse map s i 0x0F fun b => map (s * 8 + b) := by
  refine ⟨by decide, fun k hk => ?_, fun b hb => ?_⟩
  · have hbit : ∀ k < 4, (0x0F : Nat).testBit k = true := by decide
    rw [hbit k hk]
    refine iff_of_false Bool.noConfusion ?_
    rintro ⟨b, hb, -, hd⟩
    exact hd (he b hb)
  · by_cases hbi : b < i
    · rw [if_pos hbi, he b hbi]
    · rw [if_neg hbi]

theorem sectionLoop_spec (hout : Outside efuse map addr cnts) (hpos : addr + idx = s * 8 + i) (hi : i ≤ 8)
    (hidx : idx ≤ cnts) (hn : 8 ≤ i + n) (h : Seen efuse map s i wordEn newdata) :
    ∃ idx' w d, sectionLoop efuse map addr cnts n i idx wordEn newdata = (idx', w, d)
      ∧ Seen efuse map s 8 w d ∧ idx' ≤ cnts ∧ addr + idx' ≤ s * 8 + 8
      ∧ (idx' = cnts ∨ addr + idx' = s * 8 + 8) := by
  induction n generalizing i idx wordEn newdata with
  | zero =>
    obtain rfl : i = 8 := by omega
    exact ⟨idx, wordEn, newdata, rfl, h, hidx, by omega, Or.inr hpos⟩
  | succ n ih =>
    unfold sectionLoop
    by_cases hc : i < pgpktDataSize ∧ idx < cnts
    · obtain ⟨hi8, hlt⟩ := hc
      change i < 8 at hi8
      rw [if_pos ⟨hi8, hlt⟩, hpos]
      by_cases hd : efuse (s * 8 + i) ≠ map (s * 8 + i)
      · rw [if_pos hd]
        exact ih (by omega) (by omega) (by omega) (by omega) (h.differs hi8 hd)
      · rw [if_neg hd]
        exact ih (by omega) (by omega) (by omega) (by omega) (h.same (not_not.mp hd))
    · rw [if_neg hc]
      refine ⟨idx, wordEn, newdata, rfl, ?_, hidx, by omega, ?_⟩
      · refine h.rest fun b hb hb8 => hout _ (Or.inr ?_)
        have hend : ¬ idx < cnts := fun hlt => hc ⟨Nat.lt_of_le_of_lt hb hb8, hlt⟩
        omega
      · by_cases hlt : idx < cnts
        · have h8 : ¬ i < 8 := fun h8 => hc ⟨h8, hlt⟩
          omega
        · omega

/-- **A section**: its words that differ, and where the next one begins. -/
theorem sectionAt_spec (hout : Outside efuse map addr cnts) (hat : Comes addr cnts idx s)
    (hlt : idx < cnts) :
    ∃ idx' w d, sectionAt efuse map addr cnts idx s = (idx', w, d) ∧ Seen efuse map s 8 w d
      ∧ idx < idx' ∧ idx' ≤ cnts ∧ Comes addr cnts idx' (s + 1) ∧ s = (addr + idx) / 8 := by
  have hs : s = (addr + idx) / 8 := by
    rcases hat with ⟨rfl, rfl⟩ | hat | ⟨hat, -⟩
    · rfl
    · omega
    · exact absurd hlt (Nat.not_lt.mpr hat)
  have hinit : Seen efuse map s ((addr + idx) % 8) 0x0F fun b => map (s * 8 + b) := by
    refine Seen.init fun b hb => hout _ (Or.inl ?_)
    rcases hat with ⟨rfl, -⟩ | hat | ⟨hat, -⟩
    · omega
    · omega
    · exact absurd hlt (Nat.not_lt.mpr hat)
  have hmod : (addr + idx) % 8 < 8 := Nat.mod_lt _ (by decide)
  obtain ⟨idx', w, d, hr, hseen, hle, hend, hnext⟩ :=
    sectionLoop_spec (n := 8) hout (by omega) (Nat.le_of_lt hmod) (Nat.le_of_lt hlt) (by omega) hinit
  refine ⟨idx', w, d, hr, hseen, by omega, hle, ?_, hs⟩
  rcases hnext with rfl | hnext
  · exact Or.inr (Or.inr ⟨Nat.le_refl _, by omega⟩)
  · exact Or.inr (Or.inl (by omega))

/-- a section without a difference -/
theorem Seen.eq_of_none (h : Seen efuse map s 8 0x0F newdata) {a : Nat} (ha : a / 8 = s) :
    efuse a = map a := by
  by_contra hne
  have hbit : ∀ k < 4, (0x0F : Nat).testBit k = true := by decide
  have hk : a % 8 / 2 < 4 := by omega
  have hsplit : s * 8 + a % 8 = a := by omega
  have hfalse := (h.bit (a % 8 / 2) hk).mpr ⟨a % 8, Nat.mod_lt _ (by decide), rfl, by rwa [hsplit]⟩
  rw [hbit _ hk] at hfalse
  cases hfalse

/-- the packet of a section -/
def Seen.packet (h : Seen efuse map s 8 wordEn newdata) (hs : s < efuseMaxSection) (hw : wordEn ≠ 0x0F) :
    Packet where
  offset := s
  wordEn := wordEn
  data := newdata
  offset_lt := hs
  wordEn_lt := by
    have := h.lt
    omega

/-- it makes the section as it is wanted -/
theorem Seen.apply_packet (h : Seen efuse map s 8 wordEn newdata) (hs : s < efuseMaxSection)
    (hw : wordEn ≠ 0x0F) {tbl : Nat → UInt8}
    (htbl : ∀ a, tbl a = if a / 8 < s then efuse a else map a) (a : Nat) :
    (h.packet hs hw).apply tbl a = if a / 8 < s + 1 then efuse a else map a := by
  show (if a / 8 = s ∧ wordEn.testBit (a % 8 / 2) = false then newdata (a % 8) else tbl a) = _
  have hsplit : a / 8 = s → s * 8 + a % 8 = a := by omega
  have hk : a % 8 / 2 < 4 := by omega
  have h8 : a % 8 < 8 := Nat.mod_lt _ (by decide)
  by_cases ha : a / 8 = s
  · rw [if_pos (show a / 8 < s + 1 by omega)]
    by_cases hb : wordEn.testBit (a % 8 / 2) = false
    · rw [if_pos ⟨ha, hb⟩, h.data _ h8, if_pos h8, hsplit ha]
    · rw [if_neg fun hc => hb hc.2, htbl, if_neg (by omega)]
      by_contra hne
      refine hb ((h.bit _ hk).mpr ⟨a % 8, h8, rfl, ?_⟩)
      rw [hsplit ha]
      exact fun he => hne he.symm
  · rw [if_neg fun hc => ha hc.1, htbl]
    exact if_congr (by omega) rfl rfl

/-- a mask that is not full has a word, and the word a byte that differs -/
theorem Seen.exists_ne (h : Seen efuse map s 8 wordEn newdata) (hw : wordEn ≠ 0x0F) : efuse ≠ map := by
  have hall : ∀ w < 16, w ≠ 0x0F → ∃ k < 4, w.testBit k = false := by decide
  obtain ⟨k, hk, hbit⟩ := hall wordEn h.lt hw
  obtain ⟨b, -, -, hd⟩ := (h.bit k hk).mp hbit
  exact fun he => hd (congrFun he _)

/-! ## a chip with a log -/

/-- the content is the log of `ps`, and `EfuseUsedBytes` the end of a packet, or zero -/
structure Holds (c : Chip) (ps : List Packet) : Prop where
  log : IsLog c.content ps
  used : ∃ pre, pre <+: ps ∧ c.usedBytes = logLen pre

/-- no packet gets outside of the map -/
theorem mapOf_of_ge {a : Nat} (ha : efuseMapLen ≤ a) : mapOf ps a = 0xFF := by
  have hfold : ∀ (qs : List Packet) (tbl : Nat → UInt8),
      qs.foldl (fun tbl p => p.apply tbl) tbl a = tbl a := by
    intro qs
    induction qs with
    | nil => exact fun tbl => rfl
    | cons p qs ih =>
      intro tbl
      have ho : p.offset < 64 := p.offset_lt
      change 512 ≤ a at ha
      refine (ih (p.apply tbl)).trans (if_neg fun hc => ?_)
      have hsec : a / 8 = p.offset := hc.1
      omega
  exact hfold ps fun _ => 0xFF

theorem mapOf_concat (p : Packet) : mapOf (ps ++ [p]) = p.apply (mapOf ps) := mapOf_append

theorem Holds.read_eq (h : Holds c ps) (buf : Nat → UInt8) : rtwEfuseMapRead c 0 efuseMapLen buf
    = ({ c with usedBytes := logLen ps },
      if ps = [] then buf else write buf 0 (read (mapOf ps) 0 efuseMapLen), true) := by
  unfold rtwEfuseMapRead
  rw [if_neg (by decide), readEFuse_log h.log (by decide)]
  by_cases hps : ps = []
  · subst hps
    obtain ⟨pre, hpre, hused⟩ := h.used
    rw [List.prefix_nil.mp hpre] at hused
    rw [if_pos rfl, if_pos rfl, ← hused]
  · rw [if_neg hps, if_neg hps]

/-- the map, in a buffer of `0xFF` -/
theorem Holds.readMap_eq (h : Holds c ps) :
    readMap c = ({ c with usedBytes := logLen ps }, mapOf ps, true) := by
  unfold readMap
  rw [h.read_eq]
  by_cases hps : ps = []
  · subst hps
    rfl
  · have hrest : shift (fun _ => 0xFF) efuseMapLen = shift (mapOf ps) efuseMapLen := by
      funext i
      exact (mapOf_of_ge (Nat.le_add_right _ _)).symm
    rw [if_neg hps, write_zero, length_read, hrest, ahead_read]

/-- in any buffer, a log with a packet -/
theorem Holds.read_apply (h : Holds c ps) (hps : ps ≠ []) (buf : Nat → UInt8) {a : Nat}
    (ha : a < efuseMapLen) :
    (rtwEfuseMapRead c 0 efuseMapLen buf).2.1 a = mapOf ps a := by
  rw [h.read_eq, if_neg hps]
  have hall : read (write buf 0 (read (mapOf ps) 0 efuseMapLen)) 0 efuseMapLen
      = read (mapOf ps) 0 efuseMapLen :=
    read_write_self length_read.symm
  have hcell : write buf 0 (read (mapOf ps) 0 efuseMapLen) (0 + a) = mapOf ps (0 + a) := cell_congr hall ha
  rw [Nat.zero_add a] at hcell
  dsimp only
  exact hcell

/-! ## both passes -/

theorem chkTotalByte_add (total : Nat) : chkTotalByte efuse map addr cnts n idx s total
    = total + chkTotalByte efuse map addr cnts n idx s 0 := by
  induction n generalizing idx s total with
  | zero => rfl
  | succ n ih =>
    unfold chkTotalByte
    by_cases hlt : idx < cnts
    · rw [if_pos hlt, if_pos hlt]
      dsimp only
      split
      · rw [ih, ih (0 + _ + _)]
        omega
      · exact ih total
    · rw [if_neg hlt, if_neg hlt]
      rfl

theorem spaceCheck_eq (h : Holds c ps) (hused : c.usedBytes = logLen ps) : spaceCheck c efuse map addr cnts
    = (c, decide (logLen ps + chkTotalByte efuse map addr cnts (cnts + 1) 0 (addr / 8) 0
      < efuseMaxAvailableLen)) := by
  unfold spaceCheck
  by_cases h0 : c.usedBytes = 0
  · rw [if_pos h0, @getCurrentSize_log [] ps c h.log h0]
    dsimp only
    rw [List.nil_append, ← hused]
  · rw [if_neg h0, hused]

/-- a packet is added -/
theorem Holds.append (h : Holds c ps) (p : Packet)
    (hfit : logLen ps + p.bytes.length ≤ efuseMaxAvailableLen) :
    ∃ c', efusePgPacketWrite c p.offset p.wordEn p.data = (c', true) ∧ Holds c' (ps ++ [p]) := by
  obtain ⟨pre, ⟨rs, rfl⟩, hused⟩ := h.used
  refine ⟨_, pgPacketWrite_log p 0 h.log hused hfit, ?_, _, List.prefix_append _ [p], rfl⟩
  have happ := LogAt.append (p := p) h.log (by
    rw [Nat.zero_add]
    exact Nat.le_trans hfit (by decide))
  rwa [Nat.zero_add] at happ

/-- **The second pass** makes the map the wanted one, with the space that the first pass added up. -/
theorem writeLoop_spec (hout : Outside efuse map addr cnts) (hmap : addr + cnts ≤ efuseMapLen)
    (hat : Comes addr cnts idx s) (hidx : idx ≤ cnts) (hn : cnts < idx + n) (h : Holds c ps)
    (htbl : ∀ a, mapOf ps a = if a / 8 < s then efuse a else map a)
    (hroom : logLen ps + chkTotalByte efuse map addr cnts n idx s 0 < efuseMaxAvailableLen) :
    ∃ c' qs, writeLoop efuse map addr cnts n c idx s = (c', true) ∧ Holds c' (ps ++ qs)
      ∧ mapOf (ps ++ qs) = efuse ∧ (efuse = map → c' = c) := by
  induction n generalizing idx s c ps with
  | zero => exact absurd hn (Nat.not_lt.mpr hidx)
  | succ n ih =>
    unfold writeLoop
    unfold chkTotalByte at hroom
    by_cases hlt : idx < cnts
    · obtain ⟨idx', w, d, hr, hseen, hgt, hle, hat', hs⟩ := sectionAt_spec hout hat hlt
      rw [if_pos hlt, hr] at hroom
      rw [if_pos hlt, hr]
      dsimp only at hroom ⊢
      by_cases hw : w ≠ 0x0F
      · rw [if_pos hw, chkTotalByte_add] at hroom
        rw [if_pos hw]
        change addr + cnts ≤ 512 at hmap
        have hsec : s < efuseMaxSection := by
          show s < 64
          omega
        have hlen : (hseen.packet hsec hw).bytes.length
            = (if s < efuseMaxSectionBase then 1 else 2) + calculateWordCnts w * 2 := by
          rw [Packet.length_bytes, Packet.length_header]
          rfl
        have hheader : (if s < efuseMaxSectionBase then 1 else 2)
            = if efuseMaxSectionBase ≤ s then 2 else 1 := by
          split <;> split <;> omega
        rw [hheader] at hlen
        -- the packet has the length that was added up, and makes one section more
        obtain ⟨c', hc', hholds⟩ := h.append (hseen.packet hsec hw) (by omega)
        change efusePgPacketWrite c s w d = (c', true) at hc'
        have htbl' : ∀ a, mapOf (ps ++ [hseen.packet hsec hw]) a
            = if a / 8 < s + 1 then efuse a else map a := by
          intro a
          rw [mapOf_concat]
          exact hseen.apply_packet hsec hw htbl a
        have hroom' : logLen (ps ++ [hseen.packet hsec hw])
            + chkTotalByte efuse map addr cnts n idx' (s + 1) 0 < efuseMaxAvailableLen := by
          rw [logLen_append, logLen_cons, logLen_nil]
          omega
        obtain ⟨c'', qs, hrun, hholds', hmapOf, -⟩ := ih hat' hle (by omega) hholds htbl' hroom'
        rw [List.append_assoc] at hholds' hmapOf
        refine ⟨c'', _, ?_, hholds', hmapOf, fun he => absurd he (hseen.exists_ne hw)⟩
        rw [hc']
        exact hrun
      · have hw' : w = 0x0F := not_not.mp hw
        subst hw'
        rw [if_neg hw] at hroom
        rw [if_neg hw]
        refine ih hat' hle (by omega) h (fun a => ?_) hroom
        rw [htbl]
        by_cases ha : a / 8 = s
        · rw [if_neg (by omega), if_pos (by omega), hseen.eq_of_none ha]
        · exact if_congr (by omega) rfl rfl
    · rw [if_neg hlt]
      refine ⟨c, [], rfl, by rwa [List.append_nil], ?_, fun _ => rfl⟩
      rw [List.append_nil]
      funext a
      rw [htbl]
      split
      · rfl
      · refine (hout a ?_).symm
        rcases hat with ⟨rfl, rfl⟩ | hat | ⟨-, hat⟩
        · omega
        · omega
        · omega

/-! ## the whole -/

theorem wanted_inside (map data : Nat → UInt8) {i : Nat} (hi : i < cnts) :
    wanted map addr cnts data (addr + i) = data i := by
  have hall : read (wanted map addr cnts data) addr cnts = read data 0 cnts :=
    read_write_self length_read.symm
  have hcell := cell_congr hall hi
  rwa [Nat.zero_add] at hcell

theorem wanted_outside (map data : Nat → UInt8) : Outside (wanted map addr cnts data) map addr cnts := by
  rintro a (ha | ha)
  · exact write_of_lt ha
  · exact write_of_ge (by rwa [length_read])

/-- data that are in the map already -/
theorem wanted_same {data : Nat → UInt8} (h : ∀ i < cnts, data i = map (addr + i)) :
    wanted map addr cnts data = map := by
  funext a
  by_cases ha : addr ≤ a ∧ a < addr + cnts
  · obtain ⟨i, rfl⟩ := Nat.exists_eq_add_of_le ha.1
    have hi : i < cnts := by omega
    rw [wanted_inside map data hi, h i hi]
  · exact wanted_outside map data a (by omega)

/-- **A write that passes its check** appends packets that make the map the wanted one. -/
theorem Holds.mapWrite {data : Nat → UInt8} (h : Holds c ps) (hmap : addr + cnts ≤ efuseMapLen)
    (hpass : PassesSpaceCheck c addr cnts data) : ∃ c' qs, rtwEfuseMapWrite c addr cnts data = (c', true)
      ∧ Holds c' (ps ++ qs) ∧ mapOf (ps ++ qs) = wanted (mapOf ps) addr cnts data
      ∧ ((∀ i < cnts, data i = mapOf ps (addr + i)) → c' = { c with usedBytes := logLen ps }) := by
  have hread : Holds { c with usedBytes := logLen ps } ps := ⟨h.log, ps, List.prefix_rfl, rfl⟩
  have hcheck := @spaceCheck_eq (wanted (mapOf ps) addr cnts data) (mapOf ps) addr cnts _ ps hread rfl
  unfold PassesSpaceCheck at hpass
  rw [h.readMap_eq] at hpass
  dsimp only at hpass
  rw [hcheck] at hpass
  have hroom := of_decide_eq_true hpass
  have htbl : ∀ a, mapOf ps a
      = if a / 8 < addr / 8 then wanted (mapOf ps) addr cnts data a else mapOf ps a := by
    intro a
    split
    · exact (wanted_outside (mapOf ps) data a (Or.inl (by omega))).symm
    · rfl
  obtain ⟨c', qs, hrun, hholds, hof, hsame⟩ := writeLoop_spec (wanted_outside (mapOf ps) data) hmap
    (Or.inl ⟨rfl, rfl⟩) (Nat.zero_le cnts) (by omega) hread htbl hroom
  refine ⟨c', qs, ?_, hholds, hof, fun he => hsame (wanted_same he)⟩
  unfold rtwEfuseMapWrite
  rw [if_neg (Nat.not_lt.mpr hmap), h.readMap_eq, if_pos rfl]
  dsimp only
  rw [hcheck, if_pos hpass]
  exact hrun

/-- a write of `data` into the map of `ps`, and a read of the whole map into `buf` -/
structure RewritesMap (c : Chip) (ps : List Packet) (addr cnts : Nat) (data buf : Nat → UInt8) :
    Prop where
  success : (rtwEfuseMapWrite c addr cnts data).2 = true
  log : ∃ qs, Holds (rtwEfuseMapWrite c addr cnts data).1 (ps ++ qs)
  readSuccess : (rtwEfuseMapRead (rtwEfuseMapWrite c addr cnts data).1 0 efuseMapLen buf).2.2 = true
  inside : ∀ i < cnts,
    (rtwEfuseMapRead (rtwEfuseMapWrite c addr cnts data).1 0 efuseMapLen buf).2.1 (addr + i) = data i
  outside : ∀ a < efuseMapLen, a < addr ∨ addr + cnts ≤ a →
    (rtwEfuseMapRead (rtwEfuseMapWrite c addr cnts data).1 0 efuseMapLen buf).2.1 a = mapOf ps a
  /-- what is there already is not programmed -/
  idle : (∀ i < cnts, data i = mapOf ps (addr + i)) →
    (rtwEfuseMapWrite c addr cnts data).1.content = c.content
      ∧ (rtwEfuseMapWrite c addr cnts data).1.writes = c.writes

/-- all but the empty log -/
theorem Holds.rewritesMap {data buf : Nat → UInt8} (h : Holds c ps) (hmap : addr + cnts ≤ efuseMapLen)
    (hpass : PassesSpaceCheck c addr cnts data)
    (hc : ps ≠ [] ∨ (∃ i < cnts, data i ≠ 0xFF) ∨ ∀ a < efuseMapLen, buf a = 0xFF) :
    RewritesMap c ps addr cnts data buf := by
  obtain ⟨c', qs, hw, hholds, hof, hidle⟩ := h.mapWrite hmap hpass
  have hread : ∀ a < efuseMapLen,
      (rtwEfuseMapRead c' 0 efuseMapLen buf).2.1 a = wanted (mapOf ps) addr cnts data a := by
    intro a ha
    rw [← hof]
    by_cases hnil : ps ++ qs = []
    · -- nothing was programmed, so `data` is `0xFF` and the buffer is what it was
      obtain ⟨rfl, rfl⟩ := List.append_eq_nil_iff.mp hnil
      rcases hc with hne | ⟨i, hi, hd⟩ | hbuf
      · exact absurd rfl hne
      · refine absurd ?_ hd
        rw [← @wanted_inside addr cnts (mapOf []) data i hi, ← hof]
        rfl
      · rw [hholds.read_eq, if_pos hnil]
        exact hbuf a ha
    · exact hholds.read_apply hnil buf ha
  refine ⟨?_, ?_, ?_, fun i hi => ?_, fun a ha hout => ?_, fun hd => ?_⟩
  · rw [hw]
  · rw [hw]
    exact ⟨qs, hholds⟩
  · rw [hw, hholds.read_eq]
  · rw [hw, hread (addr + i) (by omega), wanted_inside (mapOf ps) data hi]
  · rw [hw, hread a ha, wanted_outside (mapOf ps) data a hout]
  · rw [hw, hidle hd]
    exact ⟨rfl, rfl⟩

/-- **A map that was written is read back** exactly when there is something in the efuse, or the buffer
was made `0xFF` before. -/
theorem efuse_rewrite_iff (c : Chip) (ps : List Packet) (addr cnts : Nat) (data buf : Nat → UInt8)
    (h : Holds c ps) (hmap : addr + cnts ≤ efuseMapLen) (hpass : PassesSpaceCheck c addr cnts data) :
    RewritesMap c ps addr cnts data buf
      ↔ ps ≠ [] ∨ (∃ i < cnts, data i ≠ 0xFF) ∨ ∀ a < efuseMapLen, buf a = 0xFF := by
  refine ⟨fun hr => ?_, h.rewritesMap hmap hpass⟩
  by_cases hps : ps = []
  · refine Or.inr (or_iff_not_imp_left.mpr fun hno a ha => ?_)
    subst hps
    have hff : ∀ i < cnts, data i = 0xFF := fun i hi => not_not.mp fun hne => hno ⟨i, hi, hne⟩
    -- nothing is programmed, and the read leaves the buffer as it is
    obtain ⟨hcontent, -⟩ := hr.idle hff
    have hlog : IsLog (rtwEfuseMapWrite c addr cnts data).1.content [] := by
      rw [hcontent]
      exact h.log
    have hread : (rtwEfuseMapRead (rtwEfuseMapWrite c addr cnts data).1 0 efuseMapLen buf).2.1 = buf := by
      unfold rtwEfuseMapRead
      rw [if_neg (by decide), readEFuse_log hlog (by decide), if_pos rfl]
    rw [← hread]
    by_cases hin : addr ≤ a ∧ a < addr + cnts
    · obtain ⟨i, rfl⟩ := Nat.exists_eq_add_of_le hin.1
      have hi : i < cnts := by omega
      rw [hr.inside i hi, hff i hi]
    · rw [hr.outside a ha (by omega)]
      rfl
  · exact Or.inl hps

/-- an efuse in which nothing was programmed -/
def blankChip : Chip where
  content := fun _ => 0xFF

theorem blankChip_holds : Holds blankChip [] where
  log :=
    { packets := rfl
      fits := by decide
      blank := fun _ _ _ => rfl }
  used := ⟨[], List.prefix_rfl, rfl⟩

/-- the chip of a driver that has not counted the bytes yet -/
def sampleChip : Chip where
  content := contentOf sampleLog

/-- four bytes of the sections 0 and 1 -/
theorem efuse_rewrite_iff_sampleLog :
    RewritesMap sampleChip sampleLog 6 4 (fun i => if i < 2 then 0x12 else 0xFF) fun _ => 0 :=
  (efuse_rewrite_iff sampleChip sampleLog 6 4 _ (fun _ => 0)
    ⟨isLog_sampleLog, [], List.nil_prefix, rfl⟩ (by decide) (by decide +kernel)).mpr
    (Or.inl (List.cons_ne_nil _ _))

/-- a map of zeros is read from a blank efuse -/
theorem blank_efuse_read : Holds blankChip [] ∧ PassesSpaceCheck blankChip 0 1 (fun _ => 0xFF)
    ∧ ¬RewritesMap blankChip [] 0 1 (fun _ => 0xFF) fun _ => 0 := by
  refine ⟨blankChip_holds, by decide +kernel, fun h => ?_⟩
  have hread : (rtwEfuseMapRead (rtwEfuseMapWrite blankChip 0 1 fun _ => 0xFF).1 0 efuseMapLen
      fun _ => 0).2.1 0 = 0 := by
    decide +kernel
  have hinside := h.inside 0 Nat.zero_lt_one
  rw [hread] at hinside
  cases hinside

end Efuse

end Rtl8192eu
