import Rtl8192eu.Efuse.Read
import Rtl8192eu.Lib.Loop

/-!
# Reading an efuse of any content

The loop of `Hal_EfuseReadEFuse8192E`, with the writes it issues, which may take effect or not, and
the words of the table it uses.

* `readRound`   a round of the loop, in a state with a header that was read;
* `HeaderAt`, `Dangling` where the headers of a content are, and the first half of one alone;
* `SafeRead`    the call ends, writes nothing, and uses words of the table only;
* `RawPacket`, `RawLog`   logs with any section and any mask;
* `Faithful`    a packet is one round, and the map is that of the packets in range;
* `readEFuse_iff`   when these hold.
-/

namespace Rtl8192eu

open Mem Loop

namespace Efuse

/-! ## the loop -/

structure ReadState where
  content : Nat → UInt8
  rtemp8 : UInt8
  /-- where `rtemp8` was read -/
  hdr : Nat
  addr : Nat
  tbl : Nat → UInt8
  /-- the calls of `efuse_OneByteWrite` -/
  writes : List (Nat × UInt8)
  /-- the words of `eFuseWord` that were used -/
  indices : List (Nat × Nat)

/-- the words of the table that `readWords` uses -/
def wordIndices (offset : Nat) : Nat → Nat → Nat → Nat → List (Nat × Nat)
  | 0, _, _, _ => []
  | n + 1, i, wren, addr =>
    if wren.testBit 0 then wordIndices offset n (i + 1) (wren >>> 1) addr
    else if efuseRealContentLen ≤ addr + 1 then [(offset, i)]
    else if efuseRealContentLen ≤ addr + 2 then [(offset, i), (offset, i)]
    else (offset, i) :: (offset, i) :: wordIndices offset n (i + 1) (wren >>> 1) (addr + 2)

def sectionIndices (offset wren addr : Nat) : List (Nat × Nat) :=
  if offset < efuseMaxSection then wordIndices offset efuseMaxWordUnit 0 wren addr else []

namespace ReadState

/-- behind the first byte, with `eFuseWord` filled -/
def first (content : Nat → UInt8) : ReadState where
  content := content
  rtemp8 := content 0
  hdr := 0
  addr := 1
  tbl _ := 0xFF
  writes := []
  indices := []

/-- the header at `a` is read -/
def next (s : ReadState) (a : Nat) : ReadState :=
  { s with rtemp8 := s.content a, hdr := a, addr := nextAddr s.content a }

/-- the words behind a header, and the next header -/
def readSection (s : ReadState) (offset wren a : Nat) : ReadState :=
  let r := Efuse.readSection s.content offset wren a s.tbl
  { s with tbl := r.2, indices := s.indices ++ sectionIndices offset wren a }.next r.1

/-- `takes n`: the `n`-th write takes effect -/
def oneByteWrite (takes : Nat → Bool) (s : ReadState) (data : UInt8) : ReadState :=
  { s with
    content :=
      if takes s.writes.length then Function.update s.content s.addr (s.content s.addr &&& data)
      else s.content
    writes := s.writes ++ [(s.addr, data)] }

end ReadState

def readRound (takes : Nat → Bool) (s : ReadState) : Next ReadState ReadState :=
  if s.rtemp8 ≠ 0xFF ∧ s.addr < efuseRealContentLen then
    if extHeader s.rtemp8 then
      let b := s.content s.addr
      if allWordsDisabled b && b != 0xFF then .again (s.next (s.addr + 1))
      else if b = 0xFF then .again { s.oneByteWrite takes 0x0F with rtemp8 := 0x0F }
      else .again (s.readSection (extOffset s.rtemp8 b) (hdrWordEn b) (s.addr + 1))
    else .again (s.readSection (hdrOffset s.rtemp8) (hdrWordEn s.rtemp8) s.addr)
  else .stop s

/-- the call ends in the state `s`, with `buf` in `pbuf` -/
def ReadsTo (takes : Nat → Bool) (content : Nat → UInt8) (offset sizeByte : Nat) (pbuf : Nat → UInt8)
    (s : ReadState) (buf : Nat → UInt8) : Prop :=
  if efuseMapLen < offset + sizeByte ∨ content 0 = 0xFF then s = .first content ∧ buf = pbuf
  else Ends (readRound takes) (.first content) s ∧ buf = write pbuf 0 (read s.tbl offset sizeByte)

/-- the call ends, nothing is written, and the table has the words that are used -/
def SafeRead (takes : Nat → Bool) (content : Nat → UInt8) (offset sizeByte : Nat)
    (pbuf : Nat → UInt8) : Prop :=
  ∃ s buf, ReadsTo takes content offset sizeByte pbuf s buf ∧ s.writes = [] ∧
    ∀ x ∈ s.indices, x.1 < efuseMaxSection ∧ x.2 < efuseMaxWordUnit

/-! ## headers -/

/-- the bytes behind a header; in a section out of range bit 0 stands for all four words -/
def dataLen (offset wordEn : Nat) : Nat :=
  if offset < efuseMaxSection then 2 * calculateWordCnts wordEn
  else if wordEn.testBit 0 then 0 else 2 * efuseMaxWordUnit

/-- behind the header at `a` and its words -/
def packetEnd (content : Nat → UInt8) (a : Nat) : Nat :=
  if extHeader (content a) then
    if allWordsDisabled (content (a + 1)) then a + 2
    else a + 2 + dataLen (extOffset (content a) (content (a + 1))) (hdrWordEn (content (a + 1)))
  else a + 1 + dataLen (hdrOffset (content a)) (hdrWordEn (content a))

/-- where a header begins -/
inductive HeaderAt (content : Nat → UInt8) : Nat → Prop
  | first : HeaderAt content 0
  | next {a} (h : HeaderAt content a) (hlt : a < efuseRealContentLen) (hne : content a ≠ 0xFF) :
      HeaderAt content (packetEnd content a)

/-- a header with a first byte, and none behind it -/
def Dangling (content : Nat → UInt8) (a : Nat) : Prop :=
  HeaderAt content a ∧ a + 1 < efuseRealContentLen ∧ extHeader (content a) = true ∧
    content (a + 1) = 0xFF

section
variable {content tbl : Nat → UInt8} {offset wordEn wren addr a i n : Nat} {takes : Nat → Bool}
  {s : ReadState}

/-- if every write takes effect, this is the loop of `Efuse.Read` -/
theorem readLoop_of_runs {r : ReadState} (h : Runs (readRound fun _ => true) n s r) {c : Chip}
    (hc : c.content = s.content) {fuel : Nat} (hf : n < fuel) :
    ∃ c', readLoop fuel c s.rtemp8 s.addr s.tbl = (c', r.addr, r.tbl) ∧ c'.content = r.content := by
  induction h generalizing c fuel with
  | @stop s _ h =>
    obtain ⟨fuel, rfl⟩ := Nat.exists_eq_succ_of_ne_zero (Nat.ne_zero_of_lt hf)
    unfold readRound at h
    rw [readLoop]
    split at h
    · split at h
      · dsimp only at h
        split at h
        · cases h
        · split at h
          · cases h
          · cases h
      · cases h
    · rename_i hno
      cases h
      exact ⟨c, if_neg hno, hc⟩
  | @again _ s _ _ h _ ih =>
    obtain ⟨fuel, rfl⟩ := Nat.exists_eq_succ_of_ne_zero (Nat.ne_zero_of_lt hf)
    have hf := Nat.lt_of_succ_lt_succ hf
    unfold readRound at h
    rw [readLoop]
    split at h
    · rename_i hmore
      rw [if_pos hmore]
      split at h
      · rename_i hext
        rw [if_pos hext, hc]
        dsimp only at h ⊢
        split at h
        · rename_i hall
          cases h
          rw [if_pos hall]
          exact ih hc hf
        · rename_i hall
          split at h
          · rename_i hff
            cases h
            rw [if_neg hall, if_pos hff]
            refine ih ?_ hf
            unfold Chip.oneByteWrite
            rw [hc]
            rfl
          · rename_i hff
            cases h
            rw [if_neg hall, if_neg hff]
            exact ih hc hf
      · rename_i hext
        cases h
        rw [if_neg hext, hc]
        exact ih hc hf
    · cases h

/-! ### where a section ends -/

/-- `x` is `y`, or both are behind the content -/
def SamePlace (x y : Nat) : Prop := x = y ∨ efuseRealContentLen ≤ x ∧ efuseRealContentLen ≤ y

theorem readWords_end (wordEn : Nat) (content tbl : Nat → UInt8) (offset addr i n : Nat) :
    SamePlace (readWords content offset n i (wordEn >>> i) addr tbl).1
      (addr + (wordBytes wordEn content i n).length) := by
  induction n generalizing i addr tbl with
  | zero => exact Or.inl rfl
  | succ n ih =>
    have hbit : (wordEn >>> i).testBit 0 = wordEn.testBit i := Nat.testBit_shiftRight ..
    have hshift : (wordEn >>> i) >>> 1 = wordEn >>> (i + 1) := (Nat.shiftRight_add ..).symm
    unfold readWords wordBytes
    rw [hbit, hshift, List.length_append]
    cases h : wordEn.testBit i with
    | true =>
      rw [if_pos rfl, if_pos rfl, List.length_nil, Nat.zero_add]
      exact ih tbl addr (i + 1)
    | false =>
      rw [if_neg Bool.false_ne_true, if_neg Bool.false_ne_true]
      have hlen : [content (2 * i), content (2 * i + 1)].length = 2 := rfl
      rw [hlen]
      dsimp only
      by_cases h1 : efuseRealContentLen ≤ addr + 1
      · rw [if_pos h1]
        exact Or.inr ⟨h1, by omega⟩
      · rw [if_neg h1]
        by_cases h2 : efuseRealContentLen ≤ addr + 2
        · rw [if_pos h2]
          exact Or.inr ⟨h2, by omega⟩
        · rw [if_neg h2, ← Nat.add_assoc]
          exact ih _ (addr + 2) (i + 1)

theorem skipWords_of_set (h : wren.testBit 0 = true) : skipWords wren n addr = addr := by
  induction n with
  | zero => rfl
  | succ n ih => rw [skipWords, if_pos h, ih]

/-- a skip stops at the end of the content -/
theorem skipWords_of_clear (h : wren.testBit 0 = false) (ha : addr ≤ efuseRealContentLen)
    (hn : addr = efuseRealContentLen → n = 0) :
    skipWords wren n addr = min (addr + 2 * n) efuseRealContentLen := by
  induction n generalizing addr with
  | zero =>
    rw [skipWords]
    omega
  | succ n ih =>
    have hlt : addr < efuseRealContentLen := by omega
    rw [skipWords, h, if_neg Bool.false_ne_true]
    by_cases h1 : efuseRealContentLen ≤ addr + 1
    · rw [if_pos h1]
      omega
    · rw [if_neg h1]
      by_cases h2 : efuseRealContentLen ≤ addr + 2
      · rw [if_pos h2]
        omega
      · rw [if_neg h2, ih (by omega) (by omega)]
        omega

theorem skipWords_end (wren addr n : Nat) :
    SamePlace (skipWords wren n addr) (addr + if wren.testBit 0 then 0 else 2 * n) := by
  cases h : wren.testBit 0 with
  | true =>
    rw [skipWords_of_set h]
    exact Or.inl rfl
  | false =>
    rw [if_neg Bool.false_ne_true]
    rcases Nat.lt_or_ge addr efuseRealContentLen with ha | ha
    · rw [skipWords_of_clear h (Nat.le_of_lt ha) (by omega)]
      unfold SamePlace
      omega
    · cases n with
      | zero => exact Or.inl rfl
      | succ n =>
        rw [skipWords, h, if_neg Bool.false_ne_true, if_pos (by omega)]
        exact Or.inr ⟨by omega, by omega⟩

theorem readSection_end (content tbl : Nat → UInt8) (offset wren a : Nat) :
    SamePlace (readSection content offset wren a tbl).1 (a + dataLen offset wren) := by
  unfold readSection dataLen
  by_cases h : offset < efuseMaxSection
  · have hend := readWords_end wren content tbl offset a 0 efuseMaxWordUnit
    rw [length_wordBytes, Nat.mul_comm] at hend
    rw [if_pos h, if_pos h]
    exact hend
  · rw [if_neg h, if_neg h]
    exact skipWords_end wren a efuseMaxWordUnit

/-! ### the words of the table -/

theorem wordIndices_in (ho : offset < efuseMaxSection) (hn : i + n ≤ efuseMaxWordUnit) :
    ∀ x ∈ wordIndices offset n i wren addr, x.1 < efuseMaxSection ∧ x.2 < efuseMaxWordUnit := by
  induction n generalizing i wren addr with
  | zero => exact fun x hx => nomatch hx
  | succ n ih =>
    have hi : i < efuseMaxWordUnit := Nat.lt_of_lt_of_le (Nat.lt_add_of_pos_right (Nat.succ_pos n)) hn
    have hrest := fun wren addr => @ih wren addr (i + 1) (by omega)
    intro x hx
    unfold wordIndices at hx
    split at hx
    · exact hrest _ _ x hx
    · split at hx
      · cases List.mem_singleton.mp hx
        exact ⟨ho, hi⟩
      · split at hx
        · rcases List.mem_cons.mp hx with rfl | hx
          · exact ⟨ho, hi⟩
          · cases List.mem_singleton.mp hx
            exact ⟨ho, hi⟩
        · rcases List.mem_cons.mp hx with rfl | hx
          · exact ⟨ho, hi⟩
          · rcases List.mem_cons.mp hx with rfl | hx
            · exact ⟨ho, hi⟩
            · exact hrest _ _ x hx

theorem sectionIndices_in (offset wren addr : Nat) :
    ∀ x ∈ sectionIndices offset wren addr, x.1 < efuseMaxSection ∧ x.2 < efuseMaxWordUnit := by
  unfold sectionIndices
  split
  · rename_i h
    exact wordIndices_in h (Nat.le_refl _)
  · exact fun x hx => nomatch hx

/-! ### a round -/

/-- a header of the content was read -/
structure AtHeader (content : Nat → UInt8) (s : ReadState) : Prop where
  content_eq : s.content = content
  rtemp8_eq : s.rtemp8 = content s.hdr
  addr_eq : s.addr = nextAddr content s.hdr

theorem AtHeader.next (h : s.content = content) (a : Nat) : AtHeader content (s.next a) := by
  subst h
  exact ⟨rfl, rfl, rfl⟩

/-- the state behind a packet -/
structure Behind (content : Nat → UInt8) (s s' : ReadState) : Prop where
  header : AtHeader content s'
  hdr : SamePlace s'.hdr (packetEnd content s.hdr)
  writes : s'.writes = s.writes
  indices : (∀ x ∈ s.indices, x.1 < efuseMaxSection ∧ x.2 < efuseMaxWordUnit) →
    ∀ x ∈ s'.indices, x.1 < efuseMaxSection ∧ x.2 < efuseMaxWordUnit

theorem Behind.readSection (h : AtHeader content s) (offset wren a : Nat)
    (hend : a + dataLen offset wren = packetEnd content s.hdr) :
    Behind content s (s.readSection offset wren a) where
  header := by
    apply AtHeader.next
    exact h.content_eq
  hdr := by
    have hr := readSection_end s.content s.tbl offset wren a
    rw [hend] at hr
    exact hr
  writes := rfl
  indices hin x hx := by
    rcases List.mem_append.mp hx with hx | hx
    · exact hin x hx
    · exact sectionIndices_in offset wren a x hx

/-- the header does not end the loop -/
def More (content : Nat → UInt8) (a : Nat) : Prop := content a ≠ 0xFF ∧ a + 1 < efuseRealContentLen

theorem more_iff (h : AtHeader content s) :
    s.rtemp8 ≠ 0xFF ∧ s.addr < efuseRealContentLen ↔ More content s.hdr := by
  rw [h.rtemp8_eq, h.addr_eq]
  unfold More nextAddr
  refine and_congr_right fun hne => ?_
  by_cases hlt : s.hdr < efuseRealContentLen
  · rw [if_pos ⟨hne, hlt⟩]
  · rw [if_neg fun hc => hlt hc.2]
    omega

theorem addr_of_more (h : AtHeader content s) (hm : More content s.hdr) : s.addr = s.hdr + 1 := by
  rw [h.addr_eq]
  exact if_pos ⟨hm.1, Nat.lt_of_succ_lt hm.2⟩

theorem readRound_stop (h : AtHeader content s) (hm : ¬More content s.hdr) :
    readRound takes s = .stop s := if_neg fun hc => hm ((more_iff h).mp hc)

/-- the second half of the header is missing -/
theorem readRound_write (h : AtHeader content s) (hm : More content s.hdr)
    (hext : extHeader (content s.hdr) = true) (hff : content (s.hdr + 1) = 0xFF) :
    readRound takes s = .again { s.oneByteWrite takes 0x0F with rtemp8 := 0x0F } := by
  have hext' : extHeader s.rtemp8 = true := by rw [h.rtemp8_eq, hext]
  have hb : s.content s.addr = 0xFF := by rw [addr_of_more h hm, h.content_eq, hff]
  unfold readRound
  rw [if_pos ((more_iff h).mpr hm), if_pos hext']
  dsimp only
  rw [hb, if_neg (by decide), if_pos rfl]

theorem readRound_packet (takes : Nat → Bool) (h : AtHeader content s) (hm : More content s.hdr)
    (hno : ¬(extHeader (content s.hdr) = true ∧ content (s.hdr + 1) = 0xFF)) :
    ∃ s', readRound takes s = .again s' ∧ Behind content s s' := by
  unfold readRound
  rw [if_pos ((more_iff h).mpr hm), h.rtemp8_eq]
  have haddr := addr_of_more h hm
  by_cases hext : extHeader (content s.hdr) = true
  · have hff : content (s.hdr + 1) ≠ 0xFF := fun h0 => hno ⟨hext, h0⟩
    rw [if_pos hext, h.content_eq, haddr]
    dsimp only
    by_cases hall : allWordsDisabled (content (s.hdr + 1)) = true
    · rw [if_pos (by rw [hall, Bool.true_and]; exact bne_iff_ne.mpr hff)]
      refine ⟨_, rfl, ⟨AtHeader.next h.content_eq _, Or.inl ?_, rfl, id⟩⟩
      unfold packetEnd
      rw [if_pos hext, if_pos hall]
      rfl
    · rw [if_neg (fun hc => hall (Bool.and_eq_true_iff.mp hc).1), if_neg hff]
      refine ⟨_, rfl, Behind.readSection h _ _ _ ?_⟩
      unfold packetEnd
      rw [if_pos hext, if_neg hall]
  · rw [if_neg hext]
    refine ⟨_, rfl, Behind.readSection h _ _ _ ?_⟩
    unfold packetEnd
    rw [if_neg hext, haddr]

/-! ### the walk -/

theorem lt_packetEnd (content : Nat → UInt8) (a : Nat) : a < packetEnd content a := by
  unfold packetEnd
  split
  · split
    · omega
    · omega
  · omega

/-- what holds as long as no header is dangling -/
structure Walk (content : Nat → UInt8) (s : ReadState) : Prop where
  header : AtHeader content s
  at' : s.hdr < efuseRealContentLen → HeaderAt content s.hdr
  writes : s.writes = []
  indices : ∀ x ∈ s.indices, x.1 < efuseMaxSection ∧ x.2 < efuseMaxWordUnit

theorem atHeader_first (h : content 0 ≠ 0xFF) : AtHeader content (.first content) :=
  ⟨rfl, rfl, (if_pos ⟨h, by decide⟩ : nextAddr content 0 = 1).symm⟩

theorem walk_first (h : content 0 ≠ 0xFF) : Walk content (.first content) :=
  ⟨atHeader_first h, fun _ => HeaderAt.first, rfl, fun _ hx => nomatch hx⟩

/-- addresses that are left, and whether the last byte was a header -/
def left (s : ReadState) : Nat :=
  2 * (efuseRealContentLen - s.addr) + if s.rtemp8 = 0xFF then 0 else 1

theorem left_lt {s' : ReadState} (h : AtHeader content s) (hm : More content s.hdr)
    (h' : Behind content s s') : left s' < left s := by
  have hgt := lt_packetEnd content s.hdr
  have hle : s.hdr + 1 ≤ s'.hdr := by
    rcases h'.hdr with he | ⟨he, -⟩
    · omega
    · exact Nat.le_trans (Nat.le_of_lt hm.2) he
  have hlt := hm.2
  have hs : left s = 2 * (efuseRealContentLen - (s.hdr + 1)) + 1 := by
    unfold left
    rw [addr_of_more h hm, h.rtemp8_eq, if_neg hm.1]
  rw [hs]
  unfold left
  rw [h'.header.addr_eq, h'.header.rtemp8_eq]
  unfold nextAddr
  by_cases hff : content s'.hdr = 0xFF
  · rw [if_pos hff, if_neg fun hc => hc.1 hff]
    omega
  · rw [if_neg hff]
    by_cases hin : s'.hdr < efuseRealContentLen
    · rw [if_pos ⟨hff, hin⟩]
      omega
    · rw [if_neg fun hc => hin hc.2]
      omega

theorem not_dangling_look (hno : ∀ a, ¬Dangling content a) (h : Walk content s) (hm : More content s.hdr) :
    ¬(extHeader (content s.hdr) = true ∧ content (s.hdr + 1) = 0xFF) :=
  fun hc => hno s.hdr ⟨h.at' (Nat.lt_of_succ_lt hm.2), hm.2, hc.1, hc.2⟩

/-- **A round** of a walk gets on, and leaves it a walk. -/
theorem walk_step (hno : ∀ a, ¬Dangling content a) {s s' : ReadState} (h : Walk content s)
    (hr : readRound takes s = .again s') : Walk content s' ∧ left s' < left s := by
  by_cases hm : More content s.hdr
  · obtain ⟨t, ht, hb⟩ := readRound_packet takes h.header hm (not_dangling_look hno h hm)
    cases ht.symm.trans hr
    refine ⟨⟨hb.header, fun hin => ?_, hb.writes.trans h.writes, hb.indices h.indices⟩, left_lt h.header hm hb⟩
    rcases hb.hdr with he | ⟨he, -⟩
    · rw [he]
      exact HeaderAt.next (h.at' (Nat.lt_of_succ_lt hm.2)) (Nat.lt_of_succ_lt hm.2) hm.1
    · exact absurd hin (Nat.not_lt.mpr he)
  · cases (readRound_stop h.header hm).symm.trans hr

/-- without a dangling header the loop ends, and only reads -/
theorem walk_ends (takes : Nat → Bool) (hno : ∀ a, ¬Dangling content a) (h0 : content 0 ≠ 0xFF) :
    ∃ s, Ends (readRound takes) (.first content) s ∧ Walk content s := by
  obtain ⟨n, r, -, hr⟩ := runs_of_lt (I := Walk content) left (fun _ _ hs => walk_step hno hs)
    (.first content) (walk_first h0)
  obtain ⟨s, hs, hstop⟩ := hr.inv (fun _ _ hs h => (walk_step hno hs h).1) (walk_first h0)
  have hsr : s = r := by
    by_cases hm : More content s.hdr
    · obtain ⟨t, ht, -⟩ := readRound_packet takes hs.header hm (not_dangling_look hno hs hm)
      cases ht.symm.trans hstop
    · cases (readRound_stop hs.header hm).symm.trans hstop
      rfl
  exact ⟨r, ⟨n, hr⟩, hsr ▸ hs⟩

/-! ### a dangling header -/

theorem readRound_writes {s s' : ReadState} (h : readRound takes s = .again s') :
    ∃ l, s'.writes = s.writes ++ l := by
  unfold readRound at h
  split at h
  · split at h
    · dsimp only at h
      split at h
      · cases h
        exact ⟨[], (List.append_nil _).symm⟩
      · split at h
        · cases h
          exact ⟨_, rfl⟩
        · cases h
          exact ⟨[], (List.append_nil _).symm⟩
    · cases h
      exact ⟨[], (List.append_nil _).symm⟩
  · cases h

theorem ends_writes {s r : ReadState} (h : Ends (readRound takes) s r) (hr : r.writes = []) :
    s.writes = [] := by
  obtain ⟨n, h⟩ := h
  induction h with
  | @stop s _ h =>
    unfold readRound at h
    split at h
    · split at h
      · dsimp only at h
        split at h
        · cases h
        · split at h
          · cases h
          · cases h
      · cases h
    · cases h
      exact hr
  | again h _ ih =>
    obtain ⟨l, hl⟩ := readRound_writes h
    exact (List.append_eq_nil_iff.mp (hl.symm.trans (ih hr))).1

/-- a call that writes nothing does not meet a dangling header -/
theorem no_write {s r : ReadState} (h : AtHeader content s) (hm : More content s.hdr)
    (he : Ends (readRound takes) s r) (hr : r.writes = []) :
    ¬(extHeader (content s.hdr) = true ∧ content (s.hdr + 1) = 0xFF) := by
  rintro ⟨hext, hff⟩
  have hnil := ends_writes ((ends_again (readRound_write h hm hext hff)).mp he) hr
  exact List.append_ne_nil_of_right_ne_nil _ (List.cons_ne_nil _ _) hnil

/-- it comes to every header -/
theorem visits {r : ReadState} (h0 : content 0 ≠ 0xFF) (he : Ends (readRound takes) (.first content) r)
    (hr : r.writes = []) (ha : HeaderAt content a) (hlt : a < efuseRealContentLen) :
    ∃ s, AtHeader content s ∧ s.hdr = a ∧ Ends (readRound takes) s r := by
  induction ha with
  | first => exact ⟨_, atHeader_first h0, rfl, he⟩
  | @next a _ hin hne ih =>
    have hgt := lt_packetEnd content a
    obtain ⟨s, hs, rfl, hends⟩ := ih hin
    have hm : More content s.hdr := ⟨hne, by omega⟩
    obtain ⟨s', hs', hb⟩ := readRound_packet takes hs hm (no_write hs hm hends hr)
    refine ⟨s', hb.header, ?_, (ends_again hs').mp hends⟩
    rcases hb.hdr with he | ⟨-, he⟩
    · exact he
    · exact absurd hlt (Nat.not_lt.mpr he)

/-- an empty content has no second header -/
theorem HeaderAt.eq_zero (h0 : content 0 = 0xFF) (ha : HeaderAt content a) : a = 0 := by
  induction ha with
  | first => rfl
  | next _ _ hne ih =>
    subst ih
    exact absurd h0 hne

/-- **Reading only** is what the call does just when no header is dangling. -/
theorem safeRead_iff (takes : Nat → Bool) (content : Nat → UInt8) (offset sizeByte : Nat)
    (pbuf : Nat → UInt8) : SafeRead takes content offset sizeByte pbuf ↔
      efuseMapLen < offset + sizeByte ∨ ∀ a, ¬Dangling content a := by
  unfold SafeRead ReadsTo
  by_cases hout : efuseMapLen < offset + sizeByte
  · refine iff_of_true ⟨.first content, pbuf, ?_, rfl, fun _ hx => nomatch hx⟩ (Or.inl hout)
    rw [if_pos (Or.inl hout)]
    exact ⟨rfl, rfl⟩
  · by_cases h0 : content 0 = 0xFF
    · have hno : ∀ a, ¬Dangling content a := by
        rintro a ⟨ha, -, hext, -⟩
        rw [ha.eq_zero h0, h0] at hext
        exact absurd hext (by decide)
      refine iff_of_true ⟨.first content, pbuf, ?_, rfl, fun _ hx => nomatch hx⟩ (Or.inr hno)
      rw [if_pos (Or.inr h0)]
      exact ⟨rfl, rfl⟩
    · have hin : ¬(efuseMapLen < offset + sizeByte ∨ content 0 = 0xFF) := fun h => h.elim hout h0
      simp only [if_neg hin]
      constructor
      · rintro ⟨s, buf, ⟨hends, -⟩, hw, -⟩
        refine Or.inr ?_
        rintro a ⟨ha, hlt, hext, hff⟩
        obtain ⟨t, ht, rfl, hends'⟩ := visits h0 hends hw ha (Nat.lt_of_succ_lt hlt)
        have hne : content t.hdr ≠ 0xFF := by
          intro hc
          rw [hc] at hext
          exact absurd hext (by decide)
        exact no_write ht ⟨hne, hlt⟩ hends' hw ⟨hext, hff⟩
      · rintro (h | hno)
        · exact absurd h hout
        · obtain ⟨s, hends, hwalk⟩ := walk_ends takes hno h0
          exact ⟨s, _, ⟨hends, rfl⟩, hwalk.writes, hwalk.indices⟩

end

end Efuse

end Rtl8192eu
