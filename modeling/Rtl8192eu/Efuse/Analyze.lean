import Rtl8192eu.Efuse.PgRead

/-!
# The scanners of the efuse

`rtw_efuse_analyze` is one more reader of the log.  It reads a word only if there is a byte left
behind it, so the last word of a full efuse is not read.

* `analyzeWords`, `analyzeRound`   the loops;
* `analyze_log`   the map of a log, but for a last word at the end of the content;
* `Agree`         all scanners say the same of a content;
* `scanners_agree_iff`   when they do so for a log.
-/

namespace Rtl8192eu

open Mem Loop

namespace Efuse

/-- the `n` words from word `i` on -/
def analyzeWords (content : Nat → UInt8) (offset wden : Nat) :
    Nat → Nat → Nat → (Nat → UInt8) → Nat × (Nat → UInt8)
  | 0, _, addr, tbl => (addr, tbl)
  | n + 1, i, addr, tbl =>
    if wden.testBit i then analyzeWords content offset wden n (i + 1) addr tbl
    else if addr + 2 < efuseRealContentLen then
      analyzeWords content offset wden n (i + 1) (addr + 2)
        (Function.update (Function.update tbl (offset * 8 + i * 2) (content addr))
          (offset * 8 + i * 2 + 1) (content (addr + 1)))
    else (addr, tbl)

/-- `efuseHeader`, `eFuse_Addr` and `eFuseWord` -/
structure Analysis where
  header : UInt8
  addr : Nat
  tbl : Nat → UInt8

/-- the words behind a header, and the next header -/
def Analysis.words (content : Nat → UInt8) (s : Analysis) (offset wden addr : Nat) : Analysis :=
  let r := if offset < efuseMaxSection then
      analyzeWords content offset wden efuseMaxWordUnit 0 addr s.tbl
    else (addr, s.tbl)
  ⟨content r.1, r.1 + 1, r.2⟩

def analyzeRound (content : Nat → UInt8) (s : Analysis) : Next Analysis (Nat → UInt8) :=
  if s.header ≠ 0xFF ∧ s.addr < efuseRealContentLen then
    if extHeader s.header then
      let b := content s.addr
      if b ≠ 0xFF then
        if allWordsDisabled b then .again ⟨content (s.addr + 1), s.addr + 2, s.tbl⟩
        else .again (s.words content (extOffset s.header b) (hdrWordEn b) (s.addr + 1))
      else .stop s.tbl
    else .again (s.words content (hdrOffset s.header) (hdrWordEn s.header) s.addr)
  else .stop s.tbl

/-- `rtw_efuse_analyze` of the WiFi efuse ends with `map` in `fakeEfuseInitMap` -/
def Analyzes (content map : Nat → UInt8) : Prop :=
  if content 0 = 0xFF then map = blankData
  else ∃ tbl, Ends (analyzeRound content) ⟨content 0, 1, blankData⟩ tbl ∧
    map = fun a => if a < efuseMapLen then tbl a else 0xFF

/-- the table of `Hal_EfuseReadEFuse8192E` -/
def builtMap (content : Nat → UInt8) : Nat → UInt8 :=
  if content 0 = 0xFF then blankData
  else (readLoop (2 * efuseRealContentLen) ⟨content, 0, 0⟩ (content 0) 1 blankData).2.2

/-! ## the words of a packet -/

section
variable {content tbl data : Nat → UInt8} {offset wordEn addr i n a : Nat} {p : Packet} {ps : List Packet}

theorem setWord_eq (lo hi : UInt8) : Function.update (Function.update tbl (offset * 8 + i * 2) lo)
    (offset * 8 + i * 2 + 1) hi = orHigh (setLow tbl offset i lo) offset i hi := by
  unfold orHigh setLow
  rw [Function.update_self, UInt8.zero_or, Function.update_idem]

/-- at the end of the content no word is read -/
theorem analyzeWords_end (h : efuseRealContentLen ≤ addr + 2) :
    analyzeWords content offset wordEn n i addr tbl = (addr, tbl) := by
  induction n generalizing i with
  | zero => rfl
  | succ n ih =>
    unfold analyzeWords
    split
    · exact ih
    · rw [if_neg (Nat.not_lt.mpr h)]

theorem analyzeWords_spec (hn : i + n ≤ 4)
    (hb : read content addr (wordBytes wordEn data i n).length = wordBytes wordEn data i n)
    (hfit : addr + (wordBytes wordEn data i n).length < efuseRealContentLen) :
    analyzeWords content offset wordEn n i addr tbl =
      (addr + (wordBytes wordEn data i n).length, withWords offset wordEn data i n tbl) := by
  induction n generalizing i addr tbl with
  | zero =>
    rw [withWords_zero]
    rfl
  | succ n ih =>
    unfold analyzeWords
    cases h : wordEn.testBit i with
    | true =>
      rw [wordBytes_disabled h] at hb hfit ⊢
      rw [if_pos rfl, withWords_disabled h]
      exact ih (by omega) hb hfit
    | false =>
      obtain ⟨hlo, hhi, hrest⟩ := read_enabled h hb
      rw [wordBytes_enabled h, List.length_append] at hfit ⊢
      have hlen : [data (2 * i), data (2 * i + 1)].length = 2 := rfl
      rw [hlen] at hfit ⊢
      rw [if_neg Bool.false_ne_true, withWords_enabled h hn, if_pos (by omega), setWord_eq, hlo, hhi, ih (by omega) hrest (by omega), ← Nat.add_assoc]

theorem disabled_of_length {m : Nat} (h : (wordBytes wordEn data i n).length = 0) (hm : i ≤ m)
    (hn : m < i + n) : wordEn.testBit m = true := by
  induction n generalizing i with
  | zero => omega
  | succ n ih =>
    unfold wordBytes at h
    obtain ⟨hfirst, hrest⟩ := Nat.add_eq_zero_iff.mp (List.length_append.symm.trans h)
    by_cases hi : m = i
    · subst hi
      cases hb : wordEn.testBit m with
      | true => rfl
      | false =>
        rw [hb, if_neg Bool.false_ne_true] at hfirst
        cases hfirst
    · exact ih hrest (by omega) (by omega)

/-- word `k` is the last one of `n` from word `i` on -/
def IsLast (wordEn i n k : Nat) : Prop :=
  i ≤ k ∧ k < i + n ∧ wordEn.testBit k = false ∧ ∀ m, k < m → m < i + n → wordEn.testBit m = true

/-- a last word at the end of the content is left out -/
theorem analyzeWords_full (hn : i + n ≤ 4)
    (hb : read content addr (wordBytes wordEn data i n).length = wordBytes wordEn data i n)
    (hfit : addr + (wordBytes wordEn data i n).length = efuseRealContentLen)
    (hpos : 0 < (wordBytes wordEn data i n).length) :
    ∃ k, IsLast wordEn i n k ∧ analyzeWords content offset wordEn n i addr tbl =
      (efuseRealContentLen - 2, withWords offset wordEn data i (k - i) tbl) := by
  induction n generalizing i addr tbl with
  | zero => exact absurd hpos (Nat.lt_irrefl 0)
  | succ n ih =>
    unfold analyzeWords
    cases h : wordEn.testBit i with
    | true =>
      rw [wordBytes_disabled h] at hb hfit hpos
      obtain ⟨k, ⟨hik, hkn, hk, hlast⟩, heq⟩ := @ih tbl addr (i + 1) (by omega) hb hfit hpos
      refine ⟨k, ⟨by omega, by omega, hk, fun m hm hmn => hlast m hm (by omega)⟩, ?_⟩
      have hcut : k - i = (k - (i + 1)) + 1 := by omega
      rw [if_pos rfl, heq, hcut, withWords_disabled h]
    | false =>
      rw [if_neg Bool.false_ne_true]
      obtain ⟨hlo, hhi, hrest⟩ := read_enabled h hb
      have hlen : [data (2 * i), data (2 * i + 1)].length = 2 := rfl
      rw [wordBytes_enabled h, List.length_append, hlen] at hfit
      by_cases hmore : 0 < (wordBytes wordEn data (i + 1) n).length
      · obtain ⟨k, ⟨hik, hkn, hk, hlast⟩, heq⟩ := @ih
          (orHigh (setLow tbl offset i (data (2 * i))) offset i (data (2 * i + 1))) (addr + 2) (i + 1)
          (by omega) hrest (by omega) hmore
        refine ⟨k, ⟨by omega, by omega, hk, fun m hm hmn => hlast m hm (by omega)⟩, ?_⟩
        have hcut : k - i = (k - (i + 1)) + 1 := by omega
        rw [if_pos (by omega), setWord_eq, hlo, hhi, heq, hcut, withWords_enabled h (by omega)]
      · -- there is no word behind this one
        have hz : (wordBytes wordEn data (i + 1) n).length = 0 := Nat.eq_zero_of_not_pos hmore
        refine ⟨i, ⟨Nat.le_refl i, by omega, h, ?_⟩, ?_⟩
        · intro m hm hmn
          exact disabled_of_length hz hm (by omega)
        · rw [if_neg (by omega), Nat.sub_self, withWords_zero]
          congr 1
          omega

/-! ## a log -/

/-- the last word that is enabled -/
def Packet.lastWord (p : Packet) : Nat :=
  if p.wordEn.testBit 3 = false then 3
  else if p.wordEn.testBit 2 = false then 2
  else if p.wordEn.testBit 1 = false then 1
  else 0

/-- the map with the words of the packet but the last -/
def Packet.applyButLast (p : Packet) (tbl : Nat → UInt8) : Nat → UInt8 :=
  withWords p.offset p.wordEn p.data 0 p.lastWord tbl

theorem lastWord_eq {k : Nat} (h : IsLast p.wordEn 0 efuseMaxWordUnit k) : p.lastWord = k := by
  obtain ⟨-, hk4, hk, hlast⟩ := h
  have hk4 : k < 4 := by rwa [Nat.zero_add] at hk4
  unfold Packet.lastWord
  have hset : ∀ m, k < m → m < 4 → ¬p.wordEn.testBit m = false := by
    intro m hm hm4
    rw [hlast m hm (by rw [Nat.zero_add]; exact hm4)]
    exact Bool.true_eq_false.mp
  match k, hk4 with
  | 0, _ => rw [if_neg (hset 3 (by decide) (by decide)), if_neg (hset 2 (by decide) (by decide)),
      if_neg (hset 1 (by decide) (by decide))]
  | 1, _ => rw [if_neg (hset 3 (by decide) (by decide)), if_neg (hset 2 (by decide) (by decide)), if_pos hk]
  | 2, _ => rw [if_neg (hset 3 (by decide) (by decide)), if_pos hk]
  | 3, _ => rw [if_pos hk]

/-- the last two bytes of the content change nothing any more -/
theorem analyze_tail (header : UInt8) (tbl : Nat → UInt8) (h : efuseRealContentLen ≤ addr + 1) :
    Ends (analyzeRound content) ⟨header, addr, tbl⟩ tbl := by
  have hout : ∀ (b : UInt8) (a : Nat), efuseRealContentLen ≤ a → Ends (analyzeRound content) ⟨b, a, tbl⟩ tbl := by
    intro b a ha
    have hround : analyzeRound content ⟨b, a, tbl⟩ = .stop tbl :=
      if_neg fun hc => absurd hc.2 (Nat.not_lt.mpr ha)
    exact (ends_stop hround).mpr rfl
  have hwords : ∀ (s : Analysis) (o w a : Nat), s.tbl = tbl → efuseRealContentLen ≤ a + 1 →
      Ends (analyzeRound content) (s.words content o w a) tbl := by
    intro s o w a hs ha
    have heq : s.words content o w a = ⟨content a, a + 1, tbl⟩ := by
      unfold Analysis.words
      rw [analyzeWords_end (Nat.le_succ_of_le ha), ite_self, hs]
    rw [heq]
    exact hout _ _ ha
  by_cases hc : header ≠ 0xFF ∧ addr < efuseRealContentLen
  · by_cases hext : extHeader header = true
    · by_cases hff : content addr ≠ 0xFF
      · by_cases hall : allWordsDisabled (content addr) = true
        · have hround : analyzeRound content ⟨header, addr, tbl⟩ =
              .again ⟨content (addr + 1), addr + 2, tbl⟩ := by
            unfold analyzeRound
            rw [if_pos hc, if_pos hext]
            dsimp only
            rw [if_pos hff, if_pos hall]
          exact (ends_again hround).mpr (hout _ _ (Nat.le_succ_of_le h))
        · have hround : analyzeRound content ⟨header, addr, tbl⟩ =
              .again (Analysis.words content ⟨header, addr, tbl⟩ (extOffset header (content addr))
                (hdrWordEn (content addr)) (addr + 1)) := by
            unfold analyzeRound
            rw [if_pos hc, if_pos hext]
            dsimp only
            rw [if_pos hff, if_neg hall]
          exact (ends_again hround).mpr (hwords _ _ _ _ rfl (Nat.le_succ_of_le h))
      · have hround : analyzeRound content ⟨header, addr, tbl⟩ = .stop tbl := by
          unfold analyzeRound
          rw [if_pos hc, if_pos hext]
          dsimp only
          rw [if_neg hff]
        exact (ends_stop hround).mpr rfl
    · have hround : analyzeRound content ⟨header, addr, tbl⟩ =
          .again (Analysis.words content ⟨header, addr, tbl⟩ (hdrOffset header) (hdrWordEn header) addr) := by
        unfold analyzeRound
        rw [if_pos hc, if_neg hext]
      exact (ends_again hround).mpr (hwords _ _ _ _ rfl h)
  · have hround : analyzeRound content ⟨header, addr, tbl⟩ = .stop tbl := if_neg hc
    exact (ends_stop hround).mpr rfl

/-- a round goes to the words of the packet -/
theorem analyzeRound_packet (tbl : Nat → UInt8) (h : LogAt content a (p :: ps)) :
    analyzeRound content ⟨content a, a + 1, tbl⟩ =
      .again (Analysis.words content ⟨content a, a + 1, tbl⟩ p.offset p.wordEn (a + p.header.length)) := by
  have hfit := h.head.2.2.1
  have hlt := p.lt_length_bytes
  have hpos : 0 < p.header.length := by
    rw [p.length_header]
    split
    · decide
    · decide
  unfold analyzeRound
  rw [if_pos ⟨h.ne_blank, by show a + 1 < efuseRealContentLen; omega⟩]
  by_cases ho : p.offset < efuseMaxSectionBase
  · obtain ⟨-, hext, hoff, hen⟩ := pgHeader_spec ho p.wordEn_lt
    obtain ⟨ha, hone⟩ := h.short ho
    dsimp only
    rw [ha, hext, if_neg Bool.false_ne_true, hoff, hen, hone]
  · obtain ⟨-, hext⟩ := pgHeaderExt_spec p.offset_lt
    obtain ⟨hne, hall, hoff, hen⟩ := pgExtHeader_spec p.offset_lt p.wordEn_lt
    obtain ⟨ha, hb, htwo⟩ := h.long ho
    dsimp only
    rw [ha, hext, if_pos rfl, hb, if_pos hne, hall, if_neg Bool.false_ne_true, hoff, hen, htwo]

/-- **The run over a log** that ends in front of the end of the content. -/
theorem analyze_log {qs : List Packet} {r : Nat → UInt8} (h : LogAt content a (qs ++ ps))
    (hroom : a + logLen qs < efuseRealContentLen) (tbl : Nat → UInt8) :
    Ends (analyzeRound content) ⟨content a, a + 1, tbl⟩ r ↔
      Ends (analyzeRound content) ⟨content (a + logLen qs), a + logLen qs + 1,
        qs.foldl (fun tbl p => p.apply tbl) tbl⟩ r := by
  induction qs generalizing a tbl with
  | nil => exact Iff.rfl
  | cons p qs ih =>
    obtain ⟨-, hwords, -, htail⟩ := LogAt.head h
    rw [logLen_cons] at hroom
    have hlen : a + p.header.length + (wordBytes p.wordEn p.data 0 efuseMaxWordUnit).length =
        a + p.bytes.length := by
      unfold Packet.bytes
      rw [List.length_append, Nat.add_assoc]
    have hspec : analyzeWords content p.offset p.wordEn efuseMaxWordUnit 0 (a + p.header.length) tbl = _ :=
      analyzeWords_spec (Nat.le_refl 4) hwords (by rw [hlen]; omega)
    have hnext : Analysis.words content ⟨content a, a + 1, tbl⟩ p.offset p.wordEn (a + p.header.length) =
        ⟨content (a + p.bytes.length), a + p.bytes.length + 1, p.apply tbl⟩ := by
      unfold Analysis.words
      rw [if_pos p.offset_lt]
      dsimp only
      rw [hspec, ← hlen, ← withWords_packet]
    have hround := analyzeRound_packet tbl h
    rw [hnext] at hround
    rw [ends_again hround, ih htail (by omega), logLen_cons, ← Nat.add_assoc]
    rfl

/-- the last packet, if it ends at the end of the content -/
theorem analyze_last (h : LogAt content a [p]) (hend : a + p.bytes.length = efuseRealContentLen)
    (tbl : Nat → UInt8) :
    IsLast p.wordEn 0 efuseMaxWordUnit p.lastWord ∧
      Ends (analyzeRound content) ⟨content a, a + 1, tbl⟩ (p.applyButLast tbl) := by
  obtain ⟨-, hwords, -, -⟩ := h.head
  have hcnt := calculateWordCnts_pos p.wordEn_lt
  have hlen : a + p.header.length + (wordBytes p.wordEn p.data 0 efuseMaxWordUnit).length =
      efuseRealContentLen := by
    rw [← hend]
    unfold Packet.bytes
    rw [List.length_append, Nat.add_assoc]
  obtain ⟨k, hk, heq⟩ : ∃ k, IsLast p.wordEn 0 efuseMaxWordUnit k ∧
      analyzeWords content p.offset p.wordEn efuseMaxWordUnit 0 (a + p.header.length) tbl = _ :=
    analyzeWords_full (Nat.le_refl 4) hwords hlen (by rw [length_wordBytes]; omega)
  have hlast := lastWord_eq hk
  rw [hlast]
  refine ⟨hk, (ends_again (analyzeRound_packet tbl h)).mpr ?_⟩
  have hnext : Analysis.words content ⟨content a, a + 1, tbl⟩ p.offset p.wordEn (a + p.header.length) =
      ⟨content 510, 511, p.applyButLast tbl⟩ := by
    unfold Analysis.words
    rw [if_pos p.offset_lt]
    dsimp only
    rw [heq]
    unfold Packet.applyButLast
    rw [hlast]
    rfl
  rw [hnext]
  exact analyze_tail _ _ (Nat.le_refl _)

/-- the last word may be left out if it is in the map already -/
theorem applyButLast_eq_iff (h : IsLast p.wordEn 0 efuseMaxWordUnit p.lastWord) (tbl : Nat → UInt8) :
    (∀ a < efuseMapLen, p.applyButLast tbl a = p.apply tbl a) ↔
      ∀ j < pgpktDataSize, j / 2 = p.lastWord → tbl (pgpktDataSize * p.offset + j) = p.data j := by
  obtain ⟨-, -, hbit, hlast⟩ := h
  have hoff := p.offset_lt
  constructor
  · intro heq j hj hword
    have hdiv : (pgpktDataSize * p.offset + j) / pgpktDataSize = p.offset := by
      unfold pgpktDataSize at hj ⊢
      omega
    have hmod : (pgpktDataSize * p.offset + j) % pgpktDataSize = j := by
      unfold pgpktDataSize at hj ⊢
      omega
    have hin : pgpktDataSize * p.offset + j < efuseMapLen := by
      unfold pgpktDataSize at hj ⊢
      unfold efuseMaxSection at hoff
      unfold efuseMapLen
      omega
    have hall : p.apply tbl (pgpktDataSize * p.offset + j) = p.data j := by
      unfold Packet.apply
      rw [hdiv, hmod]
      exact if_pos ⟨rfl, by rw [hword]; exact hbit⟩
    have hbut : p.applyButLast tbl (pgpktDataSize * p.offset + j) = tbl (pgpktDataSize * p.offset + j) := by
      refine if_neg ?_
      rintro ⟨-, -, hlt, -⟩
      have hmod' : (pgpktDataSize * p.offset + j) % 8 = j := hmod
      rw [hmod'] at hlt
      omega
    rw [← hbut, heq _ hin, hall]
  · intro hsame a _
    unfold Packet.applyButLast withWords Packet.apply pgpktDataSize
    by_cases hc : a / 8 = p.offset ∧ p.wordEn.testBit (a % 8 / 2) = false
    · rw [if_pos hc]
      by_cases hw : a % 8 / 2 = p.lastWord
      · rw [if_neg fun h => absurd h.2.2.1 (by omega)]
        have hj := hsame (a % 8) (Nat.mod_lt a (by decide)) hw
        have haddr : pgpktDataSize * p.offset + a % 8 = a := by
          unfold pgpktDataSize
          omega
        rw [haddr] at hj
        exact hj
      · refine if_pos ⟨hc.1, Nat.zero_le _, ?_, hc.2⟩
        rcases Nat.lt_or_gt_of_ne hw with hlt | hgt
        · omega
        · have hm := hlast _ hgt (by show a % 8 / 2 < 0 + 4; omega)
          rw [hc.2] at hm
          cases hm
    · rw [if_neg hc, if_neg fun h => hc ⟨h.1, h.2.2.2⟩]

/-- the log does not end at the end of the content, or its last word was in the map before -/
def EndKept (ps : List Packet) : Prop :=
  logLen ps = efuseRealContentLen → ∀ qs p, ps = qs ++ [p] →
    ∀ j < pgpktDataSize, j / 2 = p.lastWord → mapOf qs (pgpktDataSize * p.offset + j) = p.data j

theorem analyzes_iff (h : IsLog content ps) :
    (∃ map, Analyzes content map ∧ ∀ a < efuseMapLen, map a = mapOf ps a) ↔ EndKept ps := by
  have hfit : 0 + logLen ps ≤ efuseRealContentLen := h.fits
  unfold Analyzes EndKept
  by_cases hps : ps = []
  · subst hps
    refine iff_of_true ⟨blankData, ?_, fun _ _ => rfl⟩ (fun hend => absurd hend (by decide))
    rw [if_pos ((content_zero_iff h).mpr rfl)]
  · have h0 : content 0 ≠ 0xFF := fun hc => hps ((content_zero_iff h).mp hc)
    simp only [if_neg h0]
    -- the map is the table where the loop ends
    have htable : ∀ tbl, Ends (analyzeRound content) ⟨content 0, 1, blankData⟩ tbl →
        ((∃ map, (∃ tbl, Ends (analyzeRound content) ⟨content 0, 1, blankData⟩ tbl ∧
          map = fun a => if a < efuseMapLen then tbl a else 0xFF) ∧ ∀ a < efuseMapLen, map a = mapOf ps a) ↔
            ∀ a < efuseMapLen, tbl a = mapOf ps a) := by
      intro tbl htbl
      constructor
      · rintro ⟨map, ⟨tbl', hends, rfl⟩, hmap⟩ a ha
        cases htbl.unique hends
        exact (if_pos ha).symm.trans (hmap a ha)
      · intro heq
        exact ⟨_, ⟨tbl, htbl, rfl⟩, fun a ha => (if_pos ha).trans (heq a ha)⟩
    by_cases hend : logLen ps = efuseRealContentLen
    · obtain ⟨qs, p, rfl⟩ : ∃ qs p, ps = qs ++ [p] :=
        ⟨ps.dropLast, ps.getLast hps, (List.dropLast_append_getLast hps).symm⟩
      have hlt := p.lt_length_bytes
      have hlen : logLen (qs ++ [p]) = logLen qs + p.bytes.length := by
        rw [logLen_append, logLen_cons, logLen_nil, Nat.add_zero]
      have hroom : 0 + logLen qs < efuseRealContentLen := by omega
      have hrun := analyze_log (r := p.applyButLast (mapOf qs)) h hroom blankData
      obtain ⟨hk, hlast⟩ := analyze_last (LogAt.drop h) (by omega) (mapOf qs)
      rw [htable _ (hrun.mpr hlast), mapOf_append]
      show (∀ a < efuseMapLen, p.applyButLast (mapOf qs) a = p.apply (mapOf qs) a) ↔ _
      rw [applyButLast_eq_iff hk]
      constructor
      · intro hsame _ qs' p' heq
        obtain ⟨rfl, hp⟩ := List.append_inj' heq rfl
        cases hp
        exact hsame
      · exact fun hsame => hsame hend qs p rfl
    · have hroom : 0 + logLen ps < efuseRealContentLen := by omega
      have hlog : LogAt content 0 (ps ++ []) := by rwa [List.append_nil]
      have hrun := analyze_log (r := mapOf ps) hlog hroom blankData
      have hstop : analyzeRound content ⟨content (0 + logLen ps), 0 + logLen ps + 1, mapOf ps⟩ =
          .stop (mapOf ps) :=
        if_neg fun hc => hc.1 (h.blank _ (Nat.le_refl _) hroom)
      rw [htable _ (hrun.mpr ((ends_stop hstop).mpr rfl))]
      exact iff_of_true (fun _ _ => rfl) fun hc => absurd hc hend

/-! ## agreement -/

theorem builtMap_log (h : IsLog content ps) : builtMap content = mapOf ps := by
  unfold builtMap
  by_cases hps : ps = []
  · rw [if_pos ((content_zero_iff h).mpr hps), hps]
    rfl
  · have hne : content 0 ≠ 0xFF := fun h0 => hps ((content_zero_iff h).mp h0)
    have hfuel : ps.length < 2 * efuseRealContentLen := by
      have hfit : 0 + logLen ps ≤ 512 := h.fits
      have hle := length_le_logLen ps
      show ps.length < 2 * 512
      omega
    have hc : LogAt (Chip.content ⟨content, 0, 0⟩) 0 ps := h
    have hloop := readLoop_log blankData hc hfuel
    have hnext : nextAddr content 0 = 1 := if_pos ⟨hne, by decide⟩
    rw [if_neg hne]
    show (readLoop (2 * efuseRealContentLen) ⟨content, 0, 0⟩ (content 0) 1 blankData).2.2 = _
    rw [← hnext]
    exact congrArg (fun x => x.2.2) hloop

theorem notEmpty_eq_false {m : Nat → UInt8} {n : Nat} :
    notEmpty (read m 0 n) = false ↔ ∀ j < n, m j = 0xFF := by
  unfold notEmpty
  rw [List.any_eq_false]
  constructor
  · intro hall j hj
    have hmem : m (0 + j) ∈ read m 0 n := List.mem_map_of_mem (List.mem_range.mpr hj)
    have hb := hall _ hmem
    rw [Nat.zero_add, bne_iff_ne, ne_eq, not_not] at hb
    exact hb
  · intro hall b hb
    obtain ⟨j, hj, rfl⟩ := List.mem_map.mp hb
    rw [Nat.zero_add, hall j (List.mem_range.mp hj)]
    decide

/-- section `s` is read as it is in the map -/
def SectionAgrees (content : Nat → UInt8) (s : Nat) : Prop :=
  ∃ data ret, PgReads content s data ret ∧
    (∀ j < pgpktDataSize, data j = builtMap content (pgpktDataSize * s + j)) ∧
    (ret = false ↔ ∀ j < pgpktDataSize, builtMap content (pgpktDataSize * s + j) = 0xFF)

theorem sectionAgrees_iff (h : IsLog content ps) {s : Nat} (hs : s < efuseMaxSection) :
    SectionAgrees content s ↔ ∀ j < pgpktDataSize, taken s ps.reverse j = latest s ps.reverse j := by
  have hread : Ends (pgRound content s) ⟨0, .header, blankData, blankData⟩ _ := pgRead_log h blankData blankData
  have hdata := (pgFold_eq s ps).2
  have hin : ¬efuseMaxSection < s := Nat.not_lt.mpr (Nat.le_of_lt hs)
  unfold SectionAgrees PgReads
  rw [builtMap_log h]
  simp only [if_neg hin]
  constructor
  · rintro ⟨data, ret, ⟨hends, -⟩, hsame, -⟩ j hj
    cases hread.unique hends
    rw [← hdata j hj, hsame j hj, mapOf_eq s ps hj]
  · intro htaken
    have hsame : ∀ j < pgpktDataSize, (ps.foldl (pgStep s) (blankData, blankData)).2 j =
        mapOf ps (pgpktDataSize * s + j) := by
      intro j hj
      rw [hdata j hj, htaken j hj, mapOf_eq s ps hj]
    refine ⟨_, _, ⟨hread, rfl⟩, hsame, ?_⟩
    rw [notEmpty_eq_false]
    exact forall₂_congr fun j hj => by rw [hsame j hj]

/-- all scanners say the same of the content -/
def Agree (content : Nat → UInt8) (ps : List Packet) : Prop :=
  (∀ s < efuseMaxSection, SectionAgrees content s) ∧
    (getCurrentSize ⟨content, 0, 0⟩).2 = logLen ps ∧
    ∃ map, Analyzes content map ∧ ∀ a < efuseMapLen, map a = builtMap content a

end

end Efuse

open Efuse

/-- **the scanners agree** on a log just when every byte of a section was in its own place in `tmpdata`
when it was taken, or equal to what was there, and the efuse is not full to the last word -/
theorem scanners_agree_iff {content : Nat → UInt8} {ps : List Packet} (h : IsLog content ps) :
    Agree content ps ↔
      (∀ s < efuseMaxSection, ∀ j < pgpktDataSize, taken s ps.reverse j = latest s ps.reverse j) ∧
        EndKept ps := by
  have hsize : (getCurrentSize ⟨content, 0, 0⟩).2 = logLen ps := by
    have hlog : IsLog (Chip.content ⟨content, 0, 0⟩) ([] ++ ps) := h
    rw [getCurrentSize_log hlog rfl]
    rfl
  unfold Agree
  rw [builtMap_log h, analyzes_iff h]
  constructor
  · rintro ⟨hsec, -, hend⟩
    exact ⟨fun s hs => (sectionAgrees_iff h hs).mp (hsec s hs), hend⟩
  · rintro ⟨hsec, hend⟩
    exact ⟨fun s hs => (sectionAgrees_iff h hs).mpr (hsec s hs), hsize, hend⟩

theorem scanners_agree_sampleLog : Agree (contentOf sampleLog) sampleLog :=
  (scanners_agree_iff isLog_sampleLog).mpr ⟨by decide +kernel, fun h => absurd h (by decide)⟩

/-- word 1 of section 0 -/
def Efuse.secondWord : Packet := ⟨0, 13, fun i => if i = 2 then 0xAA else 0xBB, by decide, by decide⟩

/-- the second word is not found -/
theorem scanners_differ_secondWord : ¬Agree (contentOf [secondWord]) [secondWord] := by
  intro h
  have hlog : IsLog (contentOf [secondWord]) [secondWord] := isLog_contentOf (by decide)
  have hsec := (sectionAgrees_iff hlog (by decide)).mp (h.1 0 (by decide))
  exact absurd (hsec 2 (by decide)) (by decide)

end Rtl8192eu
