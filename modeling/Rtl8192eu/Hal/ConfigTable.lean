import Mathlib.Tactic.Tauto
import Rtl8192eu.Lib.CondList
import Rtl8192eu.Lib.Keyed

/-!
# The register tables of the chip

`odm_read_and_config_mp_8192e_mac_reg`, `.._agc_tab`, `.._phy_reg`, `.._radioa` and `.._radiob` of
`hal/phydm/rtl8192e/halhwimg8192e_mac.c`, `halhwimg8192e_bb.c` and `halhwimg8192e_rf.c`, with `check_positive`
(the same text in each of the files), and `phydm_regconfig8192e.c`. A table is an array of words, two for each
entry, and parts of it stand behind conditions on the board. Messages are not compiled in.

* `checkPositive`   whether a condition is met, by masks; `checkPositive_iff`;
* `readAndConfig`   the loop over the words;
* `TableItem.words`   the words of a table that is well formed;
* `readAndConfig_words`   what the loop configures;
* `readAndConfig_registers`   what a register file holds then.
-/

namespace Rtl8192eu

open CondList

/-! ## the board -/

/-- of `dm_struct` -/
structure DmStruct where
  supportPlatform : UInt8 := 4
  supportInterface : UInt8 := 2
  cutVersion : UInt8 := 0
  boardType : UInt8 := 0
  packageType : UInt8 := 0
  typeGlna : UInt16 := 0
  typeGpa : UInt16 := 0
  typeAlna : UInt16 := 0
  typeApa : UInt16 := 0
  deriving DecidableEq, Repr

namespace DmStruct

variable (dm : DmStruct)

/-- `_board_type`: GLNA, GPA, ALNA, APA, BT, NGFF and TRSWT from the lowest bit on -/
def boardPara : UInt8 :=
  (dm.boardType &&& 0x10) >>> 4
    ||| ((dm.boardType &&& 0x08) >>> 3) <<< 1
    ||| ((dm.boardType &&& 0x80) >>> 7) <<< 2
    ||| ((dm.boardType &&& 0x40) >>> 6) <<< 3
    ||| ((dm.boardType &&& 0x04) >>> 2) <<< 4
    ||| ((dm.boardType &&& 0x02) >>> 1) <<< 5
    ||| ((dm.boardType &&& 0x20) >>> 5) <<< 6

def cutVersionForPara : UInt8 := if dm.cutVersion = 0 then 15 else dm.cutVersion

def pkgTypeForPara : UInt8 := if dm.packageType = 0 then 15 else dm.packageType

def driver1 : UInt32 :=
  dm.cutVersionForPara.toUInt32 <<< 24
    ||| (dm.supportInterface &&& 0xF0).toUInt32 <<< 16
    ||| dm.supportPlatform.toUInt32 <<< 16
    ||| dm.pkgTypeForPara.toUInt32 <<< 12
    ||| (dm.supportInterface &&& 0x0F).toUInt32 <<< 8
    ||| dm.boardPara.toUInt32

def driver2 : UInt32 :=
  (dm.typeGlna &&& 0xFF).toUInt32
    ||| (dm.typeGpa &&& 0xFF).toUInt32 <<< 8
    ||| (dm.typeAlna &&& 0xFF).toUInt32 <<< 16
    ||| (dm.typeApa &&& 0xFF).toUInt32 <<< 24

def driver4 : UInt32 :=
  (dm.typeGlna &&& 0xFF00).toUInt32 >>> 8
    ||| (dm.typeGpa &&& 0xFF00).toUInt32
    ||| (dm.typeAlna &&& 0xFF00).toUInt32 <<< 8
    ||| (dm.typeApa &&& 0xFF00).toUInt32 <<< 16

/-- `bit_mask`: a byte for each of GLNA, GPA, ALNA and APA -/
def bitMask (cond1 : UInt32) : UInt32 :=
  (if cond1 &&& 1 ≠ 0 then 0x000000FF else 0) ||| (if cond1 &&& 2 ≠ 0 then 0x0000FF00 else 0)
    ||| (if cond1 &&& 4 ≠ 0 then 0x00FF0000 else 0) ||| (if cond1 &&& 8 ≠ 0 then 0xFF000000 else 0)

/-- the third word is not looked at -/
def checkPositive (condition1 condition2 _condition3 condition4 : UInt32) : Bool :=
  if condition1 &&& 0x0000F000 ≠ 0 ∧ condition1 &&& 0x0000F000 ≠ dm.driver1 &&& 0x0000F000 then false
  else if condition1 &&& 0x0F000000 ≠ 0 ∧ condition1 &&& 0x0F000000 ≠ dm.driver1 &&& 0x0F000000 then false
  else
    let cond1 := condition1 &&& 0x00FF0FFF
    let driver1 := dm.driver1 &&& 0x00FF0FFF
    if cond1 &&& driver1 = cond1 then
      if cond1 &&& 0x0F = 0 then true
      else decide (condition2 &&& bitMask cond1 = dm.driver2 &&& bitMask cond1
        ∧ condition4 &&& bitMask cond1 = dm.driver4 &&& bitMask cond1)
    else false

end DmStruct

/-! ## the loop -/

/-- `is_matched`, `is_skipped`, `pre_v1`, `pre_v2` -/
structure CondRead where
  isMatched : Bool := true
  isSkipped : Bool := false
  preV1 : UInt32 := 0
  preV2 : UInt32 := 0
  deriving DecidableEq, Repr

/-- `(u8)((v1 & (BIT(29)|BIT(28))) >> 28)`; 2 is `COND_ELSE`, 3 is `COND_ENDIF` -/
def cCond (v1 : UInt32) : UInt32 := (v1 &&& 0x30000000) >>> 28

/-- a pair that is no register -/
def CondRead.readCond (dm : DmStruct) (s : CondRead) (v1 v2 : UInt32) : CondRead :=
  if v1 &&& 0x80000000 ≠ 0 then
    if cCond v1 = 3 then { s with isMatched := true, isSkipped := false }
    else if cCond v1 = 2 then { s with isMatched := !s.isSkipped }
    else { s with preV1 := v1, preV2 := v2 }
  else if s.isSkipped = false then
    if dm.checkPositive s.preV1 s.preV2 v1 v2 then { s with isMatched := true, isSkipped := true }
    else { s with isMatched := false, isSkipped := false }
  else { s with isMatched := false }

section
variable {σ : Type*}

/-- `config` is what is done with a register; a last word that is alone is not read -/
def readAndConfig (dm : DmStruct) (config : UInt32 → UInt32 → σ → σ) : CondRead → List UInt32 → σ → σ
  | s, v1 :: v2 :: array, d =>
    if v1 &&& 0xC0000000 ≠ 0 then readAndConfig dm config (s.readCond dm v1 v2) array d
    else readAndConfig dm config s array (if s.isMatched then config v1 v2 d else d)
  | _, _, d => d

/-! ## the registers -/

inductive RfPath where
  | a
  | b
  deriving DecidableEq, Repr

/-- the accesses of the chip that the tables are written with -/
structure PhyDev (σ : Type*) where
  write1Byte : UInt32 → UInt8 → σ → σ
  setBbReg : (addr bitMask data : UInt32) → σ → σ
  setRfReg : RfPath → (addr bitMask data : UInt32) → σ → σ
  getRfReg : RfPath → (addr bitMask : UInt32) → σ → UInt32 × σ
  delayUs : Nat → σ → σ

variable (dev : PhyDev σ)

def odmConfigMac8192e (addr : UInt32) (data : UInt8) : σ → σ := dev.write1Byte addr data

def odmConfigBbAgc8192e (addr bitmask data : UInt32) (d : σ) : σ := dev.delayUs 1 (dev.setBbReg addr bitmask data d)

def odmConfigBbPhy8192e (addr bitmask data : UInt32) (d : σ) : σ :=
  dev.delayUs 1 <|
    if addr = 0xfe then dev.delayUs 50000 d
    else if addr = 0xfd then dev.delayUs 5000 d
    else if addr = 0xfc then dev.delayUs 1000 d
    else if addr = 0xfb then dev.delayUs 50 d
    else if addr = 0xfa then dev.delayUs 5 d
    else if addr = 0xf9 then dev.delayUs 1 d
    else dev.setBbReg addr bitmask data d

/-- the value is written and read back again until it is there, at most `n` times -/
def rewriteRf (n : Nat) (again : σ → σ) (get : σ → UInt32 × σ) (same : UInt32 → Bool)
    (d : UInt32 × σ) : σ :=
  match n with
  | 0 => d.2
  | n + 1 => if same d.1 then d.2 else rewriteRf n again get same (get (again d.2))

def odmConfigRfReg8192e (addr data : UInt32) (path : RfPath) (regAddr : UInt32) (d : σ) : σ :=
  if addr = 0xfe ∨ addr = 0xffe then dev.delayUs 50000 d
  else
    let set := fun d => dev.delayUs 1 (dev.setRfReg path regAddr 0xfffff data d)
    let get := dev.getRfReg path addr 0xffffffff
    let late := fun d : σ => let r := get d; (r.1, dev.delayUs 1 r.2)
    let d := set d
    let d := if addr = 0xb6 then rewriteRf 6 set get (fun v => v >>> 8 == data >>> 8) (late d) else d
    if addr = 0xb2 then
      rewriteRf 6 (fun d => dev.delayUs 1 (dev.setRfReg path 0x18 0xfffff 0x0fc07 (set d))) get (· == data) (late d)
    else d

def odmConfigRfRadioA8192e (addr data : UInt32) : σ → σ :=
  odmConfigRfReg8192e dev addr data .a (addr ||| (0x1000 &&& 0xE000))

def odmConfigRfRadioB8192e (addr data : UInt32) : σ → σ :=
  odmConfigRfReg8192e dev addr data .b (addr ||| (0x1001 &&& 0xE000))

/-! ## the tables -/

variable (array : List UInt32)

def odmReadAndConfigMp8192eMacReg (dm : DmStruct) : σ → σ :=
  readAndConfig dm (fun v1 v2 => odmConfigMac8192e dev v1 v2.toUInt8) {} array

def odmReadAndConfigMp8192eAgcTab (dm : DmStruct) : σ → σ :=
  readAndConfig dm (fun v1 v2 => odmConfigBbAgc8192e dev v1 0xffffffff v2) {} array

def odmReadAndConfigMp8192ePhyReg (dm : DmStruct) : σ → σ :=
  readAndConfig dm (fun v1 v2 => odmConfigBbPhy8192e dev v1 0xffffffff v2) {} array

def odmReadAndConfigMp8192eRadioa (dm : DmStruct) : σ → σ :=
  readAndConfig dm (odmConfigRfRadioA8192e dev) {} array

def odmReadAndConfigMp8192eRadiob (dm : DmStruct) : σ → σ :=
  readAndConfig dm (odmConfigRfRadioB8192e dev) {} array

end

/-! ## what a table means -/

/-- the bit `i` of a word -/
abbrev bitOf (v : UInt32) (i : Nat) : Bool := v.toBitVec.getLsbD i

/-- `n` bits of a word from the bit `i` on -/
abbrev bitsAt (v : UInt32) (i n : Nat) : BitVec n := v.toBitVec.extractLsb' i n

theorem and_eq_and_iff (a b m : UInt32) :
    a &&& m = b &&& m ↔ ∀ i < 32, bitOf m i = true → bitOf a i = bitOf b i := by
  rw [← UInt32.toBitVec_inj, UInt32.toBitVec_and, UInt32.toBitVec_and]
  constructor
  · intro h i hi hm
    have hbit := congrArg (fun v => v.getLsbD i) h
    simpa [hm] using hbit
  · intro h
    apply BitVec.eq_of_getLsbD_eq
    intro i hi
    cases hm : bitOf m i with
    | true => simp [hm, h i hi hm]
    | false => simp [hm]

theorem bitsAt_eq_iff (a b : UInt32) (i n : Nat) :
    bitsAt a i n = bitsAt b i n ↔ ∀ k < n, bitOf a (i + k) = bitOf b (i + k) := by
  constructor
  · intro h k hk
    have hbit := congrArg (fun v => v.getLsbD k) h
    simpa [hk] using hbit
  · intro h
    apply BitVec.eq_of_getLsbD_eq
    intro k hk
    simpa [hk] using h k hk

theorem and_eq_zero_iff (v m : UInt32) : v &&& m = 0 ↔ ∀ i < 32, bitOf m i = true → bitOf v i = false := by
  have h := and_eq_and_iff v 0 m
  have hzero : ∀ i, bitOf 0 i = false := fun i => BitVec.getLsbD_zero
  simp only [UInt32.zero_and, hzero] at h
  exact h

/-- the mask `m` covers the `n` bits from the bit `j` on -/
def MaskAt (m : UInt32) (j n : Nat) : Prop := ∀ i < 32, bitOf m i = decide (j ≤ i ∧ i < j + n)

instance (m : UInt32) (j n : Nat) : Decidable (MaskAt m j n) := by
  unfold MaskAt
  infer_instance

theorem MaskAt.and_eq_and {m : UInt32} {j n : Nat} (h : MaskAt m j n) (hn : j + n ≤ 32) (a b : UInt32) :
    a &&& m = b &&& m ↔ bitsAt a j n = bitsAt b j n := by
  rw [and_eq_and_iff, bitsAt_eq_iff]
  constructor
  · intro hbits k hk
    exact hbits (j + k) (by omega) (by rw [h _ (by omega)]; simp; omega)
  · intro hfield i hi hm
    rw [h i hi, decide_eq_true_eq] at hm
    have hk := hfield (i - j) (by omega)
    rwa [Nat.add_sub_cancel' hm.1] at hk

theorem MaskAt.and_eq_zero {m : UInt32} {j n : Nat} (h : MaskAt m j n) (hn : j + n ≤ 32) (v : UInt32) :
    v &&& m = 0 ↔ bitsAt v j n = 0 := by
  have hv := h.and_eq_and hn v 0
  have hzero : bitsAt 0 j n = 0 := by simp [bitsAt]
  rw [UInt32.zero_and, hzero] at hv
  exact hv

/-- the mask of one bit -/
theorem MaskAt.and_ne_zero {m : UInt32} {k : Nat} (h : MaskAt m k 1) (hk : k < 32) (v : UInt32) :
    v &&& m ≠ 0 ↔ bitOf v k = true := by
  have hone : ∀ i < 32, bitOf m i = true ↔ i = k := by
    intro i hi
    rw [h i hi, decide_eq_true_eq]
    omega
  rw [Ne, and_eq_zero_iff, ← Bool.not_eq_false]
  refine not_congr ⟨fun hall => hall k hk ((hone k hk).mpr rfl), fun hv i hi hm => ?_⟩
  rw [(hone i hi).mp hm]
  exact hv

/-- the lanes of a mask that stand for bits of a word -/
theorem laneMask_bit (p0 p1 p2 p3 : Prop) [Decidable p0] [Decidable p1] [Decidable p2] [Decidable p3] :
    ∀ i < 32, bitOf ((if p0 then 0x000000FF else 0) ||| (if p1 then 0x0000FF00 else 0)
        ||| (if p2 then 0x00FF0000 else 0) ||| (if p3 then 0xFF000000 else 0)) i
      = if i < 8 then decide p0 else if i < 16 then decide p1 else if i < 24 then decide p2 else decide p3 := by
  by_cases h0 : p0 <;> by_cases h1 : p1 <;> by_cases h2 : p2 <;> by_cases h3 : p3 <;>
    simp only [h0, h1, h2, h3, if_true, if_false, decide_true, decide_false] <;> decide

namespace DmStruct

variable (dm : DmStruct)

/-- what a condition asks of the board: package and cut, if it names them, whatever else it names of interface,
platform and parts, and for each amplifier it names the type, low byte and high byte -/
structure Meets (c1 c2 c4 : UInt32) : Prop where
  pkg : bitsAt c1 12 4 = 0 ∨ bitsAt c1 12 4 = bitsAt dm.driver1 12 4
  cut : bitsAt c1 24 4 = 0 ∨ bitsAt c1 24 4 = bitsAt dm.driver1 24 4
  bits : ∀ i < 24, i / 4 ≠ 3 → bitOf c1 i = true → bitOf dm.driver1 i = true
  parts : ∀ k < 4, bitOf c1 k = true → bitsAt c2 (8 * k) 8 = bitsAt dm.driver2 (8 * k) 8
    ∧ bitsAt c4 (8 * k) 8 = bitsAt dm.driver4 (8 * k) 8

theorem mask_bits : ∀ i < 32, bitOf 0x00FF0FFF i = decide (i < 24 ∧ i / 4 ≠ 3) := by decide

theorem bitMask_bit (c1 : UInt32) {i : Nat} (hi : i < 32) :
    bitOf (bitMask (c1 &&& 0x00FF0FFF)) i = bitOf c1 (i / 8) := by
  have hlow : ∀ {m : UInt32} {k : Nat}, MaskAt m k 1 → k < 4 →
      decide (c1 &&& 0x00FF0FFF &&& m ≠ 0) = bitOf c1 k := by
    intro m k hm hk
    have hbit : bitOf (c1 &&& 0x00FF0FFF) k = bitOf c1 k := by
      have h := mask_bits k (by omega)
      rw [decide_eq_true (by omega)] at h
      simp only [bitOf, UInt32.toBitVec_and, BitVec.getLsbD_and] at h ⊢
      rw [h, Bool.and_true]
    rw [← hbit]
    by_cases hb : bitOf (c1 &&& 0x00FF0FFF) k = true
    · rw [hb, decide_eq_true ((hm.and_ne_zero (by omega) _).mpr hb)]
    · rw [Bool.eq_false_iff.mpr hb, decide_eq_false fun h => hb ((hm.and_ne_zero (by omega) _).mp h)]
  unfold bitMask
  rw [laneMask_bit _ _ _ _ i hi, hlow (k := 0) (by decide) (by omega), hlow (k := 1) (by decide) (by omega),
    hlow (k := 2) (by decide) (by omega), hlow (k := 3) (by decide) (by omega)]
  have hk : i / 8 < 4 := by omega
  split
  · rw [show i / 8 = 0 by omega]
  split
  · rw [show i / 8 = 1 by omega]
  split
  · rw [show i / 8 = 2 by omega]
  · rw [show i / 8 = 3 by omega]

theorem and_bitMask_iff (c1 a b : UInt32) :
    a &&& bitMask (c1 &&& 0x00FF0FFF) = b &&& bitMask (c1 &&& 0x00FF0FFF)
      ↔ ∀ k < 4, bitOf c1 k = true → bitsAt a (8 * k) 8 = bitsAt b (8 * k) 8 := by
  rw [and_eq_and_iff]
  constructor
  · intro h k hk hc
    rw [bitsAt_eq_iff]
    intro j hj
    refine h (8 * k + j) (by omega) ?_
    rw [bitMask_bit c1 (by omega), show (8 * k + j) / 8 = k by omega]
    exact hc
  · intro h i hi hm
    rw [bitMask_bit c1 hi] at hm
    have hbyte := (bitsAt_eq_iff _ _ _ _).mp (h (i / 8) (by omega) hm) (i % 8) (by omega)
    rwa [Nat.div_add_mod] at hbyte

/-- the bits that are named are there -/
theorem and_driver1_iff (c1 : UInt32) :
    c1 &&& 0x00FF0FFF &&& (dm.driver1 &&& 0x00FF0FFF) = c1 &&& 0x00FF0FFF
      ↔ ∀ i < 24, i / 4 ≠ 3 → bitOf c1 i = true → bitOf dm.driver1 i = true := by
  have hcomm : c1 &&& 0x00FF0FFF &&& (dm.driver1 &&& 0x00FF0FFF) = c1 &&& dm.driver1 &&& 0x00FF0FFF := by
    rw [← UInt32.toBitVec_inj]
    apply BitVec.eq_of_getLsbD_eq
    intro i _
    simp only [UInt32.toBitVec_and, BitVec.getLsbD_and]
    cases c1.toBitVec.getLsbD i <;> cases dm.driver1.toBitVec.getLsbD i <;>
      cases (0x00FF0FFF : UInt32).toBitVec.getLsbD i <;> rfl
  rw [hcomm, and_eq_and_iff]
  constructor
  · intro h i hi hpkg hc
    have hbit := h i (by omega) (by rw [mask_bits i (by omega)]; simp [hi, hpkg])
    simp only [bitOf, UInt32.toBitVec_and, BitVec.getLsbD_and] at hbit hc ⊢
    rwa [hc, Bool.true_and] at hbit
  · intro h i hi hm
    rw [mask_bits i hi, decide_eq_true_eq] at hm
    have hbit := h i hm.1 hm.2
    simp only [bitOf, UInt32.toBitVec_and, BitVec.getLsbD_and] at hbit ⊢
    cases hc : c1.toBitVec.getLsbD i with
    | true => rw [hbit hc, Bool.and_true]
    | false => rfl

theorem checkPositive_iff (c1 c2 c3 c4 : UInt32) :
    dm.checkPositive c1 c2 c3 c4 = true ↔ dm.Meets c1 c2 c4 := by
  have hpkg : MaskAt 0x0000F000 12 4 := by decide
  have hcut : MaskAt 0x0F000000 24 4 := by decide
  have hfour : c1 &&& 0x00FF0FFF &&& 0x0F = 0 → ∀ k < 4, bitOf c1 k = false := by
    intro h k hk
    have hfour : ∀ k < 4, bitOf 0x0F k = true := by decide
    have hc := (and_eq_zero_iff _ _).mp h k (by omega) (hfour k hk)
    have hm := mask_bits k (by omega)
    rw [decide_eq_true (by omega)] at hm
    simp only [bitOf, UInt32.toBitVec_and, BitVec.getLsbD_and] at hc hm ⊢
    rwa [hm, Bool.and_true] at hc
  unfold checkPositive
  simp only [ne_eq, hpkg.and_eq_zero (show 12 + 4 ≤ 32 by omega), hpkg.and_eq_and (show 12 + 4 ≤ 32 by omega),
    hcut.and_eq_zero (show 24 + 4 ≤ 32 by omega), hcut.and_eq_and (show 24 + 4 ≤ 32 by omega)]
  constructor
  · intro h
    split at h
    · cases h
    rename_i h1
    split at h
    · cases h
    rename_i h2
    split at h
    · rename_i h3
      refine ⟨by tauto, by tauto, (dm.and_driver1_iff c1).mp h3, fun k hk hc => ?_⟩
      split at h
      · rename_i h4
        rw [hfour h4 k hk] at hc
        cases hc
      · rw [decide_eq_true_eq, and_bitMask_iff, and_bitMask_iff] at h
        exact ⟨h.1 k hk hc, h.2 k hk hc⟩
    · cases h
  · intro h
    have h1 := h.pkg
    have h2 := h.cut
    rw [if_neg (by tauto), if_neg (by tauto), if_pos ((dm.and_driver1_iff c1).mpr h.bits)]
    split
    · rfl
    · rw [decide_eq_true_eq, and_bitMask_iff, and_bitMask_iff]
      exact ⟨fun k hk hc => (h.parts k hk hc).1, fun k hk hc => (h.parts k hk hc).2⟩

end DmStruct

instance (dm : DmStruct) (c1 c2 c4 : UInt32) : Decidable (dm.Meets c1 c2 c4) :=
  decidable_of_iff _ (dm.checkPositive_iff c1 c2 0 c4)

/-- the words of a condition: the pair that opens the branch, and the pair that asks -/
structure TableCond where
  v1 : UInt32
  v2 : UInt32
  v3 : UInt32
  v4 : UInt32
  opens : v1 &&& 0x80000000 ≠ 0 ∧ cCond v1 ≠ 3 ∧ cCond v1 ≠ 2
  asks : v3 &&& 0x80000000 = 0 ∧ v3 &&& 0xC0000000 ≠ 0

structure TableReg where
  addr : UInt32
  data : UInt32
  plain : addr &&& 0xC0000000 = 0

def TableCond.meets (dm : DmStruct) (c : TableCond) : Bool := decide (dm.Meets c.v1 c.v2 c.v4)

def markWords : Mark TableCond TableReg → List UInt32
  | .entry r => [r.addr, r.data]
  | .test c => [c.v1, c.v2, c.v3, c.v4]
  | .alt => [0xA0000000, 0]
  | .close => [0xB0000000, 0]

abbrev TableItem := Item TableCond TableReg

def TableItem.words (item : TableItem) : List UInt32 := item.flat.flatMap markWords

theorem TableCond.meets_eq (dm : DmStruct) (c : TableCond) : dm.checkPositive c.v1 c.v2 c.v3 c.v4 = c.meets dm := by
  rw [Bool.eq_iff_iff, dm.checkPositive_iff]
  exact decide_eq_true_iff.symm

/-- a word with the bit 31 is no register -/
theorem TableCond.opens_cond (c : TableCond) : c.v1 &&& 0xC0000000 ≠ 0 := by
  have h31 : MaskAt 0x80000000 31 1 := by decide
  have hbit := (h31.and_ne_zero (by omega) c.v1).mp c.opens.1
  intro h
  have hno := (and_eq_zero_iff _ _).mp h 31 (by omega) (by decide)
  rw [hno] at hbit
  cases hbit

def CondRead.flags (s : CondRead) : Flags := ⟨s.isMatched, s.isSkipped⟩

section
variable {σ : Type*} (dm : DmStruct) (config : UInt32 → UInt32 → σ → σ)

/-- the pair that asks -/
theorem CondRead.readCond_test (s : CondRead) (c : TableCond) :
    ((s.readCond dm c.v1 c.v2).readCond dm c.v3 c.v4).flags
      = s.flags.next (TableCond.meets dm) (.test c : Mark TableCond TableReg) := by
  have hopen : s.readCond dm c.v1 c.v2 = { s with preV1 := c.v1, preV2 := c.v2 } := by
    unfold readCond
    rw [if_pos c.opens.1, if_neg c.opens.2.1, if_neg c.opens.2.2]
  rw [hopen]
  unfold readCond
  rw [if_neg (not_not.mpr c.asks.1), c.meets_eq]
  cases hs : s.isSkipped <;> cases hc : c.meets dm <;> simp [flags, Flags.next, hs, hc]

theorem readAndConfig_marks (ms : List (Mark TableCond TableReg)) (s : CondRead) (d : σ) :
    readAndConfig dm config s (ms.flatMap markWords) d
      = (taken (TableCond.meets dm) s.flags ms).foldl (fun d r => config r.addr r.data d) d := by
  induction ms generalizing s d with
  | nil => rfl
  | cons m ms ih =>
    rw [List.flatMap_cons]
    cases m with
    | entry r =>
      show readAndConfig dm config s (r.addr :: r.data :: ms.flatMap markWords) d = _
      unfold readAndConfig
      rw [if_neg (not_not.mpr r.plain), ih]
      show _ = (if s.isMatched then r :: taken (TableCond.meets dm) s.flags ms
        else taken (TableCond.meets dm) s.flags ms).foldl _ d
      cases s.isMatched <;> rfl
    | test c =>
      show readAndConfig dm config s (c.v1 :: c.v2 :: c.v3 :: c.v4 :: ms.flatMap markWords) d = _
      rw [readAndConfig, if_pos c.opens_cond, readAndConfig, if_pos c.asks.2, ih, taken_test,
        CondRead.readCond_test]
    | alt => exact ih _ d
    | close => exact ih _ d

/-- **What the loop configures**: the registers outside the conditionals, and of each conditional those of the
first branch that the board meets, in the order of the table. -/
theorem readAndConfig_words (items : List TableItem) (d : σ) :
    readAndConfig dm config {} (items.flatMap TableItem.words) d
      = (items.flatMap (Item.select (TableCond.meets dm))).foldl (fun d r => config r.addr r.data d) d := by
  have hflat : items.flatMap TableItem.words = (items.flatMap Item.flat).flatMap markWords := by
    rw [List.flatMap_assoc]
    rfl
  rw [hflat, readAndConfig_marks, ← taken_flat]
  rfl

/-- a register file after the load of a table: the last value that was selected for a register -/
theorem readAndConfig_registers (items : List TableItem) (regs : UInt32 → UInt32) (a : UInt32) :
    readAndConfig dm (fun v1 v2 f => Function.update f v1 v2) {} (items.flatMap TableItem.words) regs a
      = let selected := items.flatMap (Item.select (TableCond.meets dm))
        ((Keyed.get TableReg.addr a selected.reverse).map TableReg.data).getD (regs a) := by
  rw [readAndConfig_words, Keyed.foldl_update]

end

/-- the first conditional of `array_mp_8192e_agc_tab`, with one of the 64 registers of each branch -/
def agcTabGain : TableItem :=
  .cond
    [(⟨0x80000002, 0x00000000, 0x40000000, 0x00000000, by decide, by decide⟩, [⟨0xC78, 0xC9190001, rfl⟩]),
      (⟨0x90000001, 0x00000000, 0x40000000, 0x00000000, by decide, by decide⟩, [⟨0xC78, 0xE3190001, rfl⟩]),
      (⟨0x90000001, 0x00000005, 0x40000000, 0x00000000, by decide, by decide⟩, [⟨0xC78, 0xE5190001, rfl⟩]),
      (⟨0x90000001, 0x0000000a, 0x40000000, 0x00000000, by decide, by decide⟩, [⟨0xC78, 0xE6190001, rfl⟩]),
      (⟨0x90000001, 0x0000000f, 0x40000000, 0x00000000, by decide, by decide⟩, [⟨0xC78, 0xE7190001, rfl⟩]),
      (⟨0x90000400, 0x00000000, 0x40000000, 0x00000000, by decide, by decide⟩, [⟨0xC78, 0xE9190001, rfl⟩])]
    (some [⟨0xC78, 0xC9190001, rfl⟩])

example : agcTabGain.words.take 12 = [0x80000002, 0x00000000, 0x40000000, 0x00000000, 0xC78, 0xC9190001,
    0x90000001, 0x00000000, 0x40000000, 0x00000000, 0xC78, 0xE3190001] := by decide

-- a board with an external amplifier of type 0x0a, and one without
example : (agcTabGain.select (TableCond.meets { boardType := 0x10, typeGlna := 0x0a })).map TableReg.data = [0xE6190001]
    ∧ (agcTabGain.select (TableCond.meets {})).map TableReg.data = [0xC9190001] := by decide

end Rtl8192eu
