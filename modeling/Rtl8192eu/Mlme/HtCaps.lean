import Mathlib.Algebra.Group.Nat.Defs
import Mathlib.Data.List.Nodup
import Rtl8192eu.Lib.Mem

/-!
# HT capabilities

`HT_caps_handler` of `core/rtw_wlan_util.c`: what the peer can do is merged into the own record
`HT_caps`, byte by byte, as many bytes as the peer's element says.

* `mergeByte`     the rule for a byte;
* `htCapsHandler`   the source, with the addresses it writes from the record on;
* `Merged`        the record after an element of its own size;
* `ht_caps_iff`   the record is not left.

The host is little-endian, so that `le16_to_cpu` changes nothing.  Beamforming and
`CONFIG_DISABLE_MCS13TO15` are not compiled in.
-/

namespace Rtl8192eu

open Mem

/-- `NDIS_802_11_VARIABLE_IEs`, with the bytes from `data` on -/
structure VariableIe where
  length : UInt8
  data : Nat → UInt8

/-- the size of the array `HT_cap` -/
def htCapLen : Nat := 26

/-- what the handler reads of the adapter -/
structure HtConf where
  htOption : Bool
  apState : Bool
  rxNss : UInt8
  defaultMcsSet : Nat → UInt8

/-- what it changes; the memory begins at `HT_caps` -/
structure HtState where
  caps : Nat → UInt8
  capsEnable : Bool := false
  ldpcCap : UInt8 := 0
  stbcCap : UInt8 := 0

namespace HtCaps

/-- the AMPDU parameters -/
def ampduPara (own peer : UInt8) : UInt8 :=
  let maxAmpduLen := if own &&& 0x3 > peer &&& 0x3 then peer &&& 0x3 else own &&& 0x3
  let minMpduSpacing := if own &&& 0x1c > peer &&& 0x1c then own &&& 0x1c else peer &&& 0x1c
  maxAmpduLen ||| minMpduSpacing

def mergeByte (data : Nat → UInt8) (i : Nat) (own : UInt8) : UInt8 :=
  if i ≠ 2 then own &&& data i else ampduPara own (data i)

/-- `MCS_rate` begins at the fourth byte -/
def mcsRate : Nat := 3

/-- `set_mcs_rate_by_mask` -/
def setMcsRateByMask (s : Logged UInt8) (mask : Nat) : Logged UInt8 :=
  s.updAll ((List.range 4).map (mcsRate + ·)) fun a own =>
    own &&& UInt8.ofNat (mask / 2 ^ (8 * (a - mcsRate)))

/-- `MCS_RATE_1R` to `MCS_RATE_4R` -/
def mcsRateMask (rxNss : UInt8) : Option Nat :=
  if rxNss = 1 then some 0x000000ff
  else if rxNss = 2 then some 0x0000ffff
  else if rxNss = 3 then some 0x00ffffff
  else if rxNss = 4 then some 0xffffffff
  else none

/-- the record -/
def merge (c : HtConf) (caps : Nat → UInt8) (ie : VariableIe) : Logged UInt8 :=
  let s := Logged.updAll ⟨caps, []⟩ (List.range ie.length.toNat) (mergeByte ie.data)
  let s := s.updAll ((List.range 16).map (mcsRate + ·)) fun a own => own &&& c.defaultMcsSet (a - mcsRate)
  match mcsRateMask c.rxNss with
  | some mask => setMcsRateByMask s mask
  | none => s

def ldpcHtEnableTx : UInt8 := 2
def ldpcHtCapTx : UInt8 := 8
def stbcHtEnableTx : UInt8 := 2
def stbcHtCapTx : UInt8 := 8

/-- `GET_HT_CAP_ELE_LDPC_CAP`, `GET_HT_CAP_ELE_RX_STBC` -/
def ldpcOf (data : Nat → UInt8) : UInt8 := data 0 &&& 1
def rxStbcOf (data : Nat → UInt8) : UInt8 := data 1 &&& 3

def ldpc (c : HtConf) (s : HtState) (ie : VariableIe) : UInt8 :=
  if c.apState then s.ldpcCap
  else if s.ldpcCap &&& ldpcHtEnableTx ≠ 0 ∧ ldpcOf ie.data ≠ 0 then ldpcHtEnableTx ||| ldpcHtCapTx
  else 0

def stbc (c : HtConf) (s : HtState) (ie : VariableIe) : UInt8 :=
  if s.stbcCap &&& stbcHtEnableTx ≠ 0 ∧ rxStbcOf ie.data ≠ 0 then
    if c.apState then stbcHtEnableTx else stbcHtEnableTx ||| stbcHtCapTx
  else 0

end HtCaps

open HtCaps

/-- the state afterwards, and the addresses that were written in memory from `HT_caps` on -/
def htCapsHandler (c : HtConf) (s : HtState) (pIE : Option VariableIe) : HtState × List Nat :=
  match pIE with
  | none => (s, [])
  | some ie =>
    if ¬ c.htOption then (s, [])
    else
      let r := merge c s.caps ie
      (⟨r.mem, true, ldpc c s ie, stbc c s ie⟩, r.written)

namespace HtCaps

/-- the byte of the mask for the `i`-th byte of the MCS set; only four bytes have one -/
def nssMask (rxNss : UInt8) (i : Nat) : UInt8 :=
  match mcsRateMask rxNss with
  | some mask => if i < 4 then UInt8.ofNat (mask / 2 ^ (8 * i)) else 0xff
  | none => 0xff

/-- own and peer capabilities are merged, and nothing else is changed -/
structure Merged (c : HtConf) (own peer after : Nat → UInt8) : Prop where
  info : ∀ i, i < mcsRate → i ≠ 2 → after i = own i &&& peer i
  ampdu : after 2 = min (own 2 &&& 0x3) (peer 2 &&& 0x3) ||| max (own 2 &&& 0x1c) (peer 2 &&& 0x1c)
  mcs : ∀ i, i < 16 → after (mcsRate + i)
    = own (mcsRate + i) &&& peer (mcsRate + i) &&& c.defaultMcsSet i &&& nssMask c.rxNss i
  rest : ∀ i, mcsRate + 16 ≤ i → i < htCapLen → after i = own i &&& peer i
  behind : ∀ i, htCapLen ≤ i → after i = own i

variable {c : HtConf} {s : HtState} {ie : VariableIe} {i : Nat}

theorem nodup_shifted (k n : Nat) : ((List.range n).map (k + ·)).Nodup :=
  List.nodup_range.map fun _ _ => Nat.add_left_cancel

theorem mem_shifted {k n i : Nat} : i ∈ (List.range n).map (k + ·) ↔ k ≤ i ∧ i < k + n := by
  rw [List.mem_map]
  constructor
  · rintro ⟨j, hj, rfl⟩
    have := List.mem_range.mp hj
    omega
  · rintro ⟨hk, hn⟩
    exact ⟨i - k, List.mem_range.mpr (by omega), by omega⟩

theorem ampduPara_eq (own peer : UInt8) : ampduPara own peer
    = min (own &&& 0x3) (peer &&& 0x3) ||| max (own &&& 0x1c) (peer &&& 0x1c) := by
  have hmin : ∀ x y : UInt8, (if x > y then y else x) = min x y := by
    intro x y
    show _ = if x ≤ y then x else y
    by_cases h : x ≤ y
    · rw [if_neg (UInt8.not_lt.mpr h), if_pos h]
    · rw [if_pos (UInt8.not_le.mp h), if_neg h]
  have hmax : ∀ x y : UInt8, (if x > y then x else y) = max x y := by
    intro x y
    show _ = if x ≤ y then y else x
    by_cases h : x ≤ y
    · rw [if_neg (UInt8.not_lt.mpr h), if_pos h]
    · rw [if_pos (UInt8.not_le.mp h), if_neg h]
  rw [ampduPara, hmin, hmax]

/-- what is written: the bytes the element has, and the MCS set -/
theorem mem_written (a : Nat) : a ∈ (merge c s.caps ie).written
    ↔ a < ie.length.toNat ∨ mcsRate ≤ a ∧ a < mcsRate + 16 := by
  unfold merge setMcsRateByMask
  cases mcsRateMask c.rxNss with
  | none =>
    dsimp only
    rw [written_updAll, written_updAll, List.nil_append, List.mem_append, List.mem_range, mem_shifted]
  | some mask =>
    dsimp only
    rw [written_updAll, written_updAll, written_updAll, List.nil_append, List.mem_append,
      List.mem_append, List.mem_range, mem_shifted, mem_shifted]
    constructor
    · rintro ((h | h) | h)
      · exact Or.inl h
      · exact Or.inr h
      · exact Or.inr ⟨h.1, by omega⟩
    · rintro (h | h)
      · exact Or.inl (Or.inl h)
      · exact Or.inl (Or.inr h)

/-- the byte at `i` -/
theorem merge_mem (i : Nat) : (merge c s.caps ie).mem i
    = let own := if i < ie.length.toNat then mergeByte ie.data i (s.caps i) else s.caps i
      if mcsRate ≤ i ∧ i < mcsRate + 16 then
        own &&& c.defaultMcsSet (i - mcsRate) &&& nssMask c.rxNss (i - mcsRate)
      else own := by
  have hand : ∀ x : UInt8, x &&& 0xff = x := by
    intro x
    apply UInt8.toBitVec_inj.mp
    exact BitVec.and_allOnes
  unfold merge setMcsRateByMask nssMask
  dsimp only
  cases mcsRateMask c.rxNss with
  | none =>
    dsimp only
    rw [mem_updAll _ (nodup_shifted _ _), mem_updAll _ List.nodup_range]
    simp only [mem_shifted, List.mem_range, hand]
  | some mask =>
    dsimp only
    rw [mem_updAll _ (nodup_shifted _ _), mem_updAll _ (nodup_shifted _ _),
      mem_updAll _ List.nodup_range]
    simp only [mem_shifted, List.mem_range]
    by_cases h16 : mcsRate ≤ i ∧ i < mcsRate + 16
    · by_cases h4 : i - mcsRate < 4
      · rw [if_pos ⟨h16.1, by omega⟩, if_pos h16, if_pos h16, if_pos h4]
      · rw [if_neg (by omega), if_pos h16, if_pos h16, if_neg h4, hand]
    · rw [if_neg (by omega), if_neg h16, if_neg h16]

theorem merged_of_length (hl : ie.length.toNat = htCapLen) :
    Merged c s.caps ie.data (merge c s.caps ie).mem := by
  have h26 : htCapLen = 26 := rfl
  have h3 : mcsRate = 3 := rfl
  refine ⟨?_, ?_, ?_, ?_, ?_⟩
  · intro i hi h2
    rw [merge_mem]
    dsimp only
    rw [if_neg (by omega), if_pos (by omega), mergeByte, if_pos h2]
  · rw [merge_mem]
    dsimp only
    rw [if_neg (by omega), if_pos (by omega), mergeByte, if_neg (not_not.mpr rfl), ampduPara_eq]
  · intro i hi
    rw [merge_mem]
    dsimp only
    rw [if_pos ⟨Nat.le_add_right .., by omega⟩, if_pos (by omega), mergeByte, if_pos (by omega),
      Nat.add_sub_cancel_left]
  · intro i h19 hi
    rw [merge_mem]
    dsimp only
    rw [if_neg (by omega), if_pos (by omega), mergeByte, if_pos (by omega)]
  · intro i hi
    rw [merge_mem]
    dsimp only
    rw [if_neg (by omega), if_neg (by omega)]

end HtCaps

/-- **The merge stays in the record**, and is the merge of the two capabilities for an element of its
size, exactly when the peer's element is not longer than the record (or HT is not used). -/
theorem ht_caps_iff (c : HtConf) (s : HtState) (pIE : Option VariableIe) :
    ((∀ a ∈ (htCapsHandler c s pIE).2, a < htCapLen)
        ∧ ∀ ie ∈ pIE, c.htOption → ie.length = 26 →
          Merged c s.caps ie.data (htCapsHandler c s pIE).1.caps)
      ↔ c.htOption = false ∨ ∀ ie ∈ pIE, ie.length.toNat ≤ htCapLen := by
  cases pIE with
  | none => exact iff_of_true ⟨nofun, nofun⟩ (Or.inr nofun)
  | some ie =>
    unfold htCapsHandler
    dsimp only
    by_cases hopt : c.htOption = true
    · have hmerged : ∀ ie' ∈ some ie, c.htOption = true → ie'.length = 26 →
          Merged c s.caps ie'.data (merge c s.caps ie).mem := by
        rintro ie' hie' - hl
        cases hie'
        exact merged_of_length (by rw [hl]; rfl)
      rw [if_neg (not_not.mpr hopt), and_iff_left hmerged]
      simp only [mem_written]
      constructor
      · intro h
        refine Or.inr ?_
        rintro ie' hie'
        cases hie'
        by_contra hlt
        exact absurd (h htCapLen (Or.inl (Nat.not_le.mp hlt))) (Nat.lt_irrefl _)
      · rintro (h | h) a ha
        · rw [hopt] at h
          cases h
        · have hle := h ie rfl
          have h26 : htCapLen = 26 := rfl
          have h3 : mcsRate = 3 := rfl
          omega
    · rw [if_pos hopt]
      refine iff_of_true ⟨nofun, fun _ _ h _ => absurd h hopt⟩ (Or.inl ?_)
      exact Bool.eq_false_iff.mpr hopt

/-- an element of 27 bytes: the byte behind the record is overwritten -/
theorem ht_caps_long : ¬ ∀ a ∈ (htCapsHandler ⟨true, false, 2, fun _ => 0xff⟩ ⟨fun _ => 0xff, false, 0, 0⟩
    (some ⟨27, fun _ => 0⟩)).2, a < htCapLen := by
  intro h
  exact absurd (h 26 (by decide)) (by decide)

end Rtl8192eu
