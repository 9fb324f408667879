import Rtl8192eu.Hal.TxPower
import Rtl8192eu.Lib.Keyed
import Rtl8192eu.Lib.Least

/-!
# Loading the limits of the transmit power

The rows of the limit table go through `rtw_txpwr_lmt_add` of `core/rtw_rf.c`, and
`phy_txpwr_lmt_cck_ofdm_mt_chk` of `hal/hal_com_phycfg.c` then fills in the OFDM limits of several antennas
that are not given: it collects the flags of what is given while it goes through the regulations, so those
that come later see the flags of all before them.

* `RfCtl.txpwrLmtAdd`, `RfCtl.txpwrLmtPostHdl`   the functions;
* `loadLimits`     the table that a list of rows gives;
* `cell_least`     a cell before the last pass: the least of its rows;
* `limit_load`     a cell after it;
* `Loaded`         what the table is to be;
* `txpwrLmt_iff`   when it is.

Only the 2.4 GHz band is compiled for the 8192E.
-/

namespace Rtl8192eu

open Keyed

/-- `CENTER_CH_2G_NUM` -/
def centerCh2gNum : Nat := 14

/-- `MAX_TX_COUNT` -/
def maxTxCount : Nat := 4

/-- `txgi_max`, in a cell without a limit -/
def lmtMax : LmtVal := ⟨txgiMax, by decide⟩

/-- what `phy_set_tx_power_limit` passes on -/
structure LmtRow where
  regdName : String
  named : regdName ≠ ""
  bw : ChannelWidth
  tlrs : LmtRs
  ntxIdx : Fin maxTxCount
  chIdx : Fin centerCh2gNum
  lmt : LmtVal

/-- `txpwr_lmt_2g_cck_ofdm_state`, by number of antennas -/
structure CckOfdmState where
  /-- `TXPWR_LMT_HAS_CCK_1T << ntx_idx` -/
  cck : Nat → Bool := fun _ => false
  /-- `TXPWR_LMT_HAS_OFDM_1T << ntx_idx` -/
  ofdm : Nat → Bool := fun _ => false

structure RfCtl where
  txpwrLmtList : List TxpwrLmtEnt := []
  cckOfdmState : CckOfdmState := {}

/-- a new entry of the table -/
def newLmtEnt (regdName : String) : TxpwrLmtEnt where
  regdName := regdName
  lmt2g := fun _ _ _ _ => lmtMax

/-- the cell gets the smaller value -/
def TxpwrLmtEnt.lower (ent : TxpwrLmtEnt) (bw : ChannelWidth) (tlrs : LmtRs) (ntxIdx chIdx : Nat)
    (lmt : LmtVal) : TxpwrLmtEnt :=
  { ent with
    lmt2g := fun bw' tlrs' chIdx' ntxIdx' =>
      if bw' = bw ∧ tlrs' = tlrs ∧ chIdx' = chIdx ∧ ntxIdx' = ntxIdx then
        min (ent.lmt2g bw tlrs chIdx ntxIdx) lmt
      else ent.lmt2g bw' tlrs' chIdx' ntxIdx' }

namespace RfCtl

/-- `rtw_txpwr_lmt_add` -/
def txpwrLmtAdd (s : RfCtl) (regdName : String) (bw : ChannelWidth) (tlrs : LmtRs) (ntxIdx chIdx : Nat)
    (lmt : LmtVal) : RfCtl :=
  if regdName = "" then s
  else
    { s with
      txpwrLmtList := upsert TxpwrLmtEnt.regdName regdName (newLmtEnt regdName)
        (fun ent => ent.lower bw tlrs ntxIdx chIdx lmt) s.txpwrLmtList }

def addRow (s : RfCtl) (r : LmtRow) : RfCtl := s.txpwrLmtAdd r.regdName r.bw r.tlrs r.ntxIdx r.chIdx r.lmt

/-- `_rtw_txpwr_lmt_get_by_name` -/
def txpwrLmtGetByName (s : RfCtl) (regdName : String) : Option TxpwrLmtEnt :=
  get TxpwrLmtEnt.regdName regdName s.txpwrLmtList

/-- the limit of a regulation -/
def limit (s : RfCtl) (regdName : String) (bw : ChannelWidth) (tlrs : LmtRs) (chIdx ntxIdx : Nat) :
    Option LmtVal := (s.txpwrLmtGetByName regdName).map fun ent => ent.lmt2g bw tlrs chIdx ntxIdx

end RfCtl

/-! ## the last pass -/

/-- some channel at 20 MHz has a limit -/
def TxpwrLmtEnt.given (ent : TxpwrLmtEnt) (tlrs : LmtRs) (ntxIdx : Nat) : Bool :=
  (List.range centerCh2gNum).any fun channel => decide (ent.lmt2g .w20 tlrs channel ntxIdx ≠ lmtMax)

namespace CckOfdmState

/-- `check 2G CCK, OFDM state` -/
def check (st : CckOfdmState) (ent : TxpwrLmtEnt) : CckOfdmState where
  cck ntxIdx := st.cck ntxIdx || decide (ntxIdx < maxTxCount) && ent.given .cck ntxIdx
  ofdm ntxIdx := st.ofdm ntxIdx || decide (ntxIdx < maxTxCount) && ent.given .ofdm ntxIdx

/-- the cells that the pass writes, from `RF_2TX` on -/
def Refers (st : CckOfdmState) (bw : ChannelWidth) (tlrs : LmtRs) (chIdx ntxIdx : Nat) : Prop :=
  bw = .w20 ∧ tlrs = .ofdm ∧ chIdx < centerCh2gNum ∧ 1 ≤ ntxIdx ∧ ntxIdx < maxTxCount ∧ st.ofdm ntxIdx = false

instance (st : CckOfdmState) (bw : ChannelWidth) (tlrs : LmtRs) (chIdx ntxIdx : Nat) :
    Decidable (st.Refers bw tlrs chIdx ntxIdx) := by
  unfold Refers
  infer_instance

/-- `if 2G OFDM multi-TX is not defined, reference HT20` -/
def refer (st : CckOfdmState) (ent : TxpwrLmtEnt) : TxpwrLmtEnt :=
  { ent with
    lmt2g := fun bw tlrs chIdx ntxIdx =>
      if st.Refers bw tlrs chIdx ntxIdx then ent.lmt2g .w20 .ht chIdx ntxIdx
      else ent.lmt2g bw tlrs chIdx ntxIdx }

/-- the loop over the entries -/
def mtChk (st : CckOfdmState) : List TxpwrLmtEnt → CckOfdmState × List TxpwrLmtEnt
  | [] => (st, [])
  | ent :: l => (((st.check ent).mtChk l).1, (st.check ent).refer ent :: ((st.check ent).mtChk l).2)

end CckOfdmState

namespace RfCtl

/-- `phy_txpwr_lmt_cck_ofdm_mt_chk` -/
def txpwrLmtCckOfdmMtChk (s : RfCtl) : RfCtl where
  txpwrLmtList := (CckOfdmState.mtChk {} s.txpwrLmtList).2
  cckOfdmState := (CckOfdmState.mtChk {} s.txpwrLmtList).1

/-- `phy_txpwr_lmt_post_hdl` -/
def txpwrLmtPostHdl (s : RfCtl) : RfCtl := s.txpwrLmtCckOfdmMtChk

end RfCtl

/-- the table before the last pass -/
def addLimits (rows : List LmtRow) : RfCtl := rows.foldl RfCtl.addRow {}

def loadLimits (rows : List LmtRow) : RfCtl := (addLimits rows).txpwrLmtPostHdl

/-! ## what the table is to be -/

/-- the row is about the cell -/
structure LmtRow.At (r : LmtRow) (regdName : String) (bw : ChannelWidth) (tlrs : LmtRs) (chIdx ntxIdx : Nat) :
    Prop where
  name : r.regdName = regdName
  bw : r.bw = bw
  tlrs : r.tlrs = tlrs
  ch : r.chIdx.val = chIdx
  ntx : r.ntxIdx.val = ntxIdx

/-- the rows give the limits, in any order; `same` says what a second pass is to leave -/
structure Loaded (same : RfCtl → RfCtl → Prop) (rows : List LmtRow) : Prop where
  order : ∀ rows', rows'.Perm rows → ∀ name bw tlrs chIdx ntxIdx,
    (loadLimits rows').limit name bw tlrs chIdx ntxIdx = (loadLimits rows).limit name bw tlrs chIdx ntxIdx
  least : ∀ name bw tlrs chIdx ntxIdx, (∃ r ∈ rows, r.At name bw tlrs chIdx ntxIdx) →
    ∃ v, (loadLimits rows).limit name bw tlrs chIdx ntxIdx = some v ∧
      IsLeast {v | ∃ r ∈ rows, r.At name bw tlrs chIdx ntxIdx ∧ v = r.lmt} v
  ht20 : ∀ name ntxIdx, 1 ≤ ntxIdx → ntxIdx < maxTxCount →
    (∀ r ∈ rows, ∀ chIdx, ¬r.At name .w20 .ofdm chIdx ntxIdx) → ∀ chIdx < centerCh2gNum,
      (loadLimits rows).limit name .w20 .ofdm chIdx ntxIdx = (loadLimits rows).limit name .w20 .ht chIdx ntxIdx
  again : same (loadLimits rows).txpwrLmtPostHdl (loadLimits rows)

/-- the rows give a limit at 20 MHz -/
def Gives (rows : List LmtRow) (name : String) (tlrs : LmtRs) (chIdx ntxIdx : Nat) : Prop :=
  ∃ r ∈ rows, r.At name .w20 tlrs chIdx ntxIdx ∧ r.lmt ≠ lmtMax

/-- a regulation without OFDM limits, but with an HT20 limit, has no OFDM row for the cell, and the others
have no OFDM limits either -/
def NoMix (rows : List LmtRow) : Prop :=
  ∀ name chIdx ntxIdx, 1 ≤ ntxIdx → Gives rows name .ht chIdx ntxIdx →
    (∀ ch, ¬Gives rows name .ofdm ch ntxIdx) →
      (∀ r ∈ rows, ¬r.At name .w20 .ofdm chIdx ntxIdx) ∧ ∀ name' ch, ¬Gives rows name' .ofdm ch ntxIdx

/-- every regulation with an HT20 limit has an OFDM one -/
def AllGiven (rows : List LmtRow) : Prop :=
  ∀ name chIdx ntxIdx, 1 ≤ ntxIdx → Gives rows name .ht chIdx ntxIdx → ∃ ch, Gives rows name .ofdm ch ntxIdx

/-! ## before the last pass -/

/-- the change of an entry by a row -/
def LmtRow.lowers (r : LmtRow) (ent : TxpwrLmtEnt) : TxpwrLmtEnt :=
  ent.lower r.bw r.tlrs r.ntxIdx r.chIdx r.lmt

theorem LmtRow.lowers_regdName (r : LmtRow) (ent : TxpwrLmtEnt) :
    (r.lowers ent).regdName = ent.regdName := rfl

theorem LmtRow.new_regdName (r : LmtRow) : (newLmtEnt r.regdName).regdName = r.regdName := rfl

/-- the entries that the rows give -/
def lmtEnts (rows : List LmtRow) : List TxpwrLmtEnt :=
  upserts TxpwrLmtEnt.regdName LmtRow.regdName (fun r => newLmtEnt r.regdName) LmtRow.lowers rows []

theorem addLimits_list (rows : List LmtRow) : (addLimits rows).txpwrLmtList = lmtEnts rows := by
  have hrun : ∀ s : RfCtl, (rows.foldl RfCtl.addRow s).txpwrLmtList =
      upserts TxpwrLmtEnt.regdName LmtRow.regdName (fun r => newLmtEnt r.regdName) LmtRow.lowers rows
        s.txpwrLmtList := by
    induction rows with
    | nil => exact fun s => rfl
    | cons r rows ih =>
      intro s
      rw [List.foldl_cons, ih, upserts_cons]
      congr 1
      unfold RfCtl.addRow RfCtl.txpwrLmtAdd
      rw [if_neg r.named]
      rfl
  exact hrun {}

theorem lmtEnts_nodup (rows : List LmtRow) : ((lmtEnts rows).map TxpwrLmtEnt.regdName).Nodup :=
  nodup_upserts LmtRow.new_regdName LmtRow.lowers_regdName rows (List.nodup_nil (α := String))

/-- the first regulation is that of the first row -/
theorem lmtEnts_first (r : LmtRow) (rows : List LmtRow) :
    ∃ ent l, lmtEnts (r :: rows) = ent :: l ∧ ent.regdName = r.regdName :=
  first_upserts LmtRow.new_regdName LmtRow.lowers_regdName r rows

section
variable {rows rows' : List LmtRow} {name : String} {bw : ChannelWidth} {tlrs : LmtRs} {chIdx ntxIdx : Nat}

theorem limit_add_eq (rows : List LmtRow) (name : String) (bw : ChannelWidth) (tlrs : LmtRs)
    (chIdx ntxIdx : Nat) : (addLimits rows).limit name bw tlrs chIdx ntxIdx =
      (get TxpwrLmtEnt.regdName name (lmtEnts rows)).map fun ent => ent.lmt2g bw tlrs chIdx ntxIdx := by
  unfold RfCtl.limit RfCtl.txpwrLmtGetByName
  rw [addLimits_list]

/-- a cell before the last pass -/
def cell (rows : List LmtRow) (name : String) (bw : ChannelWidth) (tlrs : LmtRs)
    (chIdx ntxIdx : Nat) : LmtVal :=
  ((addLimits rows).limit name bw tlrs chIdx ntxIdx).getD lmtMax

/-- a regulation is in the table if it has a row -/
theorem ent_isSome (rows : List LmtRow) (name : String) :
    (get TxpwrLmtEnt.regdName name (lmtEnts rows)).isSome ↔ ∃ r ∈ rows, r.regdName = name := by
  rw [lmtEnts, isSome_upserts LmtRow.new_regdName LmtRow.lowers_regdName]
  simp [get_nil]

theorem limit_add_some (h : ∃ r ∈ rows, r.regdName = name) :
    (addLimits rows).limit name bw tlrs chIdx ntxIdx = some (cell rows name bw tlrs chIdx ntxIdx) := by
  obtain ⟨ent, hent⟩ := Option.isSome_iff_exists.mp ((ent_isSome rows name).mpr h)
  unfold cell
  rw [limit_add_eq, hent]
  rfl

theorem limit_add_none (h : ¬∃ r ∈ rows, r.regdName = name) :
    (addLimits rows).limit name bw tlrs chIdx ntxIdx = none := by
  rw [limit_add_eq, Option.map_eq_none_iff, ← Option.not_isSome_iff_eq_none, ent_isSome]
  exact h

theorem cell_of_ent {ent : TxpwrLmtEnt} (h : get TxpwrLmtEnt.regdName name (lmtEnts rows) = some ent) :
    cell rows name bw tlrs chIdx ntxIdx = ent.lmt2g bw tlrs chIdx ntxIdx := by
  unfold cell
  rw [limit_add_eq, h]
  rfl

theorem le_lmtMax (v : LmtVal) : v ≤ lmtMax := v.property.2

theorem lmtMax_of_le {v : LmtVal} (h : lmtMax ≤ v) : v = lmtMax := le_antisymm (le_lmtMax v) h

/-- **A cell before the last pass is the least of its rows.** -/
theorem cell_least (rows : List LmtRow) (name : String) (bw : ChannelWidth) (tlrs : LmtRs)
    (chIdx ntxIdx : Nat) :
    IsLeast ({lmtMax} ∪ {v | ∃ r ∈ rows, r.At name bw tlrs chIdx ntxIdx ∧ v = r.lmt})
      (cell rows name bw tlrs chIdx ntxIdx) := by
  have hcell : cell rows name bw tlrs chIdx ntxIdx =
      (rows.filter fun r => decide (r.regdName = name)).foldl (fun v r =>
        if bw = r.bw ∧ tlrs = r.tlrs ∧ chIdx = r.chIdx ∧ ntxIdx = r.ntxIdx then min v r.lmt else v) lmtMax := by
    unfold cell
    rw [limit_add_eq]
    refine get_upserts LmtRow.new_regdName LmtRow.lowers_regdName (fun ent => ent.lmt2g bw tlrs chIdx ntxIdx)
      lmtMax (fun _ => rfl) ?_ rows [] name
    intro r ent
    show (if _ then _ else _) = _
    split
    next h =>
      obtain ⟨rfl, rfl, rfl, rfl⟩ := h
      simp
    next => rfl
  have hset : {v | ∃ r ∈ rows, r.At name bw tlrs chIdx ntxIdx ∧ v = r.lmt} =
      {v | ∃ r ∈ rows.filter fun r => decide (r.regdName = name),
        v ∈ {v | r.At name bw tlrs chIdx ntxIdx ∧ v = r.lmt}} := by
    ext v
    constructor
    · rintro ⟨r, hr, hat, hv⟩
      exact ⟨r, List.mem_filter.mpr ⟨hr, decide_eq_true hat.name⟩, hat, hv⟩
    · rintro ⟨r, hr, hat, hv⟩
      exact ⟨r, (List.mem_filter.mp hr).1, hat, hv⟩
  rw [hcell, hset]
  refine Least.isLeast_foldl (fun r hr T m hT => ?_) isLeast_singleton
  have hname : r.regdName = name := of_decide_eq_true (List.mem_filter.mp hr).2
  split
  next h =>
    obtain ⟨rfl, rfl, rfl, rfl⟩ := h
    have hval : T ∪ {v | r.At name r.bw r.tlrs r.chIdx r.ntxIdx ∧ v = r.lmt} = insert r.lmt T := by
      ext v
      have hat : r.At name r.bw r.tlrs r.chIdx r.ntxIdx := ⟨hname, rfl, rfl, rfl, rfl⟩
      simp only [Set.mem_union, Set.mem_ofPred_eq, Set.mem_insert_iff, hat, true_and, or_comm]
    rw [hval, min_comm]
    exact Least.isLeast_insert_min hT
  next h =>
    refine Least.isLeast_union_empty hT fun v hv => h ?_
    exact ⟨hv.1.bw.symm, hv.1.tlrs.symm, hv.1.ch.symm, hv.1.ntx.symm⟩

/-- the cells depend on the rows only, not on their order -/
theorem cell_perm (h : rows'.Perm rows) :
    cell rows' name bw tlrs chIdx ntxIdx = cell rows name bw tlrs chIdx ntxIdx := by
  have hl := cell_least rows' name bw tlrs chIdx ntxIdx
  have hset : {v | ∃ r ∈ rows', r.At name bw tlrs chIdx ntxIdx ∧ v = r.lmt} =
      {v | ∃ r ∈ rows, r.At name bw tlrs chIdx ntxIdx ∧ v = r.lmt} := by
    ext v
    simp only [Set.mem_ofPred_eq, h.mem_iff]
  rw [hset] at hl
  exact hl.unique (cell_least rows name bw tlrs chIdx ntxIdx)

theorem limit_add_perm (h : rows'.Perm rows) :
    (addLimits rows').limit name bw tlrs chIdx ntxIdx = (addLimits rows).limit name bw tlrs chIdx ntxIdx := by
  by_cases hname : ∃ r ∈ rows, r.regdName = name
  · have hname' : ∃ r ∈ rows', r.regdName = name := by simpa only [h.mem_iff] using hname
    rw [limit_add_some hname, limit_add_some hname', cell_perm h]
  · have hname' : ¬∃ r ∈ rows', r.regdName = name := by simpa only [h.mem_iff] using hname
    rw [limit_add_none hname, limit_add_none hname']

theorem gives_perm (h : rows'.Perm rows) :
    Gives rows' name tlrs chIdx ntxIdx ↔ Gives rows name tlrs chIdx ntxIdx := by
  simp only [Gives, h.mem_iff]

theorem noMix_perm (h : rows'.Perm rows) (hm : NoMix rows) : NoMix rows' := by
  intro name chIdx ntxIdx h1 hht hno
  simp only [gives_perm h, h.mem_iff] at hht hno ⊢
  exact hm name chIdx ntxIdx h1 hht hno

theorem cell_ne_max : cell rows name .w20 tlrs chIdx ntxIdx ≠ lmtMax ↔ Gives rows name tlrs chIdx ntxIdx := by
  obtain ⟨hmem, hle⟩ := cell_least rows name .w20 tlrs chIdx ntxIdx
  constructor
  · intro hne
    rcases hmem with hmax | ⟨r, hr, hat, hv⟩
    · exact absurd hmax hne
    · exact ⟨r, hr, hat, hv ▸ hne⟩
  · rintro ⟨r, hr, hat, hlmt⟩ hmax
    have hlow := hle (Or.inr ⟨r, hr, hat, rfl⟩)
    rw [hmax] at hlow
    exact hlmt (lmtMax_of_le hlow)

/-- where there are rows, the mark of no limit is no smaller than them -/
theorem isLeast_rows (h : ∃ r ∈ rows, r.At name bw tlrs chIdx ntxIdx) :
    IsLeast {v | ∃ r ∈ rows, r.At name bw tlrs chIdx ntxIdx ∧ v = r.lmt}
      (cell rows name bw tlrs chIdx ntxIdx) := by
  obtain ⟨hmem, hle⟩ := cell_least rows name bw tlrs chIdx ntxIdx
  refine ⟨?_, fun v hv => hle (Or.inr hv)⟩
  rcases hmem with hmax | hmem
  · obtain ⟨r, hr, hat⟩ := h
    have hlow := hle (Or.inr ⟨r, hr, hat, rfl⟩)
    rw [Set.mem_singleton_iff.mp hmax] at hlow ⊢
    exact ⟨r, hr, hat, (lmtMax_of_le hlow).symm⟩
  · exact hmem

theorem gives_name (h : Gives rows name tlrs chIdx ntxIdx) : ∃ r ∈ rows, r.regdName = name := by
  obtain ⟨r, hr, hat, -⟩ := h
  exact ⟨r, hr, hat.name⟩

theorem gives_lt (h : Gives rows name tlrs chIdx ntxIdx) : chIdx < centerCh2gNum ∧ ntxIdx < maxTxCount := by
  obtain ⟨r, -, hat, -⟩ := h
  exact ⟨hat.ch ▸ r.chIdx.isLt, hat.ntx ▸ r.ntxIdx.isLt⟩

theorem given_iff {ent : TxpwrLmtEnt} (h : get TxpwrLmtEnt.regdName name (lmtEnts rows) = some ent) :
    ent.given tlrs ntxIdx = true ↔ ∃ ch, Gives rows name tlrs ch ntxIdx := by
  unfold TxpwrLmtEnt.given
  rw [List.any_eq_true]
  constructor
  · rintro ⟨ch, -, hne⟩
    rw [← cell_of_ent h] at hne
    exact ⟨ch, cell_ne_max.mp (of_decide_eq_true hne)⟩
  · rintro ⟨ch, hg⟩
    refine ⟨ch, List.mem_range.mpr (gives_lt hg).1, ?_⟩
    rw [← cell_of_ent h]
    exact decide_eq_true (cell_ne_max.mpr hg)

/-! ## the flags that a regulation sees -/

namespace CckOfdmState

/-- the flags when the entry of the name is looked at -/
def seenBy (name : String) (st : CckOfdmState) : List TxpwrLmtEnt → CckOfdmState
  | [] => st
  | ent :: l => if ent.regdName = name then st.check ent else (st.check ent).seenBy name l

theorem get_mtChk (name : String) (st : CckOfdmState) (l : List TxpwrLmtEnt) :
    get TxpwrLmtEnt.regdName name (st.mtChk l).2 =
      (get TxpwrLmtEnt.regdName name l).map fun ent => (st.seenBy name l).refer ent := by
  induction l generalizing st with
  | nil => rfl
  | cons ent l ih =>
    unfold mtChk seenBy
    by_cases hname : ent.regdName = name
    · have hname' : ((st.check ent).refer ent).regdName = name := hname
      rw [get_cons_self hname', get_cons_self hname, if_pos hname]
      rfl
    · have hname' : ((st.check ent).refer ent).regdName ≠ name := hname
      rw [get_cons_ne hname', get_cons_ne hname, if_neg hname, ih]

theorem check_ofdm {st : CckOfdmState} {ent : TxpwrLmtEnt} {n : Nat} :
    (st.check ent).ofdm n = true ↔ st.ofdm n = true ∨ n < maxTxCount ∧ ent.given .ofdm n = true := by
  simp [check]

/-- the flags stay -/
theorem seenBy_of_set {name : String} {st : CckOfdmState} {l : List TxpwrLmtEnt} {n : Nat}
    (h : st.ofdm n = true) : (st.seenBy name l).ofdm n = true := by
  induction l generalizing st with
  | nil => exact h
  | cons ent l ih =>
    unfold seenBy
    have hcheck : (st.check ent).ofdm n = true := check_ofdm.mpr (Or.inl h)
    split
    · exact hcheck
    · exact ih hcheck

/-- a regulation sees its own limits -/
theorem seenBy_of_get {name : String} {st : CckOfdmState} {l : List TxpwrLmtEnt} {ent : TxpwrLmtEnt} {n : Nat}
    (hent : get TxpwrLmtEnt.regdName name l = some ent) (hn : n < maxTxCount) (h : ent.given .ofdm n = true) :
    (st.seenBy name l).ofdm n = true := by
  induction l generalizing st with
  | nil => cases hent
  | cons e l ih =>
    unfold seenBy
    by_cases hname : e.regdName = name
    · rw [get_cons_self hname] at hent
      cases hent
      rw [if_pos hname]
      exact check_ofdm.mpr (Or.inr ⟨hn, h⟩)
    · rw [get_cons_ne hname] at hent
      rw [if_neg hname]
      exact ih hent

/-- all that it sees comes from an entry -/
theorem mem_of_seenBy {name : String} {st : CckOfdmState} {l : List TxpwrLmtEnt} {n : Nat}
    (h : (st.seenBy name l).ofdm n = true) : st.ofdm n = true ∨ ∃ ent ∈ l, ent.given .ofdm n = true := by
  induction l generalizing st with
  | nil => exact Or.inl h
  | cons e l ih =>
    have hcheck : (st.check e).ofdm n = true →
        st.ofdm n = true ∨ ∃ ent ∈ e :: l, ent.given .ofdm n = true := by
      intro hc
      rcases check_ofdm.mp hc with hst | ⟨-, hg⟩
      · exact Or.inl hst
      · exact Or.inr ⟨e, List.mem_cons_self, hg⟩
    unfold seenBy at h
    split at h
    · exact hcheck h
    · rcases ih h with hc | ⟨ent, hent, hg⟩
      · exact hcheck hc
      · exact Or.inr ⟨ent, List.mem_cons_of_mem _ hent, hg⟩

end CckOfdmState

/-- the flags that the regulation sees -/
def seen (rows : List LmtRow) (name : String) : CckOfdmState := CckOfdmState.seenBy name {} (lmtEnts rows)

theorem seen_of_gives (h : Gives rows name .ofdm chIdx ntxIdx) : (seen rows name).ofdm ntxIdx = true := by
  obtain ⟨ent, hent⟩ := Option.isSome_iff_exists.mp ((ent_isSome rows name).mpr (gives_name h))
  exact CckOfdmState.seenBy_of_get hent (gives_lt h).2 ((given_iff hent).mpr ⟨chIdx, h⟩)

theorem gives_of_mem {ent : TxpwrLmtEnt} (h : ent ∈ lmtEnts rows) (hg : ent.given tlrs ntxIdx = true) :
    ∃ ch, Gives rows ent.regdName tlrs ch ntxIdx :=
  (given_iff (get_of_mem (lmtEnts_nodup rows) h)).mp hg

theorem gives_of_seen (h : (seen rows name).ofdm ntxIdx = true) :
    ∃ name' ch, Gives rows name' .ofdm ch ntxIdx := by
  rcases CckOfdmState.mem_of_seenBy h with hst | ⟨ent, hent, hg⟩
  · cases hst
  · exact ⟨ent.regdName, gives_of_mem hent hg⟩

/-- the first regulation sees only its own limits -/
theorem seen_first {r : LmtRow} (h : (seen (r :: rows) r.regdName).ofdm ntxIdx = true) :
    ∃ ch, Gives (r :: rows) r.regdName .ofdm ch ntxIdx := by
  obtain ⟨ent, l, hl, hname⟩ := lmtEnts_first r rows
  unfold seen at h
  rw [hl, CckOfdmState.seenBy, if_pos hname] at h
  rcases CckOfdmState.check_ofdm.mp h with hst | ⟨-, hg⟩
  · cases hst
  · rw [← hname]
    exact gives_of_mem (hl ▸ List.mem_cons_self) hg

/-- all regulations see the limits of the first one -/
theorem seen_of_first {r : LmtRow} (h : Gives (r :: rows) r.regdName .ofdm chIdx ntxIdx) (name : String) :
    (seen (r :: rows) name).ofdm ntxIdx = true := by
  obtain ⟨ent, l, hl, hname⟩ := lmtEnts_first r rows
  have hent : get TxpwrLmtEnt.regdName r.regdName (lmtEnts (r :: rows)) = some ent := by
    rw [hl]
    exact get_cons_self hname l
  have hcheck : (({} : CckOfdmState).check ent).ofdm ntxIdx = true :=
    CckOfdmState.check_ofdm.mpr (Or.inr ⟨(gives_lt h).2, (given_iff hent).mpr ⟨chIdx, h⟩⟩)
  unfold seen
  rw [hl, CckOfdmState.seenBy]
  split
  · exact hcheck
  · exact CckOfdmState.seenBy_of_set hcheck

/-! ## after the last pass -/

/-- **A limit of the loaded table.** -/
theorem limit_load (rows : List LmtRow) (name : String) (bw : ChannelWidth) (tlrs : LmtRs)
    (chIdx ntxIdx : Nat) :
    (loadLimits rows).limit name bw tlrs chIdx ntxIdx =
      if (seen rows name).Refers bw tlrs chIdx ntxIdx then (addLimits rows).limit name .w20 .ht chIdx ntxIdx
      else (addLimits rows).limit name bw tlrs chIdx ntxIdx := by
  have hget : (loadLimits rows).txpwrLmtGetByName name =
      (get TxpwrLmtEnt.regdName name (lmtEnts rows)).map fun ent => (seen rows name).refer ent := by
    unfold seen
    rw [← CckOfdmState.get_mtChk, ← addLimits_list]
    rfl
  unfold RfCtl.limit at *
  rw [hget]
  unfold RfCtl.txpwrLmtGetByName
  rw [addLimits_list]
  cases get TxpwrLmtEnt.regdName name (lmtEnts rows) with
  | none =>
    split
    · rfl
    · rfl
  | some ent =>
    show some (if _ then _ else _) = _
    split
    · rfl
    · rfl

/-- an OFDM cell of a regulation without OFDM limits for the antennas -/
structure Lacks (rows : List LmtRow) (name : String) (bw : ChannelWidth) (tlrs : LmtRs) (chIdx ntxIdx : Nat) :
    Prop where
  bw : bw = .w20
  tlrs : tlrs = .ofdm
  ch : chIdx < centerCh2gNum
  multi : 1 ≤ ntxIdx
  ntx : ntxIdx < maxTxCount
  none : ∀ ch, ¬Gives rows name .ofdm ch ntxIdx

theorem lacks_perm (h : rows'.Perm rows) (hl : Lacks rows' name bw tlrs chIdx ntxIdx) :
    Lacks rows name bw tlrs chIdx ntxIdx :=
  { hl with none := fun ch hg => hl.none ch ((gives_perm h).mpr hg) }

/-- a cell that is no reference stays -/
theorem load_of_not_lacks (h : ¬Lacks rows name bw tlrs chIdx ntxIdx) :
    (loadLimits rows).limit name bw tlrs chIdx ntxIdx = (addLimits rows).limit name bw tlrs chIdx ntxIdx := by
  rw [limit_load, if_neg]
  rintro ⟨hbw, hrs, hch, h1, hn, hst⟩
  refine h ⟨hbw, hrs, hch, h1, hn, fun ch hg => ?_⟩
  cases hst.symm.trans (seen_of_gives hg)

/-- a reference is made where no flag was seen -/
theorem load_of_unseen (h : Lacks rows name bw tlrs chIdx ntxIdx) (hst : (seen rows name).ofdm ntxIdx = false) :
    (loadLimits rows).limit name bw tlrs chIdx ntxIdx = (addLimits rows).limit name .w20 .ht chIdx ntxIdx := by
  rw [limit_load, if_pos ⟨h.bw, h.tlrs, h.ch, h.multi, h.ntx, hst⟩]

theorem load_of_seen (hst : (seen rows name).ofdm ntxIdx = true) :
    (loadLimits rows).limit name bw tlrs chIdx ntxIdx = (addLimits rows).limit name bw tlrs chIdx ntxIdx := by
  rw [limit_load, if_neg]
  rintro ⟨-, -, -, -, -, hno⟩
  cases hst.symm.trans hno

theorem cell_max_of_not_gives (h : ¬Gives rows name tlrs chIdx ntxIdx) :
    cell rows name .w20 tlrs chIdx ntxIdx = lmtMax := by
  by_contra hne
  exact h (cell_ne_max.mp hne)

/-- the two cells are alike where neither has a limit -/
theorem limit_add_congr {tlrs' : LmtRs} (h : ¬Gives rows name tlrs chIdx ntxIdx)
    (h' : ¬Gives rows name tlrs' chIdx ntxIdx) :
    (addLimits rows).limit name .w20 tlrs chIdx ntxIdx =
      (addLimits rows).limit name .w20 tlrs' chIdx ntxIdx := by
  by_cases hname : ∃ r ∈ rows, r.regdName = name
  · rw [limit_add_some hname, limit_add_some hname, cell_max_of_not_gives h, cell_max_of_not_gives h']
  · rw [limit_add_none hname, limit_add_none hname]

/-- **Without a mix, a regulation without OFDM limits has its HT20 limits.** -/
theorem load_of_lacks (hm : NoMix rows) (h : Lacks rows name bw tlrs chIdx ntxIdx) :
    (loadLimits rows).limit name bw tlrs chIdx ntxIdx = (addLimits rows).limit name .w20 .ht chIdx ntxIdx := by
  cases hst : (seen rows name).ofdm ntxIdx with
  | false => exact load_of_unseen h hst
  | true =>
    obtain ⟨name', ch, hg⟩ := gives_of_seen hst
    have hht : ¬Gives rows name .ht chIdx ntxIdx := by
      intro hht
      exact (hm name chIdx ntxIdx h.multi hht h.none).2 name' ch hg
    obtain ⟨rfl, rfl, -, -, -, hno⟩ := h
    rw [load_of_seen hst, limit_add_congr (hno chIdx) hht]

theorem load_perm (hm : NoMix rows) (h : rows'.Perm rows) :
    (loadLimits rows').limit name bw tlrs chIdx ntxIdx = (loadLimits rows).limit name bw tlrs chIdx ntxIdx := by
  by_cases hl : Lacks rows name bw tlrs chIdx ntxIdx
  · rw [load_of_lacks hm hl, load_of_lacks (noMix_perm h hm) (lacks_perm h.symm hl), limit_add_perm h]
  · rw [load_of_not_lacks hl, load_of_not_lacks (fun hl' => hl (lacks_perm h hl')), limit_add_perm h]

theorem load_least (hm : NoMix rows) (h : ∃ r ∈ rows, r.At name bw tlrs chIdx ntxIdx) :
    (loadLimits rows).limit name bw tlrs chIdx ntxIdx = some (cell rows name bw tlrs chIdx ntxIdx) := by
  obtain ⟨r, hr, hat⟩ := h
  have hname : ∃ r ∈ rows, r.regdName = name := ⟨r, hr, hat.name⟩
  by_cases hl : Lacks rows name bw tlrs chIdx ntxIdx
  · rw [load_of_lacks hm hl, limit_add_some hname]
    obtain ⟨rfl, rfl, -, h1, -, hno⟩ := hl
    have hht : ¬Gives rows name .ht chIdx ntxIdx := by
      intro hht
      exact (hm name chIdx ntxIdx h1 hht hno).1 r hr hat
    rw [cell_max_of_not_gives hht, cell_max_of_not_gives (hno chIdx)]
  · rw [load_of_not_lacks hl, limit_add_some hname]

/-! ## the second pass -/

namespace CckOfdmState

/-- only OFDM cells are written -/
theorem refer_lmt2g {st : CckOfdmState} {ent : TxpwrLmtEnt} {bw : ChannelWidth} {tlrs : LmtRs} {ch n : Nat}
    (h : ¬st.Refers bw tlrs ch n) : (st.refer ent).lmt2g bw tlrs ch n = ent.lmt2g bw tlrs ch n := if_neg h

theorem not_refers {st : CckOfdmState} {bw : ChannelWidth} {tlrs : LmtRs} {ch n : Nat} (h : tlrs ≠ .ofdm) :
    ¬st.Refers bw tlrs ch n := fun hr => h hr.2.1

theorem given_refer_cck (st : CckOfdmState) (ent : TxpwrLmtEnt) (n : Nat) :
    (st.refer ent).given .cck n = ent.given .cck n := by
  have hcell : ∀ ch, (st.refer ent).lmt2g .w20 .cck ch n = ent.lmt2g .w20 .cck ch n :=
    fun ch => refer_lmt2g (not_refers (by decide))
  unfold TxpwrLmtEnt.given
  simp only [hcell]

/-- where the flag was set, the limits stay -/
theorem given_refer_ofdm {st : CckOfdmState} {n : Nat} (h : st.ofdm n = true) (ent : TxpwrLmtEnt) :
    (st.refer ent).given .ofdm n = ent.given .ofdm n := by
  have hcell : ∀ ch, (st.refer ent).lmt2g .w20 .ofdm ch n = ent.lmt2g .w20 .ofdm ch n := by
    intro ch
    refine refer_lmt2g fun hr => ?_
    cases h.symm.trans hr.2.2.2.2.2
  unfold TxpwrLmtEnt.given
  simp only [hcell]

/-- an entry is not changed again with more flags set -/
theorem refer_refer {st st' : CckOfdmState} (h : ∀ n, st.ofdm n = true → st'.ofdm n = true)
    (ent : TxpwrLmtEnt) : st'.refer (st.refer ent) = st.refer ent := by
  have hht : ∀ ch n, (st.refer ent).lmt2g .w20 .ht ch n = ent.lmt2g .w20 .ht ch n :=
    fun ch n => refer_lmt2g (not_refers (by decide))
  unfold refer
  congr 1
  funext bw tlrs ch n
  by_cases hr : st'.Refers bw tlrs ch n
  · obtain ⟨hbw, hrs, hch, h1, hn, hno⟩ := hr
    have hst : st.Refers bw tlrs ch n := by
      refine ⟨hbw, hrs, hch, h1, hn, Bool.eq_false_iff.mpr fun hst => ?_⟩
      cases (h n hst).symm.trans hno
    rw [if_pos ⟨hbw, hrs, hch, h1, hn, hno⟩, if_pos hst]
    exact hht ch n
  · rw [if_neg hr]

/-- **A second pass leaves the limits.** -/
theorem mtChk_mtChk {st st' : CckOfdmState} (h : ∀ n, st.ofdm n = true → st'.ofdm n = true)
    (l : List TxpwrLmtEnt) : (st'.mtChk (st.mtChk l).2).2 = (st.mtChk l).2 := by
  induction l generalizing st st' with
  | nil => rfl
  | cons ent l ih =>
    have hcheck : ∀ n, (st.check ent).ofdm n = true →
        (st'.check ((st.check ent).refer ent)).ofdm n = true := by
      intro n hn
      rw [check_ofdm, given_refer_ofdm hn]
      rcases check_ofdm.mp hn with hst | hg
      · exact Or.inl (h n hst)
      · exact Or.inr hg
    show _ :: _ = _ :: _
    rw [refer_refer hcheck, ih hcheck]

theorem mtChk_ofdm (st : CckOfdmState) (l : List TxpwrLmtEnt) (n : Nat) : (st.mtChk l).1.ofdm n = true ↔
    st.ofdm n = true ∨ n < maxTxCount ∧ ∃ ent ∈ l, ent.given .ofdm n = true := by
  induction l generalizing st with
  | nil => simp [mtChk]
  | cons ent l ih =>
    unfold mtChk
    rw [ih, check_ofdm]
    simp only [List.mem_cons, exists_eq_or_imp]
    tauto

theorem mtChk_cck (st : CckOfdmState) (l : List TxpwrLmtEnt) (n : Nat) : (st.mtChk l).1.cck n =
    (st.cck n || l.any fun ent => decide (n < maxTxCount) && ent.given .cck n) := by
  induction l generalizing st with
  | nil => simp [mtChk]
  | cons ent l ih =>
    unfold mtChk
    rw [ih, List.any_cons, ← Bool.or_assoc]
    rfl

theorem mtChk_names (st : CckOfdmState) (l : List TxpwrLmtEnt) :
    (st.mtChk l).2.map TxpwrLmtEnt.regdName = l.map TxpwrLmtEnt.regdName := by
  induction l generalizing st with
  | nil => rfl
  | cons ent l ih =>
    unfold mtChk
    rw [List.map_cons, List.map_cons, ih]
    rfl

theorem mtChk_cck_again (st : CckOfdmState) (l : List TxpwrLmtEnt) (n : Nat) :
    ((st.mtChk l).2.any fun ent => decide (n < maxTxCount) && ent.given .cck n) =
      l.any fun ent => decide (n < maxTxCount) && ent.given .cck n := by
  induction l generalizing st with
  | nil => rfl
  | cons ent l ih =>
    unfold mtChk
    rw [List.any_cons, List.any_cons, ih, given_refer_cck]

end CckOfdmState

theorem load_again (rows : List LmtRow) :
    (loadLimits rows).txpwrLmtPostHdl.txpwrLmtList = (loadLimits rows).txpwrLmtList :=
  CckOfdmState.mtChk_mtChk (fun _ h => h) _

/-! ## the loaded table -/

theorem loaded_of_noMix (hm : NoMix rows) : Loaded (fun s s' => s.txpwrLmtList = s'.txpwrLmtList) rows where
  order rows' hp name bw tlrs chIdx ntxIdx := load_perm hm hp
  least name bw tlrs chIdx ntxIdx h := ⟨_, load_least hm h, isLeast_rows h⟩
  ht20 name ntxIdx h1 hn hno chIdx hch := by
    have hl : Lacks rows name .w20 .ofdm chIdx ntxIdx := by
      refine ⟨rfl, rfl, hch, h1, hn, fun ch hg => ?_⟩
      obtain ⟨r, hr, hat, -⟩ := hg
      exact hno r hr ch hat
    have hht : ¬Lacks rows name .w20 .ht chIdx ntxIdx := fun h => nomatch h.tlrs
    rw [load_of_lacks hm hl, load_of_not_lacks hht]
  again := load_again rows

/-- the rows of a regulation can come first -/
theorem first_perm (h : ∃ r ∈ rows, r.regdName = name) :
    ∃ r rows', (r :: rows').Perm rows ∧ r.regdName = name := by
  obtain ⟨r, hr, hname⟩ := h
  obtain ⟨l₁, l₂, rfl⟩ := List.append_of_mem hr
  exact ⟨r, l₁ ++ l₂, List.perm_middle.symm, hname⟩

/-- **A table that does not depend on the order has no mix.** -/
theorem noMix_of_loaded {same : RfCtl → RfCtl → Prop} (h : Loaded same rows) : NoMix rows := by
  intro name chIdx ntxIdx h1 hht hno
  obtain ⟨hch, hn⟩ := gives_lt hht
  have hl : Lacks rows name .w20 .ofdm chIdx ntxIdx := ⟨rfl, rfl, hch, h1, hn, hno⟩
  have hsome := gives_name hht
  -- the regulation comes first: it has its HT20 limits
  have hown : (loadLimits rows).limit name .w20 .ofdm chIdx ntxIdx =
      some (cell rows name .w20 .ht chIdx ntxIdx) := by
    obtain ⟨r, rows', hp, rfl⟩ := first_perm hsome
    have hst : (seen (r :: rows') r.regdName).ofdm ntxIdx = false := by
      refine Bool.eq_false_iff.mpr fun hst => ?_
      obtain ⟨ch, hg⟩ := seen_first hst
      exact hno ch ((gives_perm hp).mp hg)
    rw [← h.order _ hp, load_of_unseen (lacks_perm hp.symm hl) hst, limit_add_perm hp, limit_add_some hsome]
  constructor
  · intro r hr hat
    obtain ⟨v, hv, hleast⟩ := h.least name .w20 .ofdm chIdx ntxIdx ⟨r, hr, hat⟩
    have hcell := hleast.unique (isLeast_rows ⟨r, hr, hat⟩)
    rw [hown] at hv
    rw [← Option.some.inj hv, cell_max_of_not_gives (hno chIdx)] at hcell
    exact cell_ne_max.mpr hht hcell
  · intro name' ch hg
    obtain ⟨r, rows', hp, rfl⟩ := first_perm (gives_name hg)
    have hst := seen_of_first ((gives_perm hp).mpr hg) name
    have hload := h.order _ hp name .w20 .ofdm chIdx ntxIdx
    rw [load_of_seen hst, limit_add_perm hp, limit_add_some hsome, cell_max_of_not_gives (hno chIdx),
      hown] at hload
    exact cell_ne_max.mpr hht (Option.some.inj hload).symm

/-! ## the flags after the second pass -/

theorem load_nodup (rows : List LmtRow) :
    ((loadLimits rows).txpwrLmtList.map TxpwrLmtEnt.regdName).Nodup := by
  have hnames : (loadLimits rows).txpwrLmtList.map TxpwrLmtEnt.regdName =
      (lmtEnts rows).map TxpwrLmtEnt.regdName := by
    rw [← addLimits_list]
    exact CckOfdmState.mtChk_names {} _
  rw [hnames]
  exact lmtEnts_nodup rows

/-- some entry of the loaded table has a limit -/
theorem load_given_iff {n : Nat} : (∃ ent ∈ (loadLimits rows).txpwrLmtList, ent.given .ofdm n = true) ↔
    ∃ name, ∃ ch < centerCh2gNum, ∃ v ≠ lmtMax, (loadLimits rows).limit name .w20 .ofdm ch n = some v := by
  unfold TxpwrLmtEnt.given RfCtl.limit RfCtl.txpwrLmtGetByName
  constructor
  · rintro ⟨ent, hent, hg⟩
    obtain ⟨ch, hch, hne⟩ := List.any_eq_true.mp hg
    refine ⟨ent.regdName, ch, List.mem_range.mp hch, _, of_decide_eq_true hne, ?_⟩
    rw [get_of_mem (load_nodup rows) hent]
    rfl
  · rintro ⟨name, ch, hch, v, hne, hv⟩
    obtain ⟨ent, hent, rfl⟩ := Option.map_eq_some_iff.mp hv
    exact ⟨ent, mem_of_get hent, List.any_eq_true.mpr ⟨ch, List.mem_range.mpr hch, decide_eq_true hne⟩⟩

theorem add_given_iff {n : Nat} :
    (∃ ent ∈ lmtEnts rows, ent.given .ofdm n = true) ↔ ∃ name ch, Gives rows name .ofdm ch n := by
  constructor
  · rintro ⟨ent, hent, hg⟩
    exact ⟨ent.regdName, gives_of_mem hent hg⟩
  · rintro ⟨name, ch, hg⟩
    obtain ⟨ent, hent⟩ := Option.isSome_iff_exists.mp ((ent_isSome rows name).mpr (gives_name hg))
    exact ⟨ent, mem_of_get hent, (given_iff hent).mpr ⟨ch, hg⟩⟩

theorem load_ofdm {n : Nat} : (loadLimits rows).cckOfdmState.ofdm n = true ↔
    n < maxTxCount ∧ ∃ name ch, Gives rows name .ofdm ch n := by
  have hflag := CckOfdmState.mtChk_ofdm {} (addLimits rows).txpwrLmtList n
  rw [addLimits_list, add_given_iff] at hflag
  have hload : (loadLimits rows).cckOfdmState = (CckOfdmState.mtChk {} (lmtEnts rows)).1 := by
    rw [← addLimits_list]
    rfl
  rw [hload, hflag]
  simp

/-- a limit that is given is in the loaded table -/
theorem load_of_gives {n : Nat} (h : Gives rows name .ofdm chIdx n) :
    (loadLimits rows).limit name .w20 .ofdm chIdx n = some (cell rows name .w20 .ofdm chIdx n) := by
  rw [load_of_seen (seen_of_gives h), limit_add_some (gives_name h)]

/-- a limit of the loaded table is given, as an OFDM limit or as one of HT20 -/
theorem gives_of_load {n : Nat} {v : LmtVal} (hv : v ≠ lmtMax)
    (h : (loadLimits rows).limit name .w20 .ofdm chIdx n = some v) :
    Gives rows name .ofdm chIdx n ∨ 1 ≤ n ∧ Gives rows name .ht chIdx n := by
  have hgives : ∀ tlrs, (addLimits rows).limit name .w20 tlrs chIdx n = some v →
      Gives rows name tlrs chIdx n := by
    intro tlrs hadd
    refine cell_ne_max.mp ?_
    unfold cell
    rwa [hadd]
  rw [limit_load] at h
  split at h
  next hr => exact Or.inr ⟨hr.2.2.2.1, hgives .ht h⟩
  next => exact Or.inl (hgives .ofdm h)

theorem post_state_iff : (loadLimits rows).txpwrLmtPostHdl.cckOfdmState = (loadLimits rows).cckOfdmState ↔
    ∀ n < maxTxCount, (∃ ent ∈ (loadLimits rows).txpwrLmtList, ent.given .ofdm n = true) →
      ∃ name ch, Gives rows name .ofdm ch n := by
  have hpost : ∀ n, (loadLimits rows).txpwrLmtPostHdl.cckOfdmState.ofdm n = true ↔
      n < maxTxCount ∧ ∃ ent ∈ (loadLimits rows).txpwrLmtList, ent.given .ofdm n = true := by
    intro n
    refine (CckOfdmState.mtChk_ofdm {} _ n).trans ?_
    simp
  constructor
  · intro heq n hn hg
    have hflag := (hpost n).mpr ⟨hn, hg⟩
    rw [heq] at hflag
    exact (load_ofdm.mp hflag).2
  · intro h
    have hofdm : (loadLimits rows).txpwrLmtPostHdl.cckOfdmState.ofdm = (loadLimits rows).cckOfdmState.ofdm := by
      funext n
      rw [Bool.eq_iff_iff, hpost, load_ofdm]
      refine and_congr_right fun hn => ⟨h n hn, ?_⟩
      rintro ⟨name, ch, hg⟩
      exact load_given_iff.mpr ⟨name, ch, (gives_lt hg).1, _, cell_ne_max.mpr hg, load_of_gives hg⟩
    have hcck : (loadLimits rows).txpwrLmtPostHdl.cckOfdmState.cck = (loadLimits rows).cckOfdmState.cck := by
      funext n
      have h1 := CckOfdmState.mtChk_cck {} (loadLimits rows).txpwrLmtList n
      have h2 := CckOfdmState.mtChk_cck {} (addLimits rows).txpwrLmtList n
      have h3 := CckOfdmState.mtChk_cck_again {} (addLimits rows).txpwrLmtList n
      exact h1.trans ((congrArg _ h3).trans h2.symm)
    show CckOfdmState.mk _ _ = CckOfdmState.mk _ _
    exact congrArg₂ CckOfdmState.mk hcck hofdm

/-- a rows' table without references has no mix -/
theorem noMix_of_allGiven (h : AllGiven rows) : NoMix rows := by
  intro name chIdx ntxIdx h1 hht hno
  obtain ⟨ch, hg⟩ := h name chIdx ntxIdx h1 hht
  exact absurd hg (hno ch)

theorem post_state_of_allGiven (h : AllGiven rows) :
    (loadLimits rows).txpwrLmtPostHdl.cckOfdmState = (loadLimits rows).cckOfdmState := by
  refine post_state_iff.mpr fun n hn hg => ?_
  obtain ⟨name, ch, -, v, hv, hlimit⟩ := load_given_iff.mp hg
  rcases gives_of_load hv hlimit with hg | ⟨h1, hht⟩
  · exact ⟨name, ch, hg⟩
  · exact ⟨name, h name ch n h1 hht⟩

theorem allGiven_of_post_state (hm : NoMix rows)
    (h : (loadLimits rows).txpwrLmtPostHdl.cckOfdmState = (loadLimits rows).cckOfdmState) : AllGiven rows := by
  intro name chIdx ntxIdx h1 hht
  by_contra hno
  have hno' : ∀ ch, ¬Gives rows name .ofdm ch ntxIdx := fun ch hg => hno ⟨ch, hg⟩
  obtain ⟨hch, hn⟩ := gives_lt hht
  have hl : Lacks rows name .w20 .ofdm chIdx ntxIdx := ⟨rfl, rfl, hch, h1, hn, hno'⟩
  have hlimit := load_of_lacks hm hl
  rw [limit_add_some (gives_name hht)] at hlimit
  obtain ⟨name', ch, hg⟩ := post_state_iff.mp h ntxIdx hn
    (load_given_iff.mpr ⟨name, chIdx, hch, _, cell_ne_max.mpr hht, hlimit⟩)
  exact (hm name chIdx ntxIdx h1 hht hno').2 name' ch hg

end

/-- **Loading the limits**: the table is what the rows say, in any order, if and only if no regulation without
OFDM limits stands beside one with them; and a second pass leaves the flags too, if every regulation with
HT20 limits has OFDM ones -/
theorem txpwrLmt_iff (rows : List LmtRow) :
    (Loaded (fun s s' => s.txpwrLmtList = s'.txpwrLmtList) rows ↔ NoMix rows) ∧
      (Loaded Eq rows ↔ AllGiven rows) := by
  refine ⟨⟨noMix_of_loaded, loaded_of_noMix⟩, fun h => ?_, fun h => ?_⟩
  · exact allGiven_of_post_state (noMix_of_loaded h) (congrArg RfCtl.cckOfdmState h.again)
  · have hloaded := loaded_of_noMix (noMix_of_allGiven h)
    refine ⟨hloaded.order, hloaded.least, hloaded.ht20, ?_⟩
    show RfCtl.mk _ _ = RfCtl.mk _ _
    exact congrArg₂ RfCtl.mk hloaded.again (post_state_of_allGiven h)

/-- one regulation with an HT20 limit of two antennas, one with an OFDM limit -/
def mixedRows : List LmtRow :=
  [{ regdName := "FCC", named := by decide, bw := .w20, tlrs := .ht,
     ntxIdx := ⟨1, by decide⟩, chIdx := ⟨0, by decide⟩, lmt := ⟨30, by decide⟩ },
   { regdName := "ETSI", named := by decide, bw := .w20, tlrs := .ofdm,
     ntxIdx := ⟨1, by decide⟩, chIdx := ⟨0, by decide⟩, lmt := ⟨26, by decide⟩ }]

/-- the order of the two rows decides on a limit -/
theorem txpwrLmt_mixed : ¬Loaded (fun s s' => s.txpwrLmtList = s'.txpwrLmtList) mixedRows ∧
    (loadLimits mixedRows).limit "FCC" .w20 .ofdm 0 1 = some ⟨30, by decide⟩ ∧
      (loadLimits mixedRows.reverse).limit "FCC" .w20 .ofdm 0 1 = some lmtMax := by
  have hfirst : (loadLimits mixedRows).limit "FCC" .w20 .ofdm 0 1 = some ⟨30, by decide⟩ := by decide
  have hlast : (loadLimits mixedRows.reverse).limit "FCC" .w20 .ofdm 0 1 = some lmtMax := by decide
  refine ⟨fun h => ?_, hfirst, hlast⟩
  have horder := h.order mixedRows.reverse (List.reverse_perm _) "FCC" .w20 .ofdm 0 1
  rw [hfirst, hlast] at horder
  exact absurd (Option.some.inj horder) (by decide)

end Rtl8192eu
