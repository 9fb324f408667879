import Mathlib.Tactic.Linarith
import Rtl8192eu.Hal.TxPower
import Rtl8192eu.Lib.Least
import Rtl8192eu.Lib.Run

/-!
# The limits of the transmit power

The target is the least of what is wanted and of all limits, less the TPC constraint, as far as `s8` holds it.

* `LimitApplies`   the values of the table that limit a bandwidth;
* `Setting`        what the user has configured;
* `limitedTarget_least`   the target before the constraint;
* `Respected`      every limit is respected;
* `txpwr_respected_iff`   when they are.
-/

namespace Rtl8192eu

open Run

/-! ## conversions -/

theorem toS8_spec (x : Int) : ∃ n, x = 256 * n + toS8 x ∧ -128 ≤ toS8 x ∧ toS8 x ≤ 127 := by
  refine ⟨(x - toS8 x) / 256, ?_⟩
  have h := Int.bmod_def x 256
  change toS8 x = _ at h
  split at h <;> omega

theorem toS16_spec (x : Int) : ∃ n, x = 65536 * n + toS16 x ∧ -32768 ≤ toS16 x ∧ toS16 x ≤ 32767 := by
  refine ⟨(x - toS16 x) / 65536, ?_⟩
  have h := Int.bmod_def x 65536
  change toS16 x = _ at h
  split at h <;> omega

/-- the division of C, towards zero -/
theorem tdiv_hundred (y : Int) :
    (0 ≤ y → y.tdiv 100 = y / 100) ∧ (y ≤ 0 → y.tdiv 100 = -(-y / 100)) := by
  refine ⟨fun h => Int.tdiv_eq_ediv_of_nonneg h, fun h => ?_⟩
  have hneg := Int.neg_tdiv (-y) 100
  rw [Int.neg_neg] at hneg
  rw [hneg, Int.tdiv_eq_ediv_of_nonneg (by omega)]

/-! ## the regulatory limit -/

/-- a regulation is in force on the channel -/
def TxpwrCfg.Limited (c : TxpwrCfg) (cch : Nat) : Prop :=
  c.lmtEnabled = true ∧ cch ≠ 0 ∧ c.regdName ≠ "NONE"

/-- the limits of a bandwidth: the value of the regulation, or all others where it is the mark of WW -/
inductive LimitApplies (c : TxpwrCfg) (bw : ChannelWidth) (tlrs : LmtRs) (ntxIdx cch : Nat) : Int → Prop where
  | own {ent : TxpwrLmtEnt} (hlim : c.Limited cch) (hname : c.regdName ≠ "WW")
      (hent : c.lmtGetByName c.regdName = some ent)
      (hval : (ent.lmt2g bw tlrs (cch - 1) ntxIdx).val ≠ wwLmtVal) :
      LimitApplies c bw tlrs ntxIdx cch (ent.lmt2g bw tlrs (cch - 1) ntxIdx).val
  | other {ent : TxpwrLmtEnt} (hlim : c.Limited cch)
      (hww : c.regdName = "WW" ∨ ∃ own, c.regdName ≠ "WW" ∧ c.lmtGetByName c.regdName = some own
        ∧ (own.lmt2g bw tlrs (cch - 1) ntxIdx).val = wwLmtVal)
      (hent : ent ∈ c.txpwrLmtList) (hval : (ent.lmt2g bw tlrs (cch - 1) ntxIdx).val ≠ wwLmtVal) :
      LimitApplies c bw tlrs ntxIdx cch (ent.lmt2g bw tlrs (cch - 1) ntxIdx).val

namespace TxpwrCfg

variable {c : TxpwrCfg} {bw : ChannelWidth} {tlrs : LmtRs} {ntxIdx cch : Nat}

theorem wwMinLmt_least (c : TxpwrCfg) (bw : ChannelWidth) (tlrs : LmtRs) (chIdx ntxIdx : Nat) :
    IsLeast ({txgiMax} ∪ {v | ∃ ent ∈ c.txpwrLmtList,
        (ent.lmt2g bw tlrs chIdx ntxIdx).val ≠ wwLmtVal ∧ v = (ent.lmt2g bw tlrs chIdx ntxIdx).val})
      (c.wwMinLmt bw tlrs chIdx ntxIdx) := by
  refine Least.isLeast_foldl (S := fun ent : TxpwrLmtEnt => {v | (ent.lmt2g bw tlrs chIdx ntxIdx).val ≠ wwLmtVal
    ∧ v = (ent.lmt2g bw tlrs chIdx ntxIdx).val}) (fun ent _ T m hT => ?_) isLeast_singleton
  split
  next h =>
    have hset : T ∪ {v | (ent.lmt2g bw tlrs chIdx ntxIdx).val ≠ wwLmtVal
        ∧ v = (ent.lmt2g bw tlrs chIdx ntxIdx).val} = insert (ent.lmt2g bw tlrs chIdx ntxIdx).val T := by
      ext v
      simp only [Set.mem_union, Set.mem_ofPred_eq, Set.mem_insert_iff, h, ne_eq, not_false_eq_true, true_and, or_comm]
    rw [hset, min_comm]
    exact Least.isLeast_insert_min hT
  next h => exact Least.isLeast_union_empty hT fun v hv => h hv.1

/-- no value of the table applies -/
theorem isLeast_txgiMax (h : ∀ v, ¬LimitApplies c bw tlrs ntxIdx cch v) :
    IsLeast ({txgiMax} ∪ {v | LimitApplies c bw tlrs ntxIdx cch v}) txgiMax :=
  Least.isLeast_union_empty isLeast_singleton h

/-- the values of all regulations apply -/
theorem wwMinLmt_applies (hlim : c.Limited cch)
    (hww : c.regdName = "WW" ∨ ∃ own, c.regdName ≠ "WW" ∧ c.lmtGetByName c.regdName = some own
      ∧ (own.lmt2g bw tlrs (cch - 1) ntxIdx).val = wwLmtVal) :
    IsLeast ({txgiMax} ∪ {v | LimitApplies c bw tlrs ntxIdx cch v}) (c.wwMinLmt bw tlrs (cch - 1) ntxIdx) := by
  have hset : {v | LimitApplies c bw tlrs ntxIdx cch v} = {v | ∃ ent ∈ c.txpwrLmtList,
      (ent.lmt2g bw tlrs (cch - 1) ntxIdx).val ≠ wwLmtVal
        ∧ v = (ent.lmt2g bw tlrs (cch - 1) ntxIdx).val} := by
    ext v
    constructor
    · intro h
      cases h with
      | own _ hname hent hval =>
        obtain hw | ⟨own, -, hown, hmark⟩ := hww
        · exact absurd hw hname
        · rw [Option.some.inj (hent.symm.trans hown)] at hval
          exact absurd hmark hval
      | other _ _ hent hval => exact ⟨_, hent, hval, rfl⟩
    · rintro ⟨ent, hent, hval, rfl⟩
      exact LimitApplies.other hlim hww hent hval
  rw [hset]
  exact wwMinLmt_least c bw tlrs (cch - 1) ntxIdx

theorem limited_of_applies {v : Int} (h : LimitApplies c bw tlrs ntxIdx cch v) : c.Limited cch := by
  cases h <;> assumption

/-- only the value of the regulation applies -/
theorem own_applies (hlim : c.Limited cch) (hname : c.regdName ≠ "WW") {ent : TxpwrLmtEnt}
    (hent : c.lmtGetByName c.regdName = some ent)
    (hval : (ent.lmt2g bw tlrs (cch - 1) ntxIdx).val ≠ wwLmtVal) :
    IsLeast ({txgiMax} ∪ {v | LimitApplies c bw tlrs ntxIdx cch v})
      (ent.lmt2g bw tlrs (cch - 1) ntxIdx).val := by
  refine ⟨Or.inr (LimitApplies.own hlim hname hent hval), ?_⟩
  rintro v (rfl | h)
  · exact (ent.lmt2g bw tlrs (cch - 1) ntxIdx).property.2
  · cases h with
    | own _ _ hsome _ => rw [Option.some.inj (hent.symm.trans hsome)]
    | other _ hww _ _ =>
      obtain hw | ⟨own, -, hsome, hmark⟩ := hww
      · exact absurd hw hname
      · rw [← Option.some.inj (hent.symm.trans hsome)] at hmark
        exact absurd hmark hval

theorem not_applies_of_nil (hnil : c.txpwrLmtList = []) (v : Int) : ¬LimitApplies c bw tlrs ntxIdx cch v := by
  intro h
  cases h with
  | own _ _ hent _ => exact absurd (hnil ▸ List.mem_of_find?_eq_some hent) List.not_mem_nil
  | other _ _ hent _ => exact absurd (hnil ▸ hent) List.not_mem_nil

/-- the regulation is not in the table -/
theorem not_applies_of_unknown (hname : c.regdName ≠ "WW") (hent : c.lmtGetByName c.regdName = none) (v : Int) :
    ¬LimitApplies c bw tlrs ntxIdx cch v := by
  intro h
  cases h with
  | own _ _ hsome _ => exact absurd (hent.symm.trans hsome).symm (Option.some_ne_none _)
  | other _ hww _ _ =>
    obtain hw | ⟨own, -, hsome, -⟩ := hww
    · exact hname hw
    · exact absurd (hent.symm.trans hsome).symm (Option.some_ne_none _)

/-- **The limit of a bandwidth is the least that applies.** -/
theorem phyGetTxpwrLmt_least (c : TxpwrCfg) (bw : ChannelWidth) (tlrs : LmtRs) (ntxIdx cch : Nat) :
    IsLeast ({txgiMax} ∪ {v | LimitApplies c bw tlrs ntxIdx cch v})
      (c.phyGetTxpwrLmt none bw tlrs ntxIdx cch) := by
  unfold phyGetTxpwrLmt
  simp only [Option.getD_none]
  split
  next hoff =>
    refine isLeast_txgiMax fun v h => ?_
    simp only [Bool.or_eq_true, Bool.not_eq_true', beq_iff_eq, List.length_eq_zero_iff] at hoff
    rcases hoff with (hoff | hnil) | hoff
    · exact absurd (hoff.symm.trans (limited_of_applies h).1) Bool.false_ne_true
    · exact not_applies_of_nil hnil v h
    · exact (limited_of_applies h).2.2 hoff
  next hon =>
    simp only [Bool.or_eq_true, Bool.not_eq_true', beq_iff_eq, not_or, Bool.not_eq_false] at hon
    obtain ⟨⟨hon, -⟩, hnone⟩ := hon
    by_cases hcch : cch = 0
    · have hno : ∀ v, ¬LimitApplies c bw tlrs ntxIdx cch v := fun v h => (limited_of_applies h).2.1 hcch
      simp only [hcch, if_true]
      rw [hcch] at hno
      split
      next => exact isLeast_txgiMax hno
      next => split <;> exact isLeast_txgiMax hno
    have hlim : c.Limited cch := ⟨hon, hcch, hnone⟩
    simp only [hcch, if_false]
    split
    next hw => exact wwMinLmt_applies hlim (Or.inl hw)
    next hw =>
      split
      next hent => exact isLeast_txgiMax (not_applies_of_unknown hw hent)
      next ent hent =>
        split
        next hval => exact own_applies hlim hw hent hval
        next hval =>
          rw [ne_eq, Classical.not_not] at hval
          exact wwMinLmt_applies hlim (Or.inr ⟨ent, hw, hent, hval⟩)

/-- the limits of the bandwidths that a rate may be sent with -/
def LimitOf (c : TxpwrCfg) (a : TxpwrArgs) (v : Int) : Prop :=
  ∃ bw ∈ c.txBws a.rate a.bw,
    LimitApplies c bw a.rate.lmtRs a.ntxIdx (c.lmtCch a.bw a.cch a.opch bw) v

theorem mem_upTo_of_mem_txBws {rate : MgnRate} {max : ChannelWidth} (h : bw ∈ c.txBws rate max) :
    bw ∈ max.upTo := by
  have hself : max ∈ max.upTo := by cases max <;> decide
  have hw20 : ChannelWidth.w20 ∈ max.upTo := by cases max <;> decide
  have hbmp : ∀ (m : ChannelWidth → Nat) i,
      bw ∈ (if txBwBmp m i max = [] then [max] else txBwBmp m i max) → bw ∈ max.upTo := by
    intro m i hbw
    split at hbw
    next => rwa [List.mem_singleton.mp hbw]
    next => exact (List.mem_filter.mp hbw).1
  cases rate with
  | cck i => rwa [List.mem_singleton.mp h]
  | ofdm i => rwa [List.mem_singleton.mp h]
  | ht i => exact hbmp _ _ h
  | vht i => exact hbmp _ _ h

/-- **The limit of a rate is the least over its bandwidths.** -/
theorem phyGetTxpwrLmtSubChs_least (c : TxpwrCfg) (a : TxpwrArgs) :
    IsLeast ({txgiMax} ∪ {v | c.LimitOf a v}) (c.phyGetTxpwrLmtSubChs none a) := by
  have hset : ({txgiMax} ∪ {v | c.LimitOf a v} : Set Int)
      = {txgiMax} ∪ {v | ∃ bw ∈ a.bw.upTo.filter fun bw => decide (bw ∈ c.txBws a.rate a.bw),
          v ∈ ({txgiMax} ∪ {v | LimitApplies c bw a.rate.lmtRs a.ntxIdx
            (c.lmtCch a.bw a.cch a.opch bw) v} : Set Int)} := by
    ext v
    constructor
    · rintro (hv | ⟨bw, hbw, hv⟩)
      · exact Or.inl hv
      · exact Or.inr ⟨bw, List.mem_filter.mpr ⟨mem_upTo_of_mem_txBws hbw, decide_eq_true hbw⟩, Or.inr hv⟩
    · rintro (hv | ⟨bw, hbw, hv | hv⟩)
      · exact Or.inl hv
      · exact Or.inl hv
      · exact Or.inr ⟨bw, of_decide_eq_true (List.mem_filter.mp hbw).2, hv⟩
  rw [hset]
  refine Least.isLeast_foldl (S := fun bw => ({txgiMax} ∪ {v | LimitApplies c bw a.rate.lmtRs a.ntxIdx
    (c.lmtCch a.bw a.cch a.opch bw) v} : Set Int)) (fun bw _ T m hT => ?_) isLeast_singleton
  have hbw := c.phyGetTxpwrLmt_least bw a.rate.lmtRs a.ntxIdx (c.lmtCch a.bw a.cch a.opch bw)
  have hmin := hbw.union hT
  rw [Set.union_comm, min_def] at hmin
  exact hmin

end TxpwrCfg

/-! ## what the user has configured -/

/-- the last request that was accepted -/
inductive Setting where
  | automatic | limited (mbm : Int) | fixed (mbm : Int)
  deriving DecidableEq, Repr

structure TxpowerRequest where
  wdev : Bool
  type : TxPowerSetting
  mbm : Int
  deriving DecidableEq, Repr

structure UserSys where
  user : UserTxpwr := {}
  setting : Setting := .automatic

def TxpowerRequest.setting (r : TxpowerRequest) (s : Setting) : Setting :=
  match r.type with
  | .automatic => .automatic
  | .limited => .limited r.mbm
  | .fixed => .fixed r.mbm
  | .other => s

namespace UserSys

def step (s : UserSys) (r : TxpowerRequest) : UserSys where
  user := (cfg80211RtwSetTxpower r.wdev r.type r.mbm s.user).2
  setting :=
    if (cfg80211RtwSetTxpower r.wdev r.type r.mbm s.user).1 then r.setting s.setting else s.setting

/-- what is stored for a setting -/
def Stored (s : UserSys) : Prop :=
  match s.setting with
  | .automatic => s.user = ⟨unspecifiedMbm, unspecifiedMbm⟩
  | .limited mbm => s.user = ⟨toS16 mbm, unspecifiedMbm⟩ ∧ phyIsTxpwrUserMbmValid mbm = true
  | .fixed mbm => s.user = ⟨unspecifiedMbm, toS16 mbm⟩ ∧ phyIsTxpwrUserMbmValid mbm = true

theorem Stored.step {s : UserSys} (h : s.Stored) (r : TxpowerRequest) : (s.step r).Stored := by
  obtain ⟨wdev, type, mbm⟩ := r
  cases wdev with
  | true => exact h
  | false =>
    cases type with
    | automatic => exact rfl
    | other => exact h
    | limited =>
      cases hv : phyIsTxpwrUserMbmValid mbm with
      | true =>
        have hstep : s.step ⟨false, .limited, mbm⟩ = ⟨⟨toS16 mbm, unspecifiedMbm⟩, .limited mbm⟩ := by
          simp [UserSys.step, cfg80211RtwSetTxpower, hv, TxpowerRequest.setting]
        rw [hstep]
        exact ⟨rfl, hv⟩
      | false =>
        have hstep : s.step ⟨false, .limited, mbm⟩ = s := by
          simp [UserSys.step, cfg80211RtwSetTxpower, hv]
        rwa [hstep]
    | fixed =>
      cases hv : phyIsTxpwrUserMbmValid mbm with
      | true =>
        have hstep : s.step ⟨false, .fixed, mbm⟩ = ⟨⟨unspecifiedMbm, toS16 mbm⟩, .fixed mbm⟩ := by
          simp [UserSys.step, cfg80211RtwSetTxpower, hv, TxpowerRequest.setting]
        rw [hstep]
        exact ⟨rfl, hv⟩
      | false =>
        have hstep : s.step ⟨false, .fixed, mbm⟩ = s := by
          simp [UserSys.step, cfg80211RtwSetTxpower, hv]
        rwa [hstep]

theorem run_stored (rs : List TxpowerRequest) : (run step {} rs).Stored :=
  run_inv_all (I := Stored) (fun _ r h => Stored.step h r) {} rs rfl

end UserSys

/-! ## the target before the TPC constraint -/

theorem mbOfNtx_bounds (ntx : Nat) : 0 ≤ mbOfNtx ntx ∧ mbOfNtx ntx ≤ 903 := by
  unfold mbOfNtx
  rcases ntx - 1 with _ | _ | _ | _ | _ | _ | _ | _ | n <;> simp

theorem valid_iff (mbm : Int) : phyIsTxpwrUserMbmValid mbm = true ↔ toS16 mbm < 3150 := by
  obtain ⟨hpos, hneg⟩ := tdiv_hundred (toS16 mbm * 2)
  unfold phyIsTxpwrUserMbmValid txgiMax txgiPdbm mbmPdbm
  rw [Bool.not_eq_true', decide_eq_false_iff_not]
  omega

/-- the fixed target, as it is stored -/
def Setting.target (st : Setting) (ntxIdx : Nat) : Int :=
  match st with
  | .fixed mbm => toS8 (singleIdx (toS16 mbm) ntxIdx)
  | _ => txgiMax

/-- the user limit, as it is stored -/
def Setting.limit (st : Setting) (ntxIdx : Nat) : Int :=
  match st with
  | .limited mbm => toS8 (singleIdx (toS16 mbm) ntxIdx)
  | _ => txgiMax

theorem UserSys.Stored.user_eq {s : UserSys} (h : s.Stored) (ntxIdx : Nat) :
    phyGetTxpwrUserTarget s.user ntxIdx = s.setting.target ntxIdx
      ∧ phyGetTxpwrUserLmt s.user ntxIdx = s.setting.limit ntxIdx := by
  have hmark : ∀ mbm, phyIsTxpwrUserMbmValid mbm = true → toS16 mbm ≠ unspecifiedMbm := by
    intro mbm hv heq
    have hlt := (valid_iff mbm).mp hv
    rw [heq] at hlt
    exact absurd hlt (by decide)
  unfold UserSys.Stored at h
  unfold phyGetTxpwrUserTarget phyGetTxpwrUserLmt
  cases hs : s.setting with
  | automatic =>
    rw [hs] at h
    rw [h]
    exact ⟨rfl, rfl⟩
  | limited mbm =>
    rw [hs] at h
    rw [h.1, if_pos (hmark mbm h.2)]
    exact ⟨rfl, rfl⟩
  | fixed mbm =>
    rw [hs] at h
    rw [h.1, if_pos (hmark mbm h.2)]
    exact ⟨rfl, rfl⟩

namespace TxpwrCfg

/-- the power that is wanted: the fixed target, or the value by rate -/
def wanted (c : TxpwrCfg) (st : Setting) (a : TxpwrArgs) : Int :=
  if st.target a.ntxIdx ≠ txgiMax then st.target a.ntxIdx else c.byRate a

/-- what the target must not be above -/
def Cap (c : TxpwrCfg) (st : Setting) (a : TxpwrArgs) (v : Int) : Prop :=
  v = c.wanted st a ∨ v = st.limit a.ntxIdx ∨ v = txgiMax ∨ c.LimitOf a v

theorem byRate_bounds (c : TxpwrCfg) (a : TxpwrArgs) : 0 ≤ c.byRate a ∧ c.byRate a < 63 := by
  have hval : ∀ v : TxgiVal, 0 ≤ (if v.val = txgiMax then 0 else v.val)
      ∧ (if v.val = txgiMax then 0 else v.val) < 63 := by
    rintro ⟨v, h0, h63⟩
    show 0 ≤ (if v = 63 then 0 else v) ∧ (if v = 63 then 0 else v) < 63
    split <;> omega
  unfold byRate
  dsimp only
  split
  next => exact hval _
  next => exact hval _

theorem toS8_of_fits {x : Int} (h : -128 ≤ x ∧ x ≤ 127) : toS8 x = x := by
  obtain ⟨n, hx, hlo, hhi⟩ := toS8_spec x
  omega

/-- **The target before the constraint is the least of all.** -/
theorem limitedTarget_least {s : UserSys} (hs : s.Stored) (c : TxpwrCfg) (a : TxpwrArgs) :
    IsLeast {v | c.Cap s.setting a v} (c.limitedTarget s.user a) := by
  obtain ⟨htgt, hulmt⟩ := hs.user_eq a.ntxIdx
  have hrate : toS8 (c.byRate a) = c.byRate a := by
    have := c.byRate_bounds a
    exact toS8_of_fits (by omega)
  have hmin : c.limitedTarget s.user a
      = min (s.setting.limit a.ntxIdx) (min (c.phyGetTxpwrLmtSubChs none a) (c.wanted s.setting a)) := by
    unfold limitedTarget wanted
    dsimp only
    rw [htgt, hulmt, hrate, min_def_lt, min_def_lt]
  have hset : {v | c.Cap s.setting a v}
      = insert (s.setting.limit a.ntxIdx) (({txgiMax} ∪ {v | c.LimitOf a v}) ∪ {c.wanted s.setting a}) := by
    ext v
    simp only [Cap, Set.mem_ofPred_eq, Set.mem_insert_iff, Set.mem_union, Set.mem_singleton_iff]
    tauto
  rw [hmin, hset]
  exact Least.isLeast_insert_min ((c.phyGetTxpwrLmtSubChs_least a).union isLeast_singleton)

theorem limitOf_lower {c : TxpwrCfg} {a : TxpwrArgs} {v : Int} (h : c.LimitOf a v) : -63 ≤ v := by
  obtain ⟨bw, -, h⟩ := h
  cases h with
  | @own ent _ _ _ _ => exact (ent.lmt2g ..).property.1
  | @other ent _ _ _ _ => exact (ent.lmt2g ..).property.1

theorem cap_lower {c : TxpwrCfg} {st : Setting} {a : TxpwrArgs} {v : Int} (h : c.Cap st a v) : -128 ≤ v := by
  have hs8 : ∀ x, -128 ≤ toS8 x := fun x => (toS8_spec x).choose_spec.2.1
  have hmax : -128 ≤ txgiMax := by decide
  have htgt : -128 ≤ st.target a.ntxIdx := by
    cases st with
    | fixed mbm => exact hs8 _
    | automatic => exact hmax
    | limited mbm => exact hmax
  have hlmt : -128 ≤ st.limit a.ntxIdx := by
    cases st with
    | limited mbm => exact hs8 _
    | automatic => exact hmax
    | fixed mbm => exact hmax
  rcases h with rfl | rfl | rfl | h
  · unfold wanted
    have hrate := c.byRate_bounds a
    split <;> omega
  · exact hlmt
  · exact hmax
  · have := limitOf_lower h
    omega

/-! ## the TPC constraint -/

theorem tpcCnst_eq (c : TxpwrCfg) (constraint : BitVec 16) :
    c.tpcCnst constraint = if c.tpcManual then (constraint.toNat / 50 : Int) else 0 := by
  have hdiv := (tdiv_hundred (constraint.toNat * 2)).1 (by omega)
  unfold tpcCnst txgiPdbm mbmPdbm
  rw [hdiv]
  split <;> omega

theorem tpcCnst_mono (c : TxpwrCfg) {constraint constraint' : BitVec 16}
    (h : constraint'.toNat ≤ constraint.toNat) :
    0 ≤ c.tpcCnst constraint' ∧ c.tpcCnst constraint' ≤ c.tpcCnst constraint := by
  rw [tpcCnst_eq, tpcCnst_eq]
  split <;> omega

/-- every smaller number of steps has a constraint -/
theorem exists_constraint (c : TxpwrCfg) (constraint : BitVec 16) {k : Int} (h0 : 0 ≤ k)
    (hk : k ≤ c.tpcCnst constraint) :
    ∃ constraint' : BitVec 16, constraint'.toNat ≤ constraint.toNat ∧ c.tpcCnst constraint' = k := by
  rw [tpcCnst_eq] at hk
  have hlt := constraint.isLt
  refine ⟨BitVec.ofNat 16 (50 * k.toNat), ?_, ?_⟩
  · rw [BitVec.toNat_ofNat]
    split at hk <;> omega
  · rw [tpcCnst_eq, BitVec.toNat_ofNat]
    split at hk
    next hm => rw [if_pos hm]; omega
    next hm => rw [if_neg hm]; omega

theorem phyGetTxpwrTarget_eq (c : TxpwrCfg) (w : UserTxpwr) (constraint : BitVec 16) (a : TxpwrArgs) :
    c.phyGetTxpwrTarget w constraint a = toS8 (c.limitedTarget w a - c.tpcCnst constraint) := by
  unfold phyGetTxpwrTarget phyGetTxpwrTpc
  obtain ⟨n, hn, -, -⟩ := toS8_spec (-c.tpcCnst constraint)
  obtain ⟨m, hm, hmlo, hmhi⟩ := toS8_spec (c.limitedTarget w a + toS8 (-c.tpcCnst constraint))
  obtain ⟨l, hl, hllo, hlhi⟩ := toS8_spec (c.limitedTarget w a - c.tpcCnst constraint)
  omega

end TxpwrCfg

/-! ## the limits are respected -/

/-- the power of all antennas, in mBm -/
def totalMbm (idx : Int) (ntxIdx : Nat) : Int := (idx * mbmPdbm).tdiv txgiPdbm + mbOfNtx (ntxIdx + 1)

theorem totalMbm_eq (idx : Int) (ntxIdx : Nat) : totalMbm idx ntxIdx = idx * 50 + mbOfNtx (ntxIdx + 1) := by
  have h : (idx * mbmPdbm).tdiv txgiPdbm = idx * 50 :=
    Int.tdiv_eq_of_eq_mul_left (by decide) (by unfold mbmPdbm txgiPdbm; omega)
  rw [totalMbm, h]

/-- **Every limit is respected.** -/
structure Respected (c : TxpwrCfg) (s : UserSys) (constraint : BitVec 16) (a : TxpwrArgs) (b : TxpwrBase) :
    Prop where
  regulatory : ∀ v, c.LimitOf a v → c.phyGetTxpwrTarget s.user constraint a ≤ v
  user : ∀ mbm, s.setting = .limited mbm →
    totalMbm (c.phyGetTxpwrTarget s.user constraint a) a.ntxIdx - mbm < mbmPdbm / txgiPdbm
  tpc : ∀ constraint' : BitVec 16, constraint'.toNat ≤ constraint.toNat →
    c.phyGetTxpwrTarget s.user constraint a ≤ c.phyGetTxpwrTarget s.user constraint' a
  index : 0 ≤ halComGetTxpwrIdx c s.user constraint a b ∧ halComGetTxpwrIdx c s.user constraint a b ≤ txgiMax

/-- **No `s8` wraps**: neither the user limit nor the target under the constraint. -/
structure NoWrap (c : TxpwrCfg) (st : Setting) (constraint : BitVec 16) (a : TxpwrArgs) : Prop where
  user : ∀ mbm, st = .limited mbm → mbOfNtx (a.ntxIdx + 1) - 6450 < mbm
  target : ∀ v, IsLeast {v | c.Cap st a v} v →
    -128 ≤ v - c.tpcCnst constraint ∨ (v - c.tpcCnst constraint) % 256 = 128

variable {c : TxpwrCfg} {s : UserSys} {constraint : BitVec 16} {a : TxpwrArgs} {b : TxpwrBase}

theorem clamp_bounds (x : Int) :
    0 ≤ (if x < 0 then 0 else if x > txgiMax then txgiMax else x)
      ∧ (if x < 0 then 0 else if x > txgiMax then txgiMax else x) ≤ txgiMax := by
  unfold txgiMax
  split
  next => exact ⟨le_refl _, by decide⟩
  next h =>
    split
    next => exact ⟨by decide, le_refl _⟩
    next h' => exact ⟨not_lt.mp h, not_lt.mp h'⟩

/-- the constraint lowers the target, or takes it to the least value there is -/
theorem target_of_noWrap {t k : Int} (ht : -128 ≤ t ∧ t ≤ 127) (hk : 0 ≤ k)
    (h : -128 ≤ t - k ∨ (t - k) % 256 = 128) :
    toS8 (t - k) ≤ t ∧ (toS8 (t - k) = t - k ∨ toS8 (t - k) = -128) := by
  obtain ⟨n, hn, hlo, hhi⟩ := toS8_spec (t - k)
  omega

theorem NoWrap.respected (hs : s.Stored) (h : NoWrap c s.setting constraint a) : Respected c s constraint a b := by
  have hleast := TxpwrCfg.limitedTarget_least hs c a
  have hlo := TxpwrCfg.cap_lower hleast.1
  have hmax : c.limitedTarget s.user a ≤ 63 := hleast.2 (Or.inr (Or.inr (Or.inl rfl)))
  have hk := c.tpcCnst_mono (le_refl constraint.toNat)
  have htgt := target_of_noWrap ⟨hlo, by omega⟩ hk.1 (h.target _ hleast)
  refine ⟨fun v hv => ?_, fun mbm hmbm => ?_, fun constraint' hle => ?_, clamp_bounds _⟩
  · rw [c.phyGetTxpwrTarget_eq]
    have hv' : c.limitedTarget s.user a ≤ v := hleast.2 (Or.inr (Or.inr (Or.inr hv)))
    omega
  · have hlim : c.limitedTarget s.user a ≤ s.setting.limit a.ntxIdx := hleast.2 (Or.inr (Or.inl rfl))
    have hwide := h.user mbm hmbm
    have hvalid : toS16 mbm < 3150 := by
      rw [UserSys.Stored, hmbm] at hs
      exact (valid_iff mbm).mp hs.2
    rw [hmbm] at hlim
    change _ ≤ toS8 (singleIdx (toS16 mbm) a.ntxIdx) at hlim
    unfold singleIdx txgiPdbm mbmPdbm at hlim
    rw [c.phyGetTxpwrTarget_eq, totalMbm_eq]
    show _ < 50
    have hmb := mbOfNtx_bounds (a.ntxIdx + 1)
    obtain ⟨n, hn, hnlo, hnhi⟩ := toS16_spec mbm
    obtain ⟨hpos, hneg⟩ := tdiv_hundred ((toS16 mbm - mbOfNtx (a.ntxIdx + 1)) * 2)
    obtain ⟨q, hq, hqlo, hqhi⟩ := toS8_spec (((toS16 mbm - mbOfNtx (a.ntxIdx + 1)) * 2).tdiv 100)
    omega
  · have hk' := c.tpcCnst_mono hle
    rw [c.phyGetTxpwrTarget_eq, c.phyGetTxpwrTarget_eq]
    obtain ⟨n, hn, hlo', hhi'⟩ := toS8_spec (c.limitedTarget s.user a - c.tpcCnst constraint')
    omega

theorem Respected.noWrap (hs : s.Stored) (h : Respected c s constraint a b) :
    NoWrap c s.setting constraint a := by
  have hleast := TxpwrCfg.limitedTarget_least hs c a
  have hlo := TxpwrCfg.cap_lower hleast.1
  have hmax : c.limitedTarget s.user a ≤ 63 := hleast.2 (Or.inr (Or.inr (Or.inl rfl)))
  obtain ⟨n, hn, hlo', -⟩ := toS8_spec (c.limitedTarget s.user a - c.tpcCnst constraint)
  refine ⟨fun mbm hmbm => ?_, fun v hv => ?_⟩
  · -- no target is below -128 steps
    have huser := h.user mbm hmbm
    rw [c.phyGetTxpwrTarget_eq, totalMbm_eq] at huser
    change _ < (50 : Int) at huser
    omega
  · obtain rfl := hv.unique hleast
    by_contra hno
    -- a smaller constraint takes the target to -128
    obtain ⟨constraint', hle, hcnst⟩ := c.exists_constraint constraint
      (k := c.limitedTarget s.user a + 128) (by omega) (by omega)
    have hle' := h.tpc constraint' hle
    rw [c.phyGetTxpwrTarget_eq, c.phyGetTxpwrTarget_eq, hcnst] at hle'
    obtain ⟨m, hm, hmlo, hmhi⟩ := toS8_spec (c.limitedTarget s.user a - (c.limitedTarget s.user a + 128))
    omega

/-- `TPC_MANUAL_CONSTRAINT_MAX` -/
def tpcManualConstraintMax : Nat := 600

/-- up to the greatest constraint that can be configured, only a value of the user can wrap -/
theorem noWrap_iff_of_le_max (hs : s.Stored) (hmax : constraint.toNat ≤ tpcManualConstraintMax) :
    NoWrap c s.setting constraint a ↔
      (∀ mbm, s.setting = .limited mbm → mbOfNtx (a.ntxIdx + 1) - 6450 < mbm)
        ∧ -128 ≤ s.setting.target a.ntxIdx - c.tpcCnst constraint
        ∧ -128 ≤ s.setting.limit a.ntxIdx - c.tpcCnst constraint := by
  have hleast := TxpwrCfg.limitedTarget_least hs c a
  have hlo := TxpwrCfg.cap_lower hleast.1
  have hcnst : 0 ≤ c.tpcCnst constraint ∧ c.tpcCnst constraint ≤ 12 := by
    unfold tpcManualConstraintMax at hmax
    rw [TxpwrCfg.tpcCnst_eq]
    split <;> omega
  have hrate := c.byRate_bounds a
  constructor
  · intro h
    have hfit := h.target _ hleast
    have hwanted : c.limitedTarget s.user a ≤ c.wanted s.setting a := hleast.2 (Or.inl rfl)
    have hlimit : c.limitedTarget s.user a ≤ s.setting.limit a.ntxIdx := hleast.2 (Or.inr (Or.inl rfl))
    have htop : c.limitedTarget s.user a ≤ 63 := hleast.2 (Or.inr (Or.inr (Or.inl rfl)))
    refine ⟨h.user, ?_, by omega⟩
    by_cases hmark : s.setting.target a.ntxIdx = txgiMax
    · rw [hmark]
      show -128 ≤ 63 - c.tpcCnst constraint
      omega
    · rw [TxpwrCfg.wanted, if_pos hmark] at hwanted
      omega
  · rintro ⟨huser, htarget, hlimit⟩
    refine ⟨huser, fun v hv => Or.inl ?_⟩
    rcases hv.1 with rfl | rfl | rfl | hlim
    · unfold TxpwrCfg.wanted
      split <;> omega
    · exact hlimit
    · show -128 ≤ 63 - c.tpcCnst constraint
      omega
    · have := TxpwrCfg.limitOf_lower hlim
      omega

/-- **When the limits of the transmit power are respected.** -/
theorem txpwr_respected_iff (c : TxpwrCfg) (rs : List TxpowerRequest) (constraint : BitVec 16)
    (a : TxpwrArgs) (b : TxpwrBase) :
    Respected c (run UserSys.step {} rs) constraint a b
      ↔ NoWrap c (run UserSys.step {} rs).setting constraint a :=
  ⟨Respected.noWrap (UserSys.run_stored rs), NoWrap.respected (UserSys.run_stored rs)⟩

/-! a user limit of -70 dBm, below what `s8` holds in index steps -/

def lowCfg : TxpwrCfg where
  regEnableTxPowerLimit := 1
  regEnableTxPowerByRate := 1
  eepromRegulatory := 0
  regdName := "FCC"
  txpwrLmtList := []
  cch20 := 1
  cch40 := 3
  rateBmpHtByBw := fun _ => 0xffff
  rateBmpVhtByBw := fun _ => 0
  txPwrByRate := fun _ _ => ⟨40, by decide⟩
  targetTxpwr2g := fun _ _ => ⟨40, by decide⟩
  txpathNumNss := fun nss => nss + 1
  tpcManual := false

def lowArgs : TxpwrArgs := ⟨0, 0, .ofdm 0, 0, .w20, 1, 0⟩

/-- **The strict limit is none at all**: 20 dBm are sent. -/
theorem user_limit_lost :
    ¬Respected lowCfg (run UserSys.step {} [⟨false, .limited, -7000⟩]) 0#16 lowArgs ⟨true, 0#8, 0#8⟩ := by
  intro h
  have huser := h.user (-7000) (by decide)
  have htotal : totalMbm (lowCfg.phyGetTxpwrTarget
      (run UserSys.step {} [⟨false, .limited, -7000⟩]).user 0#16 lowArgs) lowArgs.ntxIdx = 2000 := by
    decide +kernel
  rw [htotal] at huser
  exact absurd huser (by decide)

end Rtl8192eu
