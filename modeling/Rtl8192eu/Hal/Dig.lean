import Mathlib.Algebra.Group.Nat.Defs
import Rtl8192eu.Lib.Run

/-!
# The receive gain

`phydm_dig` of `hal/phydm/phydm_dig.c`: every two seconds the watchdog raises the initial gain when it has counted many
false alarms, and lowers it when there were few, within a range that follows the weakest station.

* `DmDig.phydmDig`   one round: recorder, damping, boundaries, thresholds and the new gain;
* `phydmPauseFunc`   other functions hold the gain, and give it back;
* `igi_bounds`     the gain in the register stays in the range of the chip, in every run;
* `pause_resume`   what the gain was before a pause is what it is after it.

Antenna diversity, TDMA and the other chips are left out.
-/

namespace Rtl8192eu

open Run

/-- `phydm_bb_op_mode` -/
inductive PhydmBbOpMode where
  | performance | balance
  deriving DecidableEq, Repr

/-- `phydm_dig_recorder_strcut` -/
structure DigRecorder where
  igiBitmap : UInt8 := 0
  igiHistory : Vector UInt8 4 := #v[0, 0, 0, 0]
  faHistory : Vector Nat 4 := #v[0, 0, 0, 0]
  dampingLimitEn : Bool := false
  dampingLimitVal : UInt8 := 0
  limitTime : UInt32 := 0
  limitRssi : UInt8 := 0

/-- `phydm_dig_struct` -/
structure PhydmDig where
  digRecorder : DigRecorder := {}
  digDlEn : Bool := true
  curIgValue : UInt8
  /-- the gain that a pause has found -/
  rvrtVal : UInt8 := 0
  rxGainRangeMax : UInt8 := 0x3e
  rxGainRangeMin : UInt8
  dmDigMax : UInt8 := 0x3e
  dmDigMin : UInt8 := 0x20
  digMaxOfMin : UInt8 := 0x2a
  faTh : Vector Nat 3 := #v[250, 500, 750]

/-- what `dm_struct` holds for it -/
structure DmDig where
  dig : PhydmDig
  /-- the gain in `0xC50[6:0]` -/
  igiReg : UInt8
  isLinked : Bool := false
  preIsLinked : Bool := false
  firstConnect : Bool := false
  firstDisconnect : Bool := false
  rssiMin : UInt8 := 0
  preRssiMin : UInt8 := 0
  phydmSysUpTime : UInt32 := 0
  /-- `adapt_igi_up`, while `igi_lmt_en` is set -/
  adaptIgiUp : Option UInt8 := none
  /-- `pause_ability & ODM_BB_DIG` -/
  paused : Bool := false
  /-- `lv_dig`; -1 is `PHYDM_PAUSE_RELEASE` -/
  lvDig : Int := -1

/-- what a round of the watchdog finds -/
structure DigInput where
  /-- `rssi_stat.rssi` of the stations -/
  rssi : List Int8
  faCnt : Nat
  bbOpMode : PhydmBbOpMode := .performance
  /-- `phydm_dig_dfs_mode_en` -/
  dfsModeEn : Bool := false
  rxTp : Nat := 0
  txTp : Nat := 0
  numQryBeaconPkt : UInt8 := 20
  bstaState : Bool := true
  isScanInProcess : Bool := false

/-- `DIFF_2` -/
def diff2 (x y : UInt8) : UInt8 := if y ≤ x then x - y else y - x

/-- the end of `phydm_dig_recorder`: the gain is rounded down to an even one -/
def DigRecorder.push (rc : DigRecorder) (igiCurr : UInt8) (faCnt : Nat) : DigRecorder :=
  let igi := if igiCurr % 2 ≠ 0 then igiCurr - 1 else igiCurr
  let igiUp : UInt8 := if rc.igiHistory[0] < igi then 1 else 0
  { rc with
    igiBitmap := ((rc.igiBitmap <<< 1) &&& 0xfe) ||| igiUp
    igiHistory := #v[igi, rc.igiHistory[0], rc.igiHistory[1], rc.igiHistory[2]]
    faHistory := #v[faCnt, rc.faHistory[0], rc.faHistory[1], rc.faHistory[2]] }

namespace DmDig

variable (dm : DmDig)

/-- `phydm_dig_init`, with the gain that the tables of the chip have set -/
def phydmDigInit (igi : UInt8) : DmDig where
  dig := { curIgValue := igi, rxGainRangeMin := igi }
  igiReg := igi

def phydmDigRecorder (igiCurr : UInt8) (faCnt : Nat) : DmDig :=
  if dm.isLinked = false then dm
  else if dm.firstConnect then
    { dm with dig.digRecorder := { igiHistory := #v[igiCurr, 0, 0, 0], faHistory := #v[faCnt, 0, 0, 0] } }
  else { dm with dig.digRecorder := dm.dig.digRecorder.push igiCurr faCnt }

/-- the pattern of `phydm_dig_damping_chk`: up and down again, and the false alarms follow -/
def dampingPattern : Bool :=
  let rc := dm.dig.digRecorder
  let igi := rc.igiHistory
  let fa := rc.faHistory
  let th := dm.dig.faTh
  let diff1 := if igi[1] < igi[0] then igi[0] - igi[1] else 0
  match (rc.igiBitmap &&& 0xf).toNat with
  | 0x5 =>
    let diff2 := if igi[3] < igi[2] then igi[2] - igi[3] else 0
    2 ≤ diff1 && 2 ≤ diff2 && (fa[0] < th[0] && th[1] < fa[1] && fa[2] < th[0] && th[1] < fa[3])
  | 0x9 =>
    let diff2 := if igi[2] < igi[3] then igi[3] - igi[2] else 0
    2 ≤ diff1 && 2 ≤ diff2 && (fa[0] < th[0] && th[2] < fa[1] && fa[2] < th[0] && fa[3] < th[0])
  | _ => false

/-- `DIG_LIMIT_PERIOD` is 60 seconds -/
def phydmDigDampingChk : DmDig :=
  let rc := dm.dig.digRecorder
  if dm.isLinked = false then dm
  else if rc.dampingLimitEn then
    if 3 < diff2 dm.rssiMin rc.limitRssi ∨ rc.limitTime + 60 < dm.phydmSysUpTime then
      { dm with dig.digRecorder.dampingLimitEn := false }
    else dm
  else if dm.dampingPattern then
    { dm with dig.digRecorder := { rc with
        dampingLimitEn := true
        dampingLimitVal := rc.igiHistory[0]
        limitTime := dm.phydmSysUpTime
        limitRssi := dm.rssiMin } }
  else dm

def phydmDigAbsBoundaryDecision (bbOpMode : PhydmBbOpMode) (isDfsBand : Bool) : DmDig :=
  if isDfsBand then { dm with dig := { dm.dig with dmDigMin := 0x20, digMaxOfMin := 0x20, dmDigMax := 0x3e } }
  else if dm.isLinked = false then { dm with dig := { dm.dig with dmDigMax := 0x26, dmDigMin := 0x1c } }
  else
    match bbOpMode with
    | .balance => { dm with dig := { dm.dig with dmDigMax := 0x3e, digMaxOfMin := 0x2a, dmDigMin := 0x20 } }
    | .performance => { dm with dig := { dm.dig with dmDigMax := 0x5a, digMaxOfMin := 0x40, dmDigMin := 0x20 } }

/-- the lower bound by `rssi_min` -/
def rssiBound (isDfsBand : Bool) : UInt8 :=
  if isDfsBand then dm.dig.dmDigMin
  else if dm.dig.digMaxOfMin < dm.rssiMin then dm.dig.digMaxOfMin
  else if dm.rssiMin < dm.dig.dmDigMin then dm.dig.dmDigMin
  else dm.rssiMin

/-- the lower bound, which the damping may raise -/
def dampedBound (isDfsBand : Bool) : UInt8 :=
  let rc := dm.dig.digRecorder
  let rxGainRangeMin := dm.rssiBound isDfsBand
  if dm.dig.digDlEn ∧ rc.dampingLimitEn ∧ rxGainRangeMin < rc.dampingLimitVal then rc.dampingLimitVal
  else rxGainRangeMin

/-- the upper bound for a lower bound, in bytes -/
def upperBound (rxGainRangeMin : UInt8) : UInt8 :=
  let offset := rxGainRangeMin + 15
  let maxOfRssiMin := dm.rssiMin + 15
  let tmpMax := if rxGainRangeMin ≠ dm.rssiMin ∧ maxOfRssiMin < offset then maxOfRssiMin else offset
  if dm.dig.dmDigMax < tmpMax then dm.dig.dmDigMax
  else if tmpMax < dm.dig.dmDigMin then dm.dig.dmDigMin
  else tmpMax

def phydmDigDymBoundaryDecision (isDfsBand : Bool) : DmDig :=
  if dm.isLinked = false then
    { dm with dig := { dm.dig with rxGainRangeMax := dm.dig.digMaxOfMin, rxGainRangeMin := dm.dig.dmDigMin } }
  else
    { dm with dig := { dm.dig with
        rxGainRangeMax := dm.upperBound (dm.dampedBound isDfsBand)
        rxGainRangeMin := dm.dampedBound isDfsBand } }

def phydmDigAbnormalCase : DmDig :=
  if dm.dig.rxGainRangeMax < dm.dig.rxGainRangeMin then { dm with dig.rxGainRangeMin := dm.dig.rxGainRangeMax }
  else dm

/-- a throughput between 1 and 10 Mb, most of it received -/
def slowRx (e : DigInput) : Bool := decide (e.txTp < e.rxTp / 4) && decide (e.rxTp < 10) && decide (1 < e.rxTp)

def phydmFaThresholdCheck (e : DigInput) : DmDig :=
  { dm with dig.faTh :=
      if dm.isLinked then
        if dm.rssiMin < 20 then #v[500, 750, 1000]
        else if slowRx e then #v[125, 250, 500]
        else #v[250, 500, 750]
      else if e.dfsModeEn then #v[250, 1000, 2000]
      else #v[2000, 4000, 5000] }

def phydmNewIgiByFa (igi : UInt8) (faCnt : Nat) (stepSize : Vector UInt8 3) : UInt8 :=
  let th := dm.dig.faTh
  if th[2] < faCnt then igi + stepSize[0]
  else if th[1] < faCnt then igi + stepSize[1]
  else if faCnt < th[0] then igi - stepSize[2]
  else igi

/-- up by much, up, and down -/
def stepSize : Vector UInt8 3 :=
  if dm.isLinked ∧ ¬ dm.preRssiMin ≤ dm.rssiMin then #v[4, 2, 2] else #v[2, 1, 2]

/-- few beacons, though there are few false alarms -/
def fewBeacons (e : DigInput) : Bool := e.numQryBeaconPkt < 5 && decide (e.faCnt < 750) && e.bstaState

/-- the end of `phydm_get_new_igi` -/
def clampIgi (rxGainRangeMin rxGainRangeMax igi : UInt8) : UInt8 :=
  let igi := if igi < rxGainRangeMin then rxGainRangeMin else igi
  if rxGainRangeMax ≤ igi then rxGainRangeMax else igi

def phydmGetNewIgi (igi : UInt8) (e : DigInput) : UInt8 × DmDig :=
  let dig := dm.dig
  if dm.firstConnect then
    let igi := if e.dfsModeEn then if 0x28 < dm.rssiMin then 0x28 else dm.rssiMin else dig.rxGainRangeMin
    (clampIgi dig.rxGainRangeMin dig.rxGainRangeMax igi, dm)
  else if dm.isLinked then
    if fewBeacons e then (clampIgi 0x1c dig.rxGainRangeMax 0x1c, { dm with dig.rxGainRangeMin := 0x1c })
    else (clampIgi dig.rxGainRangeMin dig.rxGainRangeMax (dm.phydmNewIgiByFa igi e.faCnt dm.stepSize), dm)
  else
    let igi := if dm.firstDisconnect then dig.dmDigMin else dm.phydmNewIgiByFa igi e.faCnt dm.stepSize
    (clampIgi dig.rxGainRangeMin dig.rxGainRangeMax igi, dm)

/-- the limit of the adaptivity -/
def adaptIgi (newIgi : UInt8) : UInt8 :=
  match dm.adaptIgiUp with
  | some up => if up < newIgi ∧ dm.isLinked then up else newIgi
  | none => newIgi

/-- the register holds seven bits -/
def odmWriteDig (newIgi : UInt8) : DmDig :=
  let newIgi := dm.adaptIgi newIgi
  if dm.dig.curIgValue ≠ newIgi then { dm with dig.curIgValue := newIgi, igiReg := newIgi &&& 0x7f } else dm

def phydmDigAbort (e : DigInput) : Bool := dm.paused || e.isScanInProcess

def phydmDig (e : DigInput) : DmDig :=
  let igi := dm.dig.curIgValue
  if dm.phydmDigAbort e then { dm with dig.curIgValue := dm.igiReg }
  else
    let dm := (dm.phydmDigRecorder igi e.faCnt).phydmDigDampingChk
    let dm := (dm.phydmDigAbsBoundaryDecision e.bbOpMode e.dfsModeEn).phydmDigDymBoundaryDecision e.dfsModeEn
    let dm := (dm.phydmDigAbnormalCase).phydmFaThresholdCheck e
    let new := dm.phydmGetNewIgi igi e
    new.2.odmWriteDig new.1

/-- `phydm_dig_by_rssi_lps` -/
def phydmDigByRssiLps (e : DigInput) : DmDig :=
  if dm.phydmDigAbort e then dm
  else
    let igi := dm.rssiMin + 5
    let igi := if 30 < e.faCnt then igi + 4 else if 15 < e.faCnt then igi + 2 else if e.faCnt < 4 then igi - 2 else igi
    -- `rssi_min - 10` is compared with 0x20 as an `int`
    let rssiLower := if 42 < dm.rssiMin then dm.rssiMin - 10 else 0x20
    let igi := if 0x3e < igi then 0x3e else if igi < rssiLower then rssiLower else igi
    dm.odmWriteDig igi

/-! ## the watchdog around it -/

/-- the part of `phydm_common_info_self_update` -/
def phydmCommonInfoSelfUpdate : DmDig :=
  { dm with
    phydmSysUpTime := dm.phydmSysUpTime + 2
    firstConnect := dm.isLinked && !dm.preIsLinked
    firstDisconnect := !dm.isLinked && dm.preIsLinked
    preIsLinked := dm.isLinked }

/-- `rssi_min_tmp` of `phydm_calculate_rssi_min_max` -/
def rssiMinTmp (rssi : List Int8) : Int8 := rssi.foldl (fun m r => if r < m then r else m) 100

def phydmRssiMonitorCheck (rssi : List Int8) : DmDig :=
  if dm.phydmSysUpTime % 2 = 1 then dm
  else if dm.isLinked = false then dm
  else { dm with preRssiMin := dm.rssiMin, rssiMin := (rssiMinTmp rssi).toUInt8 }

/-- `phydm_watchdog`, as far as the gain goes -/
def phydmWatchdog (e : DigInput) : DmDig :=
  (dm.phydmCommonInfoSelfUpdate.phydmRssiMonitorCheck e.rssi).phydmDig e

def phydmWatchdogLps (e : DigInput) : DmDig :=
  (dm.phydmCommonInfoSelfUpdate.phydmRssiMonitorCheck e.rssi).phydmDigByRssiLps e

/-! ## to hold the gain -/

/-- `phydm_pause_type` -/
inductive PauseType where
  | pause | pauseNoSet | resume
  deriving DecidableEq, Repr

/-- `phydm_pause_func` for `F00_DIG`; whether it returns `PAUSE_SUCCESS` -/
def phydmPauseFunc (type : PauseType) (lv : Nat) (val : UInt8) : Bool × DmDig :=
  if 4 ≤ lv then (false, dm)
  else
    match type with
    | .resume =>
      if (lv : Int) < dm.lvDig then (false, dm)
      else if dm.paused = false then (true, dm)
      else (true, { dm with paused := false, lvDig := -1 }.odmWriteDig dm.dig.rvrtVal)
    | type =>
      if (lv : Int) ≤ dm.lvDig then (false, dm)
      else
        let dm := { dm with dig.rvrtVal := if dm.paused then dm.dig.rvrtVal else dm.dig.curIgValue, paused := true }
        let dm := if type = .pause then dm.odmWriteDig val else dm
        (true, { dm with lvDig := lv })

end DmDig

inductive DigEvent where
  | watchdog (e : DigInput)
  | watchdogLps (e : DigInput)
  /-- the station is associated, or not any more -/
  | link (b : Bool)
  /-- the limit that `phydm_adaptivity` sets -/
  | adaptivity (up : Option UInt8)
  | pauseFunc (type : DmDig.PauseType) (lv : Nat) (val : UInt8)

def DmDig.step (dm : DmDig) : DigEvent → DmDig
  | .watchdog e => dm.phydmWatchdog e
  | .watchdogLps e => dm.phydmWatchdogLps e
  | .link b => { dm with isLinked := b }
  | .adaptivity up => { dm with adaptIgiUp := up }
  | .pauseFunc type lv val => (dm.phydmPauseFunc type lv val).2

namespace DmDig

variable {dm : DmDig}

/-! ## the range -/

/-- `DIG_MIN_COVERAGE` to `DIG_MAX_PERFORMANCE_MODE` -/
def InRange (x : UInt8) : Prop := 0x1c ≤ x ∧ x ≤ 0x5a

instance (x : UInt8) : Decidable (InRange x) := inferInstanceAs (Decidable (_ ∧ _))

theorem clampIgi_inRange {lo hi : UInt8} (hlo : 0x1c ≤ lo) (hhi : InRange hi) (igi : UInt8) :
    InRange (clampIgi lo hi igi) := by
  unfold InRange clampIgi at *
  grind

theorem and_seven_bits {x : UInt8} (h : x ≤ 0x7f) : x &&& 0x7f = x := by
  have hx : x.toNat ≤ 0x7f := UInt8.le_iff_toNat_le.mp h
  apply UInt8.toNat_inj.mp
  rw [UInt8.toNat_and]
  show x.toNat &&& (2 ^ 7 - 1) = x.toNat
  rw [Nat.and_two_pow_sub_one_eq_mod]
  omega

theorem recorder_spec (dm : DmDig) (igi : UInt8) (faCnt : Nat) :
    ∃ rc, dm.phydmDigRecorder igi faCnt = { dm with dig.digRecorder := rc } := by
  unfold phydmDigRecorder
  split
  · exact ⟨_, rfl⟩
  · split <;> exact ⟨_, rfl⟩

theorem damping_spec (dm : DmDig) : ∃ rc, dm.phydmDigDampingChk = { dm with dig.digRecorder := rc } := by
  unfold phydmDigDampingChk
  dsimp only
  split
  · exact ⟨_, rfl⟩
  · split
    · split <;> exact ⟨_, rfl⟩
    · split <;> exact ⟨_, rfl⟩

/-- the boundaries of the mode -/
theorem absBoundary_spec (dm : DmDig) (mode : PhydmBbOpMode) (dfs : Bool) (h : InRange dm.dig.digMaxOfMin) :
    ∃ hi lo mom, dm.phydmDigAbsBoundaryDecision mode dfs
        = { dm with dig := { dm.dig with dmDigMax := hi, dmDigMin := lo, digMaxOfMin := mom } }
      ∧ 0x1c ≤ lo ∧ lo ≤ hi ∧ hi ≤ 0x5a ∧ InRange mom := by
  unfold phydmDigAbsBoundaryDecision
  split
  · exact ⟨_, _, _, rfl, by decide, by decide, by decide, by decide⟩
  · split
    · exact ⟨_, _, dm.dig.digMaxOfMin, rfl, by decide, by decide, by decide, h⟩
    · cases mode with
      | balance => exact ⟨_, _, _, rfl, by decide, by decide, by decide, by decide⟩
      | performance => exact ⟨_, _, _, rfl, by decide, by decide, by decide, by decide⟩

theorem le_dampedBound (dfs : Bool) (hlo : 0x1c ≤ dm.dig.dmDigMin) (hmom : 0x1c ≤ dm.dig.digMaxOfMin) :
    0x1c ≤ dm.dampedBound dfs := by
  unfold dampedBound rssiBound
  grind

theorem upperBound_mem (lo : UInt8) (h : dm.dig.dmDigMin ≤ dm.dig.dmDigMax) :
    dm.dig.dmDigMin ≤ dm.upperBound lo ∧ dm.upperBound lo ≤ dm.dig.dmDigMax := by
  unfold upperBound
  grind

/-- the range of the weakest station lies in that of the mode -/
theorem dymBoundary_spec (dm : DmDig) (dfs : Bool) (hlo : 0x1c ≤ dm.dig.dmDigMin)
    (hle : dm.dig.dmDigMin ≤ dm.dig.dmDigMax) (hhi : dm.dig.dmDigMax ≤ 0x5a) (hmom : InRange dm.dig.digMaxOfMin) :
    ∃ hi lo, (dm.phydmDigDymBoundaryDecision dfs).phydmDigAbnormalCase
        = { dm with dig := { dm.dig with rxGainRangeMax := hi, rxGainRangeMin := lo } }
      ∧ 0x1c ≤ lo ∧ InRange hi := by
  have hnorm : ∀ hi lo : UInt8, 0x1c ≤ lo → InRange hi → ∃ hi' lo',
      ({ dm with dig := { dm.dig with rxGainRangeMax := hi, rxGainRangeMin := lo } } : DmDig).phydmDigAbnormalCase
        = { dm with dig := { dm.dig with rxGainRangeMax := hi', rxGainRangeMin := lo' } }
      ∧ 0x1c ≤ lo' ∧ InRange hi' := by
    intro hi lo hl hh
    unfold phydmDigAbnormalCase
    split
    · exact ⟨hi, hi, rfl, hh.1, hh⟩
    · exact ⟨hi, lo, rfl, hl, hh⟩
  unfold phydmDigDymBoundaryDecision
  split
  · exact hnorm _ _ hlo hmom
  · have hup := upperBound_mem (dm.dampedBound dfs) hle
    refine hnorm _ _ (le_dampedBound dfs hlo hmom.1) ⟨?_, ?_⟩
    · exact UInt8.le_trans hlo hup.1
    · exact UInt8.le_trans hup.2 hhi

/-- the new gain lies in the range -/
theorem getNewIgi_spec (dm : DmDig) (igi : UInt8) (e : DigInput) (hlo : 0x1c ≤ dm.dig.rxGainRangeMin)
    (hhi : InRange dm.dig.rxGainRangeMax) : InRange (dm.phydmGetNewIgi igi e).1
      ∧ ∃ lo, (dm.phydmGetNewIgi igi e).2 = { dm with dig.rxGainRangeMin := lo } := by
  unfold phydmGetNewIgi
  dsimp only
  split
  · exact ⟨clampIgi_inRange hlo hhi _, _, rfl⟩
  · split
    · split
      · exact ⟨clampIgi_inRange (by decide) hhi _, _, rfl⟩
      · exact ⟨clampIgi_inRange hlo hhi _, _, rfl⟩
    · exact ⟨clampIgi_inRange hlo hhi _, _, rfl⟩

/-! ## every run -/

/-- the register holds what the driver believes, and all that may be written is in the range -/
structure Bounded (dm : DmDig) : Prop where
  reg : dm.dig.curIgValue = dm.igiReg
  cur : InRange dm.dig.curIgValue
  mom : InRange dm.dig.digMaxOfMin
  rvrt : dm.paused = true → InRange dm.dig.rvrtVal
  limit : ∀ up ∈ dm.adaptIgiUp, InRange up
  even : dm.phydmSysUpTime % 2 = 0
  free : dm.paused = false → dm.lvDig = -1

theorem odmWriteDig_spec (dm : DmDig) (igi : UInt8) :
    ∃ cur reg, dm.odmWriteDig igi = { dm with dig.curIgValue := cur, igiReg := reg } := by
  unfold odmWriteDig
  dsimp only
  split <;> exact ⟨_, _, rfl⟩

@[simp] theorem odmWriteDig_paused (dm : DmDig) (igi : UInt8) : (dm.odmWriteDig igi).paused = dm.paused := by
  obtain ⟨_, _, h⟩ := odmWriteDig_spec dm igi
  rw [h]

theorem Bounded.write (h : dm.Bounded) {igi : UInt8} (higi : InRange igi) : (dm.odmWriteDig igi).Bounded := by
  have hlim : InRange (dm.adaptIgi igi) := by
    unfold adaptIgi
    split
    · rename_i up hup
      split
      · exact h.limit up hup
      · exact higi
    · exact higi
  unfold odmWriteDig
  dsimp only
  split
  · exact ⟨(and_seven_bits (UInt8.le_trans hlim.2 (by decide))).symm, hlim, h.mom, h.rvrt, h.limit, h.even, h.free⟩
  · exact h

theorem Bounded.phydmDig (h : dm.Bounded) (e : DigInput) : (dm.phydmDig e).Bounded := by
  unfold DmDig.phydmDig
  dsimp only
  split
  · exact ⟨rfl, h.reg ▸ h.cur, h.mom, h.rvrt, h.limit, h.even, h.free⟩
  · obtain ⟨rc, hrc⟩ := recorder_spec dm dm.dig.curIgValue e.faCnt
    obtain ⟨rc', hrc'⟩ := damping_spec { dm with dig.digRecorder := rc }
    rw [hrc, hrc']
    obtain ⟨hi, lo, mom, habs, hlo, hle, hhi, hmom⟩ :=
      absBoundary_spec { dm with dig.digRecorder := rc' } e.bbOpMode e.dfsModeEn h.mom
    rw [habs]
    obtain ⟨hi', lo', hdym, hlo', hhi'⟩ := dymBoundary_spec
      { dm with dig := { dm.dig with digRecorder := rc', dmDigMax := hi, dmDigMin := lo, digMaxOfMin := mom } }
      e.dfsModeEn hlo hle hhi hmom
    rw [hdym]
    obtain ⟨hnew, lo'', hstate⟩ := getNewIgi_spec (phydmFaThresholdCheck
      { dm with dig := { dm.dig with
          digRecorder := rc', dmDigMax := hi, dmDigMin := lo, digMaxOfMin := mom
          rxGainRangeMax := hi', rxGainRangeMin := lo' } } e) dm.dig.curIgValue e hlo' hhi'
    rw [hstate]
    refine Bounded.write ?_ hnew
    exact ⟨h.reg, h.cur, hmom, h.rvrt, h.limit, h.even, h.free⟩

theorem rssiMinTmp_mem (rssi : List Int8) (h : ∀ r ∈ rssi, 0 ≤ r) : 0 ≤ rssiMinTmp rssi ∧ rssiMinTmp rssi ≤ 100 := by
  have hstep : ∀ (l : List Int8) (m : Int8), (∀ r ∈ l, 0 ≤ r) → 0 ≤ m → m ≤ 100 →
      0 ≤ l.foldl (fun m r => if r < m then r else m) m ∧ l.foldl (fun m r => if r < m then r else m) m ≤ 100 := by
    intro l
    induction l with
    | nil => exact fun m _ h0 h1 => ⟨h0, h1⟩
    | cons r l ih =>
      intro m hl h0 h1
      rw [List.foldl_cons]
      have hr := hl r List.mem_cons_self
      apply ih _ fun x hx => hl x (List.mem_cons_of_mem _ hx)
      · split <;> assumption
      · split
        · grind
        · exact h1
  exact hstep rssi 100 h (by decide) (by decide)

/-- a station that was heard from keeps its gain below `DIG_MAX_LPS` -/
theorem Bounded.phydmDigByRssiLps (h : dm.Bounded) (hrssi : dm.rssiMin ≤ 100) (e : DigInput) :
    (dm.phydmDigByRssiLps e).Bounded := by
  unfold DmDig.phydmDigByRssiLps
  split
  · exact h
  · refine h.write ?_
    unfold InRange
    grind

theorem Bounded.selfUpdate (h : dm.Bounded) (rssi : List Int8) :
    (dm.phydmCommonInfoSelfUpdate.phydmRssiMonitorCheck rssi).Bounded := by
  have heven : (dm.phydmSysUpTime + 2) % 2 = 0 := by
    have := h.even
    grind
  have hself : dm.phydmCommonInfoSelfUpdate.Bounded := ⟨h.reg, h.cur, h.mom, h.rvrt, h.limit, heven, h.free⟩
  unfold phydmRssiMonitorCheck
  split
  · exact hself
  · split
    · exact hself
    · exact ⟨h.reg, h.cur, h.mom, h.rvrt, h.limit, heven, h.free⟩

/-- what is asked of the callers: values in the range where one is set, and in LPS a station that was heard from -/
def Sound (dm : DmDig) : DigEvent → Prop
  | .watchdogLps e => dm.isLinked = true ∧ ∀ r ∈ e.rssi, 0 ≤ r
  | .adaptivity up => ∀ x ∈ up, InRange x
  | .pauseFunc .pause _ val => InRange val
  | .watchdog _ | .link _ | .pauseFunc _ _ _ => True

theorem toUInt8_le {i : Int8} (h0 : 0 ≤ i) (h1 : i ≤ 100) : i.toUInt8 ≤ 100 := by
  have h0' : 0 ≤ i.toInt := Int8.le_iff_toInt_le.mp h0
  have h1' : i.toInt ≤ 100 := Int8.le_iff_toInt_le.mp h1
  have hint : i.toInt = i.toUInt8.toBitVec.toInt := rfl
  rw [hint, BitVec.toInt_eq_toNat_cond] at h0' h1'
  apply UInt8.le_iff_toNat_le.mpr
  show i.toUInt8.toBitVec.toNat ≤ 100
  split at h0'
  · omega
  · omega

/-- a round of the watchdog while the station is associated -/
theorem selfUpdate_linked (heven : dm.phydmSysUpTime % 2 = 0) (hlink : dm.isLinked = true) (rssi : List Int8) :
    dm.phydmCommonInfoSelfUpdate.phydmRssiMonitorCheck rssi
      = { dm with
          phydmSysUpTime := dm.phydmSysUpTime + 2, firstConnect := !dm.preIsLinked, firstDisconnect := false
          preIsLinked := true, preRssiMin := dm.rssiMin, rssiMin := (rssiMinTmp rssi).toUInt8 } := by
  have hodd : ¬ dm.phydmCommonInfoSelfUpdate.phydmSysUpTime % 2 = 1 := by
    show ¬ (dm.phydmSysUpTime + 2) % 2 = 1
    grind
  have hlink' : ¬ dm.phydmCommonInfoSelfUpdate.isLinked = false := by
    show ¬ dm.isLinked = false
    simp [hlink]
  unfold phydmRssiMonitorCheck
  rw [if_neg hodd, if_neg hlink']
  simp [phydmCommonInfoSelfUpdate, hlink]

theorem Bounded.watchdogLps (h : dm.Bounded) {e : DigInput} (hlink : dm.isLinked = true) (hrssi : ∀ r ∈ e.rssi, 0 ≤ r) :
    (dm.phydmWatchdogLps e).Bounded := by
  refine (h.selfUpdate e.rssi).phydmDigByRssiLps ?_ e
  have hmem := rssiMinTmp_mem e.rssi hrssi
  rw [selfUpdate_linked h.even hlink]
  exact toUInt8_le hmem.1 hmem.2

/-- what a hold, a write, a new level and the end of a pause keep -/
theorem pauseFunc_keeps {P : DmDig → Prop} {type : PauseType} (lv : Nat) {val : UInt8} (h : P dm)
    (hhold : P { dm with dig.rvrtVal := if dm.paused then dm.dig.rvrtVal else dm.dig.curIgValue, paused := true })
    (hset : ∀ (t : DmDig) (l : Int), P t → t.paused = true → P { t with lvDig := l })
    (hwrite : type = .pause → ∀ t, P t → P (t.odmWriteDig val))
    (hfree : dm.paused = true → P ({ dm with paused := false, lvDig := -1 }.odmWriteDig dm.dig.rvrtVal)) :
    P (dm.phydmPauseFunc type lv val).2 := by
  unfold phydmPauseFunc
  split
  · exact h
  · cases type with
    | resume =>
      dsimp only
      split
      · exact h
      · split
        · exact h
        · rename_i hp
          exact hfree (by simpa using hp)
    | pause =>
      dsimp only
      split
      · exact h
      · exact hset _ _ (hwrite rfl _ hhold) (odmWriteDig_paused _ _)
    | pauseNoSet =>
      dsimp only
      split
      · exact h
      · exact hset _ _ hhold rfl

theorem Bounded.pauseFunc (h : dm.Bounded) (type : PauseType) (lv : Nat) {val : UInt8} (he : dm.Sound (.pauseFunc type lv val)) :
    (dm.phydmPauseFunc type lv val).2.Bounded := by
  refine pauseFunc_keeps lv h ⟨h.reg, h.cur, h.mom, fun _ => ?_, h.limit, h.even, fun hf => (by cases hf)⟩
    (fun t l ht hp => ⟨ht.reg, ht.cur, ht.mom, ht.rvrt, ht.limit, ht.even, fun hf => absurd hf (by simp [hp])⟩)
    (fun ht t hb => ?_) fun hp => ?_
  · show InRange (if dm.paused then _ else _)
    split
    · rename_i hp
      exact h.rvrt hp
    · exact h.cur
  · rw [ht] at he
    exact hb.write he
  · have hfree : ({ dm with paused := false, lvDig := -1 } : DmDig).Bounded :=
      ⟨h.reg, h.cur, h.mom, fun hf => (by cases hf), h.limit, h.even, fun _ => rfl⟩
    exact hfree.write (h.rvrt hp)

theorem Bounded.step (h : dm.Bounded) {e : DigEvent} (he : dm.Sound e) : (dm.step e).Bounded := by
  cases e with
  | watchdog e => exact (h.selfUpdate e.rssi).phydmDig e
  | watchdogLps e => exact h.watchdogLps he.1 he.2
  | link b => exact ⟨h.reg, h.cur, h.mom, h.rvrt, h.limit, h.even, h.free⟩
  | adaptivity up => exact ⟨h.reg, h.cur, h.mom, h.rvrt, he, h.even, h.free⟩
  | pauseFunc type lv val => exact h.pauseFunc type lv he

instance (dm : DmDig) : (e : DigEvent) → Decidable (dm.Sound e)
  | .watchdogLps e => decidable_of_iff (dm.isLinked = true ∧ e.rssi.all (0 ≤ ·) = true)
      (and_congr_right fun _ => List.all_eq_true.trans (forall₂_congr fun _ _ => decide_eq_true_iff))
  | .adaptivity none => isTrue fun _ hx => nomatch hx
  | .adaptivity (some x) => decidable_of_iff (InRange x) ⟨fun h _ hx => Option.some.inj hx ▸ h, fun h => h x rfl⟩
  | .pauseFunc .pause _ val => inferInstanceAs (Decidable (InRange val))
  | .watchdog _ | .link _ | .pauseFunc .resume _ _ | .pauseFunc .pauseNoSet _ _ => isTrue trivial

theorem bounded_run {igi : UInt8} (higi : InRange igi) {es : List DigEvent} (hes : Along step Sound (phydmDigInit igi) es) :
    (run step (phydmDigInit igi) es).Bounded := by
  have hmom : InRange 0x2a := by decide
  have hinit : (phydmDigInit igi).Bounded :=
    ⟨rfl, higi, hmom, fun hp => (by cases hp), fun up hup => (by cases hup), rfl, fun _ => rfl⟩
  exact run_inv (I := Bounded) (fun _ _ h he => h.step he) _ es hinit hes

end DmDig

/-- **The gain stays in the range** from `DIG_MIN_COVERAGE` to `DIG_MAX_PERFORMANCE_MODE`, and in the register as the
driver believes: whatever is heard, and whoever holds the gain. -/
theorem igi_bounds {igi : UInt8} (higi : DmDig.InRange igi) (es : List DigEvent)
    (hes : Along DmDig.step DmDig.Sound (.phydmDigInit igi) es) :
    DmDig.InRange (run DmDig.step (.phydmDigInit igi) es).igiReg
      ∧ (run DmDig.step (.phydmDigInit igi) es).dig.curIgValue = (run DmDig.step (.phydmDigInit igi) es).igiReg := by
  have hrun := DmDig.bounded_run higi hes
  exact ⟨hrun.reg ▸ hrun.cur, hrun.reg⟩

theorem igi_bounds_unpause : DmDig.InRange (run DmDig.step (.phydmDigInit 0x20)
      [.link true, .watchdog { rssi := [50], faCnt := 900 }, .pauseFunc .pause 1 0x3e,
        .watchdogLps { rssi := [50], faCnt := 0 }, .pauseFunc .resume 1 0x20]).igiReg
    ∧ (run DmDig.step (.phydmDigInit 0x20)
      [.link true, .watchdog { rssi := [50], faCnt := 900 }, .pauseFunc .pause 1 0x3e,
        .watchdogLps { rssi := [50], faCnt := 0 }, .pauseFunc .resume 1 0x20]).dig.curIgValue
      = (run DmDig.step (.phydmDigInit 0x20)
      [.link true, .watchdog { rssi := [50], faCnt := 900 }, .pauseFunc .pause 1 0x3e,
        .watchdogLps { rssi := [50], faCnt := 0 }, .pauseFunc .resume 1 0x20]).igiReg :=
  igi_bounds (by decide) _ (by decide)

/-! ## a pause -/

namespace DmDig

variable {dm : DmDig} {lv : Nat} {igi : UInt8}

theorem selfUpdate_spec (dm : DmDig) (rssi : List Int8) :
    ∃ up first disc pre r r', dm.phydmCommonInfoSelfUpdate.phydmRssiMonitorCheck rssi
      = { dm with
          phydmSysUpTime := up, firstConnect := first, firstDisconnect := disc, preIsLinked := pre
          rssiMin := r, preRssiMin := r' } := by
  unfold phydmRssiMonitorCheck
  split
  · exact ⟨_, _, _, _, _, _, rfl⟩
  · split <;> exact ⟨_, _, _, _, _, _, rfl⟩

/-- what a pause goes by: the gain, the register, and who holds it -/
def hold (dm : DmDig) : UInt8 × UInt8 × Bool × Int := (dm.dig.curIgValue, dm.igiReg, dm.paused, dm.lvDig)

/-- in every state, with values in the range or not -/
structure Masked (dm : DmDig) : Prop where
  reg : dm.igiReg = dm.dig.curIgValue &&& 0x7f
  free : dm.paused = false → dm.lvDig = -1

theorem Masked.of_hold {dm' : DmDig} (h : dm.Masked) (he : dm'.hold = dm.hold) : dm'.Masked := by
  obtain ⟨hreg, hfree⟩ := h
  simp only [hold, Prod.mk.injEq] at he
  obtain ⟨hc, hr, hp, hl⟩ := he
  refine ⟨?_, ?_⟩
  · rw [hr, hc]
    exact hreg
  · rw [hp, hl]
    exact hfree

theorem phydmDigRecorder_hold (i : UInt8) (faCnt : Nat) : (dm.phydmDigRecorder i faCnt).hold = dm.hold := by
  obtain ⟨rc, h⟩ := recorder_spec dm i faCnt
  rw [h]
  rfl

theorem phydmDigDampingChk_hold : dm.phydmDigDampingChk.hold = dm.hold := by
  obtain ⟨rc, h⟩ := damping_spec dm
  rw [h]
  rfl

theorem phydmDigAbsBoundaryDecision_hold (mode : PhydmBbOpMode) (dfs : Bool) :
    (dm.phydmDigAbsBoundaryDecision mode dfs).hold = dm.hold := by
  unfold phydmDigAbsBoundaryDecision
  split
  · rfl
  · split
    · rfl
    · cases mode <;> rfl

theorem phydmDigDymBoundaryDecision_hold (dfs : Bool) : (dm.phydmDigDymBoundaryDecision dfs).hold = dm.hold := by
  unfold phydmDigDymBoundaryDecision
  split <;> rfl

theorem phydmDigAbnormalCase_hold : dm.phydmDigAbnormalCase.hold = dm.hold := by
  unfold phydmDigAbnormalCase
  split <;> rfl

theorem phydmGetNewIgi_hold (i : UInt8) (e : DigInput) : (dm.phydmGetNewIgi i e).2.hold = dm.hold := by
  unfold phydmGetNewIgi
  dsimp only
  split
  · rfl
  · split
    · split <;> rfl
    · rfl

theorem Masked.write (h : dm.Masked) (i : UInt8) : (dm.odmWriteDig i).Masked := by
  unfold odmWriteDig
  dsimp only
  split
  · exact ⟨rfl, h.free⟩
  · exact h

theorem Masked.phydmDig (h : dm.Masked) (e : DigInput) : (dm.phydmDig e).Masked := by
  unfold DmDig.phydmDig
  dsimp only
  split
  · refine ⟨?_, h.free⟩
    show dm.igiReg = dm.igiReg &&& 0x7f
    rw [h.reg, UInt8.and_assoc, UInt8.and_self]
  · refine Masked.write (h.of_hold ?_) _
    rw [phydmGetNewIgi_hold]
    show (phydmDigAbnormalCase _).hold = _
    rw [phydmDigAbnormalCase_hold, phydmDigDymBoundaryDecision_hold, phydmDigAbsBoundaryDecision_hold,
      phydmDigDampingChk_hold, phydmDigRecorder_hold]

theorem Masked.pauseFunc (h : dm.Masked) (type : PauseType) (l : Nat) (val : UInt8) :
    (dm.phydmPauseFunc type l val).2.Masked := by
  have hfree : ({ dm with paused := false, lvDig := -1 } : DmDig).Masked := ⟨h.reg, fun _ => rfl⟩
  exact pauseFunc_keeps l h ⟨h.reg, fun hf => (by cases hf)⟩
    (fun t n ht hp => ⟨ht.reg, fun hf => absurd hf (by simp [hp])⟩) (fun _ t ht => ht.write val) fun _ => hfree.write _

theorem Masked.selfUpdate (h : dm.Masked) (rssi : List Int8) :
    (dm.phydmCommonInfoSelfUpdate.phydmRssiMonitorCheck rssi).Masked := by
  obtain ⟨_, _, _, _, _, _, hself⟩ := selfUpdate_spec dm rssi
  rw [hself]
  exact h.of_hold rfl

theorem Masked.step (h : dm.Masked) (e : DigEvent) : (dm.step e).Masked := by
  cases e with
  | watchdog e => exact (h.selfUpdate e.rssi).phydmDig e
  | watchdogLps e =>
    show (phydmDigByRssiLps _ e).Masked
    unfold phydmDigByRssiLps
    split
    · exact h.selfUpdate e.rssi
    · exact (h.selfUpdate e.rssi).write _
  | link b => exact h.of_hold rfl
  | adaptivity up => exact h.of_hold rfl
  | pauseFunc type l val => exact h.pauseFunc type l val

theorem masked_run {i : UInt8} (hi : i ≤ 0x7f) (es : List DigEvent) : (run step (phydmDigInit i) es).Masked :=
  run_inv_all (I := Masked) (fun _ e h => h.step e) _ es ⟨(and_seven_bits hi).symm, fun _ => rfl⟩

/-- nobody of this level or above gives the gain back, and the adaptivity sets no limit -/
def holds (lv : Nat) : DigEvent → Bool
  | .pauseFunc .resume l _ => l < lv
  | .adaptivity up => up.isNone
  | _ => true

/-- the gain is held, and `igi` is what it was before -/
structure Held (dm : DmDig) (lv : Nat) (igi : UInt8) : Prop where
  paused : dm.paused = true
  rvrt : dm.dig.rvrtVal = igi
  level : (lv : Int) ≤ dm.lvDig
  limit : dm.adaptIgiUp = none

/-- the watchdog leaves the register alone while the gain is held -/
theorem Held.watchdog (h : dm.Held lv igi) (e : DigInput) :
    (dm.phydmWatchdog e).Held lv igi ∧ (dm.phydmWatchdog e).igiReg = dm.igiReg := by
  obtain ⟨_, _, _, _, _, _, hself⟩ := selfUpdate_spec dm e.rssi
  unfold phydmWatchdog
  rw [hself]
  unfold phydmDig
  rw [if_pos (by simp [phydmDigAbort, h.paused])]
  exact ⟨⟨h.paused, h.rvrt, h.level, h.limit⟩, rfl⟩

theorem Held.watchdogLps (h : dm.Held lv igi) (e : DigInput) :
    (dm.phydmWatchdogLps e).Held lv igi ∧ (dm.phydmWatchdogLps e).igiReg = dm.igiReg := by
  obtain ⟨_, _, _, _, _, _, hself⟩ := selfUpdate_spec dm e.rssi
  unfold phydmWatchdogLps
  rw [hself]
  unfold phydmDigByRssiLps
  rw [if_pos (by simp [phydmDigAbort, h.paused])]
  exact ⟨⟨h.paused, h.rvrt, h.level, h.limit⟩, rfl⟩

/-- a pause of a higher level takes over, and keeps what the first one has saved -/
theorem Held.pauseFunc (h : dm.Held lv igi) {type : PauseType} {l : Nat} {val : UInt8}
    (he : holds lv (.pauseFunc type l val) = true) : (dm.phydmPauseFunc type l val).2.Held lv igi := by
  have hkeep : (if dm.paused then dm.dig.rvrtVal else dm.dig.curIgValue) = igi := by
    rw [if_pos h.paused]
    exact h.rvrt
  unfold phydmPauseFunc
  split
  · exact h
  · cases type with
    | resume =>
      have hl : (l : Int) < dm.lvDig := by
        have hlv := h.level
        have hlt : l < lv := of_decide_eq_true he
        omega
      dsimp only
      rw [if_pos hl]
      exact h
    | pause =>
      dsimp only
      split
      · exact h
      · rename_i hl
        obtain ⟨cur, reg, hw⟩ := odmWriteDig_spec
          { dm with dig.rvrtVal := if dm.paused then dm.dig.rvrtVal else dm.dig.curIgValue, paused := true } val
        rw [if_pos rfl, hw]
        have hlv := h.level
        exact ⟨rfl, hkeep, show (lv : Int) ≤ l by omega, h.limit⟩
    | pauseNoSet =>
      dsimp only
      split
      · exact h
      · rename_i hl
        rw [if_neg (by decide)]
        have hlv := h.level
        exact ⟨rfl, hkeep, show (lv : Int) ≤ l by omega, h.limit⟩

theorem Held.step (h : dm.Held lv igi) {e : DigEvent} (he : holds lv e = true) : (dm.step e).Held lv igi := by
  cases e with
  | watchdog e => exact (h.watchdog e).1
  | watchdogLps e => exact (h.watchdogLps e).1
  | link b => exact ⟨h.paused, h.rvrt, h.level, h.limit⟩
  | adaptivity up => exact ⟨h.paused, h.rvrt, h.level, Option.isNone_iff_eq_none.mp he⟩
  | pauseFunc type l val => exact h.pauseFunc he

/-- a free gain is given to everybody who asks -/
theorem held_of_free (hfree : dm.paused = false) (hlv : dm.lvDig = -1) (hlimit : dm.adaptIgiUp = none)
    {type : PauseType} (htype : type ≠ .resume) (h4 : lv < 4) (val : UInt8) :
    (dm.phydmPauseFunc type lv val).2.Held lv dm.dig.curIgValue := by
  have hsave : (if dm.paused then dm.dig.rvrtVal else dm.dig.curIgValue) = dm.dig.curIgValue := by
    rw [hfree]
    rfl
  have hl : ¬ (lv : Int) ≤ dm.lvDig := by omega
  unfold phydmPauseFunc
  rw [if_neg (by omega)]
  cases type with
  | resume => exact absurd rfl htype
  | pause =>
    dsimp only
    obtain ⟨cur, reg, hw⟩ := odmWriteDig_spec
      { dm with dig.rvrtVal := if dm.paused then dm.dig.rvrtVal else dm.dig.curIgValue, paused := true } val
    rw [if_neg hl, if_pos rfl, hw]
    exact ⟨rfl, hsave, Int.le_refl _, hlimit⟩
  | pauseNoSet =>
    dsimp only
    rw [if_neg hl, if_neg (by decide)]
    exact ⟨rfl, hsave, Int.le_refl _, hlimit⟩

/-- who is let through gives back what was saved -/
theorem Held.resume (h : dm.Held lv igi) (hb : dm.Masked) {l : Nat} {val : UInt8}
    (hok : (dm.phydmPauseFunc .resume l val).1 = true) :
    (dm.phydmPauseFunc .resume l val).2.igiReg = igi &&& 0x7f := by
  unfold phydmPauseFunc at hok ⊢
  split at hok
  · cases hok
  · dsimp only at hok ⊢
    split at hok
    · cases hok
    · rename_i h4 hl
      have hp : ¬ dm.paused = false := by simp [h.paused]
      rw [if_neg h4, if_neg hl, if_neg hp]
      have hadapt : adaptIgi { dm with paused := false, lvDig := -1 } dm.dig.rvrtVal = dm.dig.rvrtVal := by
        unfold adaptIgi
        rw [h.limit]
      unfold odmWriteDig
      rw [hadapt]
      dsimp only
      split
      · rw [← h.rvrt]
      · rename_i heq
        show dm.igiReg = _
        rw [hb.reg, ← h.rvrt]
        exact congrArg (· &&& 0x7f) (not_not.mp heq)

end DmDig

/-- **A pause gives the gain back**: after it, and all pauses inside it, the register holds what it held before,
whatever the watchdog does in between. -/
theorem pause_resume {igi : UInt8} (higi : igi ≤ 0x7f) {es es' : List DigEvent} {type : DmDig.PauseType}
    {lv l : Nat} {val v : UInt8} (htype : type ≠ .resume) (h4 : lv < 4)
    (hfree : (run DmDig.step (.phydmDigInit igi) es).paused = false)
    (hlimit : (run DmDig.step (.phydmDigInit igi) es).adaptIgiUp = none)
    (hes' : ∀ e ∈ es', DmDig.holds lv e = true)
    (hok : ((run DmDig.step (.phydmDigInit igi) (es ++ .pauseFunc type lv val :: es')).phydmPauseFunc
      .resume l v).1 = true) :
    (run DmDig.step (.phydmDigInit igi) (es ++ .pauseFunc type lv val :: es' ++ [.pauseFunc .resume l v])).igiReg
      = (run DmDig.step (.phydmDigInit igi) es).igiReg := by
  have hbefore := DmDig.masked_run higi es
  have hafter := DmDig.masked_run higi (es ++ .pauseFunc type lv val :: es')
  rw [run_append] at hafter hok
  rw [run_append, run_append]
  have hpause := DmDig.held_of_free hfree (hbefore.free hfree) hlimit htype h4 val
  have hall : Along DmDig.step (fun _ e => DmDig.holds lv e = true)
      ((run DmDig.step (.phydmDigInit igi) es).step (.pauseFunc type lv val)) es' :=
    along_of_forall_prefix fun es₁ e hp => hes' e (hp.subset (List.mem_append_right _ List.mem_cons_self))
  have hheld := run_inv (I := fun t : DmDig => t.Held lv _) (fun _ _ h he => h.step he) _ es' hpause hall
  rw [hbefore.reg]
  exact hheld.resume hafter hok

/-- the noise monitor holds the gain, and the spectrum display takes it over with a value out of the range -/
theorem pause_resume_nested : (run DmDig.step (.phydmDigInit 0x20) ([.link true, .watchdog { rssi := [50], faCnt := 900 }]
      ++ .pauseFunc .pause 1 0x3e :: [.pauseFunc .pause 3 0x6e, .watchdog { rssi := [60], faCnt := 0 },
        .pauseFunc .resume 0 0x20] ++ [.pauseFunc .resume 3 0xff])).igiReg
    = (run DmDig.step (.phydmDigInit 0x20) [.link true, .watchdog { rssi := [50], faCnt := 900 }]).igiReg :=
  pause_resume (by decide) (by decide) (by decide) rfl rfl (by decide) rfl

end Rtl8192eu
