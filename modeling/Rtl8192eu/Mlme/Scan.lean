import Rtl8192eu.Lib.Run

/-!
# The scan

`sitesurvey_cmd_hdl` of `core/rtw_mlme_ext.c`, one call for each expiry of `survey_timer`:
`sitesurvey_pick_ch_behavior` takes the next channel, goes back to a passive channel with hidden
networks, lets the operating channel have its turn (back-op), or ends the scan.

* `rtwScanChDecision`   the channels of a scan;
* `Scan.operate`   one `case` of the handler, and whether it is entered again;
* `sitesurveyCmdHdl`   a call;
* `nextVisit`      the channel that should come next;
* `scan_iff`       when the scan goes as it should.

P2P, DFS, antenna diversity and ACS are not compiled in.  `hidden` counts by entry of the channel
set.
-/

namespace Rtl8192eu

/-! ## the channels of a scan -/

/-- `struct rtw_ieee80211_channel` -/
structure ScanChannel where
  hwValue : Nat
  disabled : Bool := false
  passiveScan : Bool := false
  deriving DecidableEq, Repr

/-- an entry of `channel_set`; the entry with number 0 ends the set -/
structure ChannelInfo where
  channelNum : Nat
  passive : Bool
  dfs : Bool
  pos : 0 < channelNum

structure ScanConf where
  channelSet : List ChannelInfo
  /-- `rtw_mlme_band_check`, `rtw_mlme_ignore_chan` -/
  bandCheck : Nat → Bool := fun _ => true
  ignoreChan : Nat → Bool := fun _ => false
  wifiSpec : Bool := false
  /-- `max_allow_ch` of `rtw_scan_sparse`, if a condition sets it, and its `token` -/
  maxAllowCh : Option Nat := none
  token : Nat := 255
  /-- `struct sitesurvey_parm` -/
  parmCh : List ScanChannel := []
  parmSsid : List Nat := []
  acs : Bool := false
  scanCntMax : Nat
  backopMs : Nat
  scanChMs : Nat

def rtwChannelScanAmount : Nat := 14 + 37

def ScanConf.chsetSearchCh (c : ScanConf) (ch : Nat) : Option Nat :=
  if ch = 0 then none else c.channelSet.findIdx? fun x => x.channelNum = ch

/-- the channels of the command that can be scanned -/
def scanChIn (c : ScanConf) : List ScanChannel → List ScanChannel
  | [] => []
  | x :: xs =>
    if x.hwValue = 0 ∨ x.disabled = true then scanChIn c xs
    else if c.bandCheck x.hwValue = false then scanChIn c xs
    else
      match c.chsetSearchCh x.hwValue with
      | none => scanChIn c xs
      | some i =>
        let info := c.channelSet[i]?
        { x with passiveScan := x.passiveScan || info.any fun y => y.passive || y.dfs } :: scanChIn c xs

def scanChDefault (c : ScanConf) : List ScanChannel :=
  (c.channelSet.filter fun x => c.bandCheck x.channelNum && !c.ignoreChan x.channelNum).map fun x =>
    { hwValue := x.channelNum, passiveScan := x.passive || x.dfs }

/-- every `scan_division_num`-th channel -/
def rtwScanSparse (c : ScanConf) (ch : List ScanChannel) : List ScanChannel :=
  match c.maxAllowCh with
  | none => ch
  | some m =>
    let scanDivisionNum := ch.length / m + (if ch.length % m = 0 then 0 else 1)
    let token := (c.token + 1) % scanDivisionNum
    (ch.zipIdx.filter fun x => x.1.hwValue ≠ 0 && x.2 % scanDivisionNum = token).map Prod.fst

def scanChFound (c : ScanConf) : List ScanChannel :=
  let j := (scanChIn c c.parmCh).take rtwChannelScanAmount
  if j = [] then (scanChDefault c).take rtwChannelScanAmount else j

def rtwScanChDecision (c : ScanConf) : List ScanChannel :=
  let j := scanChFound c
  if c.acs = false ∧ c.wifiSpec = false ∧ 6 < j.length then rtwScanSparse c j else j

/-! ## the handler -/

/-- `enum SCAN_STATE` -/
inductive ScanState where
  | disable | start | psAnncWait | enter | process | backingOp | backOp | leavingOp | leaveOp | complete
  deriving DecidableEq, Repr

/-- `struct ss_res`; `ch` has `ch_num` entries -/
structure SsRes where
  state : ScanState := .disable
  nextState : ScanState := .disable
  ch : List ScanChannel := []
  channelIdx : Nat := 0
  forceSsidScan : Bool := false
  ssidNum : Nat := 0
  scanCnt : Nat := 0
  backopFlags : Nat := 0
  backopTime : Nat := 0

/-- `mlmeext_set_scan_state` -/
def SsRes.setState (ss : SsRes) (st : ScanState) : SsRes := { ss with state := st, nextState := st }

def SsRes.chNum (ss : SsRes) : Nat := ss.ch.length

/-- `SS_BACKOP_PS_ANNC` -/
def ssBackopPsAnnc (flags : Nat) : Bool := flags.testBit 4

/-- a channel that is passed to `site_survey` -/
structure Visit where
  idx : Nat
  hwValue : Nat
  force : Bool
  deriving DecidableEq, Repr

structure Scan where
  ss : SsRes := {}
  /-- `hidden_bss_cnt` -/
  hidden : Nat → Nat := fun _ => 0
  /-- what `survey_timer` is armed with; the command starts the first call -/
  timer : Option Nat := some 0
  now : Nat := 0
  visits : List Visit := []
  /-- calls of `report_surveydone_event` -/
  surveyDone : Nat := 0

/-- what a call finds -/
structure ScanCall where
  now : Nat
  scanAbort : Bool := false
  /-- `rtw_scan_backop_decision` -/
  backopFlags : Nat := 0
  psAnnc : Bool := false
  /-- hidden networks counted since the last call -/
  counted : Nat → Nat := fun _ => 0

def sitesurveyResReset (c : ScanConf) (ss : SsRes) : SsRes :=
  { ss with
    channelIdx := 0, forceSsidScan := false, scanCnt := 0
    ssidNum := (c.parmSsid.filter fun n => n ≠ 0).length
    ch := rtwScanChDecision c }

/-- hidden networks have been counted on the channel -/
def hiddenOn (c : ScanConf) (hidden : Nat → Nat) (ch : Nat) : Bool :=
  match c.chsetSearchCh ch with
  | none => false
  | some i => hidden i != 0

/-- go back to the last channel for a directed scan, unless back-op is due -/
def pickRescan (c : ScanConf) (e : ScanCall) (hidden : Nat → Nat) (ss : SsRes) : SsRes :=
  if e.backopFlags ≠ 0 ∧ c.scanCntMax ≤ ss.scanCnt then ss
  else
    let prev := ss.ch[ss.channelIdx - 1]?
    if ss.channelIdx ≠ 0 ∧ ss.forceSsidScan = false ∧ ss.ssidNum ≠ 0
        ∧ prev.any ScanChannel.passiveScan = true then
      if prev.any fun x => hiddenOn c hidden x.hwValue then
        { ss with channelIdx := ss.channelIdx - 1, forceSsidScan := true }
      else ss
    else { ss with forceSsidScan := false }

def scanAbortHdl (e : ScanCall) (ss : SsRes) : SsRes :=
  if e.scanAbort then { ss with channelIdx := ss.chNum } else ss

/-- the next state, and the channel -/
def pickState (c : ScanConf) (e : ScanCall) (ss : SsRes) : SsRes × ScanState × Nat :=
  let scanCh :=
    match ss.ch[ss.channelIdx]? with
    | some x => x.hwValue
    | none => 0
  if scanCh ≠ 0 then
    if e.backopFlags ≠ 0 then
      if ss.scanCnt < c.scanCntMax then ({ ss with scanCnt := ss.scanCnt + 1 }, .process, scanCh)
      else ({ ss with backopFlags := e.backopFlags, scanCnt := 0 }, .backingOp, scanCh)
    else (ss, .process, scanCh)
  else ({ ss with scanCnt := 0 }, .complete, scanCh)

def sitesurveyPickChBehavior (c : ScanConf) (e : ScanCall) (hidden : Nat → Nat) (ss : SsRes) :
    SsRes × ScanState × Nat :=
  pickState c e (pickRescan c e hidden (scanAbortHdl e ss))

namespace Scan

def setSurveyTimer (s : Scan) (ms : Nat) : Scan := { s with timer := some ms }

/-- a `case`; `true` is `goto operation_by_state` -/
def operate (c : ScanConf) (e : ScanCall) (s : Scan) : Scan × Bool :=
  match s.ss.state with
  | .disable =>
    ({ s with ss := (sitesurveyResReset c s.ss).setState .start, hidden := fun _ => 0 }, true)
  | .start =>
    if e.psAnnc then
      ({ s with ss := { s.ss.setState .psAnncWait with nextState := .enter } }.setSurveyTimer 50, false)
    else ({ s with ss := s.ss.setState .enter }, true)
  | .psAnncWait => (s, false)
  | .enter => ({ s with ss := s.ss.setState .process }, true)
  | .process =>
    let (ss, nextState, scanCh) := sitesurveyPickChBehavior c e s.hidden s.ss
    if nextState ≠ .process then ({ s with ss := ss.setState nextState }, true)
    else
      let visit : Visit := ⟨ss.channelIdx, scanCh, ss.forceSsidScan⟩
      ({ s with ss, visits := s.visits ++ [visit] }.setSurveyTimer c.scanChMs, false)
  | .backingOp => ({ s with ss := { s.ss.setState .backOp with backopTime := s.now } }, true)
  | .backOp =>
    if c.backopMs ≤ s.now - s.ss.backopTime ∨ e.scanAbort = true then
      ({ s with ss := s.ss.setState .leavingOp }, true)
    else (s.setSurveyTimer 50, false)
  | .leavingOp =>
    if ssBackopPsAnnc s.ss.backopFlags && e.psAnnc then
      ({ s with ss := { s.ss.setState .psAnncWait with nextState := .leaveOp } }.setSurveyTimer 50, false)
    else ({ s with ss := s.ss.setState .leaveOp }, true)
  | .leaveOp => ({ s with ss := s.ss.setState .process }, true)
  | .complete =>
    ({ s with ss := s.ss.setState .disable, surveyDone := s.surveyDone + 1 }, false)

/-- `operation_by_state`, entered so many times at most -/
def operationByState (c : ScanConf) (e : ScanCall) : Nat → Scan → Option Scan
  | 0, _ => none
  | n + 1, s =>
    match operate c e s with
    | (s', true) => operationByState c e n s'
    | (s', false) => some s'

/-- the timer has expired, and the handler gets to the state that the last call assigned -/
def enterCall (s : Scan) (e : ScanCall) : Scan :=
  let s := { s with timer := none, now := e.now, hidden := fun i => s.hidden i + e.counted i }
  let s :=
    if s.ss.state = .process then { s with ss := { s.ss with channelIdx := s.ss.channelIdx + 1 } } else s
  if s.ss.state ≠ s.ss.nextState then { s with ss := s.ss.setState s.ss.nextState } else s

/-- more turns than a call needs, see `cmdHdl_spec` -/
def maxTurns : Nat := 12

/-- `sitesurvey_cmd_hdl` -/
def cmdHdl (c : ScanConf) (s : Scan) (e : ScanCall) : Scan :=
  (operationByState c e maxTurns (s.enterCall e)).getD s

end Scan

/-! ## the channels are in the channel set -/

variable {c : ScanConf} {e : ScanCall} {s s' : Scan}

theorem mem_scanChIn {x : ScanChannel} {xs : List ScanChannel} (h : x ∈ scanChIn c xs) : x.hwValue ≠ 0 := by
  induction xs with
  | nil => cases h
  | cons y ys ih =>
    unfold scanChIn at h
    split at h
    · exact ih h
    rename_i hy
    split at h
    · exact ih h
    split at h
    · exact ih h
    cases h with
    | head => exact fun h0 => hy (Or.inl h0)
    | tail _ ht => exact ih ht

theorem mem_scanChDefault {x : ScanChannel} (h : x ∈ scanChDefault c) : x.hwValue ≠ 0 := by
  obtain ⟨y, -, rfl⟩ := List.mem_map.mp h
  exact Nat.pos_iff_ne_zero.mp y.pos

theorem mem_scanChFound {x : ScanChannel} (h : x ∈ scanChFound c) : x.hwValue ≠ 0 := by
  unfold scanChFound at h
  dsimp only at h
  split at h
  · exact mem_scanChDefault (List.mem_of_mem_take h)
  · exact mem_scanChIn (List.mem_of_mem_take h)

/-- every channel of a scan has a number -/
theorem mem_rtwScanChDecision {x : ScanChannel} (h : x ∈ rtwScanChDecision c) : x.hwValue ≠ 0 := by
  unfold rtwScanChDecision at h
  dsimp only at h
  split at h
  · unfold rtwScanSparse at h
    split at h
    · exact mem_scanChFound h
    · obtain ⟨y, hy, rfl⟩ := List.mem_map.mp h
      have hne := (List.mem_filter.mp hy).2
      rw [Bool.and_eq_true] at hne
      exact of_decide_eq_true hne.1
  · exact mem_scanChFound h

/-! ## the channel that should come next -/

/-- the channels of the scan -/
def ScanConf.chs (c : ScanConf) : List ScanChannel := rtwScanChDecision c

def ScanConf.ssidNum (c : ScanConf) : Nat := (c.parmSsid.filter fun n => n ≠ 0).length

/-- a passive channel on which hidden networks have been counted, and names are asked for -/
def wantsForce (c : ScanConf) (hidden : Nat → Nat) (i : Nat) : Bool :=
  c.ssidNum != 0 && c.chs[i]?.any ScanChannel.passiveScan
    && c.chs[i]?.any fun x => hiddenOn c hidden x.hwValue

def visitOf (c : ScanConf) (i : Nat) (force : Bool) : Option Visit :=
  c.chs[i]?.map fun x => ⟨i, x.hwValue, force⟩

/-- what follows a visit: a directed scan of the same channel, or the next one of the list -/
def nextVisit (c : ScanConf) (hidden : Nat → Nat) : Option Visit → Option Visit
  | none => visitOf c 0 false
  | some v =>
    if v.force = false ∧ wantsForce c hidden v.idx = true then visitOf c v.idx true
    else visitOf c (v.idx + 1) false

/-- the visit before the channel at `idx` -/
def lastVisit (c : ScanConf) (idx : Nat) (force : Bool) : Option Visit :=
  if idx = 0 then none else visitOf c (idx - 1) force

/-- enough channels have had their turn -/
def backopDue (c : ScanConf) (e : ScanCall) (ss : SsRes) : Bool :=
  e.backopFlags != 0 && decide (c.scanCntMax ≤ ss.scanCnt)

variable {hidden : Nat → Nat} {ss : SsRes} {idx : Nat} {force : Bool} {v : Visit}

/-- the channel list and the number of names are those of the command -/
structure SsRes.Ok (c : ScanConf) (ss : SsRes) : Prop where
  ch : ss.ch = c.chs
  ssidNum : ss.ssidNum = c.ssidNum

theorem visitOf_eq_some (h : visitOf c idx force = some v) :
    v.idx = idx ∧ v.force = force ∧ idx < c.chs.length ∧ (c.chs[idx]?).map ScanChannel.hwValue = some v.hwValue := by
  obtain ⟨x, hx, rfl⟩ := Option.map_eq_some_iff.mp h
  exact ⟨rfl, rfl, (List.getElem?_eq_some_iff.mp hx).1, congrArg (Option.map ScanChannel.hwValue) hx⟩

theorem visitOf_isSome (h : idx < c.chs.length) (force : Bool) : ∃ v, visitOf c idx force = some v :=
  ⟨_, congrArg (Option.map _) (List.getElem?_eq_getElem h)⟩

theorem visitOf_eq_none (h : c.chs.length ≤ idx) : visitOf c idx force = none := by
  unfold visitOf
  rw [List.getElem?_eq_none h]
  rfl

/-- what follows the visit before `idx` -/
theorem nextVisit_lastVisit (hle : idx ≤ c.chs.length) : nextVisit c hidden (lastVisit c idx force) =
    if idx ≠ 0 ∧ force = false ∧ wantsForce c hidden (idx - 1) = true then visitOf c (idx - 1) true
    else visitOf c idx false := by
  unfold lastVisit
  by_cases h0 : idx = 0
  · subst h0
    rfl
  · have hlt : idx - 1 < c.chs.length := by omega
    obtain ⟨v, hv⟩ := visitOf_isSome hlt force
    obtain ⟨hi, hf, -, -⟩ := visitOf_eq_some hv
    have hidx : idx - 1 + 1 = idx := by omega
    rw [if_neg h0, hv]
    unfold nextVisit
    dsimp only
    rw [hi, hf, hidx]
    simp only [ne_eq, h0, not_false_eq_true, true_and]

/-- a directed scan of the channel before `idx`, or the channel at `idx` -/
theorem nextVisit_some (hle : idx ≤ c.chs.length)
    (h : nextVisit c hidden (lastVisit c idx force) = some v) :
    visitOf c v.idx v.force = some v ∧ v.idx < c.chs.length
      ∧ (v.force = true ∧ idx ≠ 0 ∧ force = false ∧ v.idx = idx - 1 ∧ wantsForce c hidden (idx - 1) = true
        ∨ v.force = false ∧ v.idx = idx) := by
  rw [nextVisit_lastVisit hle] at h
  split at h
  · rename_i hre
    obtain ⟨hi, hf, hlt, -⟩ := visitOf_eq_some h
    rw [← hi, ← hf] at h
    exact ⟨h, by omega, Or.inl ⟨hf, hre.1, hre.2.1, hi, hre.2.2⟩⟩
  · obtain ⟨hi, hf, hlt, -⟩ := visitOf_eq_some h
    rw [← hi, ← hf] at h
    exact ⟨h, by omega, Or.inr ⟨hf, hi⟩⟩

/-- behind the last channel only a directed scan can follow -/
theorem nextVisit_end (hne : c.chs ≠ []) (hidden : Nat → Nat) (force : Bool) :
    nextVisit c hidden (lastVisit c c.chs.length force) ≠ none
      ↔ force = false ∧ wantsForce c hidden (c.chs.length - 1) = true := by
  have hpos : 0 < c.chs.length := List.length_pos_of_ne_nil hne
  rw [nextVisit_lastVisit (Nat.le_refl _)]
  split
  · rename_i hre
    obtain ⟨v, hv⟩ := visitOf_isSome (Nat.sub_one_lt_of_lt hpos) true
    rw [hv]
    exact ⟨fun _ => hre.2, fun _ h => nomatch h⟩
  · rename_i hre
    rw [visitOf_eq_none (Nat.le_refl _)]
    exact ⟨fun h => absurd rfl h, fun h => absurd ⟨Nat.pos_iff_ne_zero.mp hpos, h⟩ hre⟩

/-! ## the choice of a channel -/

/-- `channel_idx` as `scan_abort_hdl` leaves it -/
def pickIdx (e : ScanCall) (ss : SsRes) : Nat := if e.scanAbort then ss.chNum else ss.channelIdx

/-- the channels before back-op are counted -/
def countScan (e : ScanCall) (ss : SsRes) : SsRes :=
  if e.backopFlags ≠ 0 then { ss with scanCnt := ss.scanCnt + 1 } else ss

theorem chs_hwValue_ne_zero {x : ScanChannel} (h : c.chs[idx]? = some x) : x.hwValue ≠ 0 :=
  mem_rtwScanChDecision (List.mem_of_getElem? h)

theorem scanAbortHdl_eq (e : ScanCall) (ss : SsRes) :
    scanAbortHdl e ss = { ss with channelIdx := pickIdx e ss } := by
  unfold scanAbortHdl pickIdx
  split <;> rfl

theorem backopDue_iff : backopDue c e ss = true ↔ e.backopFlags ≠ 0 ∧ c.scanCntMax ≤ ss.scanCnt := by
  unfold backopDue
  rw [Bool.and_eq_true, bne_iff_ne, decide_eq_true_eq]

/-- back-op is due: it is taken, if there is a channel left -/
theorem pick_backop (hidden : Nat → Nat) (hok : ss.Ok c) (hdue : backopDue c e ss = true) :
    sitesurveyPickChBehavior c e hidden ss =
      match c.chs[pickIdx e ss]? with
      | some x => ({ ss with channelIdx := pickIdx e ss, backopFlags := e.backopFlags, scanCnt := 0 },
          .backingOp, x.hwValue)
      | none => ({ ss with channelIdx := pickIdx e ss, scanCnt := 0 }, .complete, 0) := by
  rw [backopDue_iff] at hdue
  unfold sitesurveyPickChBehavior pickRescan pickState
  rw [scanAbortHdl_eq, if_pos hdue]
  dsimp only
  rw [hok.ch]
  cases hx : c.chs[pickIdx e ss]? with
  | none => rfl
  | some x =>
    dsimp only
    rw [if_pos (chs_hwValue_ne_zero hx), if_pos hdue.1, if_neg (Nat.not_lt.mpr hdue.2)]

/-- a channel is taken, if there is one -/
theorem pickState_eq (hok : ss.Ok c) (hdue : backopDue c e ss = false) :
    pickState c e ss =
      match c.chs[ss.channelIdx]? with
      | some x => (countScan e ss, .process, x.hwValue)
      | none => ({ ss with scanCnt := 0 }, .complete, 0) := by
  unfold pickState countScan
  rw [hok.ch]
  cases hx : c.chs[ss.channelIdx]? with
  | none => rfl
  | some x =>
    dsimp only
    rw [if_pos (chs_hwValue_ne_zero hx)]
    by_cases hb : e.backopFlags ≠ 0
    · have hlt : ss.scanCnt < c.scanCntMax := by
        by_contra hge
        rw [backopDue_iff.mpr ⟨hb, Nat.not_lt.mp hge⟩] at hdue
        cases hdue
      rw [if_pos hb, if_pos hb, if_pos hlt]
    · rw [if_neg hb, if_neg hb]

theorem pickRescan_eq (hok : ss.Ok c) (hdue : backopDue c e ss = false) :
    pickRescan c e hidden ss =
      if ss.channelIdx ≠ 0 ∧ ss.forceSsidScan = false ∧ wantsForce c hidden (ss.channelIdx - 1) = true then
        { ss with channelIdx := ss.channelIdx - 1, forceSsidScan := true }
      else { ss with forceSsidScan := false } := by
  have hnot : ¬(e.backopFlags ≠ 0 ∧ c.scanCntMax ≤ ss.scanCnt) := by
    rw [← backopDue_iff, hdue]
    decide
  unfold pickRescan wantsForce
  dsimp only
  rw [if_neg hnot, ← hok.ch, ← hok.ssidNum]
  simp only [Bool.and_eq_true, bne_iff_ne]
  by_cases hp : ss.channelIdx ≠ 0 ∧ ss.forceSsidScan = false ∧ ss.ssidNum ≠ 0
      ∧ (ss.ch[ss.channelIdx - 1]?).any ScanChannel.passiveScan = true
  · obtain ⟨h0, hf, hn, hpas⟩ := hp
    rw [if_pos ⟨h0, hf, hn, hpas⟩]
    by_cases hh : (ss.ch[ss.channelIdx - 1]?).any (fun x => hiddenOn c hidden x.hwValue) = true
    · rw [if_pos hh, if_pos ⟨h0, hf, ⟨hn, hpas⟩, hh⟩]
    · rw [if_neg hh, if_neg fun h => hh h.2.2.2, ← hf]
  · rw [if_neg hp, if_neg fun h => hp ⟨h.1, h.2.1, h.2.2.1.1, h.2.2.1.2⟩]

/-- otherwise the channel that comes next is taken, or the scan ends -/
theorem pick_next (hidden : Nat → Nat) (hok : ss.Ok c) (hdue : backopDue c e ss = false)
    (hle : pickIdx e ss ≤ c.chs.length) :
    match nextVisit c hidden (lastVisit c (pickIdx e ss) ss.forceSsidScan) with
    | some v => sitesurveyPickChBehavior c e hidden ss =
        (countScan e { ss with channelIdx := v.idx, forceSsidScan := v.force }, .process, v.hwValue)
    | none => ∃ ss', sitesurveyPickChBehavior c e hidden ss = (ss', .complete, 0) := by
  have hok' : ({ ss with channelIdx := pickIdx e ss } : SsRes).Ok c := ⟨hok.ch, hok.ssidNum⟩
  have hdue' : backopDue c e { ss with channelIdx := pickIdx e ss } = false := hdue
  rw [nextVisit_lastVisit hle]
  unfold sitesurveyPickChBehavior
  rw [scanAbortHdl_eq, pickRescan_eq hok' hdue']
  by_cases hre : pickIdx e ss ≠ 0 ∧ ss.forceSsidScan = false ∧ wantsForce c hidden (pickIdx e ss - 1) = true
  · have hok₁ : ({ ss with channelIdx := pickIdx e ss - 1, forceSsidScan := true } : SsRes).Ok c :=
      ⟨hok.ch, hok.ssidNum⟩
    rw [if_pos hre, if_pos hre, pickState_eq hok₁ hdue]
    unfold visitOf
    dsimp only
    cases c.chs[pickIdx e ss - 1]? with
    | none => exact ⟨_, rfl⟩
    | some x => rfl
  · have hok₁ : ({ ss with channelIdx := pickIdx e ss, forceSsidScan := false } : SsRes).Ok c :=
      ⟨hok.ch, hok.ssidNum⟩
    rw [if_neg hre, if_neg hre, pickState_eq hok₁ hdue]
    unfold visitOf
    dsimp only
    cases c.chs[pickIdx e ss]? with
    | none => exact ⟨_, rfl⟩
    | some x => rfl

/-! ## a call -/

namespace Scan

theorem operationByState_again {n : Nat} (h : operate c e s = (s', true)) :
    operationByState c e (n + 1) s = operationByState c e n s' := by
  show (match operate c e s with
    | (s', true) => operationByState c e n s'
    | (s', false) => some s') = _
  rw [h]

theorem operationByState_stop {n : Nat} (h : operate c e s = (s', false)) :
    operationByState c e (n + 1) s = some s' := by
  show (match operate c e s with
    | (s', true) => operationByState c e n s'
    | (s', false) => some s') = _
  rw [h]

/-- the channels before `channel_idx` have had their turn -/
structure Ready (c : ScanConf) (s : Scan) : Prop where
  ok : s.ss.Ok c
  le : s.ss.channelIdx ≤ c.chs.length
  last : s.visits.getLast? = lastVisit c s.ss.channelIdx s.ss.forceSsidScan
  count : s.visits.length + (if s.ss.forceSsidScan then 0 else min 1 s.ss.channelIdx) ≤ 2 * s.ss.channelIdx
  notDone : s.surveyDone = 0

/-- a channel is being surveyed -/
structure Surveys (c : ScanConf) (s : Scan) : Prop where
  state : s.ss.state = .process
  next : s.ss.nextState = .process
  ok : s.ss.Ok c
  lt : s.ss.channelIdx < c.chs.length
  last : s.visits.getLast? = visitOf c s.ss.channelIdx s.ss.forceSsidScan
  count : s.visits.length ≤ 2 * s.ss.channelIdx + (if s.ss.forceSsidScan then 2 else 1)
  notDone : s.surveyDone = 0
  armed : s.timer.isSome = true

/-- the operating channel has its turn -/
structure Away (c : ScanConf) (s : Scan) : Prop where
  ready : s.Ready c
  state : s.ss.state = .backOp ∧ s.ss.nextState = .backOp
    ∨ s.ss.state = .psAnncWait ∧ s.ss.nextState = .leaveOp
  lt : s.ss.channelIdx < c.chs.length
  pos : 0 < s.ss.channelIdx
  scanCnt : s.ss.scanCnt = 0
  armed : s.timer = some 50

structure Done (c : ScanConf) (s : Scan) : Prop where
  state : s.ss.state = .disable
  timer : s.timer = none
  done : s.surveyDone = 1
  count : s.visits.length ≤ 2 * c.chs.length

theorem Ready.pickIdx_le (h : s.Ready c) : pickIdx e s.ss ≤ c.chs.length := by
  unfold pickIdx SsRes.chNum
  rw [h.ok.ch]
  split
  · exact Nat.le_refl _
  · exact h.le

theorem Ready.length_le (h : s.Ready c) : s.visits.length ≤ 2 * c.chs.length := by
  have hle := h.le
  have hc := h.count
  omega

/-- the state after the visit `v` -/
def surveyed (c : ScanConf) (e : ScanCall) (s : Scan) (v : Visit) : Scan :=
  { s with
    ss := countScan e { s.ss with channelIdx := v.idx, forceSsidScan := v.force }
    visits := s.visits ++ [v]
    timer := some c.scanChMs }

theorem operate_process (hst : s.ss.state = .process) : operate c e s =
    (let (ss, nextState, scanCh) := sitesurveyPickChBehavior c e s.hidden s.ss
    if nextState ≠ .process then ({ s with ss := ss.setState nextState }, true)
    else
      let visit : Visit := ⟨ss.channelIdx, scanCh, ss.forceSsidScan⟩
      ({ s with ss, visits := s.visits ++ [visit] }.setSurveyTimer c.scanChMs, false)) := by
  unfold operate
  rw [hst]

/-- the handler takes the next channel, or ends the scan -/
theorem process_next {n : Nat} (hr : s.Ready c) (hst : s.ss.state = .process) (htimer : s.timer = none)
    (hdue : backopDue c e s.ss = false) :
    match nextVisit c s.hidden (lastVisit c (pickIdx e s.ss) s.ss.forceSsidScan) with
    | some v => operationByState c e (n + 2) s = some (surveyed c e s v)
    | none => ∃ s', operationByState c e (n + 2) s = some s' ∧ s'.Done c ∧ s'.visits = s.visits
        ∧ s'.hidden = s.hidden := by
  have hp := pick_next s.hidden hr.ok hdue hr.pickIdx_le
  have hop := operate_process (c := c) (e := e) hst
  split at hp
  · rename_i v hv
    apply operationByState_stop
    rw [hop, hp]
    dsimp only
    rw [if_neg (fun h => h rfl)]
    unfold surveyed countScan
    split <;> rfl
  · obtain ⟨ss', hp⟩ := hp
    rw [hp] at hop
    refine ⟨_, (operationByState_again hop).trans (operationByState_stop rfl),
      ⟨rfl, htimer, ?_, hr.length_le⟩, rfl, rfl⟩
    show s.surveyDone + 1 = 1
    rw [hr.notDone]

/-- the state in which the operating channel is left again -/
def leaves (s : Scan) : Scan := { s with ss := s.ss.setState .process }

/-- the operating channel keeps its turn -/
def keepsTurn (c : ScanConf) (e : ScanCall) (s : Scan) : Bool :=
  decide (s.now - s.ss.backopTime < c.backopMs) && !e.scanAbort

/-- leaving it is announced first -/
def announces (e : ScanCall) (s : Scan) : Bool := ssBackopPsAnnc s.ss.backopFlags && e.psAnnc

/-- what the handler does on the operating channel -/
theorem backOp_next {n : Nat} (hst : s.ss.state = .backOp) :
    operationByState c e (n + 3) s =
      if keepsTurn c e s then some (s.setSurveyTimer 50)
      else if announces e s then
        some ({ s with ss := { s.ss.setState .psAnncWait with nextState := .leaveOp } }.setSurveyTimer 50)
      else operationByState c e n s.leaves := by
  have hkeep : keepsTurn c e s = true ↔ ¬(c.backopMs ≤ s.now - s.ss.backopTime ∨ e.scanAbort = true) := by
    unfold keepsTurn
    rw [Bool.and_eq_true, decide_eq_true_eq, Bool.not_eq_true', not_or, Nat.not_le, Bool.not_eq_true]
  have hop : operate c e s = if c.backopMs ≤ s.now - s.ss.backopTime ∨ e.scanAbort = true then
      ({ s with ss := s.ss.setState .leavingOp }, true) else (s.setSurveyTimer 50, false) := by
    unfold operate
    rw [hst]
  by_cases hk : keepsTurn c e s = true
  · rw [if_pos hk]
    rw [if_neg (hkeep.mp hk)] at hop
    exact operationByState_stop hop
  · rw [if_neg hk]
    rw [if_pos (by_contra fun h => hk (hkeep.mpr h))] at hop
    rw [operationByState_again hop]
    by_cases ha : announces e s = true
    · rw [if_pos ha]
      exact operationByState_stop (if_pos ha)
    · rw [if_neg ha]
      have hop₂ : operate c e { s with ss := s.ss.setState .leavingOp } =
          ({ s with ss := s.ss.setState .leaveOp }, true) := if_neg ha
      rw [operationByState_again hop₂]
      exact operationByState_again rfl

/-- what a call should do: with an abort request no channel is surveyed; otherwise the one that
comes next, and the scan ends behind the last; a scan that goes on has its timer -/
structure CallOk (c : ScanConf) (e : ScanCall) (vs : List Visit) (s' : Scan) : Prop where
  abort : e.scanAbort = true → s'.visits = vs
  order : e.scanAbort = false →
    s'.visits = vs ∧ s'.ss.state ≠ .disable
      ∨ (∃ v, nextVisit c s'.hidden vs.getLast? = some v ∧ s'.visits = vs ++ [v] ∧ s'.ss.state ≠ .disable)
      ∨ s'.visits = vs ∧ s'.ss.state = .disable ∧ nextVisit c s'.hidden vs.getLast? = none
  armed : s'.ss.state ≠ .disable → s'.timer.isSome = true

/-- the visits that can still come -/
def toCome (c : ScanConf) (s : Scan) : Nat :=
  2 * (c.chs.length - s.ss.channelIdx) + (if s.ss.forceSsidScan then 0 else 1)

theorem Ready.surveys (hr : s.Ready c) (hst : s.ss.state = .process) (hnx : s.ss.nextState = .process)
    (hv : nextVisit c s.hidden (lastVisit c (pickIdx e s.ss) s.ss.forceSsidScan) = some v) :
    (surveyed c e s v).Surveys c
      ∧ 2 * (c.chs.length - v.idx) - (if v.force then 1 else 0) ≤ s.toCome c := by
  obtain ⟨hvis, hlt, hcase⟩ := nextVisit_some hr.pickIdx_le hv
  have hcount : ∀ ss : SsRes, (countScan e ss).channelIdx = ss.channelIdx
      ∧ (countScan e ss).forceSsidScan = ss.forceSsidScan ∧ (countScan e ss).state = ss.state
      ∧ (countScan e ss).nextState = ss.nextState ∧ (countScan e ss).ch = ss.ch
      ∧ (countScan e ss).ssidNum = ss.ssidNum := by
    intro ss
    unfold countScan
    split <;> exact ⟨rfl, rfl, rfl, rfl, rfl, rfl⟩
  obtain ⟨h1, h2, h3, h4, h5, h6⟩ := hcount { s.ss with channelIdx := v.idx, forceSsidScan := v.force }
  have hidx : pickIdx e s.ss = c.chs.length ∨ pickIdx e s.ss = s.ss.channelIdx := by
    unfold pickIdx SsRes.chNum
    rw [hr.ok.ch]
    split
    · exact Or.inl rfl
    · exact Or.inr rfl
  have hle := hr.le
  have hc := hr.count
  refine ⟨⟨h3.trans hst, h4.trans hnx, ⟨h5.trans hr.ok.ch, h6.trans hr.ok.ssidNum⟩, ?_, ?_, ?_,
    hr.notDone, rfl⟩, ?_⟩
  · show (countScan e _).channelIdx < _
    rw [h1]
    exact hlt
  · show (s.visits ++ [v]).getLast? = visitOf c (countScan e _).channelIdx (countScan e _).forceSsidScan
    rw [h1, h2, hvis, List.getLast?_concat]
  · show (s.visits ++ [v]).length ≤ 2 * (countScan e _).channelIdx
      + (if (countScan e _).forceSsidScan then 2 else 1)
    rw [h1, h2, List.length_append, List.length_singleton]
    dsimp only
    rcases hcase with ⟨hf, h0, hf₀, hi, -⟩ | ⟨hf, hi⟩
    · rw [hf₀] at hc
      rw [hf]
      simp only [Bool.false_eq_true, ↓reduceIte] at hc ⊢
      omega
    · rw [hf]
      simp only [Bool.false_eq_true, ↓reduceIte]
      omega
  · unfold toCome
    rcases hcase with ⟨hf, h0, hf₀, hi, -⟩ | ⟨hf, hi⟩
    · rw [hf, hf₀]
      simp only [Bool.false_eq_true, ↓reduceIte]
      omega
    · rw [hf]
      simp only [Bool.false_eq_true, ↓reduceIte]
      omega

/-- after an abort request the handler would go back to the last channel -/
def AbortRescan (c : ScanConf) (e : ScanCall) (s : Scan) : Prop :=
  e.scanAbort = true ∧ s.ss.forceSsidScan = false ∧ wantsForce c s.hidden (c.chs.length - 1) = true

theorem pickIdx_of_abort (hok : s.ss.Ok c) (ha : e.scanAbort = true) : pickIdx e s.ss = c.chs.length := by
  unfold pickIdx SsRes.chNum
  rw [if_pos ha, hok.ch]

theorem pickIdx_of_not_abort (ha : e.scanAbort = false) : pickIdx e s.ss = s.ss.channelIdx :=
  if_neg (ha ▸ Bool.false_ne_true)

/-- what comes of `SCAN_PROCESS` when back-op is not due -/
structure NextSpec (c : ScanConf) (e : ScanCall) (s s' : Scan) : Prop where
  rests : s'.Surveys c ∧ 2 * (c.chs.length - s'.ss.channelIdx) - (if s'.ss.forceSsidScan then 1 else 0)
    ≤ s.toCome c ∨ s'.Done c
  callOk : CallOk c e s.visits s' ↔ ¬AbortRescan c e s

theorem process_spec {n : Nat} (hne : c.chs ≠ []) (hr : s.Ready c) (hst : s.ss.state = .process)
    (hnx : s.ss.nextState = .process) (htimer : s.timer = none) (hdue : backopDue c e s.ss = false) :
    ∃ s', operationByState c e (n + 2) s = some s' ∧ NextSpec c e s s' := by
  have hnext := process_next (n := n) hr hst htimer hdue
  cases hv : nextVisit c s.hidden (lastVisit c (pickIdx e s.ss) s.ss.forceSsidScan) with
  | some v =>
    rw [hv] at hnext
    obtain ⟨hs, hcome⟩ := hr.surveys hst hnx hv
    have hi : (surveyed c e s v).ss.channelIdx = v.idx := by
      unfold surveyed countScan
      dsimp only
      split <;> rfl
    have hf : (surveyed c e s v).ss.forceSsidScan = v.force := by
      unfold surveyed countScan
      dsimp only
      split <;> rfl
    refine ⟨_, hnext, Or.inl ⟨hs, by rw [hi, hf]; exact hcome⟩, ?_⟩
    cases ha : e.scanAbort with
    | true =>
      rw [pickIdx_of_abort hr.ok ha] at hv
      have hend := (nextVisit_end hne _ _).mp (hv ▸ Option.some_ne_none v)
      constructor
      · intro hok
        exact absurd (hok.abort ha) (by
          show s.visits ++ [v] ≠ s.visits
          simp)
      · intro hn
        exact absurd ⟨ha, hend⟩ hn
    | false =>
      rw [pickIdx_of_not_abort ha, ← hr.last] at hv
      refine ⟨fun _ h => Bool.false_ne_true (ha.symm.trans h.1), fun _ => ⟨fun h => ?_, fun _ => ?_, fun _ => rfl⟩⟩
      · exact absurd (ha.symm.trans h) Bool.false_ne_true
      · refine Or.inr (Or.inl ⟨v, hv, rfl, ?_⟩)
        rw [hs.state]
        decide
  | none =>
    rw [hv] at hnext
    obtain ⟨s', hs', hdone, hvis, hhid⟩ := hnext
    refine ⟨s', hs', Or.inr hdone, ?_⟩
    have hok : CallOk c e s.visits s' := by
      refine ⟨fun _ => hvis, fun ha => Or.inr (Or.inr ⟨hvis, hdone.state, ?_⟩), fun h => absurd hdone.state h⟩
      rw [pickIdx_of_not_abort ha, ← hr.last] at hv
      rw [hhid]
      exact hv
    refine ⟨fun _ h => ?_, fun _ => hok⟩
    rw [pickIdx_of_abort hr.ok h.1] at hv
    exact (nextVisit_end hne _ _).mpr h.2 hv

/-- bounds the calls until the operating channel is left -/
def toWait (c : ScanConf) (s : Scan) : Nat :=
  if s.ss.state = .backOp then 2 + (s.ss.backopTime + c.backopMs - s.now) else 1

/-- the call ends on the operating channel -/
structure WaitSpec (c : ScanConf) (s s' : Scan) : Prop where
  away : s'.Away c
  visits : s'.visits = s.visits
  toCome : s'.toCome c = s.toCome c
  toWait : s'.toWait c ≤ 2 + (s.ss.backopTime + c.backopMs - s.now)

theorem WaitSpec.callOk (h : WaitSpec c s s') : CallOk c e s.visits s' := by
  have hst : s'.ss.state ≠ .disable := by
    rcases h.away.state with ⟨h, -⟩ | ⟨h, -⟩ <;> rw [h] <;> decide
  refine ⟨fun _ => h.visits, fun _ => Or.inl ⟨h.visits, hst⟩, fun _ => ?_⟩
  rw [h.away.armed]
  rfl

/-- a call that finds the operating channel in its turn -/
theorem backOp_spec {n : Nat} (hne : c.chs ≠ []) (hmax : 0 < c.scanCntMax) (hr : s.Ready c)
    (hst : s.ss.state = .backOp) (hnx : s.ss.nextState = .backOp) (hpos : 0 < s.ss.channelIdx)
    (hlt : s.ss.channelIdx < c.chs.length) (hcnt : s.ss.scanCnt = 0) (htimer : s.timer = none) :
    ∃ s', operationByState c e (n + 5) s = some s' ∧
      if keepsTurn c e s || announces e s then
        WaitSpec c s s' ∧ (keepsTurn c e s = false → s'.toWait c = 1)
      else NextSpec c e s s' := by
  rw [backOp_next hst]
  cases hk : keepsTurn c e s with
  | true =>
    refine ⟨_, rfl, ⟨⟨⟨hr.ok, hr.le, hr.last, hr.count, hr.notDone⟩, Or.inl ⟨hst, hnx⟩, hlt, hpos, hcnt, rfl⟩,
      rfl, rfl, ?_⟩, fun h => absurd h.symm Bool.false_ne_true⟩
    show (if s.ss.state = .backOp then _ else 1) ≤ _
    rw [if_pos hst]
    exact Nat.le_refl _
  | false =>
    cases ha : announces e s with
    | true =>
      exact ⟨_, rfl, ⟨⟨⟨⟨hr.ok.ch, hr.ok.ssidNum⟩, hr.le, hr.last, hr.count, hr.notDone⟩, Or.inr ⟨rfl, rfl⟩,
        hlt, hpos, hcnt, rfl⟩, rfl, rfl, Nat.le_trans (Nat.le_succ 1) (Nat.le_add_right _ _)⟩, fun _ => rfl⟩
    | false =>
      have hr' : s.leaves.Ready c := ⟨⟨hr.ok.ch, hr.ok.ssidNum⟩, hr.le, hr.last, hr.count, hr.notDone⟩
      have hdue : backopDue c e s.leaves.ss = false := by
        have hcnt' : s.leaves.ss.scanCnt = 0 := hcnt
        rw [← Bool.not_eq_true, backopDue_iff, hcnt']
        intro h
        omega
      obtain ⟨s', hs', hspec⟩ := process_spec (n := n) (e := e) hne hr' rfl rfl htimer hdue
      exact ⟨s', hs', hspec.rests, hspec.callOk⟩

/-- what comes of `SCAN_PROCESS` when back-op is due: behind the last channel the scan ends, and
no directed scan of it follows -/
theorem process_due {n : Nat} (hne : c.chs ≠ []) (hmax : 0 < c.scanCntMax) (hr : s.Ready c)
    (hst : s.ss.state = .process) (hpos : 0 < s.ss.channelIdx) (htimer : s.timer = none)
    (hdue : backopDue c e s.ss = true) :
    ∃ s', operationByState c e (n + 7) s = some s' ∧
      if e.scanAbort = true ∨ s.ss.channelIdx = c.chs.length then
        s'.Done c ∧ s'.visits = s.visits ∧ s'.hidden = s.hidden
      else (s'.Away c ∧ s'.visits = s.visits ∧ s'.toCome c = s.toCome c ∧ s'.toWait c ≤ 2 + c.backopMs)
        ∨ NextSpec c e s s' := by
  have hp := pick_backop s.hidden hr.ok hdue
  have hop := operate_process (c := c) (e := e) hst
  by_cases hend : e.scanAbort = true ∨ s.ss.channelIdx = c.chs.length
  · have hidx : pickIdx e s.ss = c.chs.length := by
      cases ha : e.scanAbort with
      | true => exact pickIdx_of_abort hr.ok ha
      | false => rw [pickIdx_of_not_abort ha, hend.resolve_left (ha ▸ Bool.false_ne_true)]
    rw [hidx, List.getElem?_eq_none (Nat.le_refl _)] at hp
    rw [hp] at hop
    refine ⟨_, (operationByState_again hop).trans (operationByState_stop rfl), ?_⟩
    rw [if_pos hend]
    refine ⟨⟨rfl, htimer, ?_, hr.length_le⟩, rfl, rfl⟩
    show s.surveyDone + 1 = 1
    rw [hr.notDone]
  · obtain ⟨ha, hidx⟩ := not_or.mp hend
    rw [Bool.not_eq_true] at ha
    have hlt : s.ss.channelIdx < c.chs.length := Nat.lt_of_le_of_ne hr.le hidx
    rw [pickIdx_of_not_abort ha, List.getElem?_eq_getElem hlt] at hp
    rw [hp] at hop
    -- the state on the operating channel
    let t : Scan := { s with ss := { ({ s.ss with backopFlags := e.backopFlags, scanCnt := 0 } : SsRes).setState
      .backOp with backopTime := s.now } }
    have hr' : t.Ready c := ⟨⟨hr.ok.ch, hr.ok.ssidNum⟩, hr.le, hr.last, hr.count, hr.notDone⟩
    obtain ⟨s', hs', hspec⟩ := backOp_spec (n := n) (e := e) (s := t) hne hmax hr' rfl rfl hpos hlt rfl htimer
    refine ⟨s', ((operationByState_again hop).trans (operationByState_again rfl)).trans hs', ?_⟩
    rw [if_neg hend]
    split at hspec
    · obtain ⟨hw, -⟩ := hspec
      refine Or.inl ⟨hw.away, hw.visits, hw.toCome, Nat.le_trans hw.toWait ?_⟩
      show 2 + (s.now + c.backopMs - s.now) ≤ _
      omega
    · exact Or.inr ⟨hspec.rests, hspec.callOk⟩

/-! ## between the calls -/

/-- the command has been enqueued -/
structure Fresh (s : Scan) : Prop where
  state : s.ss.state = .disable
  next : s.ss.nextState = .disable
  visits : s.visits = []
  notDone : s.surveyDone = 0
  armed : s.timer.isSome = true

/-- leaving the operating channel for the first time has been announced -/
structure Enters (c : ScanConf) (s : Scan) : Prop where
  ready : s.Ready c
  state : s.ss.state = .psAnncWait
  next : s.ss.nextState = .enter
  idx : s.ss.channelIdx = 0
  force : s.ss.forceSsidScan = false
  scanCnt : s.ss.scanCnt = 0
  armed : s.timer = some 50

inductive Rests (c : ScanConf) (s : Scan) : Prop where
  | fresh (h : s.Fresh)
  | enters (h : s.Enters c)
  | surveys (h : s.Surveys c)
  | away (h : s.Away c)
  | done (h : s.Done c)

/-- the call gets to `sitesurvey_pick_ch_behavior`; that of a new scan finds no hidden network -/
def getsToPick (c : ScanConf) (s : Scan) (e : ScanCall) : Bool :=
  match s.ss.state with
  | .process | .psAnncWait => true
  | .backOp => !keepsTurn c e (s.enterCall e) && !announces e (s.enterCall e)
  | _ => false

/-- the last channel is passive and has hidden networks, and a call that finds an abort request goes
back to it, or a call that finds back-op due ends the scan without going back -/
structure Astray (c : ScanConf) (s : Scan) (e : ScanCall) : Prop where
  picks : getsToPick c s e = true
  plain : s.ss.forceSsidScan = false
  wants : wantsForce c (s.enterCall e).hidden (c.chs.length - 1) = true
  which : if e.scanAbort then backopDue c e s.ss = false
    else backopDue c e s.ss = true ∧ s.ss.channelIdx + 1 = c.chs.length

/-- bounds the calls that are left -/
def rank (c : ScanConf) (s : Scan) : Nat :=
  match s.ss.state with
  | .disable => if s.timer = none then 0 else (2 * c.chs.length + 1) * (c.backopMs + 3) + 2
  | .process => (2 * (c.chs.length - s.ss.channelIdx) - (if s.ss.forceSsidScan then 1 else 0)) * (c.backopMs + 3)
  | _ => s.toCome c * (c.backopMs + 3) + s.toWait c

/-- the timer has expired -/
def Legal (s : Scan) (e : ScanCall) : Prop := ∃ ms, s.timer = some ms ∧ s.now + ms ≤ e.now

/-- what a call does -/
structure CallSpec (c : ScanConf) (s : Scan) (e : ScanCall) (s' : Scan) : Prop where
  rests : s'.Rests c
  rank : s.Legal e → s'.rank c < s.rank c
  callOk : CallOk c e s.visits s' ↔ ¬Astray c s e

theorem cmdHdl_eq {n : Nat} {t : Scan} (hn : maxTurns = n) (ht : s.enterCall e = t)
    (h : operationByState c e n t = some s') : cmdHdl c s e = s' := by
  unfold cmdHdl
  rw [hn, ht, h]
  rfl

theorem rank_done (h : s.Done c) : s.rank c = 0 := by
  unfold rank
  rw [h.state, h.timer]
  rfl

theorem rank_surveys (h : s.Surveys c) : s.rank c =
    (2 * (c.chs.length - s.ss.channelIdx) - (if s.ss.forceSsidScan then 1 else 0)) * (c.backopMs + 3) := by
  unfold rank
  rw [h.state]

theorem rank_away (h : s.Away c) : s.rank c = s.toCome c * (c.backopMs + 3) + s.toWait c := by
  unfold rank
  rcases h.state with ⟨h, -⟩ | ⟨h, -⟩ <;> rw [h]

/-- after `SCAN_PROCESS` a visit less can come -/
theorem NextSpec.rank_lt (h : NextSpec c e s s') {r : Nat} (hr : s.toCome c * (c.backopMs + 3) < r) :
    s'.Rests c ∧ s'.rank c < r := by
  rcases h.rests with ⟨hs, hle⟩ | hd
  · refine ⟨.surveys hs, Nat.lt_of_le_of_lt ?_ hr⟩
    rw [rank_surveys hs]
    exact Nat.mul_le_mul_right _ hle
  · refine ⟨.done hd, ?_⟩
    rw [rank_done hd]
    exact Nat.zero_lt_of_lt hr

theorem wantsForce_zero (i : Nat) : wantsForce c (fun _ => 0) i = false := by
  have h0 : ∀ ch, hiddenOn c (fun _ => 0) ch = false := by
    intro ch
    unfold hiddenOn
    split <;> rfl
  unfold wantsForce
  simp only [h0]
  cases c.chs[i]? <;> simp

/-- hidden networks counted up to a call -/
theorem enterCall_hidden (s : Scan) (e : ScanCall) :
    (s.enterCall e).hidden = fun i => s.hidden i + e.counted i := by
  unfold enterCall
  dsimp only
  split <;> split <;> rfl

theorem not_backopDue (hmax : 0 < c.scanCntMax) {ss : SsRes} (h : ss.scanCnt = 0) :
    backopDue c e ss = false := by
  rw [← Bool.not_eq_true, backopDue_iff, h]
  omega

theorem fresh_spec (hne : c.chs ≠ []) (hmax : 0 < c.scanCntMax) (h : s.Fresh) :
    CallSpec c s e (cmdHdl c s e) := by
  have hrank : s.rank c = (2 * c.chs.length + 1) * (c.backopMs + 3) + 2 := by
    unfold rank
    obtain ⟨ms, hms⟩ := Option.isSome_iff_exists.mp h.armed
    rw [h.state, hms]
    rfl
  have hastray : ¬Astray c s e := by
    intro ha
    have hp := ha.picks
    unfold getsToPick at hp
    rw [h.state] at hp
    cases hp
  have henter : s.enterCall e =
      { s with timer := none, now := e.now, hidden := fun i => s.hidden i + e.counted i } := by
    unfold enterCall
    simp only [h.state, h.next, reduceCtorEq, ↓reduceIte, ne_eq, not_true_eq_false]
  -- the state at `SCAN_START`
  let t : Scan := { s with
    timer := none, now := e.now, hidden := fun _ => 0
    ss := (sitesurveyResReset c s.ss).setState .start }
  have hop : operate c e (s.enterCall e) = (t, true) := by
    rw [henter]
    unfold operate
    dsimp only
    rw [h.state]
  have hready : ∀ st, ({ t with ss := t.ss.setState st } : Scan).Ready c := by
    intro st
    refine ⟨⟨rfl, rfl⟩, Nat.zero_le _, ?_, ?_, h.notDone⟩
    · show s.visits.getLast? = none
      rw [h.visits]
      rfl
    · show s.visits.length + _ ≤ _
      rw [h.visits]
      exact Nat.le_refl _
  cases hps : e.psAnnc with
  | true =>
    have hop₂ : operate c e t =
        ({ t with ss := { t.ss.setState .psAnncWait with nextState := .enter } }.setSurveyTimer 50, false) :=
      if_pos hps
    have hcall := cmdHdl_eq (n := 12) rfl rfl
      ((operationByState_again hop).trans (operationByState_stop hop₂))
    have hr := hready .psAnncWait
    rw [hcall]
    refine ⟨.enters ⟨⟨⟨rfl, rfl⟩, hr.le, hr.last, hr.count, hr.notDone⟩, rfl, rfl, rfl, rfl, rfl, rfl⟩,
      fun _ => ?_, iff_of_true ?_ hastray⟩
    · rw [hrank]
      show (2 * (c.chs.length - 0) + 1) * (c.backopMs + 3) + 1 < _
      rw [Nat.sub_zero]
      omega
    · exact ⟨fun _ => rfl, fun _ => Or.inl ⟨rfl, fun h => nomatch h⟩, fun _ => rfl⟩
  | false =>
    have hop₂ : operate c e t = ({ t with ss := t.ss.setState .enter }, true) := if_neg (by rw [hps]; decide)
    obtain ⟨s', hs', hspec⟩ := process_spec (n := 7) (e := e) hne (hready .process) rfl rfl rfl
      (not_backopDue hmax rfl)
    have hcall := cmdHdl_eq (n := 12) rfl rfl
      ((operationByState_again hop).trans ((operationByState_again hop₂).trans
        ((operationByState_again rfl).trans hs')))
    rw [hcall]
    have hr : (2 * (c.chs.length - 0) + 1) * (c.backopMs + 3) < s.rank c := by
      rw [hrank, Nat.sub_zero]
      omega
    obtain ⟨hrests, hlt⟩ := hspec.rank_lt hr
    refine ⟨hrests, fun _ => hlt, iff_of_true (hspec.callOk.mpr ?_) hastray⟩
    intro ha
    have hw : wantsForce c (fun _ => 0) (c.chs.length - 1) = true := ha.2.2
    rw [wantsForce_zero] at hw
    cases hw

/-- a call that goes straight to `SCAN_PROCESS`, where back-op is not due -/
theorem CallSpec.of_next {t : Scan} (h : NextSpec c e t s') (hvis : t.visits = s.visits)
    (hforce : t.ss.forceSsidScan = s.ss.forceSsidScan) (hhid : t.hidden = (s.enterCall e).hidden)
    (hpicks : getsToPick c s e = true) (hdue : backopDue c e s.ss = false)
    (hrank : t.toCome c * (c.backopMs + 3) < s.rank c) : CallSpec c s e s' := by
  obtain ⟨hrests, hlt⟩ := h.rank_lt hrank
  refine ⟨hrests, fun _ => hlt, ?_⟩
  rw [← hvis]
  refine h.callOk.trans (not_congr ⟨?_, ?_⟩)
  · rintro ⟨ha, hf, hw⟩
    exact ⟨hpicks, hforce ▸ hf, hhid ▸ hw, by rw [if_pos ha]; exact hdue⟩
  · intro ha
    have hwhich := ha.which
    rw [hdue] at hwhich
    cases hab : e.scanAbort with
    | true => exact ⟨hab, hforce ▸ ha.plain, hhid ▸ ha.wants⟩
    | false =>
      rw [hab] at hwhich
      exact absurd hwhich.1 Bool.false_ne_true

/-- a call after an announcement goes on to `SCAN_PROCESS` -/
theorem annc_spec (hne : c.chs ≠ []) (hmax : 0 < c.scanCntMax) (hr : s.Ready c) (hst : s.ss.state = .psAnncWait)
    (hnx : s.ss.nextState = .enter ∨ s.ss.nextState = .leaveOp) (hcnt : s.ss.scanCnt = 0) :
    CallSpec c s e (cmdHdl c s e) := by
  let t : Scan := { s with
    timer := none, now := e.now, hidden := fun i => s.hidden i + e.counted i
    ss := s.ss.setState s.ss.nextState }
  have henter : s.enterCall e = t := by
    unfold enterCall
    rcases hnx with hnx | hnx <;>
      simp only [t, hst, hnx, reduceCtorEq, ↓reduceIte, ne_eq, not_false_eq_true]
  have hop : operate c e t = ({ t with ss := t.ss.setState .process }, true) := by
    have hstate : t.ss.state = s.ss.nextState := rfl
    unfold operate
    rw [hstate]
    rcases hnx with hnx | hnx <;> rw [hnx]
  have hready : ({ t with ss := t.ss.setState .process } : Scan).Ready c :=
    ⟨⟨hr.ok.ch, hr.ok.ssidNum⟩, hr.le, hr.last, hr.count, hr.notDone⟩
  obtain ⟨s', hs', hspec⟩ := process_spec (n := 9) (e := e) hne hready rfl rfl rfl (not_backopDue hmax hcnt)
  rw [cmdHdl_eq (n := 12) rfl henter ((operationByState_again hop).trans hs')]
  refine CallSpec.of_next hspec rfl rfl ?_ ?_ (not_backopDue hmax hcnt) ?_
  · rw [enterCall_hidden]
  · unfold getsToPick
    rw [hst]
  · unfold rank
    rw [hst]
    show s.toCome c * (c.backopMs + 3) < s.toCome c * (c.backopMs + 3) + s.toWait c
    unfold toWait
    rw [hst, if_neg (by decide)]
    omega

theorem away_spec (hne : c.chs ≠ []) (hmax : 0 < c.scanCntMax) (h : s.Away c) :
    CallSpec c s e (cmdHdl c s e) := by
  have hdue : backopDue c e s.ss = false := not_backopDue hmax h.scanCnt
  rcases h.state with ⟨hst, hnx⟩ | ⟨hst, hnx⟩
  · let t : Scan := { s with timer := none, now := e.now, hidden := fun i => s.hidden i + e.counted i }
    have henter : s.enterCall e = t := by
      unfold enterCall
      simp only [hst, hnx, reduceCtorEq, ↓reduceIte, ne_eq, not_true_eq_false]
      rfl
    have hready : t.Ready c :=
      ⟨h.ready.ok, h.ready.le, h.ready.last, h.ready.count, h.ready.notDone⟩
    obtain ⟨s', hs', hspec⟩ := backOp_spec (n := 7) (e := e) hne hmax hready hst hnx h.pos h.lt h.scanCnt rfl
    have hpicks : getsToPick c s e = (!keepsTurn c e t && !announces e t) := by
      unfold getsToPick
      rw [hst, henter]
    have hwait : s.toWait c = 2 + (s.ss.backopTime + c.backopMs - s.now) := by
      unfold toWait
      rw [if_pos hst]
    rw [cmdHdl_eq (n := 12) rfl henter hs']
    split at hspec
    · rename_i hstays
      obtain ⟨hw, hone⟩ := hspec
      refine ⟨.away hw.away, ?_, iff_of_true hw.callOk ?_⟩
      · rintro ⟨ms, hms, hnow⟩
        obtain rfl : 50 = ms := Option.some.inj (h.armed.symm.trans hms)
        have hcome : s'.toCome c = s.toCome c := hw.toCome
        rw [rank_away hw.away, rank_away h, hcome, hwait]
        have hle : s'.toWait c ≤ 2 + (s.ss.backopTime + c.backopMs - e.now) := hw.toWait
        cases hk : keepsTurn c e t with
        | true =>
          have hk' : e.now - s.ss.backopTime < c.backopMs := by
            unfold keepsTurn at hk
            rw [Bool.and_eq_true, decide_eq_true_eq] at hk
            exact hk.1
          omega
        | false =>
          have h1 := hone hk
          omega
      · intro ha
        have hp := ha.picks
        rw [hpicks] at hp
        cases hk : keepsTurn c e t <;> cases han : announces e t <;> simp_all
    · rename_i hgoes
      rw [Bool.or_eq_true, not_or, Bool.not_eq_true, Bool.not_eq_true] at hgoes
      refine CallSpec.of_next hspec rfl rfl (by rw [henter]) ?_ hdue ?_
      · rw [hpicks, hgoes.1, hgoes.2]
        rfl
      · rw [rank_away h, hwait]
        show s.toCome c * (c.backopMs + 3) < _
        omega
  · exact annc_spec hne hmax h.ready hst (Or.inr hnx) h.scanCnt

theorem surveys_spec (hne : c.chs ≠ []) (hmax : 0 < c.scanCntMax) (h : s.Surveys c) :
    CallSpec c s e (cmdHdl c s e) := by
  let t : Scan := { s with
    timer := none, now := e.now, hidden := fun i => s.hidden i + e.counted i
    ss := { s.ss with channelIdx := s.ss.channelIdx + 1 } }
  have henter : s.enterCall e = t := by
    unfold enterCall
    dsimp only
    rw [if_pos h.state]
    exact if_neg fun hn => hn (h.state.trans h.next.symm)
  have hlt := h.lt
  have hready : t.Ready c := by
    refine ⟨⟨h.ok.ch, h.ok.ssidNum⟩, hlt, ?_, ?_, h.notDone⟩
    · show s.visits.getLast? = lastVisit c (s.ss.channelIdx + 1) s.ss.forceSsidScan
      exact h.last
    · show s.visits.length + (if s.ss.forceSsidScan then 0 else min 1 (s.ss.channelIdx + 1))
        ≤ 2 * (s.ss.channelIdx + 1)
      have hc := h.count
      split at hc <;> split <;> omega
  have hpicks : getsToPick c s e = true := by
    unfold getsToPick
    rw [h.state]
  have hcome : t.toCome c + 1 ≤
      2 * (c.chs.length - s.ss.channelIdx) - (if s.ss.forceSsidScan then 1 else 0) := by
    show 2 * (c.chs.length - (s.ss.channelIdx + 1)) + (if s.ss.forceSsidScan then 0 else 1) + 1 ≤ _
    split <;> omega
  have hrank : (t.toCome c + 1) * (c.backopMs + 3) ≤ s.rank c := by
    rw [rank_surveys h]
    exact Nat.mul_le_mul_right _ hcome
  rw [Nat.add_mul, Nat.one_mul] at hrank
  cases hdue : backopDue c e s.ss with
  | false =>
    obtain ⟨s', hs', hspec⟩ := process_spec (n := 10) (e := e) (s := t) hne hready h.state h.next rfl hdue
    rw [cmdHdl_eq (n := 12) rfl henter hs']
    refine CallSpec.of_next hspec rfl rfl ?_ hpicks hdue (by omega)
    rw [henter]
  | true =>
    obtain ⟨s', hs', hspec⟩ := process_due (n := 5) (e := e) (s := t) hne hmax hready h.state
      (Nat.succ_pos _) rfl hdue
    rw [cmdHdl_eq (n := 12) rfl henter hs']
    split at hspec
    · rename_i hend
      obtain ⟨hd, hvis, hhid⟩ := hspec
      have hvis' : s'.visits = s.visits := hvis
      have hpos : 0 < s.rank c := by omega
      refine ⟨.done hd, fun _ => by rw [rank_done hd]; exact hpos, ?_⟩
      cases ha : e.scanAbort with
      | true =>
        refine iff_of_true ⟨fun _ => hvis', fun h => ?_, fun h => absurd hd.state h⟩ fun has => ?_
        · exact absurd (ha.symm.trans h) (by decide)
        · have hwhich := has.which
          rw [ha, hdue] at hwhich
          cases hwhich
      | false =>
        have hidx : s.ss.channelIdx + 1 = c.chs.length := hend.resolve_left (ha ▸ Bool.false_ne_true)
        have hlast : s.visits.getLast? = lastVisit c c.chs.length s.ss.forceSsidScan := by
          rw [← hidx]
          exact h.last
        have hnv := nextVisit_end hne t.hidden s.ss.forceSsidScan
        constructor
        · intro hok has
          have hne' := hnv.mpr ⟨has.plain, henter ▸ has.wants⟩
          rcases hok.order ha with ⟨-, hst⟩ | ⟨v, -, hv, -⟩ | ⟨-, -, hnone⟩
          · exact hst hd.state
          · rw [hvis'] at hv
            simp at hv
          · rw [hhid, hlast] at hnone
            exact hne' hnone
        · intro has
          refine ⟨fun h => ?_, fun _ => Or.inr (Or.inr ⟨hvis', hd.state, ?_⟩), fun h => absurd hd.state h⟩
          · exact absurd (ha.symm.trans h) (by decide)
          · rw [hhid, hlast]
            by_contra hsome
            obtain ⟨hf, hw⟩ := hnv.mp hsome
            refine has ⟨hpicks, hf, henter ▸ hw, ?_⟩
            rw [ha]
            exact ⟨hdue, hidx⟩
    · rename_i hmid
      obtain ⟨ha, hidx⟩ := not_or.mp hmid
      have hnot : ¬Astray c s e := by
        intro has
        have hwhich := has.which
        rw [if_neg ha] at hwhich
        exact hidx hwhich.2
      rcases hspec with ⟨haw, hvis, hcome', hwait⟩ | hspec
      · refine ⟨.away haw, fun _ => ?_, iff_of_true ?_ hnot⟩
        · rw [rank_away haw, hcome']
          omega
        · have hst : s'.ss.state ≠ .disable := by
            rcases haw.state with ⟨h, -⟩ | ⟨h, -⟩ <;> rw [h] <;> decide
          refine ⟨fun _ => hvis, fun _ => Or.inl ⟨hvis, hst⟩, fun _ => ?_⟩
          rw [haw.armed]
          rfl
      · obtain ⟨hrests, hlt'⟩ := hspec.rank_lt (r := s.rank c) (by omega)
        refine ⟨hrests, fun _ => hlt', iff_of_true (hspec.callOk.mpr fun hab => ha hab.1) hnot⟩

/-- every call of a scan does what it should, as far as it does not go astray, and there are fewer
left -/
theorem cmdHdl_spec (hne : c.chs ≠ []) (hmax : 0 < c.scanCntMax) (h : s.Rests c) (hl : s.Legal e) :
    CallSpec c s e (cmdHdl c s e) := by
  cases h with
  | fresh h => exact fresh_spec hne hmax h
  | enters h => exact annc_spec hne hmax h.ready h.state (Or.inl h.next) h.scanCnt
  | surveys h => exact surveys_spec hne hmax h
  | away h => exact away_spec hne hmax h
  | done h =>
    obtain ⟨ms, hms, -⟩ := hl
    exact absurd (h.timer.symm.trans hms) (fun h => nomatch h)

/-! ## the visits of a whole scan -/

/-- the first `m` channels, each followed by a directed scan where `r` says so -/
def visitList (c : ScanConf) (m : Nat) (r : Nat → Bool) : List Visit :=
  (List.range m).flatMap fun i =>
    (visitOf c i false).toList ++ if r i then (visitOf c i true).toList else []

/-- each visit is the one that comes next -/
inductive Listed (c : ScanConf) : List Visit → Prop where
  | nil : Listed c []
  | snoc {vs : List Visit} {v : Visit} {hidden : Nat → Nat} (h : Listed c vs)
      (hv : nextVisit c hidden vs.getLast? = some v) : Listed c (vs ++ [v])

theorem visitList_succ (m : Nat) (r : Nat → Bool) : visitList c (m + 1) r =
    visitList c m r ++ ((visitOf c m false).toList ++ if r m then (visitOf c m true).toList else []) := by
  unfold visitList
  rw [List.range_succ, List.flatMap_append, List.flatMap_singleton]

theorem visitList_congr {m : Nat} {r q : Nat → Bool} (h : ∀ i < m, r i = q i) :
    visitList c m r = visitList c m q := by
  induction m with
  | zero => rfl
  | succ m ih =>
    rw [visitList_succ, visitList_succ, ih fun i hi => h i (Nat.lt_succ_of_lt hi), h m (Nat.lt_succ_self m)]

/-- the channels up to the last visit, in order -/
theorem Listed.eq {vs : List Visit} (h : Listed c vs) : vs = [] ∨
    ∃ i r, i < c.chs.length ∧ vs = visitList c (i + 1) r ∧ vs.getLast? = visitOf c i (r i) := by
  induction h with
  | nil => exact Or.inl rfl
  | @snoc vs v hidden _ hv ih =>
    refine Or.inr ?_
    rcases ih with rfl | ⟨i, r, hi, hvs, hlast⟩
    · obtain ⟨hvi, -, hlt, -⟩ := visitOf_eq_some (show visitOf c 0 false = some v from hv)
      refine ⟨0, fun _ => false, hlt, ?_, ?_⟩
      · rw [visitList_succ, (show visitOf c 0 false = some v from hv)]
        rfl
      · exact hv.symm
    · obtain ⟨u, hu⟩ := visitOf_isSome hi (r i)
      obtain ⟨hui, huf, -, -⟩ := visitOf_eq_some hu
      rw [hlast, hu] at hv
      unfold nextVisit at hv
      dsimp only at hv
      rw [hui, huf] at hv
      split at hv
      · -- the same channel again
        rename_i hre
        refine ⟨i, Function.update r i true, hi, ?_, ?_⟩
        · rw [visitList_succ, visitList_congr (q := r) fun j hj => Function.update_of_ne (Nat.ne_of_lt hj) _ _,
            Function.update_self, hvs, visitList_succ, hre.1, hv]
          simp
        · rw [Function.update_self, List.getLast?_concat, hv]
      · -- the next channel
        obtain ⟨-, -, hlt, -⟩ := visitOf_eq_some hv
        refine ⟨i + 1, Function.update r (i + 1) false, hlt, ?_, ?_⟩
        · rw [visitList_succ, visitList_congr (q := r) fun j hj => Function.update_of_ne (Nat.ne_of_lt hj) _ _,
            Function.update_self, hvs, hv]
          rfl
        · rw [Function.update_self, List.getLast?_concat, hv]

/-- behind the last channel all have been visited -/
theorem Listed.whole {vs : List Visit} (hne : c.chs ≠ []) (h : Listed c vs)
    (hend : nextVisit c hidden vs.getLast? = none) : ∃ r, vs = visitList c c.chs.length r := by
  have hpos : 0 < c.chs.length := List.length_pos_of_ne_nil hne
  rcases h.eq with rfl | ⟨i, r, hi, hvs, hlast⟩
  · obtain ⟨v, hv⟩ := visitOf_isSome hpos false
    have h0 : nextVisit c hidden none = some v := hv
    rw [List.getLast?_nil, h0] at hend
    cases hend
  · obtain ⟨u, hu⟩ := visitOf_isSome hi (r i)
    obtain ⟨hui, huf, -, -⟩ := visitOf_eq_some hu
    rw [hlast, hu] at hend
    unfold nextVisit at hend
    dsimp only at hend
    rw [hui, huf] at hend
    split at hend
    · obtain ⟨w, hw⟩ := visitOf_isSome hi true
      rw [hw] at hend
      cases hend
    · have hlen : c.chs.length ≤ i + 1 := by
        by_contra hlt
        obtain ⟨w, hw⟩ := visitOf_isSome (Nat.not_le.mp hlt) false
        rw [hw] at hend
        cases hend
      have heq : i + 1 = c.chs.length := by omega
      exact ⟨r, heq ▸ hvs⟩

end Scan

/-! ## a whole scan -/

open Run Scan

/-- the calls that a scan takes at most -/
def scanBound (c : ScanConf) : Nat := (2 * c.chs.length + 1) * (c.backopMs + 3) + 2

/-- each call does what it should; the calls are bounded, and the end of the scan is reported once,
when the timer is not armed any more; a channel is visited twice at most; and a scan that was not
aborted has visited the channels of the list in order -/
structure ScanOk (c : ScanConf) (s : Scan) (es : List ScanCall) : Prop where
  calls : Along (cmdHdl c) (fun s e => CallOk c e s.visits (cmdHdl c s e)) s es
  bounded : es.length ≤ scanBound c
  reported : ∀ es', es' <+: es →
    (run (cmdHdl c) s es').surveyDone = if (run (cmdHdl c) s es').timer = none then 1 else 0
  twice : (run (cmdHdl c) s es).visits.length ≤ 2 * c.chs.length
  whole : (∀ e ∈ es, e.scanAbort = false) → (run (cmdHdl c) s es).timer = none →
    ∃ r, (run (cmdHdl c) s es).visits = visitList c c.chs.length r

theorem Scan.Rests.reported (h : s.Rests c) : s.surveyDone = if s.timer = none then 1 else 0 := by
  cases h with
  | fresh h =>
    obtain ⟨ms, hms⟩ := Option.isSome_iff_exists.mp h.armed
    rw [h.notDone, hms]
    rfl
  | enters h =>
    rw [h.ready.notDone, h.armed]
    rfl
  | surveys h =>
    obtain ⟨ms, hms⟩ := Option.isSome_iff_exists.mp h.armed
    rw [h.notDone, hms]
    rfl
  | away h =>
    rw [h.ready.notDone, h.armed]
    rfl
  | done h =>
    rw [h.done, h.timer]
    rfl

theorem Scan.Rests.length_le (h : s.Rests c) : s.visits.length ≤ 2 * c.chs.length := by
  cases h with
  | fresh h =>
    rw [h.visits]
    exact Nat.zero_le _
  | enters h => exact h.ready.length_le
  | surveys h =>
    have hc := h.count
    have hlt := h.lt
    split at hc <;> omega
  | away h => exact h.ready.length_le
  | done h => exact h.count

/-- the visits of a scan that is not aborted, and nothing is to come when it has ended -/
def ListedSoFar (c : ScanConf) (s : Scan) : Prop :=
  Listed c s.visits ∧ (s.timer = none → ∃ hidden, nextVisit c hidden s.visits.getLast? = none)

theorem listedSoFar_call (h : ListedSoFar c s) (hok : CallOk c e s.visits (cmdHdl c s e))
    (ha : e.scanAbort = false) : ListedSoFar c (cmdHdl c s e) := by
  have harmed : ∀ {p : Prop}, (cmdHdl c s e).ss.state ≠ .disable → (cmdHdl c s e).timer = none → p := by
    intro p hst ht
    have h1 := hok.armed hst
    rw [ht] at h1
    cases h1
  rcases hok.order ha with ⟨hv, hst⟩ | ⟨v, hnx, hv, hst⟩ | ⟨hv, -, hnx⟩
  · exact ⟨hv ▸ h.1, harmed hst⟩
  · exact ⟨hv ▸ h.1.snoc hnx, harmed hst⟩
  · exact ⟨hv ▸ h.1, fun _ => ⟨_, hv ▸ hnx⟩⟩

/-- **When a scan goes as it should**: no call goes back to the last channel after an abort
request, and none skips going back to it because back-op is due. -/
theorem scan_iff (c : ScanConf) (hne : rtwScanChDecision c ≠ []) (hmax : 1 ≤ c.scanCntMax) (s : Scan)
    (hs : s.Fresh) (es : List ScanCall) (hl : Along (cmdHdl c) Legal s es) :
    ScanOk c s es ↔ Along (cmdHdl c) (fun s e => ¬Astray c s e) s es := by
  have hspec : ∀ s e, s.Rests c → s.Legal e → CallSpec c s e (cmdHdl c s e) :=
    fun s e hr hl => cmdHdl_spec hne hmax hr hl
  have hrests : ∀ s e, s.Rests c → s.Legal e → (cmdHdl c s e).Rests c := fun s e hr hl => (hspec s e hr hl).rests
  have hcalls : Along (cmdHdl c) (fun s e => CallOk c e s.visits (cmdHdl c s e)) s es ↔ _ :=
    along_congr hrests (fun s e hr hl => (hspec s e hr hl).callOk) (Scan.Rests.fresh hs) hl
  refine ⟨fun h => hcalls.mp h.calls, fun h => ⟨hcalls.mpr h, ?_, ?_, ?_, ?_⟩⟩
  · have hle := length_le_of_lt hrests (fun s e hr hl => (hspec s e hr hl).rank hl) (Scan.Rests.fresh hs) hl
    have hr : s.rank c = scanBound c := by
      unfold rank
      obtain ⟨ms, hms⟩ := Option.isSome_iff_exists.mp hs.armed
      rw [hs.state, hms]
      rfl
    rw [← hr]
    exact hle
  · intro es' hp
    exact (run_inv hrests s es' (Scan.Rests.fresh hs) (hl.of_prefix hp)).reported
  · exact (run_inv hrests s es (Scan.Rests.fresh hs) hl).length_le
  · intro ha hend
    have hlisted : ListedSoFar c (run (cmdHdl c) s es) := by
      refine run_inv (fun s e hi hC => listedSoFar_call hi hC.2 hC.1) s es ⟨hs.visits ▸ .nil, fun ht => ?_⟩
        (along_and ha (hcalls.mpr h))
      have harmed := hs.armed
      rw [ht] at harmed
      cases harmed
    obtain ⟨hidden, hnx⟩ := hlisted.2 hend
    exact hlisted.1.whole hne hnx

/-! ## a passive channel -/

/-- a scan of channel 13, which is passive, for one name -/
def passiveScan : ScanConf where
  channelSet := [⟨13, true, false, by decide⟩]
  parmSsid := [4]
  scanCntMax := 1
  backopMs := 300
  scanChMs := 100

theorem fresh_init : Fresh {} := ⟨rfl, rfl, rfl, rfl, rfl⟩

/-- a scan of channels 1, 12 and 13 -/
def threeScan : ScanConf :=
  { passiveScan with
    channelSet := [⟨1, false, false, by decide⟩, ⟨12, true, false, by decide⟩, ⟨13, true, false, by decide⟩]
    backopMs := 50 }

/-- back-op between the channels 1 and 12, and hidden networks on 12 -/
def threeCalls : List ScanCall :=
  [{ now := 0, backopFlags := 1 }, { now := 100, backopFlags := 1 }, { now := 150 },
    { now := 250, counted := fun i => if i = 1 then 2 else 0 }, { now := 350 }, { now := 450 }]

theorem scan_iff_three : ScanOk threeScan {} threeCalls
    ∧ (run (cmdHdl threeScan) {} threeCalls).visits
      = [⟨0, 1, false⟩, ⟨1, 12, false⟩, ⟨1, 12, true⟩, ⟨2, 13, false⟩] := by
  refine ⟨(scan_iff threeScan (by decide) (by decide) {} fresh_init threeCalls ?_).mpr ?_, by decide⟩
  · exact ⟨⟨0, rfl, by decide⟩, ⟨100, rfl, by decide⟩, ⟨50, rfl, by decide⟩, ⟨100, rfl, by decide⟩,
      ⟨100, rfl, by decide⟩, ⟨100, rfl, by decide⟩, trivial⟩
  · have hwants : ∀ s e, wantsForce threeScan (s.enterCall e).hidden 2 = false → ¬Astray threeScan s e :=
      fun s e hno ha => Bool.false_ne_true (hno.symm.trans ha.wants)
    exact ⟨hwants _ _ (by decide), hwants _ _ (by decide), hwants _ _ (by decide), hwants _ _ (by decide),
      hwants _ _ (by decide), hwants _ _ (by decide), trivial⟩

/-- hidden networks are counted, and the scan is aborted -/
def abortedCalls : List ScanCall :=
  [{ now := 0 }, { now := 100, scanAbort := true, counted := fun _ => 1 }]

theorem scan_abort_surveys :
    ¬ ∀ (c : ScanConf), rtwScanChDecision c ≠ [] → 1 ≤ c.scanCntMax → ∀ s : Scan, s.Fresh →
      ∀ es : List ScanCall, Along (cmdHdl c) Legal s es → ScanOk c s es := by
  intro h
  have hok := h passiveScan (by decide) (by decide) {} fresh_init abortedCalls
    ⟨⟨0, rfl, by decide⟩, ⟨100, rfl, by decide⟩, trivial⟩
  have hno := hok.calls.2.1.abort rfl
  exact absurd hno (by decide)

end Rtl8192eu
