import Rtl8192eu.Lib.Keyed
import Rtl8192eu.Lib.Lease

/-!
# How long a silent station stays

`expire_timeout_chk` of `core/rtw_ap.c` for the associated stations of an access point, with
`CONFIG_ACTIVE_KEEP_ALIVE_CHECK`: every two seconds a station that was not heard comes nearer to its end, and a
station at its end gets null frames to acknowledge, one at a time.

* `expireTimeoutChk`   the three loops of a tick; `expireTimeoutChk_eq`;
* `StaAge.left`   the ticks that a station has, at least;
* `aging_kept`    a station that was heard stays for `expire_to + 3` ticks;
* `aging_iff`     and no longer, if it is not heard again.
-/

namespace Rtl8192eu

open Run Keyed

/-- what `struct sta_info` has for this; the counts are those of data and control frames -/
structure StaAge where
  aid : Nat
  rxPkts : Nat := 0
  lastRxPkts : Nat := 0
  expireTo : Nat
  keepAliveTrycnt : Nat := 0
  /-- `WIFI_SLEEP_STATE` -/
  sleepState : Bool := false
  /-- `WIFI_STA_ALIVE_CHK_STATE` -/
  staAliveChkState : Bool := false
  /-- `WIFI_ASOC_STATE` -/
  asocState : Bool := true
  sleepqLen : Nat := 0
  deriving DecidableEq, Repr

/-- of `stapriv` -/
def authTo : Nat := 3
def assocTo : Nat := 3

structure AgeCfg where
  /-- of `stapriv`; 60 ticks, and 3 in P2P mode -/
  expireTo : Nat
  wifiSpec : Bool := false

/-- what a tick finds: who acknowledges a null frame, and how many frames are free when it is a station's turn -/
structure TickEnv where
  ack : Nat → Bool
  freeXmitframeCnt : Nat → Nat := fun _ => 256

namespace StaAge

variable (cfg : AgeCfg) (psta : StaAge)

/-- `wakeup_sta_to_xmit`: the queue is emptied -/
def wakeupStaToXmit : StaAge :=
  { psta with
    sleepqLen := 0
    sleepState := false
    expireTo := if psta.staAliveChkState then cfg.expireTo else psta.expireTo
    staAliveChkState := false }

/-- a PS-Poll or an ADDBA response -/
def aliveRsp : StaAge :=
  if psta.staAliveChkState then { psta with expireTo := cfg.expireTo, staAliveChkState := false } else psta

def rx : StaAge := { psta with rxPkts := psta.rxPkts + 1 }

/-- `sta_stats` is cleared -/
def clearStats : StaAge := { psta with rxPkts := 0, lastRxPkts := 0 }

def setExpire (ticks : Nat) : StaAge := { psta with expireTo := ticks }

def sleep : StaAge := { psta with sleepState := true }

/-- a frame is put into the queue of a station that sleeps -/
def enqueue : StaAge := { psta with sleepqLen := psta.sleepqLen + 1 }

/-- the queue of the station is cleared, since there are too few free frames -/
def digest (asocListCnt freeXmitframeCnt : Nat) : Bool :=
  decide (256 / asocListCnt < psta.sleepqLen) && decide (freeXmitframeCnt < 256 / asocListCnt / 2)

/-- `chk_sta_is_alive`, and the count of the ticks -/
def countDown : StaAge :=
  let alive := psta.lastRxPkts != psta.rxPkts
  let psta := { psta with lastRxPkts := psta.rxPkts }
  if alive || psta.expireTo == 0 then { psta with expireTo := cfg.expireTo, keepAliveTrycnt := 0 }
  else { psta with expireTo := psta.expireTo - 1 }

/-- the loop over `asoc_list`, and whether the station gets into `chk_alive_list` -/
def age (asocListCnt freeXmitframeCnt : Nat) : StaAge × Bool :=
  let psta := psta.countDown cfg
  if psta.expireTo = 0 then
    if cfg.wifiSpec then ({ psta with expireTo := cfg.expireTo }, false)
    else if psta.sleepState && !psta.staAliveChkState then
      -- the bit in the TIM is set, and the null frame is sent as well
      ({ psta with expireTo := cfg.expireTo, staAliveChkState := true }, true)
    else (psta, true)
  else if psta.digest asocListCnt freeXmitframeCnt then (psta.wakeupStaToXmit cfg, false)
  else (psta, false)

/-- the check loop, and whether the station is deleted -/
def checkAlive (ack : Bool) : StaAge × Bool :=
  if psta.asocState = false then (psta, false)
  else if ack then ({ psta with expireTo := cfg.expireTo, keepAliveTrycnt := 0 }, false)
  else if psta.keepAliveTrycnt + 1 ≤ 3 then
    ({ psta with expireTo := 1, keepAliveTrycnt := psta.keepAliveTrycnt + 1 }, false)
  else ({ psta with keepAliveTrycnt := 0 }, true)

end StaAge

/-- a tick, for the associated stations -/
def expireTimeoutChk (cfg : AgeCfg) (env : TickEnv) (asocList : List StaAge) : List StaAge :=
  let aged := asocList.map fun psta => psta.age cfg asocList.length (env.freeXmitframeCnt psta.aid)
  let checked := aged.map fun r => if r.2 then r.1.checkAlive cfg (env.ack r.1.aid) else (r.1, false)
  (checked.filter fun r => !r.2).map (·.1)

inductive AgeEvent where
  /-- the station is put into `asoc_list` -/
  | assoc (aid : Nat)
  /-- a data or control frame of the station -/
  | rx (aid : Nat)
  | sleep (aid : Nat)
  | wake (aid : Nat)
  | aliveRsp (aid : Nat)
  /-- a frame for a station that sleeps -/
  | enqueue (aid : Nat)
  /-- `OnAuth`, of a station with management frame protection that stays in `asoc_list` -/
  | auth (aid : Nat)
  /-- user space reports that the station is authenticated -/
  | externalAuth (aid : Nat)
  /-- `update_sta_info_apmode`, for a station that is in `asoc_list` already -/
  | reassoc (aid : Nat)
  /-- the station leaves, or the access point ends its association for another reason -/
  | leave (aid : Nat)
  | tick (env : TickEnv)

def updSta (aid : Nat) (f : StaAge → StaAge) (asocList : List StaAge) : List StaAge :=
  asocList.map fun psta => if psta.aid = aid then f psta else psta

def ageStep (cfg : AgeCfg) (asocList : List StaAge) : AgeEvent → List StaAge
  | .assoc aid =>
    if aid ∈ asocList.map (·.aid) then asocList else asocList ++ [{ aid := aid, expireTo := cfg.expireTo }]
  | .rx aid => updSta aid StaAge.rx asocList
  | .sleep aid => updSta aid StaAge.sleep asocList
  | .wake aid => updSta aid (StaAge.wakeupStaToXmit cfg) asocList
  | .aliveRsp aid => updSta aid (StaAge.aliveRsp cfg) asocList
  | .enqueue aid => updSta aid StaAge.enqueue asocList
  | .auth aid => updSta aid (·.setExpire authTo) asocList
  | .externalAuth aid => updSta aid (·.setExpire assocTo) asocList
  | .reassoc aid => updSta aid StaAge.clearStats asocList
  | .leave aid => asocList.filter fun psta => psta.aid ≠ aid
  | .tick env => expireTimeoutChk cfg env asocList

/-! ## one station -/

/-- what a tick makes of a station, in a list of `n` -/
def StaAge.tick (cfg : AgeCfg) (env : TickEnv) (n : Nat) (psta : StaAge) : Option StaAge :=
  let r := psta.age cfg n (env.freeXmitframeCnt psta.aid)
  if r.2 then
    let r := r.1.checkAlive cfg (env.ack psta.aid)
    if r.2 then none else some r.1
  else some r.1

theorem StaAge.countDown_aid (cfg : AgeCfg) (psta : StaAge) : (psta.countDown cfg).aid = psta.aid := by
  unfold countDown
  dsimp only
  split <;> rfl

theorem StaAge.age_aid (cfg : AgeCfg) (psta : StaAge) (n free : Nat) : (psta.age cfg n free).1.aid = psta.aid := by
  rw [← psta.countDown_aid cfg]
  unfold age
  dsimp only
  split_ifs <;> rfl

theorem StaAge.checkAlive_aid (cfg : AgeCfg) (psta : StaAge) (ack : Bool) :
    (psta.checkAlive cfg ack).1.aid = psta.aid := by
  unfold checkAlive
  split_ifs <;> rfl

theorem aliveRsp_aid {cfg : AgeCfg} (psta : StaAge) : (psta.aliveRsp cfg).aid = psta.aid := by
  unfold StaAge.aliveRsp
  split <;> rfl

theorem StaAge.tick_aid {cfg : AgeCfg} {env : TickEnv} {n : Nat} {psta psta' : StaAge}
    (h : psta.tick cfg env n = some psta') : psta'.aid = psta.aid := by
  unfold tick at h
  dsimp only at h
  split at h
  · split at h
    · cases h
    · cases h
      exact (checkAlive_aid ..).trans (age_aid ..)
  · cases h
    exact age_aid ..

/-- **The loops treat every station by itself.** -/
theorem expireTimeoutChk_eq (cfg : AgeCfg) (env : TickEnv) (asocList : List StaAge) :
    expireTimeoutChk cfg env asocList = asocList.filterMap (StaAge.tick cfg env asocList.length) := by
  unfold expireTimeoutChk
  generalize asocList.length = n
  induction asocList with
  | nil => rfl
  | cons psta l ih =>
    rw [List.filterMap_cons, ← ih]
    cases hr : psta.age cfg n (env.freeXmitframeCnt psta.aid) with
    | mk psta' chk =>
      have haid : psta'.aid = psta.aid := by
        have h := psta.age_aid cfg n (env.freeXmitframeCnt psta.aid)
        rwa [hr] at h
      simp only [StaAge.tick, hr, List.map_cons]
      cases chk with
      | false => rfl
      | true =>
        simp only [if_true, haid]
        cases hr' : psta'.checkAlive cfg (env.ack psta.aid) with
        | mk psta'' del => cases del <;> rfl

/-! ## the ticks that a station has -/

namespace StaAge

/-- the ticks until a station is deleted that is not heard any more -/
def rest (psta : StaAge) : Nat := psta.expireTo + (3 - psta.keepAliveTrycnt)

/-- and those that it has, with the frames that were not counted yet -/
def left (cfg : AgeCfg) (psta : StaAge) : Nat :=
  if psta.lastRxPkts = psta.rxPkts then psta.rest else cfg.expireTo + 4

/-- what holds of a station between the ticks -/
structure Ok (cfg : AgeCfg) (psta : StaAge) : Prop where
  pos : 1 ≤ psta.expireTo
  le : psta.expireTo ≤ cfg.expireTo
  trycnt : psta.keepAliveTrycnt ≤ 3
  last : psta.lastRxPkts ≤ psta.rxPkts
  asoc : psta.asocState = true

/-- nothing is heard of the station in a tick, and its queue is left alone -/
def Quiet (cfg : AgeCfg) (env : TickEnv) (n : Nat) (psta : StaAge) : Prop :=
  cfg.wifiSpec = false ∧ env.ack psta.aid = false ∧ psta.digest n (env.freeXmitframeCnt psta.aid) = false

section
variable {cfg : AgeCfg} {psta : StaAge}

theorem Ok.left_pos (h : psta.Ok cfg) : 0 < psta.left cfg := by
  have hpos := h.pos
  unfold left rest
  split <;> omega

/-- what holds of a station within a tick, after its count -/
structure Counted (cfg : AgeCfg) (psta q : StaAge) : Prop where
  last : q.lastRxPkts = q.rxPkts
  le : q.expireTo ≤ cfg.expireTo
  trycnt : q.keepAliveTrycnt ≤ 3
  asoc : q.asocState = true
  sleepqLen : q.sleepqLen = psta.sleepqLen
  left : psta.left cfg = q.rest + 1

theorem Ok.countDown (h : psta.Ok cfg) : Counted cfg psta (psta.countDown cfg) := by
  obtain ⟨hpos, hle, htry, hlast, hasoc⟩ := h
  by_cases hsilent : psta.lastRxPkts = psta.rxPkts
  · have h0 : (psta.expireTo == 0) = false := by simpa using Nat.pos_iff_ne_zero.mp hpos
    have hdown : psta.countDown cfg = { psta with lastRxPkts := psta.rxPkts, expireTo := psta.expireTo - 1 } := by
      simp [StaAge.countDown, hsilent, h0]
    rw [hdown]
    refine ⟨rfl, Nat.le_trans (Nat.sub_le ..) hle, htry, hasoc, rfl, ?_⟩
    rw [left, if_pos hsilent]
    show psta.expireTo + (3 - psta.keepAliveTrycnt) = psta.expireTo - 1 + (3 - psta.keepAliveTrycnt) + 1
    omega
  · have hdown : psta.countDown cfg
        = { psta with lastRxPkts := psta.rxPkts, expireTo := cfg.expireTo, keepAliveTrycnt := 0 } := by
      simp [StaAge.countDown, hsilent]
    rw [hdown]
    refine ⟨rfl, Nat.le_refl _, Nat.zero_le _, hasoc, rfl, ?_⟩
    rw [left, if_neg hsilent]
    rfl

/-- between the ticks again, with at least the time that was counted -/
theorem Counted.ok {q : StaAge} (h : Counted cfg psta q) (q' : StaAge) (hlast : q'.lastRxPkts = q'.rxPkts)
    (hasoc : q'.asocState = true) (hpos : 1 ≤ q'.expireTo) (hle : q'.expireTo ≤ cfg.expireTo)
    (htry : q'.keepAliveTrycnt ≤ 3) (hrest : q.rest ≤ q'.rest) :
    q'.Ok cfg ∧ psta.left cfg ≤ q'.left cfg + 1 ∧ (q'.rest = q.rest → psta.left cfg = q'.left cfg + 1) := by
  have hleft : q'.left cfg = q'.rest := if_pos hlast
  rw [hleft, h.left]
  exact ⟨⟨hpos, hle, htry, Nat.le_of_eq hlast, hasoc⟩, Nat.succ_le_succ hrest, fun he => he ▸ rfl⟩

theorem wakeupStaToXmit_expireTo (psta : StaAge) (h : psta.expireTo ≤ cfg.expireTo) :
    psta.expireTo ≤ (psta.wakeupStaToXmit cfg).expireTo
      ∧ (psta.wakeupStaToXmit cfg).expireTo ≤ cfg.expireTo := by
  unfold wakeupStaToXmit
  dsimp only
  split <;> omega

/-- a check: the station has as many ticks as were counted, or more, or it is deleted with its last one -/
theorem Counted.checkAlive {q q' : StaAge} (h : Counted cfg psta q) (hcfg : 1 ≤ cfg.expireTo) (hend : q.expireTo = 0)
    (hlast : q'.lastRxPkts = q'.rxPkts) (hasoc : q'.asocState = true) (htry : q'.keepAliveTrycnt = q.keepAliveTrycnt)
    (ack : Bool) :
    let r := q'.checkAlive cfg ack
    if r.2 then psta.left cfg = 1
    else r.1.Ok cfg ∧ psta.left cfg ≤ r.1.left cfg + 1 ∧ (ack = false → psta.left cfg = r.1.left cfg + 1) := by
  have hq : q.rest = 3 - q.keepAliveTrycnt := by
    unfold rest
    rw [hend, Nat.zero_add]
  have ht := h.trycnt
  have hchk : q'.checkAlive cfg ack
      = if ack then ({ q' with expireTo := cfg.expireTo, keepAliveTrycnt := 0 }, false)
        else if q'.keepAliveTrycnt + 1 ≤ 3 then
          ({ q' with expireTo := 1, keepAliveTrycnt := q'.keepAliveTrycnt + 1 }, false)
        else ({ q' with keepAliveTrycnt := 0 }, true) := if_neg (by rw [hasoc]; decide)
  rw [hchk]
  cases ack with
  | true =>
    have hok := h.ok ({ q' with expireTo := cfg.expireTo, keepAliveTrycnt := 0 }) hlast hasoc hcfg
      (Nat.le_refl _) (Nat.zero_le _) (by rw [hq]; show _ ≤ cfg.expireTo + 3; omega)
    exact ⟨hok.1, hok.2.1, fun hc => by cases hc⟩
  | false =>
    rw [if_neg Bool.false_ne_true]
    by_cases hmore : q'.keepAliveTrycnt + 1 ≤ 3
    · rw [if_pos hmore]
      have hrest : ({ q' with expireTo := 1, keepAliveTrycnt := q'.keepAliveTrycnt + 1 } : StaAge).rest = q.rest := by
        rw [hq, ← htry]
        show 1 + (3 - (q'.keepAliveTrycnt + 1)) = 3 - q'.keepAliveTrycnt
        omega
      have hok := h.ok ({ q' with expireTo := 1, keepAliveTrycnt := q'.keepAliveTrycnt + 1 }) hlast hasoc
        (Nat.le_refl 1) hcfg hmore (Nat.le_of_eq hrest.symm)
      exact ⟨hok.1, hok.2.1, fun _ => hok.2.2 hrest⟩
    · rw [if_neg hmore]
      show psta.left cfg = 1
      rw [h.left, hq]
      omega

/-- **A tick for one station**: it loses one of its ticks at most, and one if it is quiet; with the last one it is
deleted. -/
theorem tick_spec (hcfg : 1 ≤ cfg.expireTo) (env : TickEnv) (n : Nat) (h : psta.Ok cfg) :
    (psta.tick cfg env n = none → psta.left cfg = 1)
      ∧ ∀ psta', psta.tick cfg env n = some psta' → psta'.Ok cfg ∧ psta.left cfg ≤ psta'.left cfg + 1
        ∧ (psta.Quiet cfg env n → psta.left cfg = psta'.left cfg + 1) := by
  have hq := h.countDown
  unfold tick age
  generalize hcount : psta.countDown cfg = q at hq ⊢
  dsimp only
  by_cases hend : q.expireTo = 0
  · rw [if_pos hend]
    cases hspec : cfg.wifiSpec with
    | true =>
      have hok := hq.ok ({ q with expireTo := cfg.expireTo }) hq.last hq.asoc hcfg (Nat.le_refl _) hq.trycnt
        (by unfold rest; show _ ≤ cfg.expireTo + (3 - q.keepAliveTrycnt); omega)
      refine ⟨fun hc => (by cases hc), fun psta' hsome => ?_⟩
      cases hsome
      exact ⟨hok.1, hok.2.1, fun hquiet => by rw [hquiet.1] at hspec; cases hspec⟩
    | false =>
      rw [if_neg Bool.false_ne_true]
      -- asleep or not, the null frame is sent
      have hchk : ∀ q' : StaAge, q'.lastRxPkts = q'.rxPkts → q'.asocState = true →
          q'.keepAliveTrycnt = q.keepAliveTrycnt →
          let r := q'.checkAlive cfg (env.ack psta.aid)
          ((if r.2 then none else some r.1) = none → psta.left cfg = 1)
            ∧ ∀ psta', (if r.2 then none else some r.1) = some psta' → psta'.Ok cfg
              ∧ psta.left cfg ≤ psta'.left cfg + 1 ∧ (psta.Quiet cfg env n → psta.left cfg = psta'.left cfg + 1) := by
        intro q' hlast hasoc htry
        have hc := hq.checkAlive hcfg hend hlast hasoc htry (env.ack psta.aid)
        dsimp only at hc ⊢
        cases hdel : (q'.checkAlive cfg (env.ack psta.aid)).2 with
        | true =>
          rw [hdel] at hc
          exact ⟨fun _ => hc, fun psta' hsome => by cases hsome⟩
        | false =>
          rw [hdel] at hc
          refine ⟨fun hc => (by cases hc), fun psta' hsome => ?_⟩
          cases hsome
          exact ⟨hc.1, hc.2.1, fun hquiet => hc.2.2 hquiet.2.1⟩
      split
      · exact hchk _ hq.last hq.asoc rfl
      · exact hchk q hq.last hq.asoc rfl
  · rw [if_neg hend]
    have hpos : 1 ≤ q.expireTo := Nat.pos_of_ne_zero hend
    cases hdig : q.digest n (env.freeXmitframeCnt psta.aid) with
    | true =>
      have hwake := wakeupStaToXmit_expireTo q hq.le
      have hok := hq.ok (q.wakeupStaToXmit cfg) hq.last hq.asoc (Nat.le_trans hpos hwake.1) hwake.2 hq.trycnt
        (Nat.add_le_add_right hwake.1 _)
      refine ⟨fun hc => (by cases hc), fun psta' hsome => ?_⟩
      cases hsome
      refine ⟨hok.1, hok.2.1, fun hquiet => ?_⟩
      have hsame : q.digest n (env.freeXmitframeCnt psta.aid) = psta.digest n (env.freeXmitframeCnt psta.aid) := by
        unfold digest
        rw [hq.sleepqLen]
      rw [hsame, hquiet.2.2] at hdig
      cases hdig
    | false =>
      have hok := hq.ok q hq.last hq.asoc hpos hq.le hq.trycnt (Nat.le_refl _)
      refine ⟨fun hc => (by cases hc), fun psta' hsome => ?_⟩
      cases hsome
      exact ⟨hok.1, hok.2.1, fun _ => hok.2.2 rfl⟩

end

end StaAge

/-! ## the list of stations -/

/-- the ticks that a station has; a station that is not there has none -/
def leftOf (cfg : AgeCfg) (aid : Nat) (asocList : List StaAge) : Nat :=
  ((get StaAge.aid aid asocList).map (·.left cfg)).getD 0

structure AsocOk (cfg : AgeCfg) (asocList : List StaAge) : Prop where
  nodup : (asocList.map (·.aid)).Nodup
  ok : ∀ psta ∈ asocList, psta.Ok cfg

section
variable {cfg : AgeCfg} {asocList : List StaAge}

theorem AsocOk.leftOf_pos (h : AsocOk cfg asocList) (aid : Nat) :
    0 < leftOf cfg aid asocList ↔ (get StaAge.aid aid asocList).isSome = true := by
  unfold leftOf
  cases hg : get StaAge.aid aid asocList with
  | none => simp
  | some psta => simpa using (h.ok psta (mem_of_get hg)).left_pos

theorem updSta_aid {f : StaAge → StaAge} (hf : ∀ psta, (f psta).aid = psta.aid) (aid : Nat) (psta : StaAge) :
    (if psta.aid = aid then f psta else psta).aid = psta.aid := by
  split
  · exact hf psta
  · rfl

theorem AsocOk.of_updSta (h : AsocOk cfg asocList) (f : StaAge → StaAge) (hf : ∀ psta, (f psta).aid = psta.aid)
    (hok : ∀ psta, psta.Ok cfg → (f psta).Ok cfg) (aid : Nat) : AsocOk cfg (updSta aid f asocList) where
  nodup := by
    have hmap : (updSta aid f asocList).map (·.aid) = asocList.map (·.aid) := by
      unfold updSta
      rw [List.map_map]
      exact List.map_congr_left fun psta _ => updSta_aid hf aid psta
    rw [hmap]
    exact h.nodup
  ok psta hpsta := by
    obtain ⟨psta₀, hmem, rfl⟩ := List.mem_map.mp hpsta
    split
    · exact hok psta₀ (h.ok psta₀ hmem)
    · exact h.ok psta₀ hmem

/-- one station is changed, and has as many ticks as before, or more -/
theorem updSta_ok (h : AsocOk cfg asocList) (f : StaAge → StaAge) (hf : ∀ psta, (f psta).aid = psta.aid)
    (hok : ∀ psta, psta.Ok cfg → (f psta).Ok cfg ∧ psta.left cfg ≤ (f psta).left cfg) (aid i : Nat) :
    AsocOk cfg (updSta aid f asocList) ∧ leftOf cfg i asocList ≤ leftOf cfg i (updSta aid f asocList) := by
  refine ⟨h.of_updSta f hf (fun psta hpsta => (hok psta hpsta).1) aid, ?_⟩
  unfold leftOf updSta
  rw [get_map (updSta_aid hf aid)]
  cases hg : get StaAge.aid i asocList with
  | none => exact Nat.zero_le _
  | some psta =>
    show psta.left cfg ≤ (if psta.aid = aid then f psta else psta).left cfg
    split
    · exact (hok psta (h.ok psta (mem_of_get hg))).2
    · exact Nat.le_refl _

/-- a change that the count of the ticks does not see -/
theorem StaAge.Ok.of_counts {psta : StaAge} (h : psta.Ok cfg) (psta' : StaAge) (hexp : psta'.expireTo = psta.expireTo)
    (htry : psta'.keepAliveTrycnt = psta.keepAliveTrycnt) (hlast : psta'.lastRxPkts = psta.lastRxPkts)
    (hrx : psta'.rxPkts = psta.rxPkts) (hasoc : psta'.asocState = psta.asocState) :
    psta'.Ok cfg ∧ psta'.left cfg = psta.left cfg := by
  refine ⟨⟨hexp ▸ h.pos, hexp ▸ h.le, htry ▸ h.trycnt, by rw [hlast, hrx]; exact h.last, hasoc ▸ h.asoc⟩, ?_⟩
  unfold left rest
  rw [hexp, htry, hlast, hrx]

theorem StaAge.Ok.sleep {psta : StaAge} (h : psta.Ok cfg) : psta.sleep.Ok cfg :=
  (h.of_counts psta.sleep rfl rfl rfl rfl rfl).1

theorem StaAge.Ok.enqueue {psta : StaAge} (h : psta.Ok cfg) : psta.enqueue.Ok cfg :=
  (h.of_counts psta.enqueue rfl rfl rfl rfl rfl).1

theorem StaAge.Ok.setExpire {psta : StaAge} (h : psta.Ok cfg) {ticks : Nat} (hpos : 1 ≤ ticks)
    (hle : ticks ≤ cfg.expireTo) : (psta.setExpire ticks).Ok cfg :=
  ⟨hpos, hle, h.trycnt, h.last, h.asoc⟩

theorem StaAge.Ok.clearStats {psta : StaAge} (h : psta.Ok cfg) : psta.clearStats.Ok cfg :=
  ⟨h.pos, h.le, h.trycnt, Nat.le_refl 0, h.asoc⟩

/-- the time of a station begins again, without an end to its checks -/
theorem StaAge.Ok.renewed {psta psta' : StaAge} (h : psta.Ok cfg) (hcfg : 1 ≤ cfg.expireTo)
    (hexp : psta'.expireTo = cfg.expireTo) (htry : psta'.keepAliveTrycnt = psta.keepAliveTrycnt)
    (hlast : psta'.lastRxPkts = psta.lastRxPkts) (hrx : psta'.rxPkts = psta.rxPkts)
    (hasoc : psta'.asocState = psta.asocState) : psta'.Ok cfg ∧ psta.left cfg ≤ psta'.left cfg := by
  refine ⟨⟨hexp ▸ hcfg, Nat.le_of_eq hexp, htry ▸ h.trycnt, by rw [hlast, hrx]; exact h.last, hasoc ▸ h.asoc⟩, ?_⟩
  have hle := h.le
  unfold left rest
  rw [hexp, htry, hlast, hrx]
  split <;> omega

theorem StaAge.Ok.wake {psta : StaAge} (h : psta.Ok cfg) (hcfg : 1 ≤ cfg.expireTo) :
    (psta.wakeupStaToXmit cfg).Ok cfg ∧ psta.left cfg ≤ (psta.wakeupStaToXmit cfg).left cfg := by
  cases hchk : psta.staAliveChkState with
  | true => exact h.renewed hcfg (if_pos hchk) rfl rfl rfl rfl
  | false =>
    have hexp : (psta.wakeupStaToXmit cfg).expireTo = psta.expireTo := if_neg (by rw [hchk]; decide)
    have hsame := h.of_counts _ hexp rfl rfl rfl rfl
    exact ⟨hsame.1, Nat.le_of_eq hsame.2.symm⟩

theorem StaAge.Ok.aliveRsp {psta : StaAge} (h : psta.Ok cfg) (hcfg : 1 ≤ cfg.expireTo) :
    (psta.aliveRsp cfg).Ok cfg ∧ psta.left cfg ≤ (psta.aliveRsp cfg).left cfg := by
  unfold StaAge.aliveRsp
  split
  · exact h.renewed hcfg rfl rfl rfl rfl rfl
  · exact ⟨h, Nat.le_refl _⟩

/-- a frame: the station is alive at the next tick -/
theorem StaAge.Ok.rx {psta : StaAge} (h : psta.Ok cfg) :
    psta.rx.Ok cfg ∧ psta.rx.left cfg = cfg.expireTo + 4 := by
  have hlast := h.last
  refine ⟨⟨h.pos, h.le, h.trycnt, Nat.le_succ_of_le hlast, h.asoc⟩, ?_⟩
  exact if_neg (show ¬ psta.lastRxPkts = psta.rxPkts + 1 by omega)

theorem StaAge.Ok.left_le {psta : StaAge} (h : psta.Ok cfg) : psta.left cfg ≤ cfg.expireTo + 4 := by
  have hle := h.le
  unfold left rest
  split <;> omega

theorem rx_ok (h : AsocOk cfg asocList) (aid i : Nat) : AsocOk cfg (updSta aid StaAge.rx asocList)
    ∧ leftOf cfg i asocList ≤ leftOf cfg i (updSta aid StaAge.rx asocList) :=
  updSta_ok h .rx (fun _ => rfl) (fun _ hp => ⟨hp.rx.1, hp.rx.2 ▸ hp.left_le⟩) aid i

theorem sleep_ok (h : AsocOk cfg asocList) (aid i : Nat) : AsocOk cfg (updSta aid StaAge.sleep asocList)
    ∧ leftOf cfg i asocList ≤ leftOf cfg i (updSta aid StaAge.sleep asocList) :=
  updSta_ok h .sleep (fun _ => rfl) (fun _ hp => ⟨hp.sleep, Nat.le_refl _⟩) aid i

theorem enqueue_ok (h : AsocOk cfg asocList) (aid i : Nat) : AsocOk cfg (updSta aid StaAge.enqueue asocList)
    ∧ leftOf cfg i asocList ≤ leftOf cfg i (updSta aid StaAge.enqueue asocList) :=
  updSta_ok h .enqueue (fun _ => rfl) (fun _ hp => ⟨hp.enqueue, Nat.le_refl _⟩) aid i

theorem wake_ok (h : AsocOk cfg asocList) (hcfg : 1 ≤ cfg.expireTo) (aid i : Nat) :
    AsocOk cfg (updSta aid (StaAge.wakeupStaToXmit cfg) asocList)
      ∧ leftOf cfg i asocList ≤ leftOf cfg i (updSta aid (StaAge.wakeupStaToXmit cfg) asocList) :=
  updSta_ok h (.wakeupStaToXmit cfg) (fun _ => rfl) (fun _ hp => hp.wake hcfg) aid i

theorem aliveRsp_ok (h : AsocOk cfg asocList) (hcfg : 1 ≤ cfg.expireTo) (aid i : Nat) :
    AsocOk cfg (updSta aid (StaAge.aliveRsp cfg) asocList)
      ∧ leftOf cfg i asocList ≤ leftOf cfg i (updSta aid (StaAge.aliveRsp cfg) asocList) :=
  updSta_ok h (.aliveRsp cfg) aliveRsp_aid (fun _ hp => hp.aliveRsp hcfg) aid i

/-! ## runs -/

def AgeEvent.isTick : AgeEvent → Bool
  | .tick _ => true
  | _ => false

/-- the station does not leave, and it does not authenticate or associate again -/
def AgeEvent.Stays (aid : Nat) : AgeEvent → Prop
  | .auth i | .externalAuth i | .reassoc i | .leave i => i ≠ aid
  | _ => True

/-- nothing is heard of the station -/
def QuietStep (cfg : AgeCfg) (aid : Nat) (asocList : List StaAge) : AgeEvent → Prop
  | .assoc i | .rx i | .wake i | .aliveRsp i | .auth i | .externalAuth i | .reassoc i | .leave i => i ≠ aid
  | .sleep _ | .enqueue _ => True
  | .tick env => ∀ psta ∈ get StaAge.aid aid asocList, psta.Quiet cfg env asocList.length

instance (cfg : AgeCfg) (env : TickEnv) (n : Nat) (psta : StaAge) : Decidable (psta.Quiet cfg env n) :=
  inferInstanceAs (Decidable (_ ∧ _ ∧ _))

instance (cfg : AgeCfg) (aid : Nat) (asocList : List StaAge) : (e : AgeEvent) →
    Decidable (QuietStep cfg aid asocList e)
  | .assoc i | .rx i | .wake i | .aliveRsp i | .auth i | .externalAuth i | .reassoc i | .leave i =>
    inferInstanceAs (Decidable (i ≠ aid))
  | .sleep _ | .enqueue _ => isTrue trivial
  | .tick env => inferInstanceAs (Decidable (∀ psta ∈ get StaAge.aid aid asocList, psta.Quiet cfg env asocList.length))

theorem leftOf_filter {aid i : Nat} (h : i ≠ aid) :
    leftOf cfg aid (asocList.filter fun psta => psta.aid ≠ i) = leftOf cfg aid asocList := by
  unfold leftOf Keyed.get
  rw [List.find?_filter]
  congr 3
  funext psta
  by_cases ha : psta.aid = aid
  · simp [ha, h.symm]
  · simp [ha]

theorem leftOf_updSta_ne (f : StaAge → StaAge) (hf : ∀ psta, (f psta).aid = psta.aid) {aid i : Nat} (h : i ≠ aid) :
    leftOf cfg aid (updSta i f asocList) = leftOf cfg aid asocList := by
  unfold leftOf updSta
  rw [get_map (updSta_aid hf i)]
  cases hg : get StaAge.aid aid asocList with
  | none => rfl
  | some psta =>
    have ha : psta.aid = aid := by simpa [Keyed.get] using List.find?_some hg
    have hne : psta.aid ≠ i := ha.trans_ne h.symm
    rw [Option.map_some, if_neg hne]

/-- a change of one station that the count of the ticks does not see -/
theorem leftOf_updSta_same (f : StaAge → StaAge) (hf : ∀ psta, (f psta).aid = psta.aid)
    (hsame : ∀ psta, (f psta).left cfg = psta.left cfg) (aid i : Nat) :
    leftOf cfg aid (updSta i f asocList) = leftOf cfg aid asocList := by
  unfold leftOf updSta
  rw [get_map (updSta_aid hf i)]
  cases get StaAge.aid aid asocList with
  | none => rfl
  | some psta =>
    show (if psta.aid = i then f psta else psta).left cfg = psta.left cfg
    split
    · exact hsame psta
    · rfl

theorem leftOf_append {psta : StaAge} {aid : Nat} (h : psta.aid ≠ aid) :
    leftOf cfg aid (asocList ++ [psta]) = leftOf cfg aid asocList := by
  unfold leftOf Keyed.get
  rw [List.find?_append]
  simp [h]

theorem leftOf_append_le (psta : StaAge) (aid : Nat) :
    leftOf cfg aid asocList ≤ leftOf cfg aid (asocList ++ [psta]) := by
  unfold leftOf Keyed.get
  rw [List.find?_append]
  cases asocList.find? fun b => decide (b.aid = aid) with
  | none => exact Nat.zero_le _
  | some b => exact Nat.le_refl _

theorem AsocOk.tick (h : AsocOk cfg asocList) (hcfg : 1 ≤ cfg.expireTo) (env : TickEnv) :
    AsocOk cfg (expireTimeoutChk cfg env asocList) := by
  rw [expireTimeoutChk_eq]
  refine ⟨(keys_filterMap (fun _ _ hs => StaAge.tick_aid hs) asocList).nodup h.nodup, fun psta hpsta => ?_⟩
  obtain ⟨psta₀, hmem, hsome⟩ := List.mem_filterMap.mp hpsta
  exact ((StaAge.tick_spec hcfg env asocList.length (h.ok psta₀ hmem)).2 psta hsome).1

/-- a tick takes one of the ticks of a station at most, and one if it is quiet -/
theorem AsocOk.tick_left (h : AsocOk cfg asocList) (hcfg : 1 ≤ cfg.expireTo) (env : TickEnv) (aid : Nat) :
    leftOf cfg aid asocList ≤ leftOf cfg aid (expireTimeoutChk cfg env asocList) + 1
      ∧ (QuietStep cfg aid asocList (.tick env) →
        leftOf cfg aid (expireTimeoutChk cfg env asocList) = leftOf cfg aid asocList - 1) := by
  have hget : leftOf cfg aid (expireTimeoutChk cfg env asocList)
      = (((get StaAge.aid aid asocList).bind (StaAge.tick cfg env asocList.length)).map (·.left cfg)).getD 0 := by
    unfold leftOf
    rw [expireTimeoutChk_eq, get_filterMap (fun _ _ hs => StaAge.tick_aid hs) aid h.nodup]
  rw [hget]
  show _ ∧ ((∀ psta ∈ get StaAge.aid aid asocList, psta.Quiet cfg env asocList.length) → _)
  unfold leftOf
  cases hg : get StaAge.aid aid asocList with
  | none => exact ⟨Nat.zero_le _, fun _ => rfl⟩
  | some psta =>
    have hspec := StaAge.tick_spec hcfg env asocList.length (h.ok psta (mem_of_get hg))
    simp only [Option.bind_some, Option.map_some, Option.getD_some]
    cases ht : psta.tick cfg env asocList.length with
    | none =>
      have hone := hspec.1 ht
      exact ⟨Nat.le_of_eq hone, fun _ => by rw [hone]; rfl⟩
    | some psta' =>
      obtain ⟨-, hle, hquiet⟩ := hspec.2 psta' ht
      exact ⟨hle, fun hq => (Nat.sub_eq_of_eq_add (hquiet (hq psta rfl))).symm⟩

theorem AsocOk.step (h : AsocOk cfg asocList) (hcfg : 3 ≤ cfg.expireTo) (e : AgeEvent) :
    AsocOk cfg (ageStep cfg asocList e) := by
  have hone : 1 ≤ cfg.expireTo := Nat.le_trans (by decide) hcfg
  cases e with
  | assoc i =>
    show AsocOk cfg (if i ∈ asocList.map (·.aid) then asocList else asocList ++ [{ aid := i, expireTo := cfg.expireTo }])
    by_cases hnew : i ∈ asocList.map (·.aid)
    · rwa [if_pos hnew]
    · rw [if_neg hnew]
      refine ⟨?_, fun psta hpsta => ?_⟩
      · rw [List.map_append, List.map_singleton]
        refine List.nodup_append.mpr ⟨h.nodup, List.nodup_singleton _, fun a ha b hb hab => hnew ?_⟩
        have hb' : b = i := List.mem_singleton.mp hb
        rwa [hab, hb'] at ha
      · rcases List.mem_append.mp hpsta with hold | hlast
        · exact h.ok psta hold
        · rw [List.mem_singleton.mp hlast]
          exact ⟨hone, Nat.le_refl _, Nat.zero_le _, Nat.le_refl _, rfl⟩
  | rx i => exact (rx_ok h i i).1
  | sleep i => exact (sleep_ok h i i).1
  | enqueue i => exact (enqueue_ok h i i).1
  | wake i => exact (wake_ok h hone i i).1
  | aliveRsp i => exact (aliveRsp_ok h hone i i).1
  | auth i => exact h.of_updSta (·.setExpire authTo) (fun _ => rfl) (fun _ hp => hp.setExpire (by decide) hcfg) i
  | externalAuth i =>
    exact h.of_updSta (·.setExpire assocTo) (fun _ => rfl) (fun _ hp => hp.setExpire (by decide) hcfg) i
  | reassoc i => exact h.of_updSta .clearStats (fun _ => rfl) (fun _ hp => hp.clearStats) i
  | leave i =>
    exact ⟨(List.filter_sublist.map _).nodup h.nodup, fun psta hpsta => h.ok psta (List.mem_of_mem_filter hpsta)⟩
  | tick env => exact h.tick hone env

/-- an event takes no more than its tick -/
theorem AsocOk.step_left (h : AsocOk cfg asocList) (hcfg : 1 ≤ cfg.expireTo) {e : AgeEvent} {aid : Nat}
    (he : e.Stays aid) : leftOf cfg aid asocList ≤ leftOf cfg aid (ageStep cfg asocList e) + e.isTick.toNat := by
  cases e with
  | assoc i =>
    show leftOf cfg aid asocList ≤ leftOf cfg aid (if _ then _ else _)
    split
    · exact Nat.le_refl _
    · exact leftOf_append_le _ aid
  | rx i => exact (rx_ok h i aid).2
  | sleep i => exact (sleep_ok h i aid).2
  | enqueue i => exact (enqueue_ok h i aid).2
  | wake i => exact (wake_ok h hcfg i aid).2
  | aliveRsp i => exact (aliveRsp_ok h hcfg i aid).2
  | auth i => exact Nat.le_of_eq (leftOf_updSta_ne (·.setExpire authTo) (fun _ => rfl) he).symm
  | externalAuth i => exact Nat.le_of_eq (leftOf_updSta_ne (·.setExpire assocTo) (fun _ => rfl) he).symm
  | reassoc i => exact Nat.le_of_eq (leftOf_updSta_ne .clearStats (fun _ => rfl) he).symm
  | leave i => exact Nat.le_of_eq (leftOf_filter he).symm
  | tick env => exact (h.tick_left hcfg env aid).1

/-- and a quiet one takes its tick -/
theorem AsocOk.step_quiet (h : AsocOk cfg asocList) (hcfg : 1 ≤ cfg.expireTo) {e : AgeEvent} {aid : Nat}
    (he : QuietStep cfg aid asocList e) :
    leftOf cfg aid (ageStep cfg asocList e) = leftOf cfg aid asocList - e.isTick.toNat := by
  cases e with
  | assoc i =>
    show leftOf cfg aid (if _ then _ else _) = _
    split
    · rfl
    · exact leftOf_append he
  | rx i => exact leftOf_updSta_ne .rx (fun _ => rfl) he
  | wake i => exact leftOf_updSta_ne (.wakeupStaToXmit cfg) (fun _ => rfl) he
  | aliveRsp i => exact leftOf_updSta_ne (.aliveRsp cfg) aliveRsp_aid he
  | auth i => exact leftOf_updSta_ne (·.setExpire authTo) (fun _ => rfl) he
  | externalAuth i => exact leftOf_updSta_ne (·.setExpire assocTo) (fun _ => rfl) he
  | reassoc i => exact leftOf_updSta_ne .clearStats (fun _ => rfl) he
  | leave i => exact leftOf_filter he
  | sleep i => exact leftOf_updSta_same .sleep (fun _ => rfl) (fun _ => rfl) aid i
  | enqueue i => exact leftOf_updSta_same .enqueue (fun _ => rfl) (fun _ => rfl) aid i
  | tick env => exact (h.tick_left hcfg env aid).2 he

theorem asocOk_run (hcfg : 3 ≤ cfg.expireTo) (es : List AgeEvent) : AsocOk cfg (run (ageStep cfg) [] es) :=
  run_inv_all (I := AsocOk cfg) (fun _ e h => AsocOk.step h hcfg e) [] es ⟨List.nodup_nil, fun psta h => by cases h⟩

/-- a station that was just heard has all its ticks -/
theorem AsocOk.left_rx (h : AsocOk cfg asocList) {aid : Nat} (hin : (get StaAge.aid aid asocList).isSome = true) :
    leftOf cfg aid (ageStep cfg asocList (.rx aid)) = cfg.expireTo + 4 := by
  obtain ⟨psta, hg⟩ := Option.isSome_iff_exists.mp hin
  have haid : psta.aid = aid := by simpa [Keyed.get] using List.find?_some hg
  show leftOf cfg aid (updSta aid _ asocList) = _
  unfold leftOf updSta
  have haids : ∀ psta : StaAge, psta.rx.aid = psta.aid := fun _ => rfl
  rw [get_map (updSta_aid haids aid), hg, Option.map_some, if_pos haid]
  exact (h.ok psta (mem_of_get hg)).rx.2

end

/-- is the station associated? -/
def isAsoc (aid : Nat) (asocList : List StaAge) : Bool := (get StaAge.aid aid asocList).isSome

/-- it is, as long as it has ticks -/
theorem isAsoc_run_iff {cfg : AgeCfg} (hcfg : 3 ≤ cfg.expireTo) (aid : Nat) (es : List AgeEvent) :
    isAsoc aid (run (ageStep cfg) [] es) = true ↔ 0 < leftOf cfg aid (run (ageStep cfg) [] es) :=
  ((asocOk_run hcfg es).leftOf_pos aid).symm

/-- **A station that was heard stays**: after a data or control frame, `expire_to + 3` ticks pass before it can be
deleted, whatever happens at them. -/
theorem aging_kept {cfg : AgeCfg} (hcfg : 3 ≤ cfg.expireTo) (aid : Nat) (es₀ es : List AgeEvent)
    (hin : isAsoc aid (run (ageStep cfg) [] es₀) = true) (hes : ∀ e ∈ es, e.Stays aid)
    (hticks : es.countP AgeEvent.isTick ≤ cfg.expireTo + 3) :
    isAsoc aid (run (ageStep cfg) [] (es₀ ++ .rx aid :: es)) = true := by
  have hone : 1 ≤ cfg.expireTo := Nat.le_trans (by decide) hcfg
  have h₀ := asocOk_run hcfg es₀
  have hlong := Lease.left_le_run (I := AsocOk cfg) (leftOf cfg aid) AgeEvent.isTick (fun _ e h => AsocOk.step h hcfg e)
    (fun _ _ h he => AsocOk.step_left h hone he) _ es (h₀.step hcfg (.rx aid)) hes
  rw [h₀.left_rx hin] at hlong
  rw [isAsoc_run_iff hcfg, run_append]
  show 0 < leftOf cfg aid (run (ageStep cfg) (ageStep cfg (run (ageStep cfg) [] es₀) (.rx aid)) es)
  omega

/-- nobody acknowledges -/
def nobody : TickEnv := { ack := fun _ => false }

theorem aging_kept_silent : isAsoc 1 (run (ageStep ⟨60, false⟩) []
    ([.assoc 1] ++ .rx 1 :: List.replicate 63 (.tick nobody))) = true := by
  refine aging_kept (by decide) 1 [.assoc 1] (List.replicate 63 (.tick nobody)) (by decide) (fun e he => ?_) (by decide)
  rw [List.eq_of_mem_replicate he]
  exact trivial

/-- **and no longer**: if it is not heard again and acknowledges none of the null frames, it is associated exactly
until the tick after that. -/
theorem aging_iff {cfg : AgeCfg} (hcfg : 3 ≤ cfg.expireTo) (aid : Nat) (es₀ es : List AgeEvent)
    (hin : isAsoc aid (run (ageStep cfg) [] es₀) = true)
    (hes : Along (ageStep cfg) (QuietStep cfg aid) (run (ageStep cfg) [] (es₀ ++ [.rx aid])) es) :
    isAsoc aid (run (ageStep cfg) [] (es₀ ++ .rx aid :: es)) = true
      ↔ es.countP AgeEvent.isTick ≤ cfg.expireTo + 3 := by
  rw [run_append] at hes
  have hone : 1 ≤ cfg.expireTo := Nat.le_trans (by decide) hcfg
  have h₀ := asocOk_run hcfg es₀
  have hlong := Lease.left_run (I := AsocOk cfg) (leftOf cfg aid) AgeEvent.isTick (fun _ e h => AsocOk.step h hcfg e)
    (fun _ _ h he => AsocOk.step_quiet h hone he) _ es (h₀.step hcfg (.rx aid)) hes
  rw [h₀.left_rx hin] at hlong
  rw [isAsoc_run_iff hcfg, run_append]
  show 0 < leftOf cfg aid (run (ageStep cfg) (ageStep cfg (run (ageStep cfg) [] es₀) (.rx aid)) es) ↔ _
  omega

theorem aging_iff_seven : isAsoc 1 (run (ageStep ⟨3, false⟩) []
    ([.assoc 1] ++ .rx 1 :: List.replicate 7 (.tick nobody))) ≠ true :=
  (aging_iff (by decide) 1 [.assoc 1] (List.replicate 7 (.tick nobody)) (by decide) (by decide)).not.mpr (by decide)

end Rtl8192eu
