import Rtl8192eu.Lib.RegBits
import Rtl8192eu.Lib.Run

/-!
# The power sequences

`HalPwrSeqCmdParsing` of `hal/HalPwrSeqCmd.c`, for USB, and the sequences of `include/Hal8192EPwrSeq.h` and
`hal/rtl8192e/Hal8192EPwrSeq.c`. `HW_VAR_PWR_CMD` is not known to this chip, so that `bHWICSupport` stays false.

* `halPwrSeqCmdParsing`   the interpreter of the commands;
* `program`     what the commands for a cut, a fab and an interface ask for;
* `halPwrSeqCmdParsing_true_iff`   the sequences that succeed;
* `cardEnable_changed`   what the enable sequence leaves of the chip, whatever hardware does;
* `power_run`   while the driver takes the chip for powered, it runs.
-/

namespace Rtl8192eu

open RegBits Run

/-- `WLAN_PWR_CFG` -/
structure WlanPwrCfg where
  offset : UInt16
  cutMsk : UInt8
  fabMsk : UInt8
  interfaceMsk : UInt8
  base : UInt8
  cmd : UInt8
  msk : UInt8
  value : UInt8
  deriving DecidableEq, Repr

/-- the command is for this cut, fab and interface -/
def WlanPwrCfg.matched (cut fab intf : UInt8) (c : WlanPwrCfg) : Bool :=
  c.fabMsk &&& fab != 0 && c.cutMsk &&& cut != 0 && c.interfaceMsk &&& intf != 0

def WlanPwrCfg.patch (c : WlanPwrCfg) : Patch := ⟨c.msk, c.value⟩

/-- the value is `PWRSEQ_DELAY_US`, or the offset counts milliseconds -/
def WlanPwrCfg.delayUs (c : WlanPwrCfg) : Nat :=
  if c.value = 0 then c.offset.toNat else c.offset.toNat * 1000

def maxPollingCnt : Nat := 5000

section
variable {σ : Type*} (bus : Bus σ) (cut fab intf : UInt8)

/-- `left` counts the reads that may still be made, `maxPollingCnt + 1` at first, for all commands together;
`none` is for an array without an end -/
def pwrSeqLoop : Nat → List WlanPwrCfg → σ → Option (Bool × σ)
  | _, [], _ => none
  | left, c :: cs, d =>
    if c.matched cut fab intf then
      match c.cmd with
      | 0x01 => pwrSeqLoop left cs (bus.modify c.offset.toNat c.patch d)
      | 0x02 =>
        let r := bus.poll 10 c.offset.toNat c.patch left d
        if r.1 then pwrSeqLoop r.2.1 cs r.2.2 else some (false, r.2.2)
      | 0x03 => pwrSeqLoop left cs (bus.delay c.delayUs d)
      | 0x04 => some (true, d)
      | _ => pwrSeqLoop left cs d
    else pwrSeqLoop left cs d

def halPwrSeqCmdParsing (pwrSeqCmd : List WlanPwrCfg) (d : σ) : Option (Bool × σ) :=
  pwrSeqLoop bus cut fab intf (maxPollingCnt + 1) pwrSeqCmd d

/-- what the commands up to the end ask for -/
def program : List WlanPwrCfg → Option (List RegBits.Act)
  | [] => none
  | c :: cs =>
    if c.matched cut fab intf then
      match c.cmd with
      | 0x01 => (program cs).map (.set c.offset.toNat c.patch :: ·)
      | 0x02 => (program cs).map (.poll c.offset.toNat c.patch :: ·)
      | 0x03 => (program cs).map (.delay c.delayUs :: ·)
      | 0x04 => some []
      | _ => program cs
    else program cs

theorem pwrSeqLoop_eq (left : Nat) (cs : List WlanPwrCfg) (d : σ) :
    ∀ acts, program cut fab intf cs = some acts →
      pwrSeqLoop bus cut fab intf left cs d = some (execute bus 10 left acts d) := by
  induction cs generalizing left d with
  | nil =>
    intro acts h
    cases h
  | cons c cs ih =>
    intro acts h
    unfold program at h
    unfold pwrSeqLoop
    split at h
    · rename_i hm
      rw [if_pos hm]
      split at h
      · obtain ⟨rest, hrest, rfl⟩ := Option.map_eq_some_iff.mp h
        exact ih _ _ rest hrest
      · obtain ⟨rest, hrest, rfl⟩ := Option.map_eq_some_iff.mp h
        unfold execute
        dsimp only
        split
        · exact ih _ _ rest hrest
        · rfl
      · obtain ⟨rest, hrest, rfl⟩ := Option.map_eq_some_iff.mp h
        exact ih _ _ rest hrest
      · cases h
        rfl
      · exact ih _ _ acts h
    · rename_i hm
      rw [if_neg hm]
      exact ih _ _ acts h

variable {bus} {cut fab intf}

/-- **The sequences that succeed**: the bits that the commands wait for come, after at most 5001 reads in all. -/
theorem halPwrSeqCmdParsing_true_iff {cs : List WlanPwrCfg} {acts : List RegBits.Act}
    (hp : program cut fab intf cs = some acts) (d d' : σ) :
    halPwrSeqCmdParsing bus cut fab intf cs d = some (true, d') ↔ ∃ n ≤ 5001, Runs bus 10 acts n d d' := by
  unfold halPwrSeqCmdParsing
  rw [pwrSeqLoop_eq bus cut fab intf _ cs d acts hp, Option.some.injEq, execute_true_iff]
  rfl

end

/-! ## the sequences of the chip -/

def transCardemuToAct : List WlanPwrCfg := [
  ⟨0x0005, 0xFF, 0x0F, 0x0F, 0, 1, 0x80, 0x00⟩, ⟨0x0005, 0xFF, 0x0F, 0x0F, 0, 1, 0x04, 0x00⟩,
  ⟨0x0005, 0xFF, 0x0F, 0x0F, 0, 1, 0x18, 0x00⟩, ⟨0x0006, 0xFF, 0x0F, 0x0F, 0, 2, 0x02, 0x02⟩,
  ⟨0x0006, 0xFF, 0x0F, 0x0F, 0, 1, 0x01, 0x01⟩, ⟨0x0005, 0xFF, 0x0F, 0x0F, 0, 1, 0x01, 0x01⟩,
  ⟨0x0005, 0xFF, 0x0F, 0x0F, 0, 2, 0x01, 0x00⟩]

def transActToCardemu : List WlanPwrCfg := [
  ⟨0x001F, 0xFF, 0x0F, 0x0F, 0, 1, 0xFF, 0x00⟩, ⟨0x004E, 0xFF, 0x0F, 0x0F, 0, 1, 0x80, 0x00⟩,
  ⟨0x0005, 0xFF, 0x0F, 0x0F, 0, 1, 0x02, 0x02⟩, ⟨0x0005, 0xFF, 0x0F, 0x0F, 0, 2, 0x02, 0x00⟩]

def transCardemuToCarddis : List WlanPwrCfg := [
  ⟨0x0007, 0xFF, 0x0F, 0x01, 0, 1, 0xFF, 0x20⟩, ⟨0x00CC, 0xFF, 0x0F, 0x01, 0, 1, 0x04, 0x04⟩,
  ⟨0x0011, 0xFF, 0x0F, 0x01, 0, 1, 0x01, 0x00⟩, ⟨0x0005, 0xFF, 0x0F, 0x03, 0, 1, 0x18, 0x08⟩,
  ⟨0x0005, 0xFF, 0x0F, 0x04, 0, 1, 0x04, 0x04⟩, ⟨0x0086, 0xFF, 0x0F, 0x01, 3, 1, 0x01, 0x01⟩,
  ⟨0x0086, 0xFF, 0x0F, 0x01, 3, 2, 0x02, 0x00⟩]

def transCarddisToCardemu : List WlanPwrCfg := [
  ⟨0x0086, 0xFF, 0x0F, 0x01, 3, 1, 0x01, 0x00⟩, ⟨0x0086, 0xFF, 0x0F, 0x01, 3, 2, 0x02, 0x02⟩,
  ⟨0x0011, 0xFF, 0x0F, 0x01, 0, 1, 0x01, 0x01⟩, ⟨0x00CC, 0xFF, 0x0F, 0x01, 0, 1, 0x04, 0x00⟩,
  ⟨0x0005, 0xFF, 0x0F, 0x0F, 0, 1, 0x18, 0x00⟩]

def transActToLps : List WlanPwrCfg := [
  ⟨0x0301, 0xFF, 0x0F, 0x04, 0, 1, 0xFF, 0xFF⟩, ⟨0x0522, 0xFF, 0x0F, 0x0F, 0, 1, 0xFF, 0xFF⟩,
  ⟨0x05F8, 0xFF, 0x0F, 0x0F, 0, 2, 0xFF, 0x00⟩, ⟨0x05F9, 0xFF, 0x0F, 0x0F, 0, 2, 0xFF, 0x00⟩,
  ⟨0x05FA, 0xFF, 0x0F, 0x0F, 0, 2, 0xFF, 0x00⟩, ⟨0x05FB, 0xFF, 0x0F, 0x0F, 0, 2, 0xFF, 0x00⟩,
  ⟨0x0002, 0xFF, 0x0F, 0x0F, 0, 1, 0x01, 0x00⟩, ⟨0x0002, 0xFF, 0x0F, 0x0F, 0, 3, 0x00, 0x00⟩,
  ⟨0x0002, 0xFF, 0x0F, 0x0F, 0, 1, 0x02, 0x00⟩, ⟨0x0100, 0xFF, 0x0F, 0x0F, 0, 1, 0xFF, 0x03⟩,
  ⟨0x0101, 0xFF, 0x0F, 0x0F, 0, 1, 0x02, 0x00⟩, ⟨0x0093, 0xFF, 0x0F, 0x01, 0, 1, 0xFF, 0x00⟩,
  ⟨0x0553, 0xFF, 0x0F, 0x0F, 0, 1, 0x20, 0x20⟩]

def transEnd : List WlanPwrCfg := [⟨0xFFFF, 0xFF, 0x0F, 0x0F, 0, 4, 0x00, 0x00⟩]

/-- `Rtl8192E_NIC_ENABLE_FLOW` -/
def rtl8192ECardEnableFlow : List WlanPwrCfg := transCarddisToCardemu ++ transCardemuToAct ++ transEnd

/-- `Rtl8192E_NIC_DISABLE_FLOW` -/
def rtl8192ECardDisableFlow : List WlanPwrCfg := transActToCardemu ++ transCardemuToCarddis ++ transEnd

/-- `Rtl8192E_NIC_LPS_ENTER_FLOW` -/
def rtl8192EEnterLpsFlow : List WlanPwrCfg := transActToLps ++ transEnd

/-- the commands of this chip are for every cut and fab -/
theorem program_all {cs : List WlanPwrCfg} {cut fab intf : UInt8} (hcs : ∀ c ∈ cs, c.cutMsk = 0xFF ∧ c.fabMsk = 0x0F)
    (hcut : cut ≠ 0) (hfab : fab &&& 0x0F ≠ 0) : program cut fab intf cs = program 0xFF 0x0F intf cs := by
  have hones : ∀ i < 8, (0xFF : UInt8).toBitVec.getLsbD i = true := by decide
  have hff : ∀ v : UInt8, 0xFF &&& v = v := by
    intro v
    apply byte_ext
    intro i hi
    rw [UInt8.toBitVec_and, BitVec.getLsbD_and, hones i hi, Bool.true_and]
  induction cs with
  | nil => rfl
  | cons c cs ih =>
    have hm : c.matched cut fab intf = c.matched 0xFF 0x0F intf := by
      obtain ⟨h1, h2⟩ := hcs c (List.mem_cons_self ..)
      unfold WlanPwrCfg.matched
      rw [h1, h2, UInt8.and_comm 0x0F fab, hff cut]
      simp [hcut, hfab]
    unfold program
    rw [hm, ih fun c hc => hcs c (List.mem_cons_of_mem _ hc)]

/-- what the sequences ask for, on USB and on the mask that the driver uses at power on -/
theorem program_cardEnable {cut fab intf : UInt8} (hcut : cut ≠ 0) (hfab : fab &&& 0x0F ≠ 0)
    (hintf : intf = 2 ∨ intf = 4) :
    program cut fab intf rtl8192ECardEnableFlow
      = some [.set 5 ⟨0x18, 0⟩, .set 5 ⟨0x80, 0⟩, .set 5 ⟨0x04, 0⟩, .set 5 ⟨0x18, 0⟩, .poll 6 ⟨0x02, 0x02⟩,
          .set 6 ⟨0x01, 0x01⟩, .set 5 ⟨0x01, 0x01⟩, .poll 5 ⟨0x01, 0⟩] := by
  rw [program_all (by decide) hcut hfab]
  rcases hintf with rfl | rfl <;> rfl

/-! ## power on and off -/

section
variable {σ : Type*} (bus : Bus σ)

/-- words are moved byte by byte, the low one first -/
def rtwRead32 (a : Nat) (d : σ) : UInt32 × σ :=
  let r0 := bus.read a d
  let r1 := bus.read (a + 1) r0.2
  let r2 := bus.read (a + 2) r1.2
  let r3 := bus.read (a + 3) r2.2
  (r0.1.toUInt32 ||| r1.1.toUInt32 <<< 8 ||| r2.1.toUInt32 <<< 16 ||| r3.1.toUInt32 <<< 24, r3.2)

def rtwWrite32 (a : Nat) (v : UInt32) (d : σ) : σ :=
  bus.write (a + 3) (v >>> 24).toUInt8 <| bus.write (a + 2) (v >>> 16).toUInt8 <|
    bus.write (a + 1) (v >>> 8).toUInt8 <| bus.write a v.toUInt8 d

def rtwRead16 (a : Nat) (d : σ) : UInt16 × σ :=
  let r0 := bus.read a d
  let r1 := bus.read (a + 1) r0.2
  (r0.1.toUInt16 ||| r1.1.toUInt16 <<< 8, r1.2)

def rtwWrite16 (a : Nat) (v : UInt16) (d : σ) : σ := bus.write (a + 1) (v >>> 8).toUInt8 (bus.write a v.toUInt8 d)

/-- the regulator: LDO, or SPS, whose voltage is raised -/
def setRegulator (d : σ) : σ :=
  let r := rtwRead32 bus 0xF0 d
  if r.1 &&& (0x01000000 : UInt32) ≠ 0 then bus.write 0x7C 0xC3 r.2
  else
    let v := rtwRead32 bus 0x14 r.2
    let d := if (v.1 &&& 0x00F00000) >>> (20 : UInt32) = 4 then
        rtwWrite32 bus 0x14 (v.1 &&& 0xFF0FFFFF ||| 0x00500000) v.2
      else v.2
    bus.write 0x7C 0x83 d

def halCrystalAFEAdjust (d : σ) : σ :=
  let d := bus.modify 0x28 ⟨0x04, 0⟩ d
  let r := rtwRead32 bus 0x78 d
  let d := rtwWrite32 bus 0x78 (r.1 &&& 0xfffffc7f) r.2
  let d := bus.modify 0x28 ⟨0x40, 0⟩ d
  let r := rtwRead32 bus 0x78 d
  rtwWrite32 bus 0x78 (r.1 &&& 0xffdfffff) r.2

/-- a sequence of the chip; it has an end (`program_cardEnable` and the others) -/
def pwrFlow (intf : UInt8) (flow : List WlanPwrCfg) (d : σ) : Bool × σ :=
  (halPwrSeqCmdParsing bus 0xFF 0x0F intf flow d).getD (false, d)

/-- the chip, and what the driver keeps of it -/
structure PwrState (σ : Type*) where
  dev : σ
  bMacPwrCtrlOn : Bool := false
  bFWReady : Bool := false

def initPowerOn8192eu (s : PwrState σ) : Bool × PwrState σ :=
  if s.bMacPwrCtrlOn then (true, s)
  else
    -- the mask of the interface is that of PCI
    let r := pwrFlow bus 4 rtl8192ECardEnableFlow (halCrystalAFEAdjust bus (setRegulator bus s.dev))
    if r.1 then
      let d := rtwWrite16 bus 0x100 0 r.2
      let v := rtwRead16 bus 0x100 d
      (true, { s with dev := rtwWrite16 bus 0x100 (v.1 ||| 0x063F) v.2, bMacPwrCtrlOn := true })
    else (false, { s with dev := r.2 })

def halPoweroff8192eu (s : PwrState σ) : PwrState σ :=
  if s.bMacPwrCtrlOn = false then s
  else
    let d := bus.modify 0x4EC ⟨0x02, 0⟩ s.dev
    let d := (pwrFlow bus 2 rtl8192EEnterLpsFlow (bus.write 0x100 0 d)).2
    let d := bus.modify 0x1D ⟨0x01, 0⟩ (bus.write 0x80 0 d)
    let d := bus.modify 0x1D ⟨0x01, 0x01⟩ (bus.modify 0x03 ⟨0x04, 0⟩ d)
    { dev := (pwrFlow bus 2 rtl8192ECardDisableFlow d).2, bMacPwrCtrlOn := false, bFWReady := false }

/-- `rtl8192e_hw_power_down` -/
def hwPowerDown (d : σ) : σ := rtwWrite16 bus 0x04 0x8812 (bus.write 0x1C 0 d)

/-- `rtl8192eu_hal_deinit`; `hwPowerdown` is `bHWPwrPindetect && bHWPowerdown` -/
def rtl8192euHalDeinit (supportUSB3 hwInitCompleted hwPowerdown : Bool) (s : PwrState σ) : PwrState σ :=
  let r := rtwRead16 bus 0x40 s.dev
  let d := rtwWrite16 bus 0x40 (r.1 &&& 0xEFFF) r.2
  let d := if supportUSB3 then bus.modify 0xF008 ⟨0x18, 0x18⟩ d else d
  let d := rtwWrite32 bus 0xBC 0xFFFFFFFF (rtwWrite32 bus 0xB4 0xFFFFFFFF d)
  let d := rtwWrite32 bus 0xB8 0 (rtwWrite32 bus 0xB0 0 d)
  let s := { s with dev := d }
  let s := if hwInitCompleted then
      let s := halPoweroff8192eu bus s
      if hwPowerdown then { s with dev := hwPowerDown bus s.dev } else s
    else s
  { s with bMacPwrCtrlOn := false }

/-- what happens to the chip: power on and off, and whatever else the driver and hardware do -/
inductive PwrEvent (σ : Type*) where
  | powerOn
  | powerOff
  | halDeinit (supportUSB3 hwInitCompleted hwPowerdown : Bool)
  | other (f : σ → σ)

def PwrState.step (s : PwrState σ) : PwrEvent σ → PwrState σ
  | .powerOn => (initPowerOn8192eu bus s).2
  | .powerOff => halPoweroff8192eu bus s
  | .halDeinit usb3 completed powerdown => rtl8192euHalDeinit bus usb3 completed powerdown s
  | .other f => { s with dev := f s.dev }

/-- the registers 5 and 6 are those of the power state, and nothing else writes them -/
def PwrEvent.Apart (view : σ → Nat → UInt8) (own : Nat → UInt8) : PwrEvent σ → Prop
  | .other f => ∀ d, ∀ b, b = 5 ∨ b = 6 → view (f d) b &&& own b = view d b &&& own b
  | _ => True

theorem step_powerOn (s : PwrState σ) : s.step bus .powerOn = (initPowerOn8192eu bus s).2 := rfl

/-- running: no power down, no low power state and no suspend is asked for, and the reset of the core is off -/
def PwrState.Running (view : σ → Nat → UInt8) (s : PwrState σ) : Prop :=
  view s.dev 5 &&& 0x9C = 0 ∧ view s.dev 6 &&& 0x01 = 0x01

variable {bus} {view : σ → Nat → UInt8} {own : Nat → UInt8}

/-- the registers of the power state were not written -/
def Untouched (view : σ → Nat → UInt8) (own : Nat → UInt8) (d d' : σ) : Prop :=
  ∀ b, b = 5 ∨ b = 6 → view d' b &&& own b = view d b &&& own b

theorem Untouched.trans {d d₁ d' : σ} (h : Untouched view own d d₁) (h' : Untouched view own d₁ d') :
    Untouched view own d d' := fun b hb => (h' b hb).trans (h b hb)

section
variable (hs : bus.Shares view own)
include hs

theorem untouched_write {a : Nat} (ha : 6 < a) (v : UInt8) (d : σ) : Untouched view own d (bus.write a v d) := by
  intro b hb
  rw [hs.write_sets, if_neg (by omega)]

theorem untouched_write16 {a : Nat} (ha : 6 < a) (v : UInt16) (d : σ) :
    Untouched view own d (rtwWrite16 bus a v d) :=
  (untouched_write hs ha _ _).trans (untouched_write hs (by omega) _ _)

theorem untouched_read16 (a : Nat) (d : σ) : Untouched view own d (rtwRead16 bus a d).2 :=
  fun _ _ => (hs.read_keeps ..).trans (hs.read_keeps ..)

/-- **The chip after the enable sequence**, whatever state it was in. -/
theorem cardEnable_changed {cut fab intf : UInt8} (hcut : cut ≠ 0) (hfab : fab &&& 0x0F ≠ 0)
    (hintf : intf = 2 ∨ intf = 4) {d d' : σ}
    (h : halPwrSeqCmdParsing bus cut fab intf rtl8192ECardEnableFlow d = some (true, d')) :
    Changed view own (fun b => if b = 5 then ⟨0x9D, 0x01⟩ else if b = 6 then ⟨0x01, 0x01⟩ else {}) d d' := by
  obtain ⟨n, -, hruns⟩ := (halPwrSeqCmdParsing_true_iff (program_cardEnable hcut hfab hintf) d d').mp h
  intro b
  rw [hruns.changed hs b]
  by_cases h5 : b = 5
  · subst h5
    rfl
  by_cases h6 : b = 6
  · subst h6
    rfl
  · simp [effect, Act.patch, h5, h6, Patch.andThen_apply]

variable (h5 : own 5 &&& 0x9C = 0x9C) (h6 : own 6 &&& 0x01 = 0x01)
include h5 h6

omit hs in
theorem PwrState.Running.of_untouched {s s' : PwrState σ} (h : s.Running view)
    (hd : Untouched view own s.dev s'.dev) : s'.Running view :=
  ⟨(and_of_own (hd 5 (.inl rfl)) h5).trans h.1, (and_of_own (hd 6 (.inr rfl)) h6).trans h.2⟩

theorem initPowerOn_running (s : PwrState σ) (hoff : s.bMacPwrCtrlOn = false)
    (hon : (initPowerOn8192eu bus s).2.bMacPwrCtrlOn = true) : (initPowerOn8192eu bus s).2.Running view := by
  unfold initPowerOn8192eu at hon ⊢
  rw [hoff] at hon ⊢
  simp only [Bool.false_eq_true, if_false] at hon ⊢
  cases hflow : halPwrSeqCmdParsing bus 0xFF 0x0F 4 rtl8192ECardEnableFlow
      (halCrystalAFEAdjust bus (setRegulator bus s.dev)) with
  | none => simp [pwrFlow, hflow] at hon
  | some r =>
    obtain ⟨ok, d⟩ := r
    cases ok with
    | false => simp [pwrFlow, hflow] at hon
    | true =>
      have hch := cardEnable_changed hs (by decide) (by decide) (.inr rfl) hflow
      have hrun : (⟨d, true, s.bFWReady⟩ : PwrState σ).Running view :=
        ⟨hch.masked h5 (by decide), hch.masked h6 (by decide)⟩
      simp only [pwrFlow, hflow, Option.getD_some, if_true]
      refine hrun.of_untouched h5 h6 ?_
      exact (untouched_write16 hs (by omega) _ _).trans
        ((untouched_read16 hs _ _).trans (untouched_write16 hs (by omega) _ _))

/-- **While the driver takes the chip for powered, it runs**: whatever was done before, however often power on and
power off failed. -/
theorem power_run (d : σ) (es : List (PwrEvent σ))
    (hes : Along (PwrState.step bus) (fun _ e => e.Apart view own) ⟨d, false, false⟩ es)
    (hon : (run (PwrState.step bus) ⟨d, false, false⟩ es).bMacPwrCtrlOn = true) :
    (run (PwrState.step bus) ⟨d, false, false⟩ es).Running view := by
  refine run_inv (I := fun s : PwrState σ => s.bMacPwrCtrlOn = true → s.Running view) ?_ _ es
    (fun h => absurd h Bool.false_ne_true) hes hon
  intro s e hI happ
  cases e with
  | powerOn =>
    intro hon'
    cases hs' : s.bMacPwrCtrlOn with
    | true =>
      have hsame : PwrState.step bus s .powerOn = s := by
        rw [step_powerOn]
        unfold initPowerOn8192eu
        rw [if_pos hs']
      rw [hsame]
      exact hI hs'
    | false => exact initPowerOn_running hs h5 h6 s hs' hon'
  | powerOff =>
    intro hon'
    exfalso
    change (halPoweroff8192eu bus s).bMacPwrCtrlOn = true at hon'
    unfold halPoweroff8192eu at hon'
    split at hon'
    · rename_i hs'
      rw [hs'] at hon'
      cases hon'
    · cases hon'
  | halDeinit usb3 completed powerdown => exact fun hon' => absurd hon' Bool.false_ne_true
  | other f => exact fun hon' => (hI hon').of_untouched h5 h6 (happ s.dev)

end

end

/-- a chip that is ready at once: the requests to go on and off are cleared by hardware -/
def readyBus : Bus (Nat → UInt8) where
  read a d := (d a, d)
  write a v d := Function.update d a (if a = 5 then v &&& 0xFC else v)
  delay _ d := d

/-- register 6 has its power ready bit -/
def afterReset : Nat → UInt8 := Function.update (fun _ => 0) 6 0x02

def afterEnable : Nat → UInt8 := (pwrFlow readyBus 4 rtl8192ECardEnableFlow afterReset).2

theorem readyBus_shares : readyBus.Shares id fun b => if b = 5 then 0xFC else if b = 6 then 0xFD else 0xFF where
  read_value _ _ := rfl
  read_keeps _ _ _ := rfl
  delay_keeps _ _ _ := rfl
  write_sets a v d b := by
    show Function.update d a _ b &&& _ = _
    by_cases hb : b = a
    · subst hb
      rw [Function.update_self, if_pos rfl]
      split
      · rw [UInt8.and_assoc]
        rfl
      · rfl
    · rw [Function.update_of_ne hb, if_neg hb]
      rfl

theorem halPwrSeqCmdParsing_true_iff_cardEnable : ∃ n ≤ 5001, Runs readyBus 10
    [.set 5 ⟨0x18, 0⟩, .set 5 ⟨0x80, 0⟩, .set 5 ⟨0x04, 0⟩, .set 5 ⟨0x18, 0⟩, .poll 6 ⟨0x02, 0x02⟩,
      .set 6 ⟨0x01, 0x01⟩, .set 5 ⟨0x01, 0x01⟩, .poll 5 ⟨0x01, 0⟩] n afterReset afterEnable := by
  have hcut : (0xFF : UInt8) ≠ 0 := by decide
  have hfab : (0x0F : UInt8) &&& 0x0F ≠ 0 := by decide
  have hintf : (4 : UInt8) = 2 ∨ (4 : UInt8) = 4 := by decide
  exact (halPwrSeqCmdParsing_true_iff (program_cardEnable hcut hfab hintf) afterReset afterEnable).mp rfl

/-- a bit that is not there does not come -/
theorem readyBus_poll {a : Nat} {p : Patch} {d : Nat → UInt8} (hno : p.seen (d a) = false) (left : Nat) :
    readyBus.poll 10 a p left d = (false, 0, d) := by
  have hread : p.seen (readyBus.read a d).1 = false := hno
  induction left with
  | zero =>
    unfold Bus.poll
    dsimp only
    rw [hread]
    rfl
  | succ left ih =>
    unfold Bus.poll
    dsimp only
    rw [hread]
    exact ih

/-- the chip before its power is ready, as the sequence leaves it -/
def notReady : Nat → UInt8 :=
  readyBus.modify 5 ⟨0x18, 0⟩ <| readyBus.modify 5 ⟨0x04, 0⟩ <| readyBus.modify 5 ⟨0x80, 0⟩ <|
    readyBus.modify 5 ⟨0x18, 0⟩ <| halCrystalAFEAdjust readyBus (setRegulator readyBus fun _ => 0)

theorem initPowerOn_notReady :
    initPowerOn8192eu readyBus ⟨fun _ => 0, false, false⟩ = (false, ⟨notReady, false, false⟩) := by
  have hflow : pwrFlow readyBus 4 rtl8192ECardEnableFlow
      (halCrystalAFEAdjust readyBus (setRegulator readyBus fun _ => 0)) = (false, notReady) := by
    unfold pwrFlow halPwrSeqCmdParsing
    rw [pwrSeqLoop_eq _ _ _ _ _ _ _ _ (program_cardEnable (by decide) (by decide) (Or.inr rfl))]
    simp only [execute]
    rw [readyBus_poll (by decide)]
    rfl
  unfold initPowerOn8192eu
  rw [if_neg Bool.false_ne_true]
  dsimp only
  rw [hflow]
  rfl

/-- the chip is not ready at the first power on, and after `hal_deinit` it is powered once more -/
def powerEvents : List (PwrEvent (Nat → UInt8)) :=
  [.powerOn, .other fun d => Function.update d 6 (d 6 ||| 0x02), .powerOn, .halDeinit false true true, .powerOn]

theorem power_run_again :
    (run (PwrState.step readyBus) ⟨fun _ => 0, false, false⟩ powerEvents).Running id := by
  have hready : ∀ d : Nat → UInt8, ∀ b, b = 5 ∨ b = 6 → Function.update d 6 (d 6 ||| 0x02) b
      &&& (if b = 5 then 0xFC else if b = 6 then 0xFD else 0xFF)
      = d b &&& (if b = 5 then 0xFC else if b = 6 then 0xFD else 0xFF) := by
    rintro d b (rfl | rfl)
    · rfl
    · rw [Function.update_self]
      exact UInt8.toBitVec_inj.mp (BitVec.and_or_distrib_right.trans (BitVec.or_zero ..))
  have hon : (run (PwrState.step readyBus) ⟨fun _ => 0, false, false⟩ powerEvents).bMacPwrCtrlOn = true := by
    unfold powerEvents
    rw [run, step_powerOn, initPowerOn_notReady]
    decide +kernel
  exact power_run readyBus_shares rfl rfl _ powerEvents ⟨trivial, hready, trivial, trivial, trivial, trivial⟩ hon

end Rtl8192eu
