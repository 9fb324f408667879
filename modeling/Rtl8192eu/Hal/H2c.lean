import Rtl8192eu.Lib.Mailbox

/-!
# Commands to the firmware

`FillH2CCmd_8192E` and `_is_fw_read_cmd_down` of `hal/rtl8192e/rtl8192e_cmd.c`. There are four message boxes,
each of four bytes and an extension of four. The driver writes a command byte by byte (`CONFIG_H2C_EF`), and one
call at a time has `h2c_fwcmd_mutex`. The firmware reads a full box at any time; the chip marks a box full with the
last byte of it, and the firmware takes the mark away.

* `H2cPriv`, `H2cPriv.step`   driver, registers and firmware, one access after the other;
* `message`    the bytes of a command;
* `H2cPriv.boxes`   what the boxes hold, as boxes that are filled in turn; `run_boxes`;
* `h2c_delivered`   every accepted command is read once, or it is still in its box;
* `h2c_fifo`   a firmware that goes round reads them in the order in which they were accepted.
-/

namespace Rtl8192eu

open Mailbox

/-- `ElementID` and `pCmdBuffer` -/
structure H2cCmd where
  elementId : UInt8
  buf : List UInt8
  deriving DecidableEq, Repr

/-- `h2c_cmd` -/
def H2cCmd.h2cCmd (c : H2cCmd) (i : Nat) : UInt8 :=
  if i = 0 then c.elementId else if i ≤ 3 then c.buf.getD (i - 1) 0 else 0

/-- `h2c_cmd_ex` -/
def H2cCmd.h2cCmdEx (c : H2cCmd) (i : Nat) : UInt8 := if i < 4 then c.buf.getD (i + 3) 0 else 0

def regHmebox0 : Nat := 0x01D0

def regHmeboxExt0 : Nat := 0x01F0

inductive H2cPc where
  /-- nobody has the mutex -/
  | idle
  /-- `_is_fw_read_cmd_down`, with `retry_cnts` -/
  | polling (c : H2cCmd) (h2cBoxNum retryCnts : Nat)
  /-- the byte `cmdIdx` of the extension is next -/
  | ext (c : H2cCmd) (h2cBoxNum cmdIdx : Nat)
  | box (c : H2cCmd) (h2cBoxNum cmdIdx : Nat)

structure H2cPriv where
  bFWReady : Bool := true
  surpriseRemoved : Bool := false
  lastHMEBoxNum : Nat := 0
  pc : H2cPc := .idle
  /-- the calls that have returned, with their result -/
  returned : List (H2cCmd × Bool) := []
  reg : Nat → UInt8 := fun _ => 0
  /-- the bits of `REG_HMETFR` -/
  hmetfr : Nat → Bool := fun _ => false
  /-- what the firmware has read -/
  fwRead : List (List UInt8) := []

inductive H2cEvent where
  | call (elementId : UInt8) (pCmdBuffer : Option (List UInt8))
  /-- the next access of the call that has the mutex -/
  | access
  /-- the firmware reads the box `k` -/
  | firmware (k : Nat)
  | ready (b : Bool)
  | removed (b : Bool)

namespace H2cPriv

variable (s : H2cPriv)

def ret (c : H2cCmd) (ok : Bool) : H2cPriv := { s with pc := .idle, returned := s.returned ++ [(c, ok)] }

/-- up to the poll; a call that has to wait for the mutex is made later -/
def call (elementId : UInt8) (pCmdBuffer : Option (List UInt8)) : H2cPriv :=
  let c : H2cCmd := ⟨elementId, pCmdBuffer.getD []⟩
  if s.bFWReady = false then { s with returned := s.returned ++ [(c, false)] }
  else
    match s.pc with
    | .idle =>
      if pCmdBuffer = none then s.ret c false
      else if 7 < c.buf.length then s.ret c false
      else if s.surpriseRemoved then s.ret c false
      else { s with pc := .polling c s.lastHMEBoxNum 100 }
    | _ => s

def access : H2cPriv :=
  match s.pc with
  | .idle => s
  | .polling c k n =>
    if s.hmetfr k = false then { s with pc := .ext c k 0 }
    else
      match n with
      | 0 => s.ret c false
      | n + 1 => { s with pc := .polling c k n }
  | .ext c k i =>
    { s with
      reg := Function.update s.reg (regHmeboxExt0 + k * 4 + i) (c.h2cCmdEx i)
      pc := if i + 1 < 4 then .ext c k (i + 1) else .box c k 0 }
  | .box c k i =>
    let s := { s with reg := Function.update s.reg (regHmebox0 + k * 4 + i) (c.h2cCmd i) }
    if i + 1 < 4 then { s with pc := .box c k (i + 1) }
    else { s with hmetfr := Function.update s.hmetfr k true, lastHMEBoxNum := (k + 1) % 4 }.ret c true

/-- the eight bytes of a box -/
def boxBytes (k : Nat) : List UInt8 :=
  (List.range 4).map (fun i => s.reg (regHmebox0 + k * 4 + i))
    ++ (List.range 4).map (fun i => s.reg (regHmeboxExt0 + k * 4 + i))

def firmware (k : Nat) : H2cPriv :=
  if k < 4 ∧ s.hmetfr k = true then
    { s with hmetfr := Function.update s.hmetfr k false, fwRead := s.fwRead ++ [s.boxBytes k] }
  else s

def step : H2cEvent → H2cPriv
  | .call elementId pCmdBuffer => s.call elementId pCmdBuffer
  | .access => s.access
  | .firmware k => s.firmware k
  | .ready b => { s with bFWReady := b }
  | .removed b => { s with surpriseRemoved := b }

end H2cPriv

/-! ## messages -/

/-- the element, and seven bytes: those of the command, with zeros behind them -/
def message (c : H2cCmd) : List UInt8 := c.elementId :: (List.range 7).map fun i => c.buf.getD i 0

theorem message_eq (c : H2cCmd) : (List.range 4).map c.h2cCmd ++ (List.range 4).map c.h2cCmdEx = message c := rfl

/-- the commands whose call returned success -/
def H2cPriv.accepted (s : H2cPriv) : List H2cCmd := (s.returned.filter (·.2)).map (·.1)

/-- what the boxes hold -/
def H2cPriv.boxes (s : H2cPriv) : Mailboxes (List UInt8) where
  sent := s.accepted.map message
  box := fun k => if s.hmetfr k = true then some (s.boxBytes k) else none
  taken := s.fwRead

namespace H2cPriv

/-- what the call that has the mutex has written into the next box, which is empty -/
def Filling (s : H2cPriv) : H2cPc → Prop
  | .idle => True
  | .polling _ k _ => k = s.lastHMEBoxNum
  | .ext c k i => k = s.lastHMEBoxNum ∧ s.hmetfr k = false ∧ i < 4
      ∧ ∀ j < i, s.reg (regHmeboxExt0 + k * 4 + j) = c.h2cCmdEx j
  | .box c k i => k = s.lastHMEBoxNum ∧ s.hmetfr k = false ∧ i < 4
      ∧ (∀ j < 4, s.reg (regHmeboxExt0 + k * 4 + j) = c.h2cCmdEx j)
      ∧ ∀ j < i, s.reg (regHmebox0 + k * 4 + j) = c.h2cCmd j

structure Inv (s : H2cPriv) : Prop where
  last : s.lastHMEBoxNum = s.accepted.length % 4
  full : ∀ k, s.hmetfr k = true → k < 4
  written : s.Filling s.pc

variable {s : H2cPriv}

theorem accepted_ret (c : H2cCmd) (ok : Bool) :
    (s.ret c ok).accepted = if ok = true then s.accepted ++ [c] else s.accepted := by
  cases ok <;> simp [accepted, ret]

/-- a write to an empty box is not seen in the others -/
theorem boxBytes_update {a k : Nat} {v : UInt8} {i : Nat} (hi : i < 4) (hlast : s.lastHMEBoxNum < 4)
    (ha : a = regHmeboxExt0 + s.lastHMEBoxNum * 4 + i ∨ a = regHmebox0 + s.lastHMEBoxNum * 4 + i) (hk : k < 4)
    (hne : k ≠ s.lastHMEBoxNum) :
    ({ s with reg := Function.update s.reg a v } : H2cPriv).boxBytes k = s.boxBytes k := by
  unfold boxBytes
  unfold regHmeboxExt0 regHmebox0 at *
  congr 1
  · refine List.map_congr_left fun j hj => Function.update_of_ne ?_ v s.reg
    have hj' := List.mem_range.mp hj
    omega
  · refine List.map_congr_left fun j hj => Function.update_of_ne ?_ v s.reg
    have hj' := List.mem_range.mp hj
    omega

/-- what the boxes hold is the same, if it is for those that are full -/
theorem boxes_congr {t : H2cPriv} (hsent : t.accepted = s.accepted) (hfull : t.hmetfr = s.hmetfr)
    (hread : t.fwRead = s.fwRead) (hbytes : ∀ k, s.hmetfr k = true → t.boxBytes k = s.boxBytes k) :
    t.boxes = s.boxes := by
  have hbox : (fun k => if t.hmetfr k = true then some (t.boxBytes k) else none)
      = fun k => if s.hmetfr k = true then some (s.boxBytes k) else none := by
    funext k
    rw [hfull]
    cases hk : s.hmetfr k with
    | false => rfl
    | true => rw [if_pos rfl, if_pos rfl, hbytes k hk]
  unfold boxes
  rw [hsent, hread, hbox]

theorem call_inv (h : s.Inv) (e : UInt8) (b : Option (List UInt8)) :
    (s.call e b).Inv ∧ (s.call e b).boxes = s.boxes := by
  have hfail : ∀ (pc : H2cPc) (c : H2cCmd), s.Filling pc →
      ({ s with pc := pc, returned := s.returned ++ [(c, false)] } : H2cPriv).Inv
        ∧ ({ s with pc := pc, returned := s.returned ++ [(c, false)] } : H2cPriv).boxes = s.boxes := by
    intro pc c hpc
    have hacc : ({ s with pc := pc, returned := s.returned ++ [(c, false)] } : H2cPriv).accepted = s.accepted := by
      simp [accepted]
    exact ⟨⟨h.last.trans (congrArg (fun l => l.length % 4) hacc.symm), h.full, by cases pc <;> exact hpc⟩,
      boxes_congr hacc rfl rfl fun _ _ => rfl⟩
  unfold call
  dsimp only
  split
  · exact hfail s.pc _ h.written
  · split
    · split
      · exact hfail .idle _ trivial
      · split
        · exact hfail .idle _ trivial
        · split
          · exact hfail .idle _ trivial
          · exact ⟨⟨h.last, h.full, rfl⟩, rfl⟩
    · exact ⟨h, rfl⟩

theorem Inv.last_lt (h : s.Inv) : s.lastHMEBoxNum < 4 := h.last ▸ Nat.mod_lt _ (by omega)

/-- a byte is written, and it is not the last one -/
theorem write_inv (h : s.Inv) (v : UInt8) (pc : H2cPc) {a i : Nat} (hi : i < 4)
    (ha : a = regHmeboxExt0 + s.lastHMEBoxNum * 4 + i ∨ a = regHmebox0 + s.lastHMEBoxNum * 4 + i)
    (hfree : s.hmetfr s.lastHMEBoxNum = false)
    (hpc : ({ s with reg := Function.update s.reg a v } : H2cPriv).Filling pc) :
    ({ s with reg := Function.update s.reg a v, pc := pc } : H2cPriv).Inv
      ∧ ({ s with reg := Function.update s.reg a v, pc := pc } : H2cPriv).boxes = s.boxes := by
  refine ⟨⟨h.last, h.full, by cases pc <;> exact hpc⟩, boxes_congr rfl rfl rfl fun k hk => ?_⟩
  refine boxBytes_update hi h.last_lt ha (h.full k hk) ?_
  rintro rfl
  rw [hfree] at hk
  cases hk

/-- the last byte: the box is full with the whole message -/
theorem box_last (h : s.Inv) {c : H2cCmd} (hw : s.Filling (.box c s.lastHMEBoxNum 3))
    (hpc : s.pc = .box c s.lastHMEBoxNum 3) : s.access.Inv ∧ s.access.boxes = put 4 s.boxes (message c) := by
  obtain ⟨-, hfree, -, hext, hbox⟩ := hw
  have hlt := h.last_lt
  let a := regHmebox0 + s.lastHMEBoxNum * 4 + 3
  let w : H2cPriv := { s with reg := Function.update s.reg a (c.h2cCmd 3) }
  let full := Function.update w.hmetfr s.lastHMEBoxNum true
  have hacc : s.access
      = ({ w with hmetfr := full, lastHMEBoxNum := (s.lastHMEBoxNum + 1) % 4 } : H2cPriv).ret c true := by
    unfold access
    rw [hpc]
    rfl
  have hsent : s.access.accepted = s.accepted ++ [c] := by
    rw [hacc, accepted_ret]
    rfl
  have hbytes : s.access.boxBytes s.lastHMEBoxNum = message c := by
    rw [hacc, ← message_eq]
    show w.boxBytes s.lastHMEBoxNum = _
    unfold boxBytes
    congr 1
    · refine List.map_congr_left fun j hj => ?_
      have hj' := List.mem_range.mp hj
      by_cases h3 : j = 3
      · subst h3
        exact Function.update_self ..
      · rw [← hbox j (by omega)]
        exact Function.update_of_ne (by simp only [a]; omega) _ _
    · refine List.map_congr_left fun j hj => ?_
      rw [← hext j (List.mem_range.mp hj)]
      exact Function.update_of_ne (by simp only [a, regHmebox0, regHmeboxExt0]; omega) _ _
  have hothers : ∀ k < 4, k ≠ s.lastHMEBoxNum → s.access.boxBytes k = s.boxBytes k := by
    intro k hk hne
    rw [hacc]
    exact boxBytes_update (v := c.h2cCmd 3) (i := 3) (by omega) hlt (.inr rfl) hk hne
  refine ⟨⟨?_, ?_, ?_⟩, ?_⟩
  · rw [hsent, List.length_append, List.length_singleton, hacc]
    show (s.lastHMEBoxNum + 1) % 4 = _
    rw [h.last]
    omega
  · intro k hk
    rw [hacc] at hk
    change Function.update s.hmetfr s.lastHMEBoxNum true k = true at hk
    by_cases hkk : k = s.lastHMEBoxNum
    · exact hkk ▸ hlt
    · rw [Function.update_of_ne hkk] at hk
      exact h.full k hk
  · rw [hacc]
    exact trivial
  · have hidx : s.boxes.sent.length % 4 = s.lastHMEBoxNum := by
      rw [h.last]
      show (s.accepted.map message).length % 4 = _
      rw [List.length_map]
    have hempty : s.boxes.box (s.boxes.sent.length % 4) = none := by
      rw [hidx]
      show (if s.hmetfr s.lastHMEBoxNum = true then _ else none) = none
      rw [hfree]
      rfl
    unfold put
    rw [if_pos hempty, hidx]
    have hmap : s.access.accepted.map message = s.boxes.sent ++ [message c] := by
      rw [hsent, List.map_append]
      rfl
    have hfun : (fun k => if s.access.hmetfr k = true then some (s.access.boxBytes k) else none)
        = Function.update s.boxes.box s.lastHMEBoxNum (some (message c)) := by
      funext k
      have hm : s.access.hmetfr k = Function.update s.hmetfr s.lastHMEBoxNum true k := by
        rw [hacc]
        rfl
      rw [hm]
      by_cases hkk : k = s.lastHMEBoxNum
      · rw [hkk, Function.update_self, Function.update_self, hbytes]
        rfl
      · rw [Function.update_of_ne hkk, Function.update_of_ne hkk]
        show _ = if s.hmetfr k = true then some (s.boxBytes k) else none
        cases hk : s.hmetfr k with
        | false => rfl
        | true => rw [if_pos rfl, if_pos rfl, hothers k (h.full k hk) hkk]
    have hread : s.access.fwRead = s.fwRead := by
      rw [hacc]
      rfl
    unfold boxes at hmap hfun ⊢
    rw [hmap, hfun, hread]

/-- one access changes nothing in the boxes, or fills the next one -/
theorem access_inv (h : s.Inv) :
    s.access.Inv ∧ (s.access.boxes = s.boxes ∨ ∃ m, s.access.boxes = put 4 s.boxes m) := by
  have hw := h.written
  cases hpc : s.pc with
  | idle =>
    have hsame : s.access = s := by
      unfold access
      rw [hpc]
    rw [hsame]
    exact ⟨h, .inl rfl⟩
  | polling c k n =>
    rw [hpc] at hw
    have hk : k = s.lastHMEBoxNum := hw
    unfold access
    rw [hpc]
    dsimp only
    split
    · rename_i hfree
      exact ⟨⟨h.last, h.full, hk, hfree, by omega, fun j hj => absurd hj (Nat.not_lt_zero j)⟩, .inl rfl⟩
    · cases n with
      | zero =>
        have hacc : (s.ret c false).accepted = s.accepted := accepted_ret c false
        exact ⟨⟨h.last.trans (congrArg (fun l => l.length % 4) hacc.symm), h.full, trivial⟩,
          .inl (boxes_congr hacc rfl rfl fun _ _ => rfl)⟩
      | succ n => exact ⟨⟨h.last, h.full, hk⟩, .inl rfl⟩
  | ext c k i =>
    rw [hpc] at hw
    obtain ⟨rfl, hfree, hi, hext⟩ := hw
    unfold access
    rw [hpc]
    dsimp only
    have hnew : ∀ j < i + 1, Function.update s.reg (regHmeboxExt0 + s.lastHMEBoxNum * 4 + i) (c.h2cCmdEx i)
        (regHmeboxExt0 + s.lastHMEBoxNum * 4 + j) = c.h2cCmdEx j := by
      intro j hj
      by_cases hji : j = i
      · rw [hji, Function.update_self]
      · rw [Function.update_of_ne (by omega), hext j (by omega)]
    split
    · rename_i hnext
      have hstep := write_inv h (c.h2cCmdEx i) (.ext c s.lastHMEBoxNum (i + 1)) hi (.inl rfl) hfree
        ⟨rfl, hfree, hnext, hnew⟩
      exact ⟨hstep.1, .inl hstep.2⟩
    · have hstep := write_inv h (c.h2cCmdEx i) (.box c s.lastHMEBoxNum 0) hi (.inl rfl) hfree
        ⟨rfl, hfree, by omega, fun j hj => hnew j (by omega), fun j hj => absurd hj (Nat.not_lt_zero j)⟩
      exact ⟨hstep.1, .inl hstep.2⟩
  | box c k i =>
    rw [hpc] at hw
    obtain ⟨rfl, hfree, hi, hext, hbox⟩ := hw
    by_cases hnext : i + 1 < 4
    · unfold access
      rw [hpc]
      dsimp only
      rw [if_pos hnext]
      have hnew : ∀ j < i + 1, Function.update s.reg (regHmebox0 + s.lastHMEBoxNum * 4 + i) (c.h2cCmd i)
          (regHmebox0 + s.lastHMEBoxNum * 4 + j) = c.h2cCmd j := by
        intro j hj
        by_cases hji : j = i
        · rw [hji, Function.update_self]
        · rw [Function.update_of_ne (by omega), hbox j (by omega)]
      have hlt := h.last_lt
      have hkeep : ∀ j < 4, Function.update s.reg (regHmebox0 + s.lastHMEBoxNum * 4 + i) (c.h2cCmd i)
          (regHmeboxExt0 + s.lastHMEBoxNum * 4 + j) = c.h2cCmdEx j := by
        intro j hj
        rw [Function.update_of_ne (by simp only [regHmebox0, regHmeboxExt0]; omega), hext j hj]
      have hstep := write_inv h (c.h2cCmd i) (.box c s.lastHMEBoxNum (i + 1)) hi (.inr rfl) hfree
        ⟨rfl, hfree, hnext, hkeep, hnew⟩
      exact ⟨hstep.1, .inl hstep.2⟩
    · obtain rfl : i = 3 := by omega
      have hlast := box_last h ⟨rfl, hfree, hi, hext, hbox⟩ hpc
      exact ⟨hlast.1, .inr ⟨_, hlast.2⟩⟩

theorem firmware_inv (h : s.Inv) (k : Nat) :
    (s.firmware k).Inv ∧ (s.firmware k).boxes = Mailbox.take s.boxes k := by
  unfold firmware
  by_cases hk : s.hmetfr k = true
  · rw [if_pos ⟨h.full k hk, hk⟩]
    have hbox : s.boxes.box k = some (s.boxBytes k) := if_pos hk
    have hnot : ∀ j, Function.update s.hmetfr k false j = true → s.hmetfr j = true ∧ j ≠ k := by
      intro j hj
      by_cases hjk : j = k
      · rw [hjk, Function.update_self] at hj
        cases hj
      · rw [Function.update_of_ne hjk] at hj
        exact ⟨hj, hjk⟩
    have hfalse : ∀ j, s.hmetfr j = false → Function.update s.hmetfr k false j = false := by
      intro j hj
      cases hu : Function.update s.hmetfr k false j with
      | false => rfl
      | true => rw [(hnot j hu).1] at hj; cases hj
    refine ⟨⟨h.last, fun j hj => h.full j (hnot j hj).1, ?_⟩, ?_⟩
    · have hw := h.written
      let t : H2cPriv := { s with hmetfr := Function.update s.hmetfr k false, fwRead := s.fwRead ++ [s.boxBytes k] }
      show t.Filling s.pc
      cases hpc : s.pc with
      | idle => exact trivial
      | polling c b n =>
        rw [hpc] at hw
        exact hw
      | ext c b i =>
        rw [hpc] at hw
        exact ⟨hw.1, hfalse b hw.2.1, hw.2.2⟩
      | box c b i =>
        rw [hpc] at hw
        exact ⟨hw.1, hfalse b hw.2.1, hw.2.2⟩
    · rw [take_some hbox]
      have hfun : (fun j => if Function.update s.hmetfr k false j = true then some (s.boxBytes j) else none)
          = Function.update s.boxes.box k none := by
        funext j
        by_cases hjk : j = k
        · rw [hjk, Function.update_self, Function.update_self]
          rfl
        · rw [Function.update_of_ne hjk, Function.update_of_ne hjk]
          rfl
      unfold boxes at hfun ⊢
      exact congrArg (fun b => (⟨s.accepted.map message, b, s.fwRead ++ [s.boxBytes k]⟩ : Mailboxes _)) hfun
  · rw [if_neg fun hand => hk hand.2]
    have hbox : s.boxes.box k = none := if_neg hk
    exact ⟨h, (take_none hbox).symm⟩

theorem inv_init : ({} : H2cPriv).Inv where
  last := rfl
  full _ h := absurd h Bool.false_ne_true
  written := trivial

/-- the firmware reads the boxes in turn -/
def GoesRound (s : H2cPriv) : H2cEvent → Prop
  | .firmware k => k = s.fwRead.length % 4
  | _ => True

theorem Inv.flags (h : s.Inv) (r d : Bool) : ({ s with bFWReady := r, surpriseRemoved := d } : H2cPriv).Inv where
  last := h.last
  full := h.full
  written := by
    have hw := h.written
    show ({ s with bFWReady := r, surpriseRemoved := d } : H2cPriv).Filling s.pc
    cases hpc : s.pc <;> (rw [hpc] at hw; exact hw)

instance (s : H2cPriv) : (e : H2cEvent) → Decidable (s.GoesRound e)
  | .firmware k => inferInstanceAs (Decidable (k = s.fwRead.length % 4))
  | .call _ _ | .access | .ready _ | .removed _ => isTrue trivial

/-- one step is at most one step of the boxes -/
theorem step_boxes (h : s.Inv) (e : H2cEvent) :
    (s.step e).Inv ∧ ∃ es : List (Event (List UInt8)), (s.step e).boxes = Run.run (Mailbox.step 4) s.boxes es
      ∧ (s.GoesRound e → Run.Along (Mailbox.step 4) (InTurn 4) s.boxes es) := by
  cases e with
  | call el b =>
    obtain ⟨hinv, hbox⟩ := call_inv h el b
    exact ⟨hinv, [], hbox, fun _ => trivial⟩
  | access =>
    obtain ⟨hinv, hbox | ⟨m, hbox⟩⟩ := access_inv h
    · exact ⟨hinv, [], hbox, fun _ => trivial⟩
    · exact ⟨hinv, [.put m], hbox, fun _ => ⟨trivial, trivial⟩⟩
  | firmware k =>
    obtain ⟨hinv, hbox⟩ := firmware_inv h k
    exact ⟨hinv, [.take k], hbox, fun hk => ⟨hk, trivial⟩⟩
  | ready b => exact ⟨h.flags b s.surpriseRemoved, [], rfl, fun _ => trivial⟩
  | removed b => exact ⟨h.flags s.bFWReady b, [], rfl, fun _ => trivial⟩

theorem boxes_init : ({} : H2cPriv).boxes = {} := by
  unfold boxes
  congr 1

/-- **The driver and the firmware are boxes that are filled in turn**, whatever the order of their accesses. -/
theorem run_boxes (es : List H2cEvent) :
    (Run.run step ({} : H2cPriv) es).Inv
      ∧ ∃ fs : List (Event (List UInt8)), (Run.run step ({} : H2cPriv) es).boxes = Run.run (Mailbox.step 4) {} fs
        ∧ (Run.Along step GoesRound {} es → Run.Along (Mailbox.step 4) (InTurn 4) {} fs) := by
  have hrun : ∀ (s : H2cPriv), s.Inv → (Run.run step s es).Inv
      ∧ ∃ fs : List (Event (List UInt8)), (Run.run step s es).boxes = Run.run (Mailbox.step 4) s.boxes fs
        ∧ (Run.Along step GoesRound s es → Run.Along (Mailbox.step 4) (InTurn 4) s.boxes fs) := by
    induction es with
    | nil => exact fun s h => ⟨h, [], rfl, fun _ => trivial⟩
    | cons e es ih =>
      intro s h
      obtain ⟨h', gs, hgs, hturn⟩ := step_boxes h e
      obtain ⟨hinv, fs, hfs, hrest⟩ := ih (s.step e) h'
      refine ⟨hinv, gs ++ fs, ?_, fun hall => ?_⟩
      · rw [Run.run_append, ← hgs]
        exact hfs
      · rw [Run.along_append, ← hgs]
        exact ⟨hturn hall.1, hrest hall.2⟩
  have h := hrun {} inv_init
  rwa [boxes_init] at h

end H2cPriv

/-- **No command is lost, none is read twice or torn**: for every order of calls, accesses and reads of the
firmware. It reads the commands whose calls returned success in an order `idx` in which none overtakes one that was
accepted four or more before it, and each that it has not read lies complete in its box. -/
theorem h2c_delivered (es : List H2cEvent) :
    let s := Run.run H2cPriv.step {} es
    ∃ idx : List Nat, idx.Nodup ∧ idx.Pairwise (fun i j => i < j + 4)
      ∧ s.fwRead.map some = idx.map (fun i => s.accepted[i]?.map message)
      ∧ ∀ i, (hi : i < s.accepted.length) → i ∉ idx →
        s.accepted.length ≤ i + 4 ∧ s.hmetfr (i % 4) = true ∧ s.boxBytes (i % 4) = message s.accepted[i] := by
  intro s
  obtain ⟨-, fs, hfs, -⟩ := H2cPriv.run_boxes es
  obtain ⟨idx, h⟩ := run_delivered (M := List UInt8) (show 0 < 4 by omega) fs
  rw [← hfs] at h
  have hget : ∀ i, s.boxes.sent[i]? = s.accepted[i]?.map message := fun i => List.getElem?_map ..
  refine ⟨idx, h.nodup, h.window, ?_, fun i hi hidx => ?_⟩
  · have htaken : s.fwRead.map some = idx.map (s.boxes.sent[·]?) := h.taken
    rw [htaken]
    exact List.map_congr_left fun i _ => hget i
  · have hlen : s.boxes.sent.length = s.accepted.length := List.length_map ..
    obtain ⟨hle, hbox⟩ := h.kept i (hlen ▸ hi) hidx
    change s.boxes.sent.length ≤ i + 4 at hle
    change s.boxes.box (i % 4) = s.boxes.sent[i]? at hbox
    rw [hget, List.getElem?_eq_getElem hi, Option.map_some] at hbox
    change (if s.hmetfr (i % 4) = true then some (s.boxBytes (i % 4)) else none) = _ at hbox
    split at hbox
    · rename_i hfull
      exact ⟨hlen ▸ hle, hfull, Option.some.inj hbox⟩
    · cases hbox

/-- **A firmware that goes round the boxes reads the commands in the order in which they were accepted.** -/
theorem h2c_fifo (es : List H2cEvent) (hround : Run.Along H2cPriv.step H2cPriv.GoesRound {} es) :
    (Run.run H2cPriv.step ({} : H2cPriv) es).fwRead
      <+: (Run.run H2cPriv.step ({} : H2cPriv) es).accepted.map message := by
  obtain ⟨-, fs, hfs, hturn⟩ := H2cPriv.run_boxes es
  have h := run_fifo (show 0 < 4 by omega) fs (hturn hround)
  rw [← hfs] at h
  exact h

def twoCommands : List H2cEvent :=
  .call 0x20 (some [1, 2, 3, 4]) :: List.replicate 9 .access ++ .call 0x08 (some [5]) :: List.replicate 9 .access
    ++ [.firmware 0, .firmware 1]

theorem h2c_fifo_two : (Run.run H2cPriv.step ({} : H2cPriv) twoCommands).fwRead.length = 2
    ∧ (Run.run H2cPriv.step ({} : H2cPriv) twoCommands).fwRead
      <+: (Run.run H2cPriv.step ({} : H2cPriv) twoCommands).accepted.map message :=
  ⟨by decide, h2c_fifo twoCommands (by decide)⟩

end Rtl8192eu
