import Rtl8192eu.Ap.BcnProt

/-!
# The runs in which the beacon is right

Every join and leave writes the ERP element if the number of 802.11b stations turns to or from zero, and the
HT Operation element if `ht_op_mode` changes.

* `ApBcn.step_cell`   the mark of the station of an event, and its counter;
* `ApBcn.step_erp_of`, `.step_ht`   the two elements after a step;
* `ApBcn.Inv`     what is right in every run;
* `kept_iff`      the step after which the rest is;
* `bcnProt_iff`   the runs.
-/

namespace Rtl8192eu

open Records Run BcnIe

variable {ies : List Elem} {id id' : UInt8} {i : Nat}

/-! ## what a step changes -/

theorem HasElems3.edit {g : Elem → Elem} (h : HasElems3 ies) (hg : KeepsId g)
    (hlen : ∀ e, (g e).body.length = e.body.length) : HasElems3 (onFirst (Elem.hasId id) g ies) := by
  have hkeep : ∀ id' n, (∃ e, ies.find? (Elem.hasId id') = some e ∧ n ≤ e.body.length) →
      ∃ e, (onFirst (Elem.hasId id) g ies).find? (Elem.hasId id') = some e ∧ n ≤ e.body.length := by
    rintro id' n ⟨e, he, hn⟩
    by_cases hid : id' = id
    · subst hid
      refine ⟨g e, ?_, by rw [hlen]; exact hn⟩
      rw [find_edit hg, he, Option.map_some]
    · refine ⟨e, ?_, hn⟩
      rw [find_edit_other hg hid, he]
  obtain ⟨e, he⟩ := h.tim
  obtain ⟨e', he', -⟩ := hkeep _ 0 ⟨e, he, Nat.zero_le _⟩
  exact ⟨⟨e', he'⟩, hkeep _ 1 h.erp, hkeep _ 4 h.ht⟩

theorem HasElems3.putTim (h : HasElems3 ies) (t : TimMap) :
    HasElems3 (onFirst (Elem.hasId Tim.wlanEidTim) (fun _ => t.elem) ies) := by
  obtain ⟨e, he⟩ := h.tim
  constructor
  · refine ⟨t.elem, ?_⟩
    rw [find_onFirst fun _ _ => by simp [Elem.hasId, TimMap.elem], he, Option.map_some]
  · rw [find_tim t (by decide)]
    exact h.erp
  · rw [find_tim t (by decide)]
    exact h.ht

theorem length_erpElem (n k : Int) (e : Elem) :
    (if 0 < e.body.length then erpElem n k e else e).body.length = e.body.length := by
  split
  · exact List.length_set
  · rfl

theorem length_htElem (w : UInt8) (m : BitVec 16) (e : Elem) : (htElem w m e).body.length = e.body.length := by
  simp [htElem, Elem.setByte]

theorem octet_erpElem {n k : Int} {x : UInt8} (h : octetOf erpinfoIe 0 ies = some x) :
    octetOf erpinfoIe 0 (onFirst (Elem.hasId erpinfoIe)
      (fun e => if 0 < e.body.length then erpElem n k e else e) ies) = some (erpUpdate n k x) := by
  obtain ⟨e, he, hx⟩ := Option.bind_eq_some_iff.mp h
  obtain ⟨hlt, hget⟩ := List.getElem?_eq_some_iff.mp hx
  unfold octetOf
  rw [find_edit (keepsId_erpElem n k), he, Option.map_some, Option.bind_some, if_pos hlt]
  simp [erpElem, Elem.setByte, hlt, hget]

theorem octet_htElem {w x : UInt8} {m : BitVec 16} (h : octetOf htAddInfoIe 2 ies = some x) :
    octetOf htAddInfoIe 2 (onFirst (Elem.hasId htAddInfoIe) (htElem w m) ies) = some (lowByte m) := by
  obtain ⟨e, he, hx⟩ := Option.bind_eq_some_iff.mp h
  obtain ⟨hlt, hget⟩ := List.getElem?_eq_some_iff.mp hx
  unfold octetOf
  rw [find_edit (keepsId_htElem w m), he, Option.map_some, Option.bind_some]
  simp [htElem, Elem.setByte, hlt]

theorem octet_edit_other {g : Elem → Elem} (hg : KeepsId g) (hne : id' ≠ id) :
    octetOf id' i (onFirst (Elem.hasId id) g ies) = octetOf id' i ies :=
  octetOf_of_find (find_edit_other hg hne ies)

namespace ApBcn

variable {conf : ApHt} {s : ApBcn} {e : BcnEvent} {p : Nat} {m : Prot} {b : Bool} {c : AssocCaps} {x : UInt8}
  {tim : Option TimMap}

@[simp] theorem setTo_cap : (s.setTo p m b).cap = s.cap.setTo p m b := rfl

@[simp] theorem lower_cap : (s.lower p m).cap = s.cap.lower p m := rfl

@[simp] theorem joinHt_cap {ht : Option Nat} : (s.joinHt p ht).cap = s.cap.joinHt p ht := rfl

@[simp] theorem setTo_ies : (s.setTo p m b).ies = s.ies := rfl

@[simp] theorem lower_ies : (s.lower p m).ies = s.ies := rfl

@[simp] theorem joinHt_ies {ht : Option Nat} : (s.joinHt p ht).ies = s.ies := rfl

@[simp] theorem setTo_htOpMode : (s.setTo p m b).htOpMode = s.htOpMode := rfl

@[simp] theorem lower_htOpMode : (s.lower p m).htOpMode = s.htOpMode := rfl

@[simp] theorem joinHt_htOpMode {ht : Option Nat} : (s.joinHt p ht).htOpMode = s.htOpMode := rfl

/-- a step that is about 40 MHz only -/
structure SameBut40 (s s' : ApBcn) : Prop extends SameCap s s' where
  ies : s'.ies = s.ies

theorem joinIntolerant_same {ht : Option Nat} : SameBut40 s (s.joinIntolerant p ht) := by
  unfold joinIntolerant
  split <;> exact ⟨⟨rfl, rfl⟩, rfl⟩

theorem leaveIntolerant_same : SameBut40 s (s.leaveIntolerant p) := by
  unfold leaveIntolerant
  split <;> exact ⟨⟨rfl, rfl⟩, rfl⟩

theorem updateTim_same : SameCap s (s.updateTim tim) := by
  cases tim <;> exact ⟨rfl, rfl⟩

theorem updateTim_elems (h : HasElems3 s.ies) : HasElems3 (s.updateTim tim).ies := by
  cases tim with
  | none => exact h
  | some t => exact h.putTim t

theorem updateTim_octet (hne : id ≠ Tim.wlanEidTim) :
    octetOf id i (s.updateTim tim).ies = octetOf id i s.ies := by
  cases tim with
  | none => rfl
  | some t => exact octetOf_of_find (find_tim t hne s.ies)

/-! ### the ERP element -/

/-- the beacon is updated -/
def ErpTurns (s : ApBcn) (p : Nat) (b : Bool) : Prop :=
  s.cap.marks p .nonErp ≠ b ∧ (s.setTo p .nonErp b).cap.num .nonErp = if b then 1 else 0

theorem setErp_of (h : s.ErpTurns p b) :
    s.setErp conf p b = (s.setTo p .nonErp b).updateBcnErpinfoIe conf := if_pos h

theorem setErp_of_not (h : ¬ s.ErpTurns p b) : s.setErp conf p b = s.setTo p .nonErp b := if_neg h

theorem setErp_same : SameCap (s.setTo p .nonErp b) (s.setErp conf p b) := by
  by_cases h : s.ErpTurns p b
  · rw [setErp_of h]
    exact updateBcnErpinfoIe_same
  · rw [setErp_of_not h]
    exact ⟨rfl, rfl⟩

theorem setErp_elems (hc : conf.Enabled) (h : HasElems3 s.ies) : HasElems3 (s.setErp conf p b).ies := by
  by_cases ht : s.ErpTurns p b
  · rw [setErp_of ht, updateBcnErpinfoIe_ies hc]
    exact HasElems3.edit h (keepsId_erpElem _ _) (length_erpElem _ _)
  · rw [setErp_of_not ht]
    exact h

theorem setErp_ht (hc : conf.Enabled) :
    octetOf htAddInfoIe i (s.setErp conf p b).ies = octetOf htAddInfoIe i s.ies := by
  by_cases h : s.ErpTurns p b
  · rw [setErp_of h, updateBcnErpinfoIe_ies hc]
    exact octet_edit_other (keepsId_erpElem _ _) (by decide)
  · rw [setErp_of_not h]
    rfl

theorem setErp_octet_of (hc : conf.Enabled) (hx : octetOf erpinfoIe 0 s.ies = some x) (h : s.ErpTurns p b) :
    octetOf erpinfoIe 0 (s.setErp conf p b).ies = some (erpUpdate ((s.setErp conf p b).cap.num .nonErp)
      ((s.setErp conf p b).cap.num .noShortPreamble) x) := by
  rw [setErp_same.cap, setErp_of h, updateBcnErpinfoIe_ies hc]
  exact octet_erpElem hx

theorem setErp_octet_of_not (h : ¬ s.ErpTurns p b) :
    octetOf erpinfoIe 0 (s.setErp conf p b).ies = octetOf erpinfoIe 0 s.ies := by
  rw [setErp_of_not h]
  rfl

/-! ### the HT Operation element -/

theorem htOperationUpdate_cap : (s.htOperationUpdate conf).cap = s.cap := by
  unfold htOperationUpdate
  split
  · rfl
  · dsimp only
    split
    · exact updateBcnHtinfoIe_same.cap
    · rfl

theorem htOperationUpdate_htOpMode (hc : conf.Enabled) :
    (s.htOperationUpdate conf).htOpMode = (conf.htOpModeUpdate s.cap.num s.htOpMode).1 := by
  simp only [htOperationUpdate, hc.option, Bool.not_true, Bool.false_eq_true, if_false]
  split
  · exact updateBcnHtinfoIe_same.htOpMode
  · rfl

/-- the elements stay, or the one of HT is written -/
theorem updateBcnHtinfoIe_ies (hc : conf.Enabled) (h : HasElems3 s.ies) :
    ∃ w, (s.updateBcnHtinfoIe conf).ies = onFirst (Elem.hasId htAddInfoIe) (htElem w s.htOpMode) s.ies := by
  obtain ⟨e, he, hlen⟩ := h.ht
  unfold updateBcnHtinfoIe
  simp only [hc.option, hc.htInfo, Bool.not_true, Bool.or_false, Bool.false_eq_true, if_false, he]
  rw [if_neg (by omega)]
  exact ⟨_, rfl⟩

theorem htOperationUpdate_ies (hc : conf.Enabled) (h : HasElems3 s.ies) :
    (s.htOperationUpdate conf).ies = s.ies ∧ (s.htOperationUpdate conf).htOpMode = s.htOpMode
      ∨ ∃ w, (s.htOperationUpdate conf).ies
        = onFirst (Elem.hasId htAddInfoIe) (htElem w (s.htOperationUpdate conf).htOpMode) s.ies := by
  rw [htOperationUpdate_htOpMode hc]
  simp only [htOperationUpdate, hc.option, Bool.not_true, Bool.false_eq_true, if_false]
  split
  · exact .inr (updateBcnHtinfoIe_ies hc h)
  · next hz => exact .inl ⟨rfl, ApHt.htOpModeUpdate_count (by omega)⟩

/-! ### the steps -/

/-- the step up to `nonerp_set` -/
def upToErp (conf : ApHt) (s : ApBcn) : BcnEvent → ApBcn
  | .join p c => (s.setTo p .noShortPreamble (!c.shortPreamble)).setErp conf p c.nonErp
  | .leave p tim => ((s.updateTim tim).setTo p .noShortPreamble false).setErp conf p false

/-- the step up to `rtw_ht_operation_update` -/
def upToHt (conf : ApHt) (s : ApBcn) (e : BcnEvent) : ApBcn :=
  match e with
  | .join p c =>
    (((s.upToErp conf e).setTo p .noShortSlotTime (!c.shortSlotTime)).joinHt p c.ht).joinIntolerant p c.ht
  | .leave p _ =>
    (((((s.upToErp conf e).lower p .noShortSlotTime).lower p .htNoGf).lower p .noHt).lower p
      .ht20mhz).leaveIntolerant p

theorem step_eq (hc : conf.Enabled) : s.step conf e = (s.upToHt conf e).htOperationUpdate conf := by
  cases e with
  | join p c =>
    show s.join conf p c = _
    simp only [join, hc.ht, Bool.not_true, Bool.false_eq_true, if_false]
    rfl
  | leave p tim => rfl

theorem upToHt_ies : (s.upToHt conf e).ies = (s.upToErp conf e).ies := by
  cases e with
  | join p c => exact joinIntolerant_same.ies
  | leave p tim => exact leaveIntolerant_same.ies

theorem upToHt_htOpMode : (s.upToHt conf e).htOpMode = s.htOpMode := by
  cases e with
  | join p c =>
    have h : (s.upToErp conf (.join p c)).htOpMode = s.htOpMode := setErp_same.htOpMode
    exact joinIntolerant_same.htOpMode.trans h
  | leave p tim =>
    have h : (s.upToErp conf (.leave p tim)).htOpMode = (s.updateTim tim).htOpMode := setErp_same.htOpMode
    exact leaveIntolerant_same.htOpMode.trans (h.trans updateTim_same.htOpMode)

/-- the counters are those of `CapRun` -/
theorem upToHt_cap : (s.upToHt conf e).cap
    = match e with
      | .join p c => s.cap.bssCapUpdateOnStaJoin p c
      | .leave p _ => s.cap.bssCapUpdateOnStaLeave p := by
  cases e with
  | join p c =>
    have h : (s.upToErp conf (.join p c)).cap
        = (s.cap.setTo p .noShortPreamble (!c.shortPreamble)).setTo p .nonErp c.nonErp := setErp_same.cap
    show (joinIntolerant _ p c.ht).cap = _
    rw [joinIntolerant_same.cap, joinHt_cap, setTo_cap, h]
    rfl
  | leave p tim =>
    have h : (s.upToErp conf (.leave p tim)).cap
        = ((s.updateTim tim).cap.setTo p .noShortPreamble false).setTo p .nonErp false := setErp_same.cap
    show (leaveIntolerant _ p).cap = _
    rw [leaveIntolerant_same.cap, lower_cap, lower_cap, lower_cap, lower_cap, h, updateTim_same.cap]
    rfl

theorem step_cap (hc : conf.Enabled) : (s.step conf e).cap = (s.upToHt conf e).cap := by
  rw [step_eq hc, htOperationUpdate_cap]

/-- **The mark of the station goes where the event says**, and its counter with it. -/
theorem step_cell (hc : conf.Enabled) (m : Prot) : (s.step conf e).cap.cell (sta e) m
    = match gives e m with
      | none => s.cap.cell (sta e) m
      | some b => CapRun.toward b (s.cap.cell (sta e) m) := by
  rw [step_cap hc, upToHt_cap]
  cases e with
  | join p c =>
    show (s.cap.bssCapUpdateOnStaJoin p c).cell p m = _
    rw [CapRun.cell_join]
    unfold gives
    dsimp only
    by_cases h : m.sticky = true ∧ m.holds c = false
    · rw [if_pos h, if_pos h]
      rfl
    · rw [if_neg h, if_neg h]
      rfl
  | leave p tim => exact CapRun.cell_leave

theorem step_marks (hc : conf.Enabled) (m : Prot) :
    (s.step conf e).cap.marks (sta e) m = (gives e m).getD (s.cap.marks (sta e) m) := by
  have h := congrArg Prod.fst (step_cell (s := s) (e := e) hc m)
  cases hg : gives e m with
  | none =>
    rw [hg] at h
    exact h
  | some b =>
    rw [hg] at h
    exact h.trans (CapRun.toward_fst _ _)

theorem step_num (hc : conf.Enabled) (m : Prot) : (s.step conf e).cap.num m
    = s.cap.num m + (((s.step conf e).cap.marks (sta e) m).toNat - (s.cap.marks (sta e) m).toNat : Int) := by
  have h := congrArg Prod.snd (step_cell (s := s) (e := e) hc m)
  rw [step_marks hc m]
  cases hg : gives e m with
  | none =>
    rw [hg] at h
    rw [Option.getD_none, Int.sub_self, Int.add_zero]
    exact h
  | some b =>
    rw [hg] at h
    exact h.trans (CapRun.toward_snd _ _)

theorem step_marks_ne (hc : conf.Enabled) {q : Nat} (hq : q ≠ sta e) :
    (s.step conf e).cap.marks q = s.cap.marks q := by
  rw [step_cap hc, upToHt_cap]
  cases e with
  | join p c => exact CapRun.writes_join.marks q hq
  | leave p tim => exact CapRun.writes_leave.marks q hq

/-- the two counters that the ERP element is about have their new values when it is written -/
theorem upToErp_cell (hc : conf.Enabled) (hm : m = .nonErp ∨ m = .noShortPreamble) :
    (s.upToErp conf e).cap.cell (sta e) m = (s.step conf e).cap.cell (sta e) m := by
  rw [step_cell hc]
  cases e with
  | join p c =>
    have h : (s.upToErp conf (.join p c)).cap
        = (s.cap.setTo p .noShortPreamble (!c.shortPreamble)).setTo p .nonErp c.nonErp := setErp_same.cap
    rw [h]
    rcases hm with rfl | rfl <;> simp [sta, gives, CapRun.cell_setTo, Prot.sticky, Prot.holds]
  | leave p tim =>
    have h : (s.upToErp conf (.leave p tim)).cap
        = ((s.updateTim tim).cap.setTo p .noShortPreamble false).setTo p .nonErp false := setErp_same.cap
    rw [h, updateTim_same.cap]
    rcases hm with rfl | rfl <;> simp [sta, gives, CapRun.cell_setTo]

theorem upToErp_num (hc : conf.Enabled) (hm : m = .nonErp ∨ m = .noShortPreamble) :
    (s.upToErp conf e).cap.num m = (s.step conf e).cap.num m := congrArg Prod.snd (upToErp_cell hc hm)

/-! ### the elements after a step -/

/-- the state that `nonerp_set` is looked at in -/
def beforeErp (s : ApBcn) : BcnEvent → ApBcn
  | .join p c => s.setTo p .noShortPreamble (!c.shortPreamble)
  | .leave p tim => (s.updateTim tim).setTo p .noShortPreamble false

def givesErp : BcnEvent → Bool
  | .join _ c => c.nonErp
  | .leave _ _ => false

theorem upToErp_eq : s.upToErp conf e = (s.beforeErp e).setErp conf (sta e) (givesErp e) := by
  cases e <;> rfl

theorem gives_nonErp : gives e .nonErp = some (givesErp e) := by
  cases e <;> rfl

theorem beforeErp_cell : (s.beforeErp e).cap.cell (sta e) .nonErp = s.cap.cell (sta e) .nonErp := by
  cases e with
  | join p c => exact CapRun.cell_setTo
  | leave p tim =>
    refine CapRun.cell_setTo.trans ?_
    rw [if_neg (by decide), updateTim_same.cap]
    rfl

theorem erpTurns_iff : s.ErpTurns p b
    ↔ b = true ∧ s.cap.marks p .nonErp = false ∧ s.cap.num .nonErp = 0
      ∨ b = false ∧ s.cap.marks p .nonErp = true ∧ s.cap.num .nonErp = 1 := by
  have hn : (s.setTo p .nonErp b).cap.num .nonErp
      = s.cap.num .nonErp + (b.toNat - (s.cap.marks p .nonErp).toNat : Int) := by
    have hcell : (s.setTo p .nonErp b).cap.cell p .nonErp = CapRun.toward b (s.cap.cell p .nonErp) :=
      CapRun.cell_setTo.trans (if_pos rfl)
    exact (congrArg Prod.snd hcell).trans (CapRun.toward_snd _ _)
  unfold ErpTurns
  rw [hn]
  cases b <;> cases hb : s.cap.marks p .nonErp <;> simp
  omega

theorem beforeErp_turns : (s.beforeErp e).ErpTurns (sta e) (givesErp e) ↔ s.Turns e .nonErp := by
  have h1 : (s.beforeErp e).cap.marks (sta e) .nonErp = s.cap.marks (sta e) .nonErp :=
    congrArg Prod.fst beforeErp_cell
  have h2 : (s.beforeErp e).cap.num .nonErp = s.cap.num .nonErp := congrArg Prod.snd beforeErp_cell
  unfold Turns
  rw [erpTurns_iff, h1, h2, gives_nonErp]
  simp

theorem beforeErp_elems (h : HasElems3 s.ies) : HasElems3 (s.beforeErp e).ies := by
  cases e with
  | join p c => exact h
  | leave p tim => exact updateTim_elems h

theorem beforeErp_octet (hne : id ≠ Tim.wlanEidTim) :
    octetOf id i (s.beforeErp e).ies = octetOf id i s.ies := by
  cases e with
  | join p c => rfl
  | leave p tim => exact updateTim_octet hne

theorem upToHt_elems (hc : conf.Enabled) (h : HasElems3 s.ies) : HasElems3 (s.upToHt conf e).ies := by
  rw [upToHt_ies, upToErp_eq]
  exact setErp_elems hc (beforeErp_elems h)

theorem step_elems (hc : conf.Enabled) (h : HasElems3 s.ies) : HasElems3 (s.step conf e).ies := by
  have hu : HasElems3 (s.upToHt conf e).ies := upToHt_elems hc h
  rw [step_eq hc]
  rcases htOperationUpdate_ies hc hu with ⟨hi, -⟩ | ⟨w, hi⟩
  · rw [hi]
    exact hu
  · rw [hi]
    exact hu.edit (keepsId_htElem _ _) (length_htElem _ _)

/-- the rest of a step leaves the ERP element -/
theorem step_erp (hc : conf.Enabled) (h : HasElems3 s.ies) :
    octetOf erpinfoIe i (s.step conf e).ies = octetOf erpinfoIe i (s.upToErp conf e).ies := by
  rw [step_eq hc, ← upToHt_ies]
  rcases htOperationUpdate_ies hc (upToHt_elems (e := e) hc h) with ⟨hi, -⟩ | ⟨w, hi⟩
  · rw [hi]
  · rw [hi]
    exact octet_edit_other (keepsId_htElem _ _) (by decide)

theorem step_erp_of (hc : conf.Enabled) (h : HasElems3 s.ies) (hx : octetOf erpinfoIe 0 s.ies = some x)
    (ht : s.Turns e .nonErp) : octetOf erpinfoIe 0 (s.step conf e).ies
      = some (erpUpdate ((s.step conf e).cap.num .nonErp) ((s.step conf e).cap.num .noShortPreamble) x) := by
  rw [step_erp hc h, ← upToErp_num hc (.inl rfl), ← upToErp_num hc (.inr rfl), upToErp_eq]
  rw [← beforeErp_octet (e := e) (by decide)] at hx
  exact setErp_octet_of hc hx (beforeErp_turns.mpr ht)

theorem step_erp_of_not (hc : conf.Enabled) (h : HasElems3 s.ies) (ht : ¬ s.Turns e .nonErp) :
    octetOf erpinfoIe 0 (s.step conf e).ies = octetOf erpinfoIe 0 s.ies := by
  rw [step_erp hc h, upToErp_eq, setErp_octet_of_not (mt beforeErp_turns.mp ht), beforeErp_octet (by decide)]

theorem step_htOpMode (hc : conf.Enabled) :
    (s.step conf e).htOpMode = (conf.htOpModeUpdate (s.step conf e).cap.num s.htOpMode).1 := by
  rw [step_cap hc, step_eq hc, htOperationUpdate_htOpMode hc, upToHt_htOpMode]

/-- the octet is that of the mode, or neither has changed -/
theorem step_ht (hc : conf.Enabled) (h : HasElems3 s.ies) (hx : octetOf htAddInfoIe 2 s.ies = some x) :
    octetOf htAddInfoIe 2 (s.step conf e).ies = some (lowByte (s.step conf e).htOpMode)
      ∨ octetOf htAddInfoIe 2 (s.step conf e).ies = some x ∧ (s.step conf e).htOpMode = s.htOpMode := by
  have hu : octetOf htAddInfoIe 2 (s.upToHt conf e).ies = some x := by
    rw [upToHt_ies, upToErp_eq, setErp_ht hc, beforeErp_octet (by decide), hx]
  rw [step_eq hc]
  rcases htOperationUpdate_ies hc (upToHt_elems (e := e) hc h) with ⟨hi, hm⟩ | ⟨w, hi⟩
  · right
    rw [hi, hm, upToHt_htOpMode]
    exact ⟨hu, rfl⟩
  · left
    rw [hi]
    exact octet_htElem hu

end ApBcn

/-! ## runs -/

theorem lowByte_mode (m : BitVec 16) : (lowByte m).toBitVec.setWidth 2 = m.setWidth 2 := by
  simp [lowByte]

theorem lowByte_nonGf (m : BitVec 16) : (lowByte m).toBitVec.getLsbD 2 = m.getLsbD 2 := by
  simp [lowByte]

theorem setWidth_mask (m : BitVec 16) : (m &&& 3).setWidth 2 = m.setWidth 2 := by
  have h3 : (3 : BitVec 16).setWidth 2 = BitVec.allOnes 2 := by decide
  rw [BitVec.setWidth_and, h3, BitVec.and_allOnes]

namespace ApBcn

/-- the counters are the numbers of marks -/
def Counted (s : ApBcn) : Prop :=
  ∃ T : Finset Nat, (∀ p, p ∉ T → ∀ m, s.cap.marks p m = false)
    ∧ ∀ m, s.cap.num m = Marks.count T fun p => s.cap.marks p m

/-- `Barker_Preamble` -/
def BarkerRight (s : ApBcn) : Prop :=
  ∃ x, octetOf erpinfoIe 0 s.ies = some x
    ∧ x.toBitVec.getLsbD 2 = decide (0 < s.cap.num .noShortPreamble)

/-- what holds after every step -/
structure Inv (conf : ApHt) (s : ApBcn) : Prop where
  counted : s.Counted
  elems : HasElems3 s.ies
  erp : ∃ x, octetOf erpinfoIe 0 s.ies = some x
    ∧ x.toBitVec.getLsbD 0 = decide (0 < s.cap.num .nonErp)
    ∧ x.toBitVec.getLsbD 1 = decide (0 < s.cap.num .nonErp)
  ht : ∃ x, octetOf htAddInfoIe 2 s.ies = some x
    ∧ x.toBitVec.setWidth 2 = s.htOpMode.setWidth 2
    ∧ x.toBitVec.getLsbD 2 = s.htOpMode.getLsbD 2
  mode : s.htOpMode.setWidth 2 = (conf.newOpMode s.cap.num).setWidth 2
  nonGf : s.htOpMode.getLsbD 2 = decide (s.cap.num .htNoGf ≠ 0)

variable {conf : ApHt} {s : ApBcn} {e : BcnEvent} {p : Nat} {m : Prot} {x : UInt8}

/-! ### the counters -/

theorem Counted.le (h : s.Counted) (p : Nat) (m : Prot) : ((s.cap.marks p m).toNat : Int) ≤ s.cap.num m := by
  obtain ⟨T, hout, hnum⟩ := h
  rw [hnum m]
  cases hb : s.cap.marks p m with
  | false => exact Int.natCast_nonneg _
  | true =>
    have hp : p ∈ T := by
      by_contra hp
      rw [hout p hp m] at hb
      cases hb
    have hpos : 0 < Marks.count T fun p => s.cap.marks p m :=
      Finset.card_pos.mpr ⟨p, Finset.mem_filter.mpr ⟨hp, hb⟩⟩
    exact Int.ofNat_le.mpr hpos

theorem Counted.nonneg (h : s.Counted) (m : Prot) : 0 ≤ s.cap.num m :=
  Int.le_trans (Int.natCast_nonneg _) (h.le 0 m)

theorem Counted.step (hc : conf.Enabled) (h : s.Counted) : (s.step conf e).Counted := by
  obtain ⟨T, hout, hnum⟩ := h
  refine ⟨insert (sta e) T, fun q hq m => ?_, fun m => ?_⟩
  · obtain ⟨hne, hT⟩ := not_or.mp (mt Finset.mem_insert.mpr hq)
    rw [step_marks_ne hc hne]
    exact hout q hT m
  · have hold : Marks.count (insert (sta e) T) (fun q => s.cap.marks q m)
        = Marks.count T fun q => s.cap.marks q m := by
      refine (Marks.count_move_eq ⟨fun _ _ _ => rfl, fun q hq hqT => hout q hqT m⟩).mpr ?_
      intro q hq hq'
      exact absurd (Finset.mem_insert_of_mem hq) hq'
    have hset : (Marks.count (insert (sta e) T) (fun q => (s.step conf e).cap.marks q m) : Int)
        = Marks.count (insert (sta e) T) (fun q => s.cap.marks q m)
          + (((s.step conf e).cap.marks (sta e) m).toNat - (s.cap.marks (sta e) m).toNat : Int) :=
      Marks.count_set (Finset.mem_insert_self _ _) fun q hq => by rw [step_marks_ne hc hq]
    rw [step_num hc m, hset, hold, hnum m]

theorem turns_iff (hc : conf.Enabled) (h : s.Counted) :
    s.Turns e m ↔ decide (0 < (s.step conf e).cap.num m) ≠ decide (0 < s.cap.num m) := by
  have hle := h.le (sta e) m
  rw [step_num hc m, step_marks hc m, ne_eq, decide_eq_decide]
  unfold Turns
  cases hg : gives e m with
  | none => simp
  | some b =>
    cases b <;> cases hb : s.cap.marks (sta e) m <;> rw [hb] at hle <;> simp at hle ⊢ <;> omega

theorem stays_iff (hc : conf.Enabled) (h : s.Counted) : s.Stays e m ↔ 0 < (s.step conf e).cap.num m := by
  have hle := h.le (sta e) m
  rw [step_num hc m, step_marks hc m]
  unfold Stays
  cases hg : gives e m with
  | none =>
    cases hb : s.cap.marks (sta e) m <;> rw [hb] at hle
    · simp
    · simp at hle ⊢
      omega
  | some b => cases b <;> cases hb : s.cap.marks (sta e) m <;> rw [hb] at hle <;> simp at hle ⊢ <;> omega

/-- when the beacon is updated, there is one 802.11b station, or none -/
theorem turns_num (hc : conf.Enabled) (h : s.Turns e m) :
    (s.step conf e).cap.num m = 0 ∨ (s.step conf e).cap.num m = 1 := by
  rw [step_num hc, step_marks hc]
  rcases h with ⟨hg, hb, hz⟩ | ⟨hg, hb, hz⟩ <;> simp [hg, hb, hz]

/-! ### the invariant -/

theorem inv_step (hc : conf.Enabled) (h : s.Inv conf) : (s.step conf e).Inv conf := by
  have hcount := h.counted.step (e := e) hc
  refine ⟨hcount, step_elems hc h.elems, ?_, ?_, ?_, ?_⟩
  · obtain ⟨x, hx, h0, h1⟩ := h.erp
    by_cases ht : s.Turns e .nonErp
    · have hr := erpUpdate_right (k := (s.step conf e).cap.num .noShortPreamble) (turns_num hc ht) x
      exact ⟨_, step_erp_of hc h.elems hx ht, hr.nonErpPresent, hr.useProtection⟩
    · have hsame := not_not.mp (mt (turns_iff hc h.counted).mpr ht)
      rw [step_erp_of_not hc h.elems ht, hsame]
      exact ⟨x, hx, h0, h1⟩
  · obtain ⟨x, hx, hmode, hgf⟩ := h.ht
    rcases step_ht (e := e) hc h.elems hx with hs | ⟨hs, hm⟩
    · exact ⟨_, hs, lowByte_mode _, lowByte_nonGf _⟩
    · rw [hm]
      exact ⟨x, hs, hmode, hgf⟩
  · rw [step_htOpMode hc, ← setWidth_mask, ApHt.htOpModeUpdate_mode]
  · rw [step_htOpMode hc]
    exact ApHt.htOpModeUpdate_nonGf

theorem inv_started (hs : Started conf s) : s.Inv conf := by
  obtain ⟨x, hx, hr⟩ := hs.right.erp
  obtain ⟨y, hy, hh⟩ := hs.right.ht
  have hmode : conf.newOpMode s.cap.num = if conf.olbcHt then 1 else 0 := by
    simp [ApHt.newOpMode, hs.num]
  have htable : conf.opModeTable s.cap.num = (conf.newOpMode s.cap.num).setWidth 2 := by
    refine (((ApHt.newOpMode_iff fun m => ?_).mpr ?_)).symm
    · rw [hs.num]
    · rw [hs.num]
      exact fun h0 => absurd h0 (by decide)
  have hgf : s.htOpMode.getLsbD 2 = false := by
    rw [hs.mode]
    split <;> rfl
  refine ⟨⟨∅, fun p _ m => hs.marks p m, fun m => ?_⟩, hs.elems, ⟨x, hx, hr.nonErpPresent, hr.useProtection⟩,
    ⟨y, hy, ?_, ?_⟩, ?_, ?_⟩
  · rw [hs.num]
    rfl
  · rw [hh.protection, htable, hmode, hs.mode]
  · rw [hh.nonGreenfield, hs.num, hgf]
    rfl
  · rw [hmode, hs.mode]
  · rw [hgf, hs.num]
    rfl

/-- **What the code leaves open**: the bit of the preamble, and stations without greenfield. -/
theorem Inv.advertised_iff (h : s.Inv conf) :
    Advertised conf s ↔ s.BarkerRight ∧ (0 < s.cap.num .htNoGf → 0 < s.cap.num .noHt) := by
  obtain ⟨x, hx, h0, h1⟩ := h.erp
  obtain ⟨y, hy, hmode, hgf⟩ := h.ht
  have hne : s.cap.num .htNoGf ≠ 0 ↔ 0 < s.cap.num .htNoGf := by
    have := h.counted.nonneg .htNoGf
    omega
  have htable : (conf.newOpMode s.cap.num).setWidth 2 = conf.opModeTable s.cap.num ↔ _ :=
    ApHt.newOpMode_iff h.counted.nonneg
  rw [← htable]
  constructor
  · rintro ⟨⟨x', hx', hr⟩, ⟨y', hy', hh⟩⟩
    obtain rfl := Option.some.inj (hy.symm.trans hy')
    refine ⟨⟨x', hx', hr.barkerPreamble⟩, ?_⟩
    rw [← h.mode, ← hmode, hh.protection]
  · rintro ⟨⟨x', hx', hb⟩, ht⟩
    obtain rfl := Option.some.inj (hx.symm.trans hx')
    refine ⟨⟨x, hx, h0, h1, hb⟩, ⟨y, hy, ?_, ?_⟩⟩
    · rw [hmode, h.mode, ht]
    · rw [hgf, h.nonGf]
      exact decide_eq_decide.mpr hne

theorem barker_step (hc : conf.Enabled) (h : s.Inv conf) (hb : s.BarkerRight) :
    (s.step conf e).BarkerRight ↔ (s.Turns e .noShortPreamble → s.Turns e .nonErp) := by
  obtain ⟨x, hx, hbit⟩ := hb
  by_cases ht : s.Turns e .nonErp
  · have hr := erpUpdate_right (k := (s.step conf e).cap.num .noShortPreamble) (turns_num hc ht) x
    exact iff_of_true ⟨_, step_erp_of hc h.elems hx ht, hr.barkerPreamble⟩ fun _ => ht
  · have hsame := step_erp_of_not hc h.elems ht
    rw [turns_iff (m := .noShortPreamble) hc h.counted]
    constructor
    · rintro ⟨x', hx', hbit'⟩ hne
      rw [hsame] at hx'
      obtain rfl := Option.some.inj (hx.symm.trans hx')
      exact absurd (hbit'.symm.trans hbit) hne
    · intro himp
      have heq := not_not.mp (mt himp ht)
      refine ⟨x, hsame.trans hx, ?_⟩
      rw [hbit, heq]

theorem kept_iff (hc : conf.Enabled) (h : s.Inv conf) (ha : Advertised conf s) :
    Advertised conf (s.step conf e) ↔ s.Kept e := by
  have hb := (h.advertised_iff.mp ha).1
  rw [(inv_step hc h).advertised_iff, barker_step hc h hb, ← stays_iff hc h.counted, ← stays_iff hc h.counted]
  rfl

end ApBcn

/-- **The beacon says what the counters call for in exactly the runs in which the short preambles turn with the
802.11b stations only, and no station without greenfield is there without one without HT.** -/
theorem bcnProt_iff (conf : ApHt) (hc : conf.Enabled) (s : ApBcn) (hs : Started conf s) (es : List BcnEvent) :
    (∀ es', es' <+: es → Advertised conf (run (ApBcn.step conf) s es'))
      ↔ Along (ApBcn.step conf) ApBcn.Kept s es := by
  refine always_iff_along (I := ApBcn.Inv conf) (ApBcn.inv_started hs) (fun _ _ h => ApBcn.inv_step hc h)
    (fun es hC => ?_) (fun s e h ha ha' => (ApBcn.kept_iff hc h ha).mp ha') es
  have h := run_inv (I := fun s => s.Inv conf ∧ Advertised conf s)
    (fun s e h hk => ⟨ApBcn.inv_step hc h.1, (ApBcn.kept_iff hc h.1 h.2).mpr hk⟩) s es
    ⟨ApBcn.inv_started hs, hs.right⟩ hC
  exact h.2

namespace ApBcn

instance (s : ApBcn) (e : BcnEvent) (m : Prot) : Decidable (s.Turns e m) := inferInstanceAs (Decidable (_ ∨ _))

instance (s : ApBcn) (e : BcnEvent) (m : Prot) : Decidable (s.Stays e m) := inferInstanceAs (Decidable (_ ∨ _))

instance (s : ApBcn) (e : BcnEvent) : Decidable (s.Kept e) := inferInstanceAs (Decidable (_ ∧ _))

end ApBcn

/-- an access point on channel 6 -/
def plainHt : ApHt where
  erpEnable := true
  htInfoEnable := true
  htOption := true
  htEnable := true
  supWidth := true
  olbc := false
  olbcHt := false
  ht20mhzWidthReq := false
  htIntolerantChReported := false
  curChannel := 6
  curBwmode40 := true
  curChOffsetLower := true

def plainBcn : ApBcn where
  ies := [⟨Tim.wlanEidTim, [0, 1, 0, 0], by decide⟩, ⟨erpinfoIe, [0], by decide⟩,
    ⟨htAddInfoIe, [6, 5, 0, 0], by decide⟩]

theorem plainHt_enabled : plainHt.Enabled := ⟨rfl, rfl, rfl, rfl⟩

theorem plainBcn_started : Started plainHt plainBcn where
  elems := ⟨⟨_, rfl⟩, ⟨_, rfl, by decide⟩, ⟨_, rfl, by decide⟩⟩
  marks _ _ := rfl
  num _ := rfl
  mode := rfl
  right := ⟨⟨0, rfl, by decide, by decide, by decide⟩, ⟨0, rfl, by decide, by decide⟩⟩

/-- a station of 802.11b comes, one with HT of 20 MHz, and the first leaves -/
def bAndHt : List BcnEvent :=
  [.join 0 ⟨false, true, false, none⟩, .join 1 ⟨true, false, true, some 0x10⟩, .leave 0 none]

theorem bcnProt_iff_bAndHt : Advertised plainHt (run (ApBcn.step plainHt) plainBcn bAndHt) :=
  (bcnProt_iff plainHt plainHt_enabled plainBcn plainBcn_started bAndHt).mpr (by decide +kernel) bAndHt
    List.prefix_rfl

/-- a station of 802.11g comes without short preambles -/
theorem bcnProt_stale : ¬ ∀ (conf : ApHt), conf.Enabled → ∀ s, Started conf s → ∀ es,
    Advertised conf (run (ApBcn.step conf) s es) := by
  intro h
  have ha := h plainHt plainHt_enabled plainBcn plainBcn_started [.join 0 ⟨false, false, true, some 0x12⟩]
  obtain ⟨x, hx, hr⟩ := ha.erp
  have hzero : octetOf erpinfoIe 0 (run (ApBcn.step plainHt) plainBcn
      [.join 0 ⟨false, false, true, some 0x12⟩]).ies = some 0 := by decide +kernel
  obtain rfl := Option.some.inj (hzero.symm.trans hx)
  exact absurd hr.barkerPreamble (by decide +kernel)

end Rtl8192eu
