import Rtl8192eu.Ap.StaLists
import Rtl8192eu.Ie.Walkers
import Rtl8192eu.Lib.Marks
import Rtl8192eu.Lib.Run

/-!
# The protection counters

`bss_cap_update_on_sta_join` and `.._leave` of `core/rtw_ap.c` keep six counters, each with a mark in
`sta_info`.  `rtw_free_stainfo` does not look at the marks, and two of them are never taken back by a join.

* `CapRun.raise`, `CapRun.lower`   the mark of a station, and its counter;
* `CapRun.step`    a frame, `ap_free_sta`, a deletion event, or the expiry of `auth_list`;
* `CapRun.Exact`   the counters are the numbers of stations;
* `cap_exact_iff`   the runs in which they are.

The access point has HT on.  A place in the table that was free before a step is that of a new station.
-/

namespace Rtl8192eu

open Run

/-! ## what a request says -/

/-- the counters `num_sta_..` -/
inductive Prot where
  | noShortPreamble | nonErp | noShortSlotTime | noHt | htNoGf | ht20mhz
  deriving DecidableEq, Repr

/-- the fields of `sta_info` that the join reads; `ht` is `cap_info` of a station with `WLAN_STA_HT` -/
structure AssocCaps where
  shortPreamble : Bool
  nonErp : Bool
  shortSlotTime : Bool
  ht : Option Nat
  deriving DecidableEq, Repr

/-- the request has the property that is counted -/
def Prot.holds : Prot → AssocCaps → Bool
  | .noShortPreamble, c => !c.shortPreamble
  | .nonErp, c => c.nonErp
  | .noShortSlotTime, c => !c.shortSlotTime
  | .noHt, c => c.ht.isNone
  | .htNoGf, c => c.ht.any fun capab => !capab.testBit 4
  | .ht20mhz, c => c.ht.any fun capab => !capab.testBit 1

/-- a join does not take these marks back -/
def Prot.sticky : Prot → Bool
  | .htNoGf | .ht20mhz => true
  | _ => false

/-- `WPA_CIPHER_TKIP` -/
def cipherHasTkip (cipher : Nat) : Bool := cipher.testBit 3

/-- `rtw_ap_parse_sta_ht_ie`; a station with TKIP loses `WLAN_STA_HT` -/
def rtwApParseStaHtIe (sta : ApSta) (f : RecvFrame) : Option Nat :=
  let ies := f.data.drop (asocreqIeOffset f)
  match (Walk.rtwIeee80211ParseElems ies ies.length).map fun r => r.2.field .htCapabilities with
  | some (some (pos, len)) =>
    if 26 ≤ len && !cipherHasTkip sta.sec.wpa2PairwiseCipher && !cipherHasTkip sta.sec.wpaPairwiseCipher then
      some ((ies.getD pos 0).toNat + 256 * (ies.getD (pos + 1) 0).toNat)
    else none
  | _ => none

def capsOf (sta : ApSta) (f : RecvFrame) : AssocCaps where
  shortPreamble := sta.flags.shortPreamble
  nonErp := sta.flags.nonErp
  shortSlotTime := sta.capability.testBit 10
  ht := rtwApParseStaHtIe sta f

/-! ## the counters -/

structure CapRun where
  priv : StaPriv := {}
  /-- the addresses of the deletion events that are queued -/
  pending : List Mac := []
  /-- `no_short_preamble_set` .. of each `sta_info` -/
  marks : Nat → Prot → Bool := fun _ _ => false
  num : Prot → Int := fun _ => 0
  /-- the last accepted request of a station that was not released since -/
  last : Nat → Option AssocCaps := fun _ => none

inductive CapEvent where
  | auth (o : ApOracle) (f : RecvFrame)
  | assocReq (f : RecvFrame)
  /-- `ap_free_sta` for the station with this address -/
  | apFree (addr : Mac)
  /-- the queued deletion event at this place is handled -/
  | stadel (i : Nat)
  | authExpire

namespace CapRun

def setMark (r : CapRun) (p : Nat) (m : Prot) (b : Bool) : CapRun :=
  { r with marks := Function.update r.marks p (Function.update (r.marks p) m b) }

/-- the mark is set, unless it is, and the counter goes up -/
def raise (r : CapRun) (p : Nat) (m : Prot) : CapRun :=
  if r.marks p m then r else { r.setMark p m true with num := Function.update r.num m (r.num m + 1) }

def lower (r : CapRun) (p : Nat) (m : Prot) : CapRun :=
  if r.marks p m then { r.setMark p m false with num := Function.update r.num m (r.num m - 1) } else r

/-- the two branches of a property in `bss_cap_update_on_sta_join` -/
def setTo (r : CapRun) (p : Nat) (m : Prot) (b : Bool) : CapRun := if b then r.raise p m else r.lower p m

/-- the part for HT -/
def joinHt (r : CapRun) (p : Nat) : Option Nat → CapRun
  | some capab =>
    let r := r.lower p .noHt
    let r := if capab.testBit 4 then r else r.raise p .htNoGf
    if capab.testBit 1 then r else r.raise p .ht20mhz
  | none => r.raise p .noHt

def bssCapUpdateOnStaJoin (r : CapRun) (p : Nat) (c : AssocCaps) : CapRun :=
  let r := r.setTo p .noShortPreamble (!c.shortPreamble)
  let r := r.setTo p .nonErp c.nonErp
  let r := r.setTo p .noShortSlotTime (!c.shortSlotTime)
  r.joinHt p c.ht

def bssCapUpdateOnStaLeave (r : CapRun) (p : Nat) : CapRun :=
  (((((r.lower p .noShortPreamble).lower p .nonErp).lower p .noShortSlotTime).lower p .htNoGf).lower p .noHt).lower p
    .ht20mhz

/-- the table changes; `rtw_alloc_stainfo` clears the station it hands out -/
def moveTo (r : CapRun) (s : StaPriv) : CapRun :=
  { r with
    priv := s
    marks := fun p => if p ∈ s.table ∧ p ∉ r.priv.table then fun _ => false else r.marks p
    last := fun p => if p ∈ s.table ∧ p ∉ r.priv.table then none else r.last p }

/-- the station of an accepted request, and what the request says -/
def accepted (conf : ApConf) (r : CapRun) (f : RecvFrame) : Option (Nat × AssocCaps) :=
  let out := onAssocReq conf r.priv f
  if .asocRsp (getAddr2 f) 0 ∈ out.2 then
    (out.1.rtwGetStainfo (getAddr2 f)).map fun p => (p, capsOf (out.1.pool p) f)
  else none

def assocReq (conf : ApConf) (r : CapRun) (f : RecvFrame) : CapRun :=
  let r' := r.moveTo (onAssocReq conf r.priv f).1
  match r.accepted conf f with
  | some (p, c) =>
    let r' := r'.bssCapUpdateOnStaJoin p c
    { r' with last := Function.update r'.last p (some c) }
  | none => r'

/-- the callers take the station out of `asoc_list` -/
def apFreeSta (r : CapRun) (p : Nat) : CapRun :=
  let s := { r.priv.modSta p fun sta => { sta with state := { sta.state with asoc := false } } with
    asocList := r.priv.asocList.unlink p }
  let r' := ({ r with priv := s } : CapRun).bssCapUpdateOnStaLeave p
  { r' with
    pending := r.pending ++ [(r.priv.pool p).macAddr]
    last := Function.update r.last p none }

def stadel (r : CapRun) (i : Nat) : CapRun :=
  match r.pending[i]? with
  | none => r
  | some addr => { r.moveTo (rtwStadelEventCallback r.priv addr) with pending := r.pending.eraseIdx i }

def step (conf : ApConf) (r : CapRun) : CapEvent → CapRun
  | .auth o f => r.moveTo (onAuth conf o r.priv f).1
  | .assocReq f => r.assocReq conf f
  | .apFree addr =>
    match r.priv.rtwGetStainfo addr with
    | none => r
    | some p => r.apFreeSta p
  | .stadel i => r.stadel i
  | .authExpire => r.moveTo (authExpire r.priv)

/-! ## what they should be -/

def has (r : CapRun) (m : Prot) (p : Nat) : Bool := (r.last p).any m.holds

/-- the number of stations in the table, not released, whose last accepted request has the property -/
def expected (r : CapRun) (m : Prot) : Nat := Marks.count r.priv.table.toFinset (r.has m)

def marked (r : CapRun) (m : Prot) : Nat := Marks.count r.priv.table.toFinset fun p => r.marks p m

def Exact (r : CapRun) : Prop := ∀ m, r.num m = r.expected m

/-- no station whose request has one of the properties is freed without `ap_free_sta`, or comes back
without a property that a join does not take back -/
def Released (conf : ApConf) (r : CapRun) (e : CapEvent) : Prop :=
  (∀ p ∈ r.priv.table, p ∉ (r.step conf e).priv.table → ∀ m, r.has m p = false)
    ∧ ∀ f, e = .assocReq f → ∀ p ∈ r.priv.table, ∀ c, r.accepted conf f = some (p, c) →
      ∀ m, m.sticky = true → r.has m p = true → m.holds c = true

end CapRun

/-! ## join and leave -/

namespace CapRun

variable {conf : ApConf} {r : CapRun} {p q : Nat} {m m' : Prot} {c : AssocCaps}

/-- the mark of a station and its counter -/
def cell (r : CapRun) (p : Nat) (m : Prot) : Bool × Int := (r.marks p m, r.num m)

def up (x : Bool × Int) : Bool × Int := if x.1 then x else (true, x.2 + 1)

def down (x : Bool × Int) : Bool × Int := if x.1 then (false, x.2 - 1) else x

theorem cell_raise : (r.raise p m).cell p m' = if m' = m then up (r.cell p m') else r.cell p m' := by
  unfold raise up cell setMark
  by_cases hm : m' = m
  · subst hm
    cases hb : r.marks p m' <;> simp [hb]
  · cases hb : r.marks p m <;> simp [hm]

theorem cell_lower : (r.lower p m).cell p m' = if m' = m then down (r.cell p m') else r.cell p m' := by
  unfold lower down cell setMark
  by_cases hm : m' = m
  · subst hm
    cases hb : r.marks p m' <;> simp [hb]
  · cases hb : r.marks p m <;> simp [hm]

/-- a step that writes the marks of `p` and the counters only -/
structure Writes (p : Nat) (r r' : CapRun) : Prop where
  priv : r'.priv = r.priv
  pending : r'.pending = r.pending
  last : r'.last = r.last
  marks : ∀ q, q ≠ p → r'.marks q = r.marks q

theorem Writes.refl : Writes p r r := ⟨rfl, rfl, rfl, fun _ _ => rfl⟩

theorem Writes.trans {r' r'' : CapRun} (h : Writes p r r') (h' : Writes p r' r'') : Writes p r r'' :=
  ⟨h'.priv.trans h.priv, h'.pending.trans h.pending, h'.last.trans h.last,
    fun q hq => (h'.marks q hq).trans (h.marks q hq)⟩

theorem Writes.raise : Writes p r (r.raise p m) := by
  unfold CapRun.raise
  split
  · exact Writes.refl
  · exact ⟨rfl, rfl, rfl, fun q hq => Function.update_of_ne hq _ _⟩

theorem Writes.lower : Writes p r (r.lower p m) := by
  unfold CapRun.lower
  split
  · exact ⟨rfl, rfl, rfl, fun q hq => Function.update_of_ne hq _ _⟩
  · exact Writes.refl

theorem Writes.setTo {b : Bool} : Writes p r (r.setTo p m b) := by
  cases b
  · exact Writes.lower
  · exact Writes.raise

theorem Writes.joinHt {ht : Option Nat} : Writes p r (r.joinHt p ht) := by
  have hif : ∀ (r : CapRun) (b : Bool) (m : Prot), Writes p r (if b then r else r.raise p m) := by
    intro r b m
    cases b
    · exact Writes.raise
    · exact Writes.refl
  cases ht with
  | some capab => exact Writes.lower.trans ((hif _ _ _).trans (hif _ _ _))
  | none => exact Writes.raise

theorem writes_join : Writes p r (r.bssCapUpdateOnStaJoin p c) :=
  Writes.setTo.trans (Writes.setTo.trans (Writes.setTo.trans Writes.joinHt))

theorem writes_leave : Writes p r (r.bssCapUpdateOnStaLeave p) :=
  Writes.lower.trans (Writes.lower.trans (Writes.lower.trans (Writes.lower.trans (Writes.lower.trans Writes.lower))))

/-- the mark goes to `b` -/
def toward (b : Bool) (x : Bool × Int) : Bool × Int := if b then up x else down x

theorem cell_setTo {b : Bool} :
    (r.setTo p m b).cell p m' = if m' = m then toward b (r.cell p m') else r.cell p m' := by
  cases b
  · exact cell_lower
  · exact cell_raise

theorem cell_joinHt {ht : Option Nat} : (r.joinHt p ht).cell p m
    = match m, ht with
      | .noHt, ht => toward ht.isNone (r.cell p m)
      | .htNoGf, some capab => if capab.testBit 4 then r.cell p m else up (r.cell p m)
      | .ht20mhz, some capab => if capab.testBit 1 then r.cell p m else up (r.cell p m)
      | _, _ => r.cell p m := by
  cases ht with
  | none =>
    show (r.raise p .noHt).cell p m = _
    rw [cell_raise]
    cases m <;> rfl
  | some capab =>
    unfold joinHt
    dsimp only
    cases h4 : capab.testBit 4 <;> cases h1 : capab.testBit 1 <;> cases m <;>
      simp [cell_raise, cell_lower, toward, h4, h1]

/-- **A join**: each mark says what the request says, but for the two that are only set. -/
theorem cell_join : (r.bssCapUpdateOnStaJoin p c).cell p m
    = if m.sticky = true ∧ m.holds c = false then r.cell p m else toward (m.holds c) (r.cell p m) := by
  obtain ⟨sp, ne, ss, ht⟩ := c
  unfold bssCapUpdateOnStaJoin
  dsimp only
  rw [cell_joinHt]
  cases m with
  | htNoGf =>
    cases ht with
    | none => simp [cell_setTo, Prot.sticky, Prot.holds]
    | some capab => cases h4 : capab.testBit 4 <;> simp [cell_setTo, Prot.sticky, Prot.holds, toward, h4]
  | ht20mhz =>
    cases ht with
    | none => simp [cell_setTo, Prot.sticky, Prot.holds]
    | some capab => cases h1 : capab.testBit 1 <;> simp [cell_setTo, Prot.sticky, Prot.holds, toward, h1]
  | _ => simp [cell_setTo, Prot.sticky, Prot.holds]

theorem cell_leave : (r.bssCapUpdateOnStaLeave p).cell p m = down (r.cell p m) := by
  unfold bssCapUpdateOnStaLeave
  cases m <;> simp [cell_lower]

theorem toward_fst (b : Bool) (x : Bool × Int) : (toward b x).1 = b := by
  unfold toward up down
  cases b <;> cases hx : x.1 <;> simp [hx]

/-- a counter goes with its mark -/
theorem toward_snd (b : Bool) (x : Bool × Int) : (toward b x).2 = x.2 + (b.toNat - x.1.toNat : Int) := by
  obtain ⟨b', n⟩ := x
  unfold toward up down
  cases b <;> cases b' <;> simp
  rfl

/-! ## the marks cover the stations -/

structure Inv (r : CapRun) : Prop where
  covers : ∀ p ∈ r.priv.table, ∀ m, r.has m p = true → r.marks p m = true
  counted : ∀ m, (r.marked m : Int) ≤ r.num m

/-- no mark is left behind, and each says what the last request says -/
structure Tight (r : CapRun) : Prop where
  counted : ∀ m, r.num m = r.marked m
  same : ∀ p ∈ r.priv.table, ∀ m, r.marks p m = true → r.has m p = true

theorem Inv.exact_iff (h : r.Inv) : r.Exact ↔ r.Tight := by
  constructor
  · intro hex
    have hle : ∀ m, r.marked m ≤ r.expected m := by
      intro m
      have hm := h.counted m
      rw [hex m] at hm
      exact Int.ofNat_le.mp hm
    have hge : ∀ m, r.expected m ≤ r.marked m := fun m =>
      Marks.count_mono fun p hp => h.covers p (List.mem_toFinset.mp hp) m
    refine ⟨fun m => ?_, fun p hp m hm => ?_⟩
    · rw [hex m, Nat.le_antisymm (hle m) (hge m)]
    · exact Marks.eq_of_count_le (fun p hp => h.covers p (List.mem_toFinset.mp hp) m) (hle m) p
        (List.mem_toFinset.mpr hp) hm
  · intro ht m
    rw [ht.counted m]
    refine congrArg Int.ofNat (Marks.count_congr fun p hp => ?_)
    have hp := List.mem_toFinset.mp hp
    exact Bool.eq_iff_iff.mpr ⟨ht.same p hp m, h.covers p hp m⟩

/-- a step that writes one station of the table -/
structure Wrote (p : Nat) (r r' : CapRun) : Prop where
  mem : p ∈ r.priv.table
  table : r'.priv.table = r.priv.table
  marks : ∀ q, q ≠ p → r'.marks q = r.marks q
  last : ∀ q, q ≠ p → r'.last q = r.last q
  num : ∀ m, r'.num m = r.num m + ((r'.marks p m).toNat - (r.marks p m).toNat : Int)

theorem Wrote.marked {r' : CapRun} (h : Wrote p r r') (m : Prot) : r'.num m - r'.marked m = r.num m - r.marked m := by
  have hset : (Marks.count r.priv.table.toFinset (fun q => r'.marks q m) : Int)
      = Marks.count r.priv.table.toFinset (fun q => r.marks q m)
        + ((r'.marks p m).toNat - (r.marks p m).toNat : Int) :=
    Marks.count_set (List.mem_toFinset.mpr h.mem) fun q hq => by rw [h.marks q hq]
  unfold CapRun.marked
  rw [h.num m, h.table, hset]
  omega

theorem Wrote.has_ne {r' : CapRun} (h : Wrote p r r') (hq : q ≠ p) : r'.has m q = r.has m q := by
  unfold has
  rw [h.last q hq]

theorem Wrote.inv {r' : CapRun} (h : Wrote p r r') (hI : r.Inv) (hp : ∀ m, r'.has m p = true → r'.marks p m = true) :
    r'.Inv := by
  refine ⟨fun q hq m hm => ?_, fun m => ?_⟩
  · by_cases hqp : q = p
    · subst hqp
      exact hp m hm
    · rw [h.marks q hqp]
      rw [h.table] at hq
      rw [h.has_ne hqp] at hm
      exact hI.covers q hq m hm
  · have hm := h.marked m
    have hc := hI.counted m
    omega

theorem Wrote.tight {r' : CapRun} (h : Wrote p r r') (ht : r.Tight)
    (hp : ∀ m, r'.marks p m = true → r'.has m p = true) : r'.Tight := by
  refine ⟨fun m => ?_, fun q hq m hm => ?_⟩
  · have hm := h.marked m
    have hc := ht.counted m
    omega
  · by_cases hqp : q = p
    · subst hqp
      exact hp m hm
    · rw [h.marks q hqp] at hm
      rw [h.table] at hq
      rw [h.has_ne hqp]
      exact ht.same q hq m hm

/-! ## the table changes -/

theorem moveTo_moved (r : CapRun) (s : StaPriv) (m : Prot) :
    Marks.Moved r.priv.table.toFinset s.table.toFinset (fun p => r.marks p m) fun p => (r.moveTo s).marks p m := by
  refine ⟨fun p hp _ => ?_, fun p hp' hp => ?_⟩
  · show (if p ∈ s.table ∧ p ∉ r.priv.table then fun _ => false else r.marks p) m = r.marks p m
    rw [if_neg fun h => h.2 (List.mem_toFinset.mp hp)]
  · show (if p ∈ s.table ∧ p ∉ r.priv.table then fun _ => false else r.marks p) m = false
    rw [if_pos ⟨List.mem_toFinset.mp hp', fun h => hp (List.mem_toFinset.mpr h)⟩]

theorem has_moveTo_of_mem {s : StaPriv} (hp : p ∈ r.priv.table) : (r.moveTo s).has m p = r.has m p := by
  show (if p ∈ s.table ∧ p ∉ r.priv.table then none else r.last p).any m.holds = (r.last p).any m.holds
  rw [if_neg fun h => h.2 hp]

theorem has_moveTo_fresh {s : StaPriv} (hs : p ∈ s.table) (hp : p ∉ r.priv.table) : (r.moveTo s).has m p = false := by
  show (if p ∈ s.table ∧ p ∉ r.priv.table then none else r.last p).any m.holds = false
  rw [if_pos ⟨hs, hp⟩]
  rfl

theorem Inv.moveTo (h : r.Inv) (s : StaPriv) : (r.moveTo s).Inv := by
  refine ⟨fun p hp m hm => ?_, fun m => Int.le_trans ?_ (h.counted m)⟩
  · by_cases hT : p ∈ r.priv.table
    · rw [has_moveTo_of_mem hT] at hm
      rw [(moveTo_moved r s m).kept p (List.mem_toFinset.mpr hT) (List.mem_toFinset.mpr hp)]
      exact h.covers p hT m hm
    · have hs : p ∈ s.table := hp
      rw [has_moveTo_fresh hs hT] at hm
      cases hm
  · exact Int.ofNat_le.mpr (Marks.count_move_le (moveTo_moved r s m))

/-- the counters stay right exactly if no marked station has left -/
theorem Tight.moveTo_counted (h : r.Tight) {s : StaPriv} {m : Prot} : (r.moveTo s).num m = (r.moveTo s).marked m
    ↔ ∀ p ∈ r.priv.table, p ∉ s.table → r.marks p m = false := by
  have hiff := Marks.count_move_eq (moveTo_moved r s m)
  simp only [List.mem_toFinset] at hiff
  rw [← hiff]
  show r.num m = _ ↔ _
  rw [h.counted m]
  exact ⟨fun he => (Int.ofNat_inj.mp he).symm, fun he => congrArg Int.ofNat he.symm⟩

theorem Tight.moveTo (h : r.Tight) {s : StaPriv}
    (hleft : ∀ p ∈ r.priv.table, p ∉ s.table → ∀ m, r.has m p = false) : (r.moveTo s).Tight := by
  refine ⟨fun m => h.moveTo_counted.mpr fun p hp hs => ?_, fun p hp m hm => ?_⟩
  · rw [← Bool.not_eq_true]
    intro hm
    exact absurd ((hleft p hp hs m).symm.trans (h.same p hp m hm)) Bool.false_ne_true
  · by_cases hT : p ∈ r.priv.table
    · rw [has_moveTo_of_mem hT]
      rw [(moveTo_moved r s m).kept p (List.mem_toFinset.mpr hT) (List.mem_toFinset.mpr hp)] at hm
      exact h.same p hT m hm
    · rw [(moveTo_moved r s m).fresh p (List.mem_toFinset.mpr hp) fun h => hT (List.mem_toFinset.mp h)] at hm
      cases hm

/-! ## the steps -/

/-- a request that is accepted -/
def joined (r : CapRun) (p : Nat) (c : AssocCaps) : CapRun :=
  let r := r.bssCapUpdateOnStaJoin p c
  { r with last := Function.update r.last p (some c) }

theorem joined_marks : (r.joined p c).marks p m
    = if m.sticky = true ∧ m.holds c = false then r.marks p m else m.holds c := by
  have h := congrArg Prod.fst (cell_join (r := r) (p := p) (m := m) (c := c))
  rw [apply_ite Prod.fst, toward_fst] at h
  exact h

theorem joined_has : (r.joined p c).has m p = m.holds c := by
  show Option.any m.holds (Function.update (r.bssCapUpdateOnStaJoin p c).last p (some c) p) = m.holds c
  rw [Function.update_self]
  rfl

theorem wrote_joined (hp : p ∈ r.priv.table) : Wrote p r (r.joined p c) := by
  have hw : Writes p r (r.bssCapUpdateOnStaJoin p c) := writes_join
  refine ⟨hp, congrArg StaPriv.table hw.priv, hw.marks, fun q hq => ?_, fun m => ?_⟩
  · exact (Function.update_of_ne hq _ _).trans (congrFun hw.last q)
  · have h := cell_join (r := r) (p := p) (m := m) (c := c)
    have h1 := congrArg Prod.fst h
    have h2 := congrArg Prod.snd h
    change (r.joined p c).marks p m = _ at h1
    change (r.joined p c).num m = _ at h2
    rw [h1, h2]
    split
    · show r.num m = r.num m + ((r.marks p m).toNat - (r.marks p m).toNat : Int)
      omega
    · rw [toward_snd, toward_fst]
      rfl

theorem wrote_apFree (hp : p ∈ r.priv.table) : Wrote p r (r.apFreeSta p) := by
  have hw := fun s : StaPriv => writes_leave (r := { r with priv := s }) (p := p)
  refine ⟨hp, ?_, (hw _).marks, fun q hq => Function.update_of_ne hq _ _, fun m => ?_⟩
  · show (bssCapUpdateOnStaLeave _ p).priv.table = r.priv.table
    rw [(hw _).priv]
    rfl
  · have h : ∀ s : StaPriv, (({ r with priv := s } : CapRun).bssCapUpdateOnStaLeave p).cell p m
        = toward false (r.marks p m, r.num m) := fun s => cell_leave
    have h1 := fun s => congrArg Prod.fst (h s)
    have h2 := fun s => congrArg Prod.snd (h s)
    have hm : (r.apFreeSta p).marks p m = false := (h1 _).trans (toward_fst ..)
    have hn : (r.apFreeSta p).num m = _ := (h2 _).trans (toward_snd ..)
    rw [hm, hn]

theorem apFree_has : (r.apFreeSta p).has m p = false := by
  show (Function.update r.last p none p).any m.holds = false
  rw [Function.update_self]
  rfl

theorem apFree_marks : (r.apFreeSta p).marks p m = false := by
  have h : ∀ s : StaPriv, (({ r with priv := s } : CapRun).bssCapUpdateOnStaLeave p).cell p m
      = toward false (r.marks p m, r.num m) := fun s => cell_leave
  exact (congrArg Prod.fst (h _)).trans (toward_fst ..)

theorem assocReq_eq {f : RecvFrame} : r.assocReq conf f
    = match r.accepted conf f with
      | some (p, c) => (r.moveTo (onAssocReq conf r.priv f).1).joined p c
      | none => r.moveTo (onAssocReq conf r.priv f).1 := rfl

theorem accepted_mem {f : RecvFrame} (h : r.accepted conf f = some (p, c)) :
    p ∈ (onAssocReq conf r.priv f).1.table := by
  unfold accepted at h
  dsimp only at h
  split at h
  · obtain ⟨q, hq, he⟩ := Option.map_eq_some_iff.mp h
    rw [← (Prod.mk.inj he).1]
    exact (StaPriv.rtwGetStainfo_some hq).1
  · cases h

theorem Inv.joined (h : r.Inv) (hp : p ∈ r.priv.table) : (r.joined p c).Inv := by
  refine (wrote_joined hp).inv h fun m hm => ?_
  rw [joined_has] at hm
  rw [joined_marks, hm, if_neg (by simp)]

/-- the mark of a property that a join does not take back -/
theorem Tight.joined (h : r.Tight) (hp : p ∈ r.priv.table)
    (hs : ∀ m, m.sticky = true → r.has m p = true → m.holds c = true) : (r.joined p c).Tight := by
  refine (wrote_joined hp).tight h fun m hm => ?_
  rw [joined_marks] at hm
  rw [joined_has]
  split at hm
  · next hst => exact hs m hst.1 (h.same p hp m hm)
  · exact hm

/-- the events that only change the table, and the new table -/
theorem step_moves (conf : ApConf) (r : CapRun) (e : CapEvent) (hf : ∀ f, e ≠ .assocReq f) (ha : ∀ addr, e ≠ .apFree addr) :
    (r.step conf e = r) ∨ ∃ s l, r.step conf e = { r.moveTo s with pending := l } := by
  cases e with
  | auth o f => exact Or.inr ⟨_, r.pending, rfl⟩
  | assocReq f => exact absurd rfl (hf f)
  | apFree addr => exact absurd rfl (ha addr)
  | stadel i =>
    show (r.stadel i = r) ∨ ∃ s l, r.stadel i = { r.moveTo s with pending := l }
    unfold stadel
    split
    · exact Or.inl rfl
    · exact Or.inr ⟨_, _, rfl⟩
  | authExpire => exact Or.inr ⟨_, r.pending, rfl⟩

theorem inv_step (e : CapEvent) (h : r.Inv) : (r.step conf e).Inv := by
  by_cases hf : ∃ f, e = .assocReq f
  · obtain ⟨f, rfl⟩ := hf
    show (r.assocReq conf f).Inv
    rw [assocReq_eq]
    cases hacc : r.accepted conf f with
    | none => exact h.moveTo _
    | some x => exact (h.moveTo _).joined (accepted_mem hacc)
  by_cases ha : ∃ addr, e = .apFree addr
  · obtain ⟨addr, rfl⟩ := ha
    show (match r.priv.rtwGetStainfo addr with | none => r | some p => r.apFreeSta p).Inv
    split
    · exact h
    · next p hp =>
      refine (wrote_apFree (StaPriv.rtwGetStainfo_some hp).1).inv h fun m hm => ?_
      rw [apFree_has] at hm
      cases hm
  rcases step_moves conf r e (not_exists.mp hf) (not_exists.mp ha) with he | ⟨s, l, he⟩
  · rw [he]
    exact h
  · rw [he]
    exact ⟨(h.moveTo s).covers, (h.moveTo s).counted⟩

theorem tight_step (e : CapEvent) (h : r.Tight) (hC : r.Released conf e) : (r.step conf e).Tight := by
  by_cases hf : ∃ f, e = .assocReq f
  · obtain ⟨f, rfl⟩ := hf
    obtain ⟨hleft, hback⟩ := hC
    have htable : (r.step conf (.assocReq f)).priv.table = (onAssocReq conf r.priv f).1.table := by
      show (r.assocReq conf f).priv.table = _
      rw [assocReq_eq]
      cases hacc : r.accepted conf f with
      | none => rfl
      | some x => exact (wrote_joined (accepted_mem hacc)).table
    rw [htable] at hleft
    have hmoved := h.moveTo hleft
    show (r.assocReq conf f).Tight
    rw [assocReq_eq]
    cases hacc : r.accepted conf f with
    | none => exact hmoved
    | some x =>
      refine hmoved.joined (accepted_mem hacc) fun m hm hhas => ?_
      by_cases hT : x.1 ∈ r.priv.table
      · rw [has_moveTo_of_mem hT] at hhas
        exact hback f rfl x.1 hT x.2 hacc m hm hhas
      · rw [has_moveTo_fresh (accepted_mem hacc) hT] at hhas
        cases hhas
  by_cases ha : ∃ addr, e = .apFree addr
  · obtain ⟨addr, rfl⟩ := ha
    show (match r.priv.rtwGetStainfo addr with | none => r | some p => r.apFreeSta p).Tight
    split
    · exact h
    · next p hp =>
      refine (wrote_apFree (StaPriv.rtwGetStainfo_some hp).1).tight h fun m hm => ?_
      rw [apFree_marks] at hm
      cases hm
  have hleft := hC.1
  rcases step_moves conf r e (not_exists.mp hf) (not_exists.mp ha) with he | ⟨s, l, he⟩
  · rw [he]
    exact h
  · rw [he] at hleft ⊢
    have hmoved : (r.moveTo s).Tight := h.moveTo hleft
    exact ⟨hmoved.counted, hmoved.same⟩

/-- a step that keeps the counters right meets the condition -/
theorem Tight.released (hI : r.Inv) (h : r.Tight) {e : CapEvent} (h' : (r.step conf e).Tight) : r.Released conf e := by
  have hunmarked : ∀ s : StaPriv, (∀ m, (r.moveTo s).num m = (r.moveTo s).marked m) →
      ∀ p ∈ r.priv.table, p ∉ s.table → ∀ m, r.has m p = false := by
    intro s hs p hp hps m
    rw [← Bool.not_eq_true]
    intro hm
    have hclear := h.moveTo_counted.mp (hs m) p hp hps
    exact absurd (hclear.symm.trans (hI.covers p hp m hm)) Bool.false_ne_true
  by_cases hf : ∃ f, e = .assocReq f
  · obtain ⟨f, rfl⟩ := hf
    change (r.assocReq conf f).Tight at h'
    unfold Released
    change (∀ p ∈ r.priv.table, p ∉ (r.assocReq conf f).priv.table → _) ∧ _
    rw [assocReq_eq] at h' ⊢
    cases hacc : r.accepted conf f with
    | none =>
      rw [hacc] at h'
      refine ⟨hunmarked _ h'.counted, fun f' he p hp c hc => ?_⟩
      obtain rfl := CapEvent.assocReq.inj he
      exact nomatch hacc.symm.trans hc
    | some x =>
      rw [hacc] at h'
      change ((r.moveTo (onAssocReq conf r.priv f).1).joined x.1 x.2).Tight at h'
      have hw := wrote_joined (r := r.moveTo (onAssocReq conf r.priv f).1) (c := x.2) (accepted_mem hacc)
      refine ⟨?_, fun f' he p hp c hc m hst hhas => ?_⟩
      · show ∀ p ∈ r.priv.table, p ∉ ((r.moveTo (onAssocReq conf r.priv f).1).joined x.1 x.2).priv.table → _
        rw [hw.table]
        refine hunmarked (onAssocReq conf r.priv f).1 fun m => ?_
        have hm := hw.marked m
        have hc := h'.counted m
        omega
      · obtain rfl := CapEvent.assocReq.inj he
        obtain rfl := Option.some.inj (hacc.symm.trans hc)
        rw [← Bool.not_eq_false]
        intro hfalse
        have hmem : p ∈ (r.moveTo (onAssocReq conf r.priv f).1).priv.table := accepted_mem hacc
        have hmark : (r.moveTo (onAssocReq conf r.priv f).1).marks p m = true := by
          refine (hI.moveTo _).covers p hmem m ?_
          rw [has_moveTo_of_mem hp]
          exact hhas
        have hsame := h'.same p (by rw [hw.table]; exact hmem) m (by
          rw [joined_marks, if_pos ⟨hst, hfalse⟩]
          exact hmark)
        rw [joined_has, hfalse] at hsame
        cases hsame
  refine ⟨?_, fun f he => absurd ⟨f, he⟩ hf⟩
  by_cases ha : ∃ addr, e = .apFree addr
  · obtain ⟨addr, rfl⟩ := ha
    intro p hp hps
    refine absurd ?_ hps
    show p ∈ (match r.priv.rtwGetStainfo addr with | none => r | some p => r.apFreeSta p).priv.table
    split
    · exact hp
    · next q hq =>
      rw [(wrote_apFree (StaPriv.rtwGetStainfo_some hq).1).table]
      exact hp
  rcases step_moves conf r e (not_exists.mp hf) (not_exists.mp ha) with he | ⟨s, l, he⟩
  · rw [he]
    exact fun p hp hps => absurd hp hps
  · rw [he] at h' ⊢
    exact hunmarked s h'.counted

theorem inv_init (s : StaPriv) : ({ priv := s } : CapRun).Inv := by
  refine ⟨fun p _ m hm => (nomatch hm), fun m => ?_⟩
  show ((Marks.count s.table.toFinset fun _ => false : Nat) : Int) ≤ 0
  unfold Marks.count
  rw [Finset.filter_false_of_mem fun _ _ => Bool.false_ne_true]
  rfl

theorem tight_init (s : StaPriv) : ({ priv := s } : CapRun).Tight := by
  refine ⟨fun m => ?_, fun p _ m hm => nomatch hm⟩
  show (0 : Int) = (Marks.count s.table.toFinset fun _ => false : Nat)
  unfold Marks.count
  rw [Finset.filter_false_of_mem fun _ _ => Bool.false_ne_true]
  rfl

end CapRun

/-- **No counter goes below zero**, in any run. -/
theorem cap_num_nonneg (conf : ApConf) (s : StaPriv) (es : List CapEvent) (m : Prot) :
    0 ≤ (run (CapRun.step conf) { priv := s } es).num m := by
  have h : (run (CapRun.step conf) { priv := s } es).Inv :=
    run_inv_all (fun _ e => CapRun.inv_step e) _ es (CapRun.inv_init s)
  exact Int.le_trans (Int.natCast_nonneg _) (h.counted m)

/-- **The counters are exact in exactly the runs in which no station with one of the properties is freed
behind their back, or comes back without a property that a join does not take back.** -/
theorem cap_exact_iff (conf : ApConf) (s : StaPriv) (es : List CapEvent) :
    (∀ es', es' <+: es → (run (CapRun.step conf) { priv := s } es').Exact)
      ↔ Along (CapRun.step conf) (CapRun.Released conf) { priv := s } es := by
  refine always_iff_along (CapRun.inv_init s) (fun _ e => CapRun.inv_step e) (fun es hC => ?_) (fun r e hI hP hP' => ?_) es
  · have h := run_inv (I := fun r => r.Inv ∧ r.Tight)
      (fun r e h hC => ⟨CapRun.inv_step e h.1, CapRun.tight_step e h.2 hC⟩) _ es
      ⟨CapRun.inv_init s, CapRun.tight_init s⟩ hC
    exact h.1.exact_iff.mpr h.2
  · exact (hI.exact_iff.mp hP).released hI ((CapRun.inv_step e hI).exact_iff.mp hP')

/-- a station of an 802.11b network comes in, and its next Authentication frame is out of sequence -/
def bStationTwice : List CapEvent :=
  [.auth {} (openMgnt 0xb0 [0, 0, 1, 0, 0, 0]),
    .assocReq (openMgnt 0x00 ([0x01, 4, 0, 0] ++ [0, 1, 0x61] ++ [1, 1, 0x82])),
    .auth {} (openMgnt 0xb0 [0, 0, 2, 0, 0, 0])]

theorem cap_not_exact : ¬ ∀ (conf : ApConf) (s : StaPriv) (es : List CapEvent),
    (run (CapRun.step conf) { priv := s } es).Exact := by
  intro h
  have hne : (run (CapRun.step openConf) { priv := {} } bStationTwice).num .nonErp
      ≠ (run (CapRun.step openConf) { priv := {} } bStationTwice).expected .nonErp := by decide +kernel
  exact hne (h openConf {} bStationTwice .nonErp)

end Rtl8192eu
