import Rtl8192eu.Lib.Run
import Rtl8192eu.Security.CamTable

/-!
# The key table as a map

The key of the latest `set_stakey_hdl` for an address and key id is in one slot, until it is set again or
the address is cleared; a slot with a key is marked used.

* `KeySys.step`   a handler, or the broadcast station coming and going;
* `KeySys.KeyMap`   the table is a map;
* `put_iff`       a key is written;
* `getCamid_spec`   the slot that `rtw_get_camid` gives;
* `key_map_iff`   the runs in which the table is a map.
-/

namespace Rtl8192eu

open Run

structure KeySys where
  cam : Cam
  /-- what the latest successful `set_stakey_hdl` for an address and key id wrote -/
  latest : Mac → KeyId → Option SecCamEnt := fun _ _ => none

inductive KeyEvent where
  | setStakey (env : CamEnv) (p : StakeyParm)
  | setkey (env : CamEnv) (p : SetkeyParm)
  | clearStakey (addr : StaAddr)
  | allocMacid (env : CamEnv) (addr : Mac)
  | releaseMacid (addr : Mac)

namespace KeySys

/-! ## one step -/

/-- the address and key id are set -/
def note (s : KeySys) (addr : Mac) (kid : KeyId) (x : Option SecCamEnt) : Mac → KeyId → Option SecCamEnt :=
  fun a k => if a = addr ∧ k = kid then x else s.latest a k

/-- the address is cleared -/
def forget (s : KeySys) (addr : Mac) : Mac → KeyId → Option SecCamEnt :=
  fun a k => if a = addr then none else s.latest a k

def setStakey (cfg : CamCfg) (env : CamEnv) (p : StakeyParm) (s : KeySys) : KeySys where
  cam := (s.cam.setStakeyHdl cfg env p).2
  latest :=
    if (s.cam.setStakeyHdl cfg env p).1 = .successRsp then
      if p.algorithm.val = 0 then s.forget p.addr else s.note p.addr p.kid (some (p.ent cfg))
    else s.latest

def setGroupKey (cfg : CamCfg) (env : CamEnv) (p : SetkeyParm) (s : KeySys) : KeySys where
  cam := (s.cam.setGroupKey cfg env p).2
  latest :=
    if (s.cam.setGroupKey cfg env p).1 then s.note (Cam.groupAddr cfg env) p.keyid none else s.latest

def setkey (cfg : CamCfg) (env : CamEnv) (p : SetkeyParm) (s : KeySys) : KeySys :=
  if (s.cam.setGroupKey cfg env p).1 && Cam.setkeyPairwise cfg env p then
    (s.setGroupKey cfg env p).setStakey cfg env (Cam.staParm env p)
  else s.setGroupKey cfg env p

def step (cfg : CamCfg) (s : KeySys) : KeyEvent → KeySys
  | .setStakey env p => s.setStakey cfg env p
  | .setkey env p => s.setkey cfg env p
  | .clearStakey addr => { cam := s.cam.rtwClearstakeyCmd addr, latest := s.forget addr }
  | .allocMacid env addr => { s with cam := s.cam.rtwAllocMacid cfg env addr }
  | .releaseMacid addr => { s with cam := s.cam.rtwReleaseMacid cfg addr }

/-- after `invalidate_cam_all` -/
def start (cam : Cam) : KeySys where
  cam := { cam.invalidateCamAll with writes := [] }

/-! ## the map -/

/-- **The table is a map.** -/
structure KeyMap (s : KeySys) : Prop where
  valid_used : ∀ id < camNum, (s.cam.camCache id).valid = true → s.cam.used id = true
  used_valid : ∀ id < camNum, s.cam.used id = true → (s.cam.camCache id).valid = false → s.cam.ifaceBmc = id
  distinct : ∀ i < camNum, ∀ j < camNum, (s.cam.camCache i).valid = true →
    (s.cam.camCache j).valid = true → (s.cam.camCache i).SameKey (s.cam.camCache j) → i = j
  latest : ∀ a k e, s.latest a k = some e → ∃! id, id < camNum ∧ s.cam.camCache id = e
  writes : ∀ id ∈ s.cam.writes, id < camNum

/-- no other slot has a key of the kind of `e` -/
def Alone (s : KeySys) (id : Nat) (e : SecCamEnt) : Prop :=
  ∀ j < camNum, j ≠ id → (s.cam.camCache j).valid = true → ¬(s.cam.camCache j).SameKey e

/-- if the slot holds a latest key, it is for the address and key id of `e` -/
def Spare (s : KeySys) (id : Nat) (e : SecCamEnt) : Prop :=
  s.latest (s.cam.camCache id).mac (s.cam.camCache id).kid = some (s.cam.camCache id) →
    (s.cam.camCache id).mac = e.mac ∧ (s.cam.camCache id).kid = e.kid

/-- **The table stays a map.** -/
def Ok (cfg : CamCfg) (s : KeySys) : KeyEvent → Prop
  | .setStakey env p =>
    p.algorithm.val ≠ 0 → env.stations p.addr = true → ∀ id,
      s.cam.getCamid cfg p.addr p.kid p.gk = some id →
        (p.gk = false → s.cam.camidIsGk id = false) ∧ s.Alone id (p.ent cfg)
  | .setkey env p =>
    match env.mode with
    | .ap =>
      let e := p.ent cfg cfg.macAddr
      s.cam.camidIsUsed s.cam.ifaceBmc = true ∧ s.Alone s.cam.ifaceBmc e ∧ s.Spare s.cam.ifaceBmc e
    | .station =>
      env.assoc = true → ∀ id, s.cam.getCamid cfg env.bssid p.keyid true = some id →
        s.cam.camidIsUsed id = true → s.cam.camidIsGk id = false →
          ∀ k e, s.latest env.bssid k = some e → e.gk = false
  | .clearStakey _ => True
  | .allocMacid _ addr =>
    addr = bcAddr → addr ≠ cfg.macAddr → s.cam.camidIsUsed s.cam.ifaceBmc = true →
      (s.cam.camCache s.cam.ifaceBmc).valid = true
  | .releaseMacid addr =>
    s.cam.Releases cfg addr → s.cam.ifaceBmc < camNum → (s.cam.camCache s.cam.ifaceBmc).valid = false

/-- what every step keeps -/
structure Base (s : KeySys) : Prop where
  zero : ∀ id < camNum, (s.cam.camCache id).valid = false → s.cam.camCache id = {}
  own : ∀ a k e, s.latest a k = some e → e.valid = true ∧ e.mac = a ∧ e.kid = k

variable {cfg : CamCfg} {env : CamEnv} {s : KeySys}

/-! ## a key is written -/

def put (s : KeySys) (id : Nat) (u : Bool) (e : SecCamEnt) (x : Option SecCamEnt) : KeySys where
  cam := { s.cam with
    camCache := Function.update s.cam.camCache id e
    used := Function.update s.cam.used id u
    writes := id :: s.cam.writes }
  latest := s.note e.mac e.kid x

theorem Base.put (hb : s.Base) {id : Nat} {u : Bool} {e : SecCamEnt} {x : Option SecCamEnt}
    (he : e.valid = true) (hx : ∀ y, x = some y → y = e) : (s.put id u e x).Base where
  zero j hj hv := by
    change (Function.update s.cam.camCache id e j).valid = false at hv
    show Function.update s.cam.camCache id e j = {}
    by_cases hji : j = id
    · rw [hji, Function.update_self, he] at hv
      exact absurd hv.symm Bool.false_ne_true
    · rw [Function.update_of_ne hji] at hv ⊢
      exact hb.zero j hj hv
  own a k y h := by
    change (if a = e.mac ∧ k = e.kid then x else s.latest a k) = some y at h
    split at h
    next hak =>
      obtain rfl := hx y h
      exact ⟨he, hak.1.symm, hak.2.symm⟩
    next => exact hb.own a k y h

/-- a latest key has one slot -/
theorem KeyMap.slot_eq (hk : s.KeyMap) {a : Mac} {k : KeyId} {e : SecCamEnt} {i j : Nat}
    (h : s.latest a k = some e) (hi : i < camNum) (hie : s.cam.camCache i = e) (hj : j < camNum)
    (hje : s.cam.camCache j = e) : i = j :=
  (hk.latest a k e h).unique ⟨hi, hie⟩ ⟨hj, hje⟩

/-- what a written key needs -/
structure CanPut (s : KeySys) (id : Nat) (u : Bool) (e : SecCamEnt) : Prop where
  lt : id < camNum
  used : u = true
  alone : s.Alone id e
  spare : s.Spare id e

theorem CanPut.of_keyMap (hk : s.KeyMap) {id : Nat} {u : Bool} {e : SecCamEnt}
    {x : Option SecCamEnt} (he : e.valid = true) (h : (s.put id u e x).KeyMap) : s.CanPut id u e := by
  have hid : id < camNum := h.writes id List.mem_cons_self
  have hself : (s.put id u e x).cam.camCache id = e := Function.update_self ..
  have hother : ∀ j, j ≠ id → (s.put id u e x).cam.camCache j = s.cam.camCache j :=
    fun j hj => Function.update_of_ne hj ..
  refine ⟨hid, ?_, ?_, ?_⟩
  · have hu := h.valid_used id hid (by rw [hself, he])
    change Function.update s.cam.used id u id = true at hu
    rwa [Function.update_self] at hu
  · intro j hj hji hv hsame
    refine hji (h.distinct j hj id hid ?_ ?_ ?_)
    · rwa [hother j hji]
    · rwa [hself]
    · rwa [hself, hother j hji]
  · intro hl
    by_contra hne
    have hnote : (s.put id u e x).latest (s.cam.camCache id).mac (s.cam.camCache id).kid
        = some (s.cam.camCache id) := (if_neg hne).trans hl
    obtain ⟨i, ⟨hi, hie⟩, -⟩ := h.latest _ _ _ hnote
    by_cases hii : i = id
    · rw [hii, hself] at hie
      exact hne ⟨by rw [← hie], by rw [← hie]⟩
    · rw [hother i hii] at hie
      exact hii (hk.slot_eq hl hi hie hid rfl)

theorem KeyMap.put (hk : s.KeyMap) (hb : s.Base) {id : Nat} {u : Bool} {e : SecCamEnt}
    {x : Option SecCamEnt} (he : e.valid = true) (hx : ∀ y, x = some y → y = e)
    (h : s.CanPut id u e) : (s.put id u e x).KeyMap := by
  have hself : (s.put id u e x).cam.camCache id = e := Function.update_self ..
  have hother : ∀ j, j ≠ id → (s.put id u e x).cam.camCache j = s.cam.camCache j :=
    fun j hj => Function.update_of_ne hj ..
  have hused : ∀ j, j ≠ id → (s.put id u e x).cam.used j = s.cam.used j :=
    fun j hj => Function.update_of_ne hj ..
  refine ⟨?_, ?_, ?_, ?_, ?_⟩
  · intro j hj hv
    by_cases hji : j = id
    · rw [hji]
      show Function.update s.cam.used id u id = true
      rw [Function.update_self, h.used]
    · rw [hother j hji] at hv
      rw [hused j hji]
      exact hk.valid_used j hj hv
  · intro j hj hu hv
    by_cases hji : j = id
    · rw [hji, hself, he] at hv
      exact absurd hv.symm Bool.false_ne_true
    · rw [hother j hji] at hv
      rw [hused j hji] at hu
      exact hk.used_valid j hj hu hv
  · intro i hi j hj hvi hvj hsame
    by_cases hii : i = id
    · by_cases hji : j = id
      · rw [hii, hji]
      · rw [hother j hji] at hvj hsame
        rw [hii, hself] at hsame
        exact absurd ⟨hsame.1.symm, hsame.2.1.symm, hsame.2.2.symm⟩ (h.alone j hj hji hvj)
    · rw [hother i hii] at hvi hsame
      by_cases hji : j = id
      · rw [hji, hself] at hsame
        exact absurd hsame (h.alone i hi hii hvi)
      · rw [hother j hji] at hvj hsame
        exact hk.distinct i hi j hj hvi hvj hsame
  · intro a k y hl
    change (if a = e.mac ∧ k = e.kid then x else s.latest a k) = some y at hl
    split at hl
    next =>
      -- the new key: another slot with it would be a second key of the kind
      obtain rfl := hx y hl
      refine ⟨id, ⟨h.lt, hself⟩, ?_⟩
      rintro j ⟨hj, hje⟩
      by_contra hji
      rw [hother j hji] at hje
      exact h.alone j hj hji (by rw [hje, he]) (by rw [hje]; exact ⟨rfl, rfl, rfl⟩)
    next hak =>
      -- an older one: it was not in the slot
      obtain ⟨i, ⟨hi, hie⟩, -⟩ := hk.latest a k y hl
      obtain ⟨-, hmac, hkid⟩ := hb.own a k y hl
      have hne : ∀ z : SecCamEnt, z.mac = a → z.kid = k → ¬(z.mac = e.mac ∧ z.kid = e.kid) :=
        fun z hm hz hz' => hak ⟨hm.symm.trans hz'.1, hz.symm.trans hz'.2⟩
      have hiid : i ≠ id := by
        rintro rfl
        rw [← hie] at hmac hkid hl
        exact hne _ hmac hkid (h.spare (by rw [hmac, hkid, hl]))
      refine ⟨i, ⟨hi, (hother i hiid).trans hie⟩, ?_⟩
      rintro j ⟨hj, hje⟩
      by_cases hji : j = id
      · rw [hji, hself] at hje
        exact absurd ⟨by rw [hje], by rw [hje]⟩ (hne y hmac hkid)
      · rw [hother j hji] at hje
        exact hk.slot_eq hl hj hje hi hie
  · intro j hj
    rcases List.mem_cons.mp hj with rfl | hj
    · exact h.lt
    · exact hk.writes j hj

theorem put_iff (hk : s.KeyMap) (hb : s.Base) {id : Nat} {u : Bool} {e : SecCamEnt}
    {x : Option SecCamEnt} (he : e.valid = true) (hx : ∀ y, x = some y → y = e) :
    (s.put id u e x).KeyMap ↔ s.CanPut id u e :=
  ⟨CanPut.of_keyMap hk he, hk.put hb he hx⟩

/-! ## the slot of a key -/

theorem KeyMap.isGk_eq (hk : s.KeyMap) {id : Nat} (hid : id < camNum)
    (hv : (s.cam.camCache id).valid = true) : s.cam.camidIsGk id = (s.cam.camCache id).gk := by
  rw [Cam.camidIsGk, Cam.camidIsUsed_eq hid, hk.valid_used id hid hv, Bool.true_and]

/-- an entry with an address is a key -/
theorem Base.valid_of_mac (hb : s.Base) {id : Nat} (hid : id < camNum) {addr : Mac} (ha : addr ≠ zeroMac)
    (hm : (s.cam.camCache id).mac = addr) : (s.cam.camCache id).valid = true := by
  rw [← Bool.not_eq_false]
  intro hv
  rw [hb.zero id hid hv] at hm
  exact ha hm.symm

theorem KeyMap.alone (hk : s.KeyMap) {id : Nat} (hid : id < camNum)
    (hv : (s.cam.camCache id).valid = true) {e : SecCamEnt} (he : (s.cam.camCache id).SameKey e) :
    s.Alone id e := by
  intro j hj hji hvj hsame
  refine hji (hk.distinct j hj id hid hvj hv ?_)
  exact ⟨hsame.1.trans he.1.symm, hsame.2.1.trans he.2.1.symm, hsame.2.2.trans he.2.2.symm⟩

/-- what `rtw_get_camid` gives for the key `e`: a free slot, or one with its address and key id -/
structure Given (s : KeySys) (cfg : CamCfg) (id : Nat) (e : SecCamEnt) : Prop where
  lt : id < camNum
  spare : s.Spare id e
  free : s.cam.camidIsUsed id = false → s.Alone id e
  found : s.cam.camidIsUsed id = true →
    (s.cam.camCache id).valid = true ∧ (s.cam.camCache id).mac = e.mac ∧ (s.cam.camCache id).kid = e.kid
  chkBmc : cfg.chkBmc = true → s.cam.camidIsUsed id = true → s.cam.camidIsGk id = e.gk

theorem Given.alone (hk : s.KeyMap) {id : Nat} {e : SecCamEnt} (hg : s.Given cfg id e)
    (h : s.cam.camidIsUsed id = true → s.cam.camidIsGk id = e.gk) : s.Alone id e := by
  cases hu : s.cam.camidIsUsed id with
  | false => exact hg.free hu
  | true =>
    obtain ⟨hv, hm, hkid⟩ := hg.found hu
    refine hk.alone hg.lt hv ⟨hm, hkid, ?_⟩
    rw [← hk.isGk_eq hg.lt hv, h hu]

/-- **The slot of a key.** -/
theorem getCamid_spec (hk : s.KeyMap) (hb : s.Base) {e : SecCamEnt} (ha : e.mac ≠ zeroMac) {id : Nat}
    (h : s.cam.getCamid cfg e.mac e.kid e.gk = some id) : s.Given cfg id e := by
  rw [Cam.getCamid] at h
  split at h
  next id' hs =>
    obtain rfl : id' = id := Option.some.inj h
    obtain ⟨hid, hchk⟩ := Cam.camidSearch_some hs
    obtain ⟨hm, hkid, hgk⟩ := Cam.camCacheChk_iff.mp hchk
    have hkid' := (hkid _ rfl).symm
    have hv := hb.valid_of_mac hid ha hm
    have hu : s.cam.camidIsUsed id' = true := by rw [Cam.camidIsUsed_eq hid, hk.valid_used id' hid hv]
    refine ⟨hid, fun _ => ⟨hm, hkid'⟩, fun hf => ?_, fun _ => ⟨hv, hm, hkid'⟩, fun hc _ => ?_⟩
    · exact absurd (hf.symm.trans hu) Bool.false_ne_true
    · exact (hgk _ (if_pos hc)).symm
  next hs =>
    have hid : id < camNum := List.mem_range.mp (List.mem_of_find?_eq_some h)
    have hfree : s.cam.camidIsUsed id = false := by
      have := List.find?_some h
      rwa [Bool.not_eq_true'] at this
    have hused : ¬s.cam.camidIsUsed id = true := by rw [hfree]; exact Bool.false_ne_true
    refine ⟨hid, fun hl => ?_, fun _ => ?_, fun hu => absurd hu hused, fun _ hu => absurd hu hused⟩
    · have hv := hk.valid_used id hid (hb.own _ _ _ hl).1
      exact absurd ((Cam.camidIsUsed_eq hid).trans hv) hused
    · intro j hj _ hvj hsame
      have hno := Cam.camidSearch_none hs hj
      rw [← Bool.not_eq_true, Cam.camCacheChk_iff] at hno
      refine hno ⟨hsame.1, fun k hk' => ?_, fun g hg => ?_⟩
      · obtain rfl := Option.some.inj hk'
        exact hsame.2.1.symm
      · split at hg
        next =>
          obtain rfl := Option.some.inj hg
          rw [hk.isGk_eq hj hvj, hsame.2.2]
        next => exact absurd hg.symm (Option.some_ne_none g)

/-! ## keys are cleared -/

theorem zero_not_valid : ({} : SecCamEnt).valid = false := by decide

/-- the keys that the search finds are cleared -/
def clear (s : KeySys) (addr : Mac) (gk : Option Bool) (latest : Mac → KeyId → Option SecCamEnt) : KeySys where
  cam := s.cam.cleared addr gk
  latest := latest

variable {addr : Mac} {gk : Option Bool} {l : Mac → KeyId → Option SecCamEnt}

theorem clear_valid {id : Nat} (hid : id < camNum)
    (hv : ((s.clear addr gk l).cam.camCache id).valid = true) :
    (s.clear addr gk l).cam.camCache id = s.cam.camCache id
      ∧ (s.clear addr gk l).cam.used id = s.cam.used id := by
  rcases s.cam.cleared_zero addr gk hid with hz | hsame
  · change ((s.cam.cleared addr gk).camCache id).valid = true at hv
    rw [hz, zero_not_valid] at hv
    exact absurd hv Bool.false_ne_true
  · exact hsame

theorem Base.clear (hb : s.Base) (hl : ∀ a k e, l a k = some e → s.latest a k = some e) :
    (s.clear addr gk l).Base where
  zero id hid hv := by
    rcases s.cam.cleared_zero addr gk hid with hz | ⟨hsame, -⟩
    · exact hz
    · change ((s.cam.cleared addr gk).camCache id).valid = false at hv
      show (s.cam.cleared addr gk).camCache id = {}
      rw [hsame] at hv ⊢
      exact hb.zero id hid hv
  own a k e h := hb.own a k e (hl a k e h)

/-- the keys that stay known must not be found -/
theorem KeyMap.clear (hk : s.KeyMap) (hb : s.Base) (hl : ∀ a k e, l a k = some e → s.latest a k = some e)
    (hkeep : ∀ a k e, l a k = some e → ∀ id < camNum, s.cam.camCache id = e →
      s.cam.camCacheChk addr none gk id = false) : (s.clear addr gk l).KeyMap := by
  refine ⟨?_, ?_, ?_, ?_, hk.writes⟩
  · intro id hid hv
    obtain ⟨hsame, hused⟩ := clear_valid hid hv
    rw [hsame] at hv
    rw [hused]
    exact hk.valid_used id hid hv
  · intro id hid hu hv
    cases h : s.cam.camCacheChk addr none gk id with
    | true => exact absurd ((Cam.cleared_used_of_chk hid h).symm.trans hu) Bool.false_ne_true
    | false =>
      obtain ⟨hsame, hused⟩ := Cam.cleared_of_not_chk h
      change ((s.cam.cleared addr gk).camCache id).valid = false at hv
      rw [hsame] at hv
      exact hk.used_valid id hid (hused.symm.trans hu) hv
  · intro i hi j hj hvi hvj hsame
    have hci := (clear_valid hi hvi).1
    have hcj := (clear_valid hj hvj).1
    rw [hci] at hvi hsame
    rw [hcj] at hvj hsame
    exact hk.distinct i hi j hj hvi hvj hsame
  · intro a k e h
    obtain ⟨id, ⟨hid, hie⟩, -⟩ := hk.latest a k e (hl a k e h)
    refine ⟨id, ⟨hid, ?_⟩, ?_⟩
    · exact (Cam.cleared_of_not_chk (hkeep a k e h id hid hie)).1.trans hie
    · rintro j ⟨hj, hje⟩
      have hv := (hb.own a k e (hl a k e h)).1
      have hjv : ((s.clear addr gk l).cam.camCache j).valid = true := by rw [hje, hv]
      exact hk.slot_eq (hl a k e h) hj ((clear_valid hj hjv).1.symm.trans hje) hid hie

theorem forget_le (a : Mac) (k : KeyId) (e : SecCamEnt) (h : s.forget addr a k = some e) :
    a ≠ addr ∧ s.latest a k = some e := by
  unfold forget at h
  split at h
  next => exact absurd h.symm (Option.some_ne_none e)
  next hne => exact ⟨hne, h⟩

/-- **A cleared address leaves the map.** -/
theorem KeyMap.clear_forget (hk : s.KeyMap) (hb : s.Base) (addr : Mac) :
    (s.clear addr none (s.forget addr)).KeyMap := by
  refine hk.clear hb (fun a k e h => (forget_le a k e h).2) fun a k e h id _ hie => ?_
  obtain ⟨hne, hlat⟩ := forget_le a k e h
  rw [← Bool.not_eq_true, Cam.camCacheChk_iff, hie]
  exact fun hc => hne ((hb.own a k e hlat).2.1.symm.trans hc.1)

/-- the group keys of an address are cleared, and no latest key with them -/
theorem clear_group_iff (hk : s.KeyMap) (hb : s.Base) (addr : Mac) :
    (s.clear addr (some true) s.latest).KeyMap ↔ ∀ k e, s.latest addr k = some e → e.gk = false := by
  constructor
  · intro h k e hl
    rw [← Bool.not_eq_true]
    intro hgk
    obtain ⟨hv, hmac, -⟩ := hb.own addr k e hl
    obtain ⟨id, ⟨hid, hie⟩, -⟩ := h.latest addr k e hl
    have hvid : ((s.clear addr (some true) s.latest).cam.camCache id).valid = true := by rw [hie, hv]
    have hold := (clear_valid hid hvid).1.symm.trans hie
    have hchk : s.cam.camCacheChk addr none (some true) id = true := by
      refine Cam.camCacheChk_iff.mpr ⟨by rw [hold, hmac], nofun, fun g hg => ?_⟩
      obtain rfl := Option.some.inj hg
      rw [hk.isGk_eq hid (by rw [hold, hv]), hold, hgk]
    have hzero := Cam.cleared_camCache_of_chk hid hchk
    rw [show (s.cam.cleared addr (some true)).camCache id = e from hie] at hzero
    rw [hzero, zero_not_valid] at hv
    exact Bool.false_ne_true hv
  · intro h
    refine hk.clear hb (fun _ _ _ hl => hl) fun a k e hl id hid hie => ?_
    rw [← Bool.not_eq_true, Cam.camCacheChk_iff]
    rintro ⟨hm, -, hgk⟩
    obtain ⟨hv, hmac, -⟩ := hb.own a k e hl
    obtain rfl : a = addr := by rw [← hmac, ← hie, hm]
    have hg := hgk true rfl
    rw [hk.isGk_eq hid (by rw [hie, hv]), hie, h k e hl] at hg
    exact Bool.false_ne_true hg.symm

/-! ## `set_stakey_hdl` -/

variable {p : StakeyParm}

theorem given_stakey (hk : s.KeyMap) (hb : s.Base) {id : Nat}
    (hid : s.cam.getCamid cfg p.addr p.kid p.gk = some id) : s.Given cfg id (p.ent cfg) := by
  refine getCamid_spec hk hb (e := p.ent cfg) p.addr.property.1 ?_
  rwa [p.ent_kid, p.ent_gk]

theorem setStakey_clear (h0 : p.algorithm.val = 0) :
    s.setStakey cfg env p = s.clear p.addr none (s.forget p.addr) := by
  rw [setStakey, Cam.setStakeyHdl_noPrivacy h0, if_pos rfl, if_pos h0, clear]

theorem setStakey_noSta (h0 : p.algorithm.val ≠ 0) (hsta : env.stations p.addr = false) :
    s.setStakey cfg env p = s := by
  rw [setStakey, Cam.setStakeyHdl_noSta h0 hsta, if_neg nofun]

theorem setStakey_full (h0 : p.algorithm.val ≠ 0) (hsta : env.stations p.addr = true)
    (hid : s.cam.getCamid cfg p.addr p.kid p.gk = none) : s.setStakey cfg env p = s := by
  rw [setStakey, Cam.setStakeyHdl_full h0 hsta hid, if_neg nofun]

theorem setStakey_put (h0 : p.algorithm.val ≠ 0) (hsta : env.stations p.addr = true) {id : Nat}
    (hid : s.cam.getCamid cfg p.addr p.kid p.gk = some id)
    (hgk : p.gk = false → s.cam.camidIsGk id = false) :
    s.setStakey cfg env p = s.put id true (p.ent cfg) (some (p.ent cfg)) := by
  rw [setStakey, Cam.setStakeyHdl_put h0 hsta hid hgk, if_pos rfl, if_neg h0, put, p.ent_kid]
  rfl

theorem setStakey_conflict (h0 : p.algorithm.val ≠ 0) (hsta : env.stations p.addr = true) {id : Nat}
    (hid : s.cam.getCamid cfg p.addr p.kid p.gk = some id) (hg : p.gk = false)
    (hgk : s.cam.camidIsGk id = true) :
    s.setStakey cfg env p = (s.clear p.addr (some true) s.latest).put id
      ((s.cam.cleared p.addr (some true)).used id) (p.ent cfg) (some (p.ent cfg)) := by
  have hu : Function.update (s.cam.cleared p.addr (some true)).used id
      ((s.cam.cleared p.addr (some true)).used id) = (s.cam.cleared p.addr (some true)).used :=
    Function.update_eq_self ..
  rw [setStakey, Cam.setStakeyHdl_conflict h0 hsta hid hg hgk, if_pos rfl, if_neg h0, put, p.ent_kid]
  simp only [clear, hu]
  rfl

/-- **The key is in a slot that was freed.** -/
theorem setStakey_conflict_not (hk : s.KeyMap) (hb : s.Base) (h0 : p.algorithm.val ≠ 0)
    (hsta : env.stations p.addr = true) {id : Nat}
    (hid : s.cam.getCamid cfg p.addr p.kid p.gk = some id) (hg : p.gk = false)
    (hgk : s.cam.camidIsGk id = true) : ¬(s.setStakey cfg env p).KeyMap := by
  rw [setStakey_conflict h0 hsta hid hg hgk]
  intro h
  obtain ⟨hlt, -, -, hfound, -⟩ := given_stakey hk hb hid
  obtain ⟨-, hmac, -⟩ := hfound (Cam.camidIsGk_used hgk)
  have hchk : s.cam.camCacheChk p.addr none (some true) id = true :=
    Cam.camCacheChk_iff.mpr ⟨hmac, nofun, fun g h => (Option.some.inj h).symm.trans hgk.symm⟩
  have hu := h.valid_used id hlt
  simp only [put, clear, Function.update_self, Cam.cleared_used_of_chk hlt hchk] at hu
  exact Bool.false_ne_true (hu (p.ent_valid cfg))

theorem setStakey_iff (hk : s.KeyMap) (hb : s.Base) :
    (s.setStakey cfg env p).KeyMap ↔ Ok cfg s (.setStakey env p) := by
  by_cases h0 : p.algorithm.val = 0
  · rw [setStakey_clear h0]
    exact ⟨fun _ hne => absurd h0 hne, fun _ => hk.clear_forget hb p.addr⟩
  cases hsta : env.stations p.addr with
  | false =>
    rw [setStakey_noSta h0 hsta]
    exact ⟨fun _ _ hs => absurd (hsta.symm.trans hs) Bool.false_ne_true, fun _ => hk⟩
  | true =>
    cases hid : s.cam.getCamid cfg p.addr p.kid p.gk with
    | none =>
      rw [setStakey_full h0 hsta hid]
      exact ⟨fun _ _ _ id hs => absurd (hid.symm.trans hs).symm (Option.some_ne_none id), fun _ => hk⟩
    | some id =>
      have hgiven := given_stakey hk hb hid
      constructor
      · intro h _ _ id' hid'
        obtain rfl : id = id' := Option.some.inj (hid.symm.trans hid')
        have hgk : p.gk = false → s.cam.camidIsGk id = false := by
          intro hg
          rw [← Bool.not_eq_true]
          exact fun hgk => setStakey_conflict_not hk hb h0 hsta hid hg hgk h
        rw [setStakey_put h0 hsta hid hgk] at h
        exact ⟨hgk, (CanPut.of_keyMap hk (p.ent_valid cfg) h).alone⟩
      · intro hok
        obtain ⟨hgk, halone⟩ := hok h0 hsta id hid
        rw [setStakey_put h0 hsta hid hgk]
        exact hk.put hb (p.ent_valid cfg) (fun y hy => (Option.some.inj hy).symm)
          ⟨hgiven.lt, rfl, halone, hgiven.spare⟩

/-- with `SEC_CAP_CHK_BMC` no slot is shared by a pairwise and a group key -/
theorem setStakey_chkBmc (hk : s.KeyMap) (hb : s.Base) (hc : cfg.chkBmc = true) :
    (s.setStakey cfg env p).KeyMap := by
  refine (setStakey_iff hk hb).mpr fun _ _ id hid => ?_
  have hgiven := given_stakey hk hb hid
  have hsame : s.cam.camidIsUsed id = true → s.cam.camidIsGk id = (p.ent cfg).gk := hgiven.chkBmc hc
  refine ⟨fun hg => ?_, hgiven.alone hk hsame⟩
  cases hu : s.cam.camidIsUsed id with
  | false => rw [Cam.camidIsGk, hu, Bool.false_and]
  | true => rw [hsame hu, p.ent_gk, hg]

theorem Base.setStakey (hb : s.Base) : (s.setStakey cfg env p).Base := by
  by_cases h0 : p.algorithm.val = 0
  · rw [setStakey_clear h0]
    exact hb.clear fun a k e h => (forget_le a k e h).2
  cases hsta : env.stations p.addr with
  | false => rwa [setStakey_noSta h0 hsta]
  | true =>
    cases hid : s.cam.getCamid cfg p.addr p.kid p.gk with
    | none => rwa [setStakey_full h0 hsta hid]
    | some id =>
      have hx : ∀ y, some (p.ent cfg) = some y → y = p.ent cfg := fun y hy => (Option.some.inj hy).symm
      by_cases hgk : p.gk = false → s.cam.camidIsGk id = false
      · rw [setStakey_put h0 hsta hid hgk]
        exact hb.put (p.ent_valid cfg) hx
      · obtain ⟨hg, hgk⟩ := Classical.not_imp.mp hgk
        rw [setStakey_conflict h0 hsta hid hg (Bool.not_eq_false _ ▸ hgk)]
        exact (hb.clear fun _ _ _ h => h).put (p.ent_valid cfg) hx

/-! ## `setkey_hdl` -/

variable {q : SetkeyParm}

theorem none_le (e : SecCamEnt) (y : SecCamEnt) (h : none = some y) : y = e :=
  absurd h.symm (Option.some_ne_none y)

theorem setGroupKey_ap (hm : env.mode = .ap) :
    s.setGroupKey cfg env q
      = s.put s.cam.ifaceBmc (s.cam.used s.cam.ifaceBmc) (q.ent cfg cfg.macAddr) none := by
  rw [setGroupKey, Cam.setGroupKey_ap hm, if_pos rfl, put, q.ent_kid, Function.update_eq_self, Cam.groupAddr,
    if_pos hm]
  rfl

theorem given_group (hk : s.KeyMap) (hb : s.Base) {id : Nat}
    (hid : s.cam.getCamid cfg env.bssid q.keyid true = some id) :
    s.Given cfg id (q.ent cfg env.bssid) := by
  refine getCamid_spec hk hb (e := q.ent cfg env.bssid) env.bssid.property.1 ?_
  rwa [q.ent_kid, q.ent_gk]

theorem setGroupKey_skip (hm : env.mode = .station)
    (hid : env.assoc = true → s.cam.getCamid cfg env.bssid q.keyid true = none) :
    s.setGroupKey cfg env q = s := by
  rw [setGroupKey, Cam.setGroupKey_skip hm hid, if_neg Bool.false_ne_true]

theorem setGroupKey_put (hm : env.mode = .station) (ha : env.assoc = true) {id : Nat}
    (hid : s.cam.getCamid cfg env.bssid q.keyid true = some id)
    (hgk : s.cam.camidIsUsed id = true → s.cam.camidIsGk id = true) :
    s.setGroupKey cfg env q = s.put id true (q.ent cfg env.bssid) none := by
  rw [setGroupKey, Cam.setGroupKey_put hm ha hid hgk, if_pos rfl, put, q.ent_kid, Cam.groupAddr,
    if_neg (by rw [hm]; decide)]
  rfl

/-- the slot holds a pairwise key: the group keys of the access point are cleared -/
theorem setGroupKey_conflict (hm : env.mode = .station) (ha : env.assoc = true) {id : Nat}
    (hid : s.cam.getCamid cfg env.bssid q.keyid true = some id) (hu : s.cam.camidIsUsed id = true)
    (hgk : s.cam.camidIsGk id = false) :
    s.setGroupKey cfg env q = s.clear env.bssid (some true) s.latest := by
  rw [setGroupKey, Cam.setGroupKey_conflict hm ha hid hu hgk, if_neg Bool.false_ne_true, clear]

theorem setGroupKey_iff_ap (hk : s.KeyMap) (hb : s.Base) (hm : env.mode = .ap) :
    (s.setGroupKey cfg env q).KeyMap ↔ Ok cfg s (.setkey env q) := by
  rw [setGroupKey_ap hm, put_iff hk hb (q.ent_valid cfg _) (none_le _)]
  simp only [Ok, hm]
  constructor
  · rintro ⟨hlt, hu, halone, hspare⟩
    exact ⟨(Cam.camidIsUsed_eq hlt).trans hu, halone, hspare⟩
  · rintro ⟨hu, halone, hspare⟩
    obtain ⟨hlt, hu⟩ := Bool.and_eq_true_iff.mp hu
    exact ⟨of_decide_eq_true hlt, hu, halone, hspare⟩

theorem setGroupKey_iff_station (hk : s.KeyMap) (hb : s.Base) (hm : env.mode = .station) :
    (s.setGroupKey cfg env q).KeyMap ↔ Ok cfg s (.setkey env q) := by
  simp only [Ok, hm]
  cases hid : s.cam.getCamid cfg env.bssid q.keyid true with
  | none =>
    rw [setGroupKey_skip hm fun _ => hid]
    exact ⟨fun _ _ id h => absurd h.symm (Option.some_ne_none id), fun _ => hk⟩
  | some id =>
    cases ha : env.assoc with
    | false =>
      rw [setGroupKey_skip hm fun h => absurd (ha.symm.trans h) Bool.false_ne_true]
      exact ⟨fun _ h => absurd h Bool.false_ne_true, fun _ => hk⟩
    | true =>
      by_cases hgk : s.cam.camidIsUsed id = true → s.cam.camidIsGk id = true
      · have hgiven := given_group hk hb hid
        have halone := hgiven.alone hk fun hu => (hgk hu).trans (q.ent_gk cfg _).symm
        rw [setGroupKey_put hm ha hid hgk]
        refine ⟨?_, fun _ => hk.put hb (q.ent_valid cfg _) (none_le _) ⟨hgiven.lt, rfl, halone, hgiven.spare⟩⟩
        intro _ _ id' hid' hu hno
        obtain rfl := Option.some.inj hid'
        exact absurd (hno.symm.trans (hgk hu)) Bool.false_ne_true
      · obtain ⟨hu, hno⟩ := Classical.not_imp.mp hgk
        rw [Bool.not_eq_true] at hno
        rw [setGroupKey_conflict hm ha hid hu hno, clear_group_iff hk hb]
        constructor
        · intro h _ _ _ _ _
          exact h
        · intro h
          exact h rfl id rfl hu hno

theorem Base.setGroupKey (hb : s.Base) : (s.setGroupKey cfg env q).Base := by
  cases hm : env.mode with
  | ap =>
    rw [setGroupKey_ap hm]
    exact hb.put (q.ent_valid cfg _) (none_le _)
  | station =>
    cases hid : s.cam.getCamid cfg env.bssid q.keyid true with
    | none => rwa [setGroupKey_skip hm fun _ => hid]
    | some id =>
      cases ha : env.assoc with
      | false => rwa [setGroupKey_skip hm fun h => absurd (ha.symm.trans h) Bool.false_ne_true]
      | true =>
        by_cases hgk : s.cam.camidIsUsed id = true → s.cam.camidIsGk id = true
        · rw [setGroupKey_put hm ha hid hgk]
          exact hb.put (q.ent_valid cfg _) (none_le _)
        · obtain ⟨hu, hno⟩ := Classical.not_imp.mp hgk
          rw [Bool.not_eq_true] at hno
          rw [setGroupKey_conflict hm ha hid hu hno]
          exact hb.clear fun _ _ _ h => h

theorem setGroupKey_iff (hk : s.KeyMap) (hb : s.Base) :
    (s.setGroupKey cfg env q).KeyMap ↔ Ok cfg s (.setkey env q) := by
  cases hm : env.mode with
  | ap => exact setGroupKey_iff_ap hk hb hm
  | station => exact setGroupKey_iff_station hk hb hm

/-- with `SEC_CAP_CHK_BMC` a station finds no pairwise key where it looks for a group key -/
theorem setkey_ok_of_chkBmc (hk : s.KeyMap) (hb : s.Base) (hm : env.mode = .station) (hc : cfg.chkBmc = true) :
    Ok cfg s (.setkey env q) := by
  simp only [Ok, hm]
  intro _ id hid hu hno
  have hgk := (given_group hk hb hid).chkBmc hc hu
  rw [q.ent_gk, hno] at hgk
  exact absurd hgk Bool.false_ne_true

theorem setkey_iff (hk : s.KeyMap) (hb : s.Base) :
    (s.setkey cfg env q).KeyMap ↔ Ok cfg s (.setkey env q) := by
  unfold setkey
  split
  next h =>
    obtain ⟨-, hpair⟩ := Bool.and_eq_true_iff.mp h
    obtain ⟨hsta, hc⟩ := Bool.and_eq_true_iff.mp hpair
    have hm : env.mode = .station := of_decide_eq_true (Bool.and_eq_true_iff.mp hsta).2
    have hok : Ok cfg s (.setkey env q) := setkey_ok_of_chkBmc hk hb hm hc
    have hgroup := (setGroupKey_iff hk hb).mpr hok
    exact ⟨fun _ => hok, fun _ => setStakey_chkBmc hgroup hb.setGroupKey hc⟩
  next => exact setGroupKey_iff hk hb

theorem Base.setkey (hb : s.Base) : (s.setkey cfg env q).Base := by
  unfold KeySys.setkey
  split
  next => exact hb.setGroupKey.setStakey
  next => exact hb.setGroupKey

/-! ## the broadcast station -/

theorem invalid_not_lt : ¬invalidCamId < camNum := by decide

/-- the reserved slot, if any, holds a key -/
def NoEmpty (s : KeySys) : Prop :=
  s.cam.camidIsUsed s.cam.ifaceBmc = true → (s.cam.camCache s.cam.ifaceBmc).valid = true

def reserve (s : KeySys) (used : Nat → Bool) (ifaceBmc : Nat) (macidUsed : Nat → Bool) (macId : Mac → Nat) :
    KeySys where
  cam := s.cam.reserve used ifaceBmc macidUsed macId
  latest := s.latest

variable {mu : Nat → Bool} {mi : Mac → Nat}

theorem KeyMap.macids (hk : s.KeyMap) : (s.reserve s.cam.used s.cam.ifaceBmc mu mi).KeyMap :=
  ⟨hk.valid_used, hk.used_valid, hk.distinct, hk.latest, hk.writes⟩

/-- a slot that is used has a key, once no slot is reserved -/
theorem NoEmpty.valid (h : s.NoEmpty) (hk : s.KeyMap) {id : Nat} (hid : id < camNum)
    (hu : s.cam.used id = true) : (s.cam.camCache id).valid = true := by
  rw [← Bool.not_eq_false]
  intro hv
  have hbmc := hk.used_valid id hid hu hv
  have hval := h (by rw [hbmc, Cam.camidIsUsed_eq hid, hu])
  rw [hbmc, hv] at hval
  exact Bool.false_ne_true hval

theorem reserve_none_iff (hk : s.KeyMap) : (s.reserve s.cam.used invalidCamId mu mi).KeyMap ↔ s.NoEmpty := by
  constructor
  · intro h hu
    obtain ⟨hlt, hu⟩ := Bool.and_eq_true_iff.mp hu
    have hlt := of_decide_eq_true hlt
    rw [← Bool.not_eq_false]
    intro hv
    have hinv : invalidCamId = s.cam.ifaceBmc := h.used_valid _ hlt hu hv
    exact invalid_not_lt (hinv ▸ hlt)
  · intro h
    refine ⟨hk.valid_used, fun id hid hu hv => ?_, hk.distinct, hk.latest, hk.writes⟩
    exact absurd (hv.symm.trans (h.valid hk hid hu)) Bool.false_ne_true

theorem reserve_slot_iff (hk : s.KeyMap) {i : Nat} (hi : i < camNum) (hfree : s.cam.used i = false) :
    (s.reserve (Function.update s.cam.used i true) i mu mi).KeyMap ↔ s.NoEmpty := by
  have hother : ∀ id, s.cam.used id = true → id ≠ i := by
    rintro id hu rfl
    exact Bool.false_ne_true (hfree.symm.trans hu)
  constructor
  · intro h hu
    obtain ⟨hlt, hu⟩ := Bool.and_eq_true_iff.mp hu
    rw [← Bool.not_eq_false]
    intro hv
    have hne := hother _ hu
    refine hne (h.used_valid _ (of_decide_eq_true hlt) ?_ hv).symm
    show Function.update s.cam.used i true s.cam.ifaceBmc = true
    rwa [Function.update_of_ne hne]
  · intro h
    refine ⟨fun id hid hv => ?_, fun id hid hu hv => ?_, hk.distinct, hk.latest, hk.writes⟩
    · have hu := hk.valid_used id hid hv
      show Function.update s.cam.used i true id = true
      rwa [Function.update_of_ne (hother id hu)]
    · by_contra hne
      have hne : id ≠ i := fun he => hne he.symm
      change Function.update s.cam.used i true id = true at hu
      rw [Function.update_of_ne hne] at hu
      exact Bool.false_ne_true (hv.symm.trans (h.valid hk hid hu))

theorem allocMacid_iff (hk : s.KeyMap) (addr : Mac) :
    (step cfg s (.allocMacid env addr)).KeyMap ↔ Ok cfg s (.allocMacid env addr) := by
  obtain ⟨mu, mi, ⟨hskip, heq⟩ | ⟨hbc, hmac, heq⟩⟩ := s.cam.rtwAllocMacid_cases cfg env addr
  · have hstep : step cfg s (.allocMacid env addr) = s.reserve s.cam.used s.cam.ifaceBmc mu mi := by
      rw [step, heq]; rfl
    rw [hstep]
    exact ⟨fun _ hb hne => absurd (hskip hb) hne, fun _ => hk.macids⟩
  · have hok : Ok cfg s (.allocMacid env addr) ↔ s.NoEmpty := ⟨fun h => h hbc hmac, fun h _ _ => h⟩
    rw [hok]
    rcases heq with heq | ⟨i, hi, hfree, heq⟩
    · rw [step, heq]
      exact reserve_none_iff hk
    · rw [step, heq]
      exact reserve_slot_iff hk hi hfree

theorem release_slot_iff (hk : s.KeyMap) (hlt : s.cam.ifaceBmc < camNum) :
    (s.reserve (Function.update s.cam.used s.cam.ifaceBmc false) invalidCamId mu mi).KeyMap
      ↔ (s.cam.camCache s.cam.ifaceBmc).valid = false := by
  constructor
  · intro h
    rw [← Bool.not_eq_true]
    intro hv
    have hu : Function.update s.cam.used s.cam.ifaceBmc false s.cam.ifaceBmc = true := h.valid_used _ hlt hv
    rw [Function.update_self] at hu
    exact Bool.false_ne_true hu
  · intro h
    refine ⟨fun id hid hv => ?_, fun id hid hu hv => ?_, hk.distinct, hk.latest, hk.writes⟩
    · have hne : id ≠ s.cam.ifaceBmc := by
        rintro rfl
        exact Bool.false_ne_true (h.symm.trans hv)
      show Function.update s.cam.used s.cam.ifaceBmc false id = true
      rw [Function.update_of_ne hne]
      exact hk.valid_used id hid hv
    · change Function.update s.cam.used s.cam.ifaceBmc false id = true at hu
      have hne : id ≠ s.cam.ifaceBmc := by
        rintro rfl
        rw [Function.update_self] at hu
        exact Bool.false_ne_true hu
      rw [Function.update_of_ne hne] at hu
      exact absurd (hk.used_valid id hid hu hv).symm hne

theorem releaseMacid_iff (hk : s.KeyMap) (addr : Mac) :
    (step cfg s (.releaseMacid addr)).KeyMap ↔ Ok cfg s (.releaseMacid addr) := by
  obtain ⟨mu, mi, ⟨hskip, heq⟩ | ⟨hrel, heq⟩⟩ := s.cam.rtwReleaseMacid_cases cfg addr
  · have hstep : step cfg s (.releaseMacid addr) = s.reserve s.cam.used s.cam.ifaceBmc mu mi := by
      rw [step, heq]; rfl
    rw [hstep]
    exact ⟨fun _ hrel => absurd hrel hskip, fun _ => hk.macids⟩
  · rw [step, heq]
    by_cases hlt : s.cam.ifaceBmc < camNum
    · have hok : Ok cfg s (.releaseMacid addr) ↔ (s.cam.camCache s.cam.ifaceBmc).valid = false :=
        ⟨fun h => h hrel hlt, fun h _ _ => h⟩
      rw [hok, if_pos hlt]
      exact release_slot_iff hk hlt
    · rw [if_neg hlt]
      refine ⟨fun _ _ h => absurd h hlt, fun _ => (reserve_none_iff hk).mpr fun hu => ?_⟩
      exact absurd (of_decide_eq_true (Bool.and_eq_true_iff.mp hu).1) hlt

/-! ## runs -/

theorem Base.step (hb : s.Base) (ev : KeyEvent) : (step cfg s ev).Base := by
  cases ev with
  | setStakey env p => exact hb.setStakey
  | setkey env p => exact hb.setkey
  | clearStakey addr =>
    show Base { cam := s.cam.clearKeys addr none camNum, latest := s.forget addr }
    rw [Cam.clearKeys_eq addr.property.1]
    exact hb.clear fun a k e h => (forget_le a k e h).2
  | allocMacid env addr =>
    obtain ⟨mu, mi, ⟨-, heq⟩ | ⟨-, -, heq | ⟨i, -, -, heq⟩⟩⟩ := s.cam.rtwAllocMacid_cases cfg env addr
    all_goals
      rw [KeySys.step, heq]
      exact ⟨hb.zero, hb.own⟩
  | releaseMacid addr =>
    obtain ⟨mu, mi, ⟨-, heq⟩ | ⟨-, heq⟩⟩ := s.cam.rtwReleaseMacid_cases cfg addr
    all_goals
      rw [KeySys.step, heq]
      exact ⟨hb.zero, hb.own⟩

/-- **One step.** -/
theorem step_iff (hk : s.KeyMap) (hb : s.Base) (ev : KeyEvent) : (step cfg s ev).KeyMap ↔ Ok cfg s ev := by
  cases ev with
  | setStakey env p => exact setStakey_iff hk hb
  | setkey env p => exact setkey_iff hk hb
  | clearStakey addr =>
    refine ⟨fun _ => trivial, fun _ => ?_⟩
    show KeyMap { cam := s.cam.clearKeys addr none camNum, latest := s.forget addr }
    rw [Cam.clearKeys_eq addr.property.1]
    exact hk.clear_forget hb addr
  | allocMacid env addr => exact allocMacid_iff hk addr
  | releaseMacid addr => exact releaseMacid_iff hk addr

theorem start_base (cam : Cam) : (start cam).Base where
  zero _ _ _ := rfl
  own _ _ e h := absurd h.symm (Option.some_ne_none e)

theorem start_keyMap (cam : Cam) : (start cam).KeyMap where
  valid_used id _ hv := by
    change ({} : SecCamEnt).valid = true at hv
    rw [zero_not_valid] at hv
    exact absurd hv Bool.false_ne_true
  used_valid id _ hu _ := (of_decide_eq_true (Bool.and_eq_true_iff.mp hu).2).symm
  distinct i _ j _ hv := by
    change ({} : SecCamEnt).valid = true at hv
    rw [zero_not_valid] at hv
    exact absurd hv Bool.false_ne_true
  latest _ _ e h := absurd h.symm (Option.some_ne_none e)
  writes id h := absurd h List.not_mem_nil

/-- **The runs in which the key table is a map.** -/
theorem key_map_iff (cfg : CamCfg) (cam : Cam) (evs : List KeyEvent) :
    (∀ evs', evs' <+: evs → (run (step cfg) (start cam) evs').KeyMap)
      ↔ Along (step cfg) (Ok cfg) (start cam) evs := by
  refine always_iff_along (I := Base) (start_base cam) (fun s ev hb => hb.step ev) ?_ ?_ evs
  · intro evs hok
    have hrun := run_inv (I := fun s => s.KeyMap ∧ s.Base)
      (fun s ev hs hok => ⟨(step_iff hs.1 hs.2 ev).mpr hok, hs.2.step ev⟩) (start cam) evs
      ⟨start_keyMap cam, start_base cam⟩ hok
    exact hrun.1
  · intro s ev hb hk hnext
    exact (step_iff hk hb ev).mp hnext

/-! a group key and a pairwise key of one station with one key id, then a key of another station -/

def cipherAes : ShortCipher := ⟨4#8, by decide⟩

def staA : StaAddr := ⟨[0x02, 0, 0, 0, 0, 0x0a], by decide⟩

def staB : StaAddr := ⟨[0x02, 0, 0, 0, 0, 0x0b], by decide⟩

def conflictCfg : CamCfg := ⟨false, [0x02, 0, 0, 0, 0, 0x01], false⟩

def conflictEnv : CamEnv := ⟨.station, true, staA, fun _ => true⟩

def conflictRun : KeySys :=
  run (step conflictCfg) (start {})
    [.setStakey conflictEnv ⟨cipherAes, staA, 0, true, 1#128⟩,
      .setStakey conflictEnv ⟨cipherAes, staA, 0, false, 2#128⟩,
      .setStakey conflictEnv ⟨cipherAes, staB, 0, false, 3#128⟩]

/-- **The pairwise key is lost.** -/
theorem key_lost : ¬conflictRun.KeyMap := by
  intro h
  have hl : conflictRun.latest staA 0 = some (StakeyParm.ent conflictCfg ⟨cipherAes, staA, 0, false, 2#128⟩) := by
    decide +kernel
  obtain ⟨id, ⟨hid, hie⟩, -⟩ := h.latest _ _ _ hl
  have hno : ∀ id < camNum, conflictRun.cam.camCache id
      ≠ StakeyParm.ent conflictCfg ⟨cipherAes, staA, 0, false, 2#128⟩ := by decide +kernel
  exact hno id hid hie

end KeySys

end Rtl8192eu
