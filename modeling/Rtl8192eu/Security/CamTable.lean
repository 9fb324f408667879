import Rtl8192eu.Lib.Marks
import Rtl8192eu.Recv.Adapter

/-!
# The hardware key table

`cam_ctl` and `cam_cache` of one interface: a bitmap of the used slots, the entries, and the slot that is
reserved for the keys of the broadcast station.  `core/rtw_wlan_util.c` looks for entries and free slots,
`set_stakey_hdl` and `setkey_hdl` of `core/rtw_mlme_ext.c` write them.

* `SecCamEnt`   an entry; `camCtrl` is the control word that the handlers write;
* `Cam.camidAlloc`   the slot of a key;
* `Cam.clearKeys`   the loops over `rtw_camid_search`; `clearKeys_eq` is what they leave;
* `Cam.setStakeyHdl`, `Cam.setkeyHdl`, `Cam.rtwAllocMacid`, `Cam.rtwReleaseMacid`.

`SEC_DEFAULT_KEY_SEARCH` is not defined, and no cipher has 256 bits.
-/

namespace Rtl8192eu

/-! ## entries -/

abbrev CamKey := BitVec 128
abbrev KeyId := Fin 4

/-- the address of a `sta_info`: the table of the stations keeps it under itself -/
abbrev StaAddr := {a : Mac // a ≠ zeroMac ∧ staKey a = a}

/-- `enum security_type`, without `_SEC_TYPE_256_` -/
abbrev ShortCipher := {a : BitVec 8 // a &&& 0x10#8 = 0#8}

structure SecCamEnt where
  ctrl : BitVec 16 := 0
  mac : Mac := zeroMac
  key : CamKey := 0
  deriving DecidableEq, Repr

namespace SecCamEnt

def valid (e : SecCamEnt) : Bool := e.ctrl.getLsbD 15

def gk (e : SecCamEnt) : Bool := e.ctrl.getLsbD 6

def kid (e : SecCamEnt) : KeyId := Fin.ofNat 4 (e.ctrl &&& 3#16).toNat

/-- one address, key id and group bit -/
def SameKey (e e' : SecCamEnt) : Prop := e.mac = e'.mac ∧ e.kid = e'.kid ∧ e.gk = e'.gk

end SecCamEnt

/-- the control word of a key; `spp` is `amsdu_spp_enable` -/
def camCtrl (algorithm : BitVec 8) (kid : KeyId) (gk spp : Bool) : BitVec 16 :=
  0x8000#16 ||| ((algorithm.setWidth 16 &&& 7#16) <<< 2) ||| BitVec.ofNat 16 kid
    ||| (if gk then 0x40#16 else 0#16) ||| (if spp then 0x80#16 else 0#16)

theorem camCtrl_low (algorithm : BitVec 8) (kid : KeyId) (gk spp : Bool) :
    camCtrl algorithm kid gk spp = camCtrl (BitVec.ofNat 8 (algorithm.toNat % 8)) kid gk spp := by
  have h7 : algorithm.setWidth 16 &&& 7#16
      = (BitVec.ofNat 8 (algorithm.toNat % 8)).setWidth 16 &&& 7#16 := by
    apply BitVec.eq_of_toNat_eq
    simp only [BitVec.toNat_and, BitVec.toNat_setWidth, BitVec.toNat_ofNat]
    have h1 := Nat.and_two_pow_sub_one_eq_mod (algorithm.toNat % 2 ^ 16) 3
    have h2 := Nat.and_two_pow_sub_one_eq_mod (algorithm.toNat % 8 % 2 ^ 8 % 2 ^ 16) 3
    simp at h1 h2 ⊢
    rw [h1, h2]
  unfold camCtrl
  rw [h7]

/-- what the search reads in the control word of a key -/
theorem camCtrl_bits (algorithm : BitVec 8) (kid : KeyId) (gk spp : Bool) :
    (camCtrl algorithm kid gk spp).getLsbD 15 = true ∧ (camCtrl algorithm kid gk spp).getLsbD 6 = gk
      ∧ Fin.ofNat 4 (camCtrl algorithm kid gk spp &&& 3#16).toNat = kid := by
  have hbits : ∀ (t : Fin 8) (kid : KeyId) (gk spp : Bool),
      (camCtrl (BitVec.ofNat 8 t) kid gk spp).getLsbD 15 = true
        ∧ (camCtrl (BitVec.ofNat 8 t) kid gk spp).getLsbD 6 = gk
        ∧ Fin.ofNat 4 (camCtrl (BitVec.ofNat 8 t) kid gk spp &&& 3#16).toNat = kid := by decide
  rw [camCtrl_low]
  exact hbits ⟨algorithm.toNat % 8, Nat.mod_lt _ (by decide)⟩ kid gk spp

/-! ## the table -/

/-- `cam_ctl->num` of the 8192E -/
def camNum : Nat := min 64 32

/-- `macid_ctl->num` of the 8192E -/
def macidNum : Nat := min 128 32

/-- `INVALID_SEC_MAC_CAM_ID` -/
def invalidCamId : Nat := 0xff

/-- `RTW_DEFAULT_MGMT_MACID` -/
def defaultMgmtMacid : Nat := 1

structure Cam where
  /-- `cam_ctl->used` -/
  used : Nat → Bool := fun _ => false
  camCache : Nat → SecCamEnt := fun _ => {}
  /-- `iface_bmc` of the interface -/
  ifaceBmc : Nat := invalidCamId
  /-- `macid_ctl->used` -/
  macidUsed : Nat → Bool := fun id => id == defaultMgmtMacid
  /-- `cmn.mac_id` of the station with the address -/
  macId : Mac → Nat := fun _ => macidNum
  /-- the indices passed to `write_cam`, the last one first -/
  writes : List Nat := []

structure CamCfg where
  /-- `SEC_CAP_CHK_BMC` -/
  chkBmc : Bool
  macAddr : Mac
  /-- `amsdu_mode` is `RTW_AMSDU_MODE_SPP` -/
  amsduSpp : Bool

inductive CamMode where
  | station | ap
  deriving DecidableEq, Repr

/-- what a handler reads besides the table -/
structure CamEnv where
  mode : CamMode
  /-- `WIFI_FW_ASSOC_SUCCESS` -/
  assoc : Bool
  bssid : StaAddr
  /-- the addresses of the stations that there are -/
  stations : Mac → Bool

/-- `set_stakey_parm` -/
structure StakeyParm where
  algorithm : ShortCipher
  addr : StaAddr
  kid : KeyId
  gk : Bool
  key : CamKey

/-- `setkey_parm` -/
structure SetkeyParm where
  algorithm : ShortCipher
  keyid : KeyId
  key : CamKey

inductive H2c where
  | success | successRsp | rejected
  deriving DecidableEq, Repr

/-- `amsdu_spp_enable`: `_AES_` or `_GCMP_` -/
def CamCfg.amsduSppEnable (cfg : CamCfg) (algorithm : BitVec 8) : Bool :=
  cfg.amsduSpp && (algorithm == 4#8 || algorithm == 7#8)

/-- `is_wep_enc` -/
def isWepEnc (algorithm : BitVec 8) : Bool := algorithm == 1#8 || algorithm == 5#8

/-- the address of the station that `rtw_get_stainfo` finds -/
def CamEnv.rtwGetStainfo (env : CamEnv) (addr : Mac) : Option Mac :=
  if env.stations (staKey addr) then some (staKey addr) else none

/-- what `set_stakey_hdl` writes -/
def StakeyParm.ent (cfg : CamCfg) (p : StakeyParm) : SecCamEnt where
  ctrl := camCtrl p.algorithm p.kid p.gk (cfg.amsduSppEnable p.algorithm)
  mac := p.addr
  key := p.key

/-- what `setkey_hdl` writes -/
def SetkeyParm.ent (cfg : CamCfg) (addr : Mac) (p : SetkeyParm) : SecCamEnt where
  ctrl := camCtrl p.algorithm p.keyid true (cfg.amsduSppEnable p.algorithm)
  mac := addr
  key := p.key

theorem StakeyParm.ent_valid (cfg : CamCfg) (p : StakeyParm) : (p.ent cfg).valid = true :=
  (camCtrl_bits ..).1

theorem StakeyParm.ent_gk (cfg : CamCfg) (p : StakeyParm) : (p.ent cfg).gk = p.gk := (camCtrl_bits ..).2.1

theorem StakeyParm.ent_kid (cfg : CamCfg) (p : StakeyParm) : (p.ent cfg).kid = p.kid :=
  (camCtrl_bits ..).2.2

theorem SetkeyParm.ent_valid (cfg : CamCfg) (addr : Mac) (p : SetkeyParm) :
    (p.ent cfg addr).valid = true := (camCtrl_bits ..).1

theorem SetkeyParm.ent_gk (cfg : CamCfg) (addr : Mac) (p : SetkeyParm) : (p.ent cfg addr).gk = true :=
  (camCtrl_bits ..).2.1

theorem SetkeyParm.ent_kid (cfg : CamCfg) (addr : Mac) (p : SetkeyParm) :
    (p.ent cfg addr).kid = p.keyid := (camCtrl_bits ..).2.2

/-! ## slots -/

namespace Cam

/-- `_rtw_sec_camid_is_used` -/
def camidIsUsed (s : Cam) (id : Nat) : Bool := decide (id < camNum) && s.used id

/-- `_rtw_camid_is_gk` -/
def camidIsGk (s : Cam) (id : Nat) : Bool := s.camidIsUsed id && (s.camCache id).gk

def camCacheChk (s : Cam) (addr : Mac) (kid : Option KeyId) (gk : Option Bool) (id : Nat) : Bool :=
  decide ((s.camCache id).mac = addr) && kid.all (fun k => k == (s.camCache id).kid)
    && gk.all fun g => g == s.camidIsGk id

/-- `rtw_camid_search` -/
def camidSearch (s : Cam) (addr : Mac) (kid : Option KeyId) (gk : Option Bool) : Option Nat :=
  (List.range camNum).find? (s.camCacheChk addr kid gk)

/-- `rtw_get_camid` -/
def getCamid (cfg : CamCfg) (s : Cam) (addr : Mac) (kid : KeyId) (gk : Bool) : Option Nat :=
  match s.camidSearch addr (some kid) (if cfg.chkBmc then some gk else none) with
  | some id => some id
  | none => (List.range camNum).find? fun id => !s.camidIsUsed id

/-- `rtw_camid_alloc`: the slot, and whether it was used -/
def camidAlloc (cfg : CamCfg) (env : CamEnv) (s : Cam) (sta : Option Mac) (kid : KeyId) (gk : Bool) :
    Option (Nat × Bool) × Cam :=
  let found :=
    match sta with
    | some addr => s.getCamid cfg addr kid gk
    | none =>
      if env.mode = .ap then s.getCamid cfg cfg.macAddr kid gk
      else if env.assoc then s.getCamid cfg env.bssid kid gk
      else none
  match found with
  | some id => (some (id, s.camidIsUsed id), { s with used := Function.update s.used id true })
  | none => (none, s)

/-- `rtw_camid_free` -/
def camidFree (s : Cam) (id : Nat) : Cam :=
  if id < camNum then { s with used := Function.update s.used id false } else s

def clearCamEntry (s : Cam) (id : Nat) : Cam := { s with camCache := Function.update s.camCache id {} }

def writeCam (s : Cam) (id : Nat) (e : SecCamEnt) : Cam :=
  { s with camCache := Function.update s.camCache id e, writes := id :: s.writes }

/-- `while ((cam_id = rtw_camid_search(adapter, addr, -1, gk)) >= 0)`, for so many rounds -/
def clearKeys (addr : Mac) (gk : Option Bool) : Nat → Cam → Cam
  | 0, s => s
  | fuel + 1, s =>
    match s.camidSearch addr none gk with
    | some id => clearKeys addr gk fuel ((s.clearCamEntry id).camidFree id)
    | none => s

/-! ## the handlers -/

def setStakeyHdl (cfg : CamCfg) (env : CamEnv) (p : StakeyParm) (s : Cam) : H2c × Cam :=
  if p.algorithm.val = 0 then (.successRsp, s.clearKeys p.addr none camNum)
  else
    match env.rtwGetStainfo p.addr with
    | none => (.rejected, s)
    | some psta =>
      match s.camidAlloc cfg env (some psta) p.kid p.gk with
      | (none, s) => (.success, s)
      | (some (id, used), s) =>
        -- the slot holds a group key: all group keys of the station are cleared, this one too
        let s := if !p.gk && used && s.camidIsGk id then s.clearKeys p.addr (some true) camNum else s
        (.successRsp, s.writeCam id (p.ent cfg))

/-- the address of a group key: the transmitter -/
def groupAddr (cfg : CamCfg) (env : CamEnv) : Mac := if env.mode = .ap then cfg.macAddr else env.bssid

/-- the group key of `setkey_hdl`; the result says if it was written -/
def setGroupKey (cfg : CamCfg) (env : CamEnv) (p : SetkeyParm) (s : Cam) : Bool × Cam :=
  let (found, s) :=
    if env.mode = .ap then (some (s.ifaceBmc, false), s) else s.camidAlloc cfg env none p.keyid true
  match found with
  | none => (false, s)
  | some (id, used) =>
    if used && !s.camidIsGk id then (false, s.clearKeys (groupAddr cfg env) (some true) camNum)
    else (true, s.writeCam id (p.ent cfg (groupAddr cfg env)))

/-- `setkey_hdl` also writes the key as a pairwise one -/
def setkeyPairwise (cfg : CamCfg) (env : CamEnv) (p : SetkeyParm) : Bool :=
  isWepEnc p.algorithm && decide (env.mode = .station) && cfg.chkBmc

/-- `sta_pparm` of `setkey_hdl` -/
def staParm (env : CamEnv) (p : SetkeyParm) : StakeyParm :=
  ⟨p.algorithm, env.bssid, p.keyid, false, p.key⟩

def setkeyHdl (cfg : CamCfg) (env : CamEnv) (p : SetkeyParm) (s : Cam) : H2c × Cam :=
  let (wrote, s) := s.setGroupKey cfg env p
  if wrote && setkeyPairwise cfg env p then (.success, (s.setStakeyHdl cfg env (staParm env p)).2)
  else (.success, s)

/-- `rtw_alloc_macid` for the station with the address -/
def rtwAllocMacid (cfg : CamCfg) (env : CamEnv) (addr : Mac) (s : Cam) : Cam :=
  if addr = cfg.macAddr then { s with macId := Function.update s.macId addr macidNum }
  else
    let isBcSta := decide (addr = bcAddr)
    let s := if isBcSta then { s with ifaceBmc := invalidCamId } else s
    if isBcSta ∧ env.mode = .station then
      { s with macId := Function.update s.macId addr defaultMgmtMacid }
    else
      match (List.range macidNum).find? fun i => !(isBcSta && s.camidIsUsed i) && !s.macidUsed i with
      | none => { s with macId := Function.update s.macId addr macidNum }
      | some i =>
        let s := { s with macidUsed := Function.update s.macidUsed i true,
                          macId := Function.update s.macId addr i }
        if isBcSta then { s with ifaceBmc := i, used := Function.update s.used i true } else s

/-- `rtw_release_macid`; with one interface, its bit in `if_g` is that of the used map -/
def rtwReleaseMacid (cfg : CamCfg) (addr : Mac) (s : Cam) : Cam :=
  let id := s.macId addr
  let done (s : Cam) : Cam := { s with macId := Function.update s.macId addr macidNum }
  if addr = cfg.macAddr ∨ macidNum ≤ id ∨ id = defaultMgmtMacid ∨ s.macidUsed id = false then done s
  else
    let s :=
      if addr = bcAddr then
        { s with
          used := if s.ifaceBmc ≠ invalidCamId ∧ s.ifaceBmc < camNum then
              Function.update s.used s.ifaceBmc false
            else s.used
          ifaceBmc := invalidCamId }
      else s
    done { s with macidUsed := Function.update s.macidUsed id false }

/-- `rtw_clearstakey_cmd`, not enqueued -/
def rtwClearstakeyCmd (addr : StaAddr) (s : Cam) : Cam := s.clearKeys addr none camNum

def invalidateCamAll (s : Cam) : Cam :=
  { s with
    used := fun id => decide (s.ifaceBmc ≠ invalidCamId) && decide (id = s.ifaceBmc)
    camCache := fun _ => {} }

/-! ## the search -/

theorem camCacheChk_iff {s : Cam} {addr : Mac} {kid : Option KeyId} {gk : Option Bool} {id : Nat} :
    s.camCacheChk addr kid gk id = true
      ↔ (s.camCache id).mac = addr ∧ (∀ k, kid = some k → k = (s.camCache id).kid)
        ∧ ∀ g, gk = some g → g = s.camidIsGk id := by
  simp only [camCacheChk, Bool.and_eq_true, decide_eq_true_eq, Option.all_eq_true, beq_iff_eq, and_assoc]

theorem camidSearch_some {s : Cam} {addr : Mac} {kid : Option KeyId} {gk : Option Bool} {id : Nat}
    (h : s.camidSearch addr kid gk = some id) : id < camNum ∧ s.camCacheChk addr kid gk id = true :=
  ⟨List.mem_range.mp (List.mem_of_find?_eq_some h), List.find?_some h⟩

theorem camidSearch_none {s : Cam} {addr : Mac} {kid : Option KeyId} {gk : Option Bool} {id : Nat}
    (h : s.camidSearch addr kid gk = none) (hid : id < camNum) : s.camCacheChk addr kid gk id = false :=
  Bool.eq_false_iff.mpr (List.find?_eq_none.mp h id (List.mem_range.mpr hid))

theorem camidIsUsed_eq {s : Cam} {id : Nat} (h : id < camNum) : s.camidIsUsed id = s.used id := by
  rw [camidIsUsed, decide_eq_true h, Bool.true_and]

/-- a used slot is marked again -/
theorem mark_eq {s : Cam} {id : Nat} (h : s.camidIsUsed id = true) :
    { s with used := Function.update s.used id true } = s := by
  have hu : s.used id = true := (Bool.and_eq_true_iff.mp h).2
  rw [← hu, Function.update_eq_self]

theorem camidIsGk_used {s : Cam} {id : Nat} (h : s.camidIsGk id = true) : s.camidIsUsed id = true :=
  (Bool.and_eq_true_iff.mp h).1

/-- the slot is marked before its group bit is looked at -/
theorem camidIsGk_mark (s : Cam) (id : Nat) :
    (s.camidIsUsed id && { s with used := Function.update s.used id true }.camidIsGk id) = s.camidIsGk id := by
  simp only [camidIsGk, camidIsUsed, Function.update_self]
  cases decide (id < camNum) <;> cases s.used id <;> simp

theorem not_camidIsGk_mark (s : Cam) (id : Nat) :
    (s.camidIsUsed id && !{ s with used := Function.update s.used id true }.camidIsGk id)
      = (s.camidIsUsed id && !s.camidIsGk id) := by
  simp only [camidIsGk, camidIsUsed, Function.update_self]
  cases decide (id < camNum) <;> cases s.used id <;> simp

/-! ## the loops that clear keys -/

/-- the entries that the search finds are zero, their slots free -/
def cleared (s : Cam) (addr : Mac) (gk : Option Bool) : Cam :=
  { s with
    camCache := fun id => if id < camNum ∧ s.camCacheChk addr none gk id = true then {} else s.camCache id
    used := fun id => if id < camNum ∧ s.camCacheChk addr none gk id = true then false else s.used id }

theorem cleared_camCache_of_chk {s : Cam} {addr : Mac} {gk : Option Bool} {id : Nat} (hid : id < camNum)
    (h : s.camCacheChk addr none gk id = true) : (s.cleared addr gk).camCache id = {} := if_pos ⟨hid, h⟩

theorem cleared_used_of_chk {s : Cam} {addr : Mac} {gk : Option Bool} {id : Nat} (hid : id < camNum)
    (h : s.camCacheChk addr none gk id = true) : (s.cleared addr gk).used id = false := if_pos ⟨hid, h⟩

/-- a slot that is not cleared is as it was -/
theorem cleared_of_not_chk {s : Cam} {addr : Mac} {gk : Option Bool} {id : Nat}
    (h : s.camCacheChk addr none gk id = false) :
    (s.cleared addr gk).camCache id = s.camCache id ∧ (s.cleared addr gk).used id = s.used id := by
  have hno : ¬(id < camNum ∧ s.camCacheChk addr none gk id = true) :=
    fun hid => Bool.false_ne_true (h.symm.trans hid.2)
  exact ⟨if_neg hno, if_neg hno⟩

theorem cleared_of_none {s : Cam} {addr : Mac} {gk : Option Bool}
    (h : ∀ id < camNum, s.camCacheChk addr none gk id = false) : s.cleared addr gk = s := by
  have hno : ∀ id, ¬(id < camNum ∧ s.camCacheChk addr none gk id = true) :=
    fun id hid => Bool.false_ne_true ((h id hid.1).symm.trans hid.2)
  simp only [cleared, if_neg (hno _)]

theorem cleared_zero (s : Cam) (addr : Mac) (gk : Option Bool) {id : Nat} (hid : id < camNum) :
    (s.cleared addr gk).camCache id = {}
      ∨ (s.cleared addr gk).camCache id = s.camCache id ∧ (s.cleared addr gk).used id = s.used id := by
  cases h : s.camCacheChk addr none gk id with
  | true => exact Or.inl (cleared_camCache_of_chk hid h)
  | false => exact Or.inr (cleared_of_not_chk h)

/-- one round of the loop: the entry that was found is not found again, if its address is not zero or if
the search asks for a used slot -/
theorem chk_clear {s : Cam} {addr : Mac} {gk : Option Bool} (ha : addr ≠ zeroMac ∨ gk = some true)
    {id : Nat} (hid : id < camNum) (j : Nat) :
    ((s.clearCamEntry id).camidFree id).camCacheChk addr none gk j
      = (decide (j ≠ id) && s.camCacheChk addr none gk j) := by
  rw [camidFree, if_pos hid]
  by_cases hj : j = id
  · subst hj
    rcases ha with ha | rfl
    · have hmac : decide (zeroMac = addr) = false := decide_eq_false ha.symm
      simp [camCacheChk, clearCamEntry, hmac]
    · simp [camCacheChk, clearCamEntry, camidIsGk, camidIsUsed]
  · simp [camCacheChk, clearCamEntry, camidIsGk, camidIsUsed, hj]

theorem cleared_clear {s : Cam} {addr : Mac} {gk : Option Bool} (ha : addr ≠ zeroMac ∨ gk = some true)
    {id : Nat} (hid : id < camNum) (hchk : s.camCacheChk addr none gk id = true) :
    ((s.clearCamEntry id).camidFree id).cleared addr gk = s.cleared addr gk := by
  have hround := chk_clear ha hid (s := s)
  unfold cleared
  simp only [hround]
  rw [camidFree, if_pos hid]
  congr 1
  · funext j
    by_cases hj : j = id
    · subst hj
      simp [clearCamEntry, hid, hchk]
    · simp [clearCamEntry, hj]
  · funext j
    by_cases hj : j = id
    · subst hj
      simp [clearCamEntry, hid, hchk]
    · simp [clearCamEntry, hj]

/-- the entries that the search finds; every round clears one -/
def hits (s : Cam) (addr : Mac) (gk : Option Bool) : Nat :=
  Marks.count (Finset.range camNum) (s.camCacheChk addr none gk)

theorem hits_le (s : Cam) (addr : Mac) (gk : Option Bool) : s.hits addr gk ≤ camNum := by
  have hle := Finset.card_filter_le (Finset.range camNum) fun id => s.camCacheChk addr none gk id = true
  rwa [Finset.card_range] at hle

theorem hits_clear {s : Cam} {addr : Mac} {gk : Option Bool} (ha : addr ≠ zeroMac ∨ gk = some true)
    {id : Nat} (hid : id < camNum) (hchk : s.camCacheChk addr none gk id = true) :
    ((s.clearCamEntry id).camidFree id).hits addr gk < s.hits addr gk := by
  have hround := chk_clear ha hid (s := s)
  have hcount := Marks.count_set (Finset.mem_range.mpr hid)
    (f := s.camCacheChk addr none gk)
    (g := ((s.clearCamEntry id).camidFree id).camCacheChk addr none gk)
    fun j hj => by rw [hround j, decide_eq_true hj, Bool.true_and]
  rw [hround id, hchk] at hcount
  simp at hcount
  unfold hits
  omega

theorem clearKeys_of_count {addr : Mac} (ha : addr ≠ zeroMac) {gk : Option Bool} {fuel : Nat} {s : Cam}
    (hfuel : s.hits addr gk ≤ fuel) :
    s.clearKeys addr gk fuel = s.cleared addr gk := by
  induction fuel generalizing s with
  | zero =>
    show s = s.cleared addr gk
    refine (cleared_of_none fun id hid => ?_).symm
    rw [← Bool.not_eq_true]
    intro hchk
    unfold hits Marks.count at hfuel
    have hempty := Finset.card_eq_zero.mp (Nat.le_zero.mp hfuel)
    have hmem : id ∈ (Finset.range camNum).filter fun id => s.camCacheChk addr none gk id = true :=
      Finset.mem_filter.mpr ⟨Finset.mem_range.mpr hid, hchk⟩
    rw [hempty] at hmem
    exact absurd hmem (Finset.notMem_empty id)
  | succ fuel ih =>
    rw [clearKeys]
    cases hs : s.camidSearch addr none gk with
    | none => exact (cleared_of_none fun id hid => camidSearch_none hs hid).symm
    | some id =>
      obtain ⟨hid, hchk⟩ := camidSearch_some hs
      have hlt := hits_clear (Or.inl ha) hid hchk
      show ((s.clearCamEntry id).camidFree id).clearKeys addr gk fuel = _
      rw [ih (by omega), cleared_clear (Or.inl ha) hid hchk]

/-- **The loop ends, and leaves no key of the address.** -/
theorem clearKeys_eq {addr : Mac} (ha : addr ≠ zeroMac) (gk : Option Bool) (s : Cam) :
    s.clearKeys addr gk camNum = s.cleared addr gk :=
  clearKeys_of_count ha (hits_le s addr gk)

/-! ## the handlers, case by case -/

theorem rtwGetStainfo_eq (env : CamEnv) (addr : StaAddr) :
    env.rtwGetStainfo addr = if env.stations addr then some addr.val else none := by
  rw [CamEnv.rtwGetStainfo, addr.property.2]

variable {cfg : CamCfg} {env : CamEnv} {s : Cam}

theorem setStakeyHdl_noPrivacy {p : StakeyParm} (h0 : p.algorithm.val = 0) :
    s.setStakeyHdl cfg env p = (.successRsp, s.cleared p.addr none) := by
  rw [setStakeyHdl, if_pos h0, clearKeys_eq p.addr.property.1]

theorem setStakeyHdl_noSta {p : StakeyParm} (h0 : p.algorithm.val ≠ 0) (hsta : env.stations p.addr = false) :
    s.setStakeyHdl cfg env p = (.rejected, s) := by
  rw [setStakeyHdl, if_neg h0, rtwGetStainfo_eq, hsta]
  rfl

theorem setStakeyHdl_full {p : StakeyParm} (h0 : p.algorithm.val ≠ 0) (hsta : env.stations p.addr = true)
    (hid : s.getCamid cfg p.addr p.kid p.gk = none) : s.setStakeyHdl cfg env p = (.success, s) := by
  rw [setStakeyHdl, if_neg h0, rtwGetStainfo_eq, hsta]
  simp only [camidAlloc, hid, if_true]

theorem setStakeyHdl_put {p : StakeyParm} (h0 : p.algorithm.val ≠ 0) (hsta : env.stations p.addr = true)
    {id : Nat} (hid : s.getCamid cfg p.addr p.kid p.gk = some id)
    (hgk : p.gk = false → s.camidIsGk id = false) :
    s.setStakeyHdl cfg env p
      = (.successRsp, { s with used := Function.update s.used id true }.writeCam id (p.ent cfg)) := by
  have hno : (!p.gk && s.camidIsGk id) = false := by
    cases hg : p.gk with
    | true => rfl
    | false => rw [hgk hg]; rfl
  rw [setStakeyHdl, if_neg h0, rtwGetStainfo_eq, hsta]
  simp only [camidAlloc, hid, if_true, Bool.and_assoc, camidIsGk_mark, hno, Bool.false_eq_true, if_false]

/-- the slot that was chosen is freed with the group keys -/
theorem setStakeyHdl_conflict {p : StakeyParm} (h0 : p.algorithm.val ≠ 0)
    (hsta : env.stations p.addr = true) {id : Nat} (hid : s.getCamid cfg p.addr p.kid p.gk = some id)
    (hg : p.gk = false) (hgk : s.camidIsGk id = true) :
    s.setStakeyHdl cfg env p = (.successRsp, (s.cleared p.addr (some true)).writeCam id (p.ent cfg)) := by
  have hyes : (!p.gk && s.camidIsGk id) = true := by rw [hg, hgk]; rfl
  rw [setStakeyHdl, if_neg h0, rtwGetStainfo_eq, hsta]
  simp only [camidAlloc, hid, if_true, Bool.and_assoc, camidIsGk_mark, hyes]
  rw [mark_eq (camidIsGk_used hgk), clearKeys_eq p.addr.property.1]

theorem setGroupKey_ap {p : SetkeyParm} (hm : env.mode = .ap) :
    s.setGroupKey cfg env p = (true, s.writeCam s.ifaceBmc (p.ent cfg cfg.macAddr)) := by
  simp only [setGroupKey, groupAddr, hm, if_true, Bool.false_and, Bool.false_eq_true, if_false]

theorem camidAlloc_station {kid : KeyId} {gk : Bool} (hm : env.mode = .station) :
    s.camidAlloc cfg env none kid gk =
      match (if env.assoc then s.getCamid cfg env.bssid kid gk else none : Option Nat) with
      | some id => (some (id, s.camidIsUsed id), { s with used := Function.update s.used id true })
      | none => (none, s) := by
  simp only [camidAlloc, hm, reduceCtorEq, if_false]
  rfl

theorem setGroupKey_skip {p : SetkeyParm} (hm : env.mode = .station)
    (hid : env.assoc = true → s.getCamid cfg env.bssid p.keyid true = none) :
    s.setGroupKey cfg env p = (false, s) := by
  have hno : (if env.assoc then s.getCamid cfg env.bssid p.keyid true else none : Option Nat) = none := by
    split
    next ha => exact hid ha
    next => rfl
  simp only [setGroupKey, camidAlloc_station hm, hno, hm, reduceCtorEq, if_false]

theorem setGroupKey_put {p : SetkeyParm} (hm : env.mode = .station) (ha : env.assoc = true) {id : Nat}
    (hid : s.getCamid cfg env.bssid p.keyid true = some id)
    (hgk : s.camidIsUsed id = true → s.camidIsGk id = true) :
    s.setGroupKey cfg env p
      = (true, { s with used := Function.update s.used id true }.writeCam id (p.ent cfg env.bssid)) := by
  have hno : (s.camidIsUsed id && !s.camidIsGk id) = false := by
    cases hu : s.camidIsUsed id with
    | true => rw [hgk hu]; rfl
    | false => rfl
  simp only [setGroupKey, camidAlloc_station hm, ha, hid, if_true, groupAddr, hm, reduceCtorEq, if_false,
    not_camidIsGk_mark, hno, Bool.false_eq_true]

theorem setGroupKey_conflict {p : SetkeyParm} (hm : env.mode = .station) (ha : env.assoc = true) {id : Nat}
    (hid : s.getCamid cfg env.bssid p.keyid true = some id) (hu : s.camidIsUsed id = true)
    (hgk : s.camidIsGk id = false) :
    s.setGroupKey cfg env p = (false, s.cleared env.bssid (some true)) := by
  have hyes : (s.camidIsUsed id && !s.camidIsGk id) = true := by rw [hu, hgk]; rfl
  simp only [setGroupKey, camidAlloc_station hm, ha, hid, if_true, groupAddr, hm, reduceCtorEq, if_false,
    not_camidIsGk_mark, hyes]
  rw [mark_eq hu, clearKeys_eq env.bssid.property.1]

/-- the tables of the macids change, and the slot that is reserved -/
def reserve (s : Cam) (used : Nat → Bool) (ifaceBmc : Nat) (macidUsed : Nat → Bool) (macId : Mac → Nat) :
    Cam :=
  { s with used := used, ifaceBmc := ifaceBmc, macidUsed := macidUsed, macId := macId }

/-- what `rtw_alloc_macid` does to the key table -/
theorem rtwAllocMacid_cases (cfg : CamCfg) (env : CamEnv) (addr : Mac) (s : Cam) :
    ∃ mu mi,
      ((addr = bcAddr → addr = cfg.macAddr) ∧
        s.rtwAllocMacid cfg env addr = s.reserve s.used s.ifaceBmc mu mi)
      ∨ (addr = bcAddr ∧ addr ≠ cfg.macAddr ∧
        (s.rtwAllocMacid cfg env addr = s.reserve s.used invalidCamId mu mi
          ∨ ∃ i < camNum, s.used i = false
              ∧ s.rtwAllocMacid cfg env addr = s.reserve (Function.update s.used i true) i mu mi)) := by
  unfold rtwAllocMacid
  by_cases hmac : addr = cfg.macAddr
  · rw [if_pos hmac]
    exact ⟨_, _, Or.inl ⟨fun _ => hmac, rfl⟩⟩
  rw [if_neg hmac]
  by_cases hbc : addr = bcAddr
  · simp only [hbc, decide_true, if_true, true_and, Bool.true_and]
    rw [hbc] at hmac
    split
    next => exact ⟨_, _, Or.inr ⟨hmac, Or.inl rfl⟩⟩
    next =>
      split
      next => exact ⟨_, _, Or.inr ⟨hmac, Or.inl rfl⟩⟩
      next i hi =>
        have hlt : i < camNum := List.mem_range.mp (List.mem_of_find?_eq_some hi)
        have hfree := List.find?_some hi
        simp only [Bool.and_eq_true, Bool.not_eq_true', camidIsUsed, hlt, decide_true, Bool.true_and] at hfree
        exact ⟨_, _, Or.inr ⟨hmac, Or.inr ⟨i, hlt, hfree.1, rfl⟩⟩⟩
  · simp only [hbc, decide_false, Bool.false_eq_true, if_false, false_and, Bool.false_and]
    split
    next => exact ⟨_, _, Or.inl ⟨fun h => h.elim, rfl⟩⟩
    next => exact ⟨_, _, Or.inl ⟨fun h => h.elim, rfl⟩⟩

/-- `rtw_release_macid` comes to the reserved slot -/
def Releases (s : Cam) (cfg : CamCfg) (addr : Mac) : Prop :=
  addr = bcAddr ∧ addr ≠ cfg.macAddr ∧ s.macId addr < macidNum ∧ s.macId addr ≠ defaultMgmtMacid
    ∧ s.macidUsed (s.macId addr) = true

theorem rtwReleaseMacid_cases (cfg : CamCfg) (addr : Mac) (s : Cam) :
    ∃ mu mi,
      (¬s.Releases cfg addr ∧ s.rtwReleaseMacid cfg addr = s.reserve s.used s.ifaceBmc mu mi)
      ∨ (s.Releases cfg addr ∧ s.rtwReleaseMacid cfg addr
          = s.reserve (if s.ifaceBmc < camNum then Function.update s.used s.ifaceBmc false else s.used)
              invalidCamId mu mi) := by
  unfold rtwReleaseMacid
  by_cases hskip : addr = cfg.macAddr ∨ macidNum ≤ s.macId addr ∨ s.macId addr = defaultMgmtMacid
      ∨ s.macidUsed (s.macId addr) = false
  · simp only [if_pos hskip]
    refine ⟨_, _, Or.inl ⟨?_, rfl⟩⟩
    rintro ⟨-, hmac, hlt, hdef, hused⟩
    rcases hskip with h | h | h | h
    · exact hmac h
    · exact Nat.not_lt.mpr h hlt
    · exact hdef h
    · exact Bool.false_ne_true (h.symm.trans hused)
  · simp only [if_neg hskip]
    obtain ⟨hmac, hskip⟩ := not_or.mp hskip
    obtain ⟨hlt, hskip⟩ := not_or.mp hskip
    obtain ⟨hdef, hused⟩ := not_or.mp hskip
    by_cases hbc : addr = bcAddr
    · have hinv : (s.ifaceBmc ≠ invalidCamId ∧ s.ifaceBmc < camNum) ↔ s.ifaceBmc < camNum :=
        ⟨fun h => h.2, fun h => ⟨fun he => absurd (he ▸ h) (by decide), h⟩⟩
      simp only [if_pos hbc, hinv]
      exact ⟨_, _, Or.inr ⟨⟨hbc, hmac, Nat.not_le.mp hlt, hdef, Bool.not_eq_false _ ▸ hused⟩, rfl⟩⟩
    · simp only [if_neg hbc]
      exact ⟨_, _, Or.inl ⟨fun h => hbc h.1, rfl⟩⟩

end Cam

end Rtl8192eu
