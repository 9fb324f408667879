import Rtl8192eu.Recv.Pool

/-!
# Protected management frames and their handlers

`mgt_dispatcher` of `core/rtw_mlme_ext.c` behind `validate_recv_mgnt_frame`.  The gate
`validate_mgmt_protect` decides on each frame as it comes in; the dispatcher has a table of
subtypes of its own and sees the frame after `recvframe_chk_defrag`.

* `mgtDispatcher`   the handler a frame goes to, and the sequence number kept for its station;
* `MgntRun`     runs of `validate_recv_mgnt_frame`, with the handlers called;
* `gate_pass`   what the gate says about an unprotected frame of an MFP peer;
* `defragLoop_isPrefix`   a joined management frame begins with its whole first fragment;
* `mgnt_run_protected`   robust frames reach a handler only with a verified MIC.

The gate does not know the subtype Action No Ack, which the table sends to `OnAction`; and the
bytes behind a first fragment are not those the gate has seen.
-/

namespace Rtl8192eu

open Run

/-! ## `mgt_dispatcher` -/

inductive MlmeHandler where
  | onAssocReq | onAssocRsp | onProbeReq | onProbeRsp | doReserved | onBeacon | onAtim
  | onDisassoc | onAuth | onAuthClient | onDeAuth | onAction
  deriving DecidableEq, Repr

def mlmeStaTbl : List MlmeHandler :=
  [.onAssocReq, .onAssocRsp, .onAssocReq, .onAssocRsp, .onProbeReq, .onProbeRsp, .doReserved,
   .doReserved, .onBeacon, .onAtim, .onDisassoc, .onAuthClient, .onDeAuth, .onAction, .onAction]

def wifiAuth : Nat := 0xb0
def wifiActionNoAck : Nat := 0xe0

def getRetry (f : RecvFrame) : Bool := fcBit f 11

/-- the receiver address is that of the adapter or the broadcast address -/
def forMe (a : Adapter) (f : RecvFrame) : Bool := getAddr1 f = a.macAddr || getAddr1 f = bcAddr

/-- the entry of the table; the one for authentication is set by the mode -/
def mlmeHandler (a : Adapter) (f : RecvFrame) : Option MlmeHandler :=
  if getFrameSubType f = wifiAuth then some (if a.mode = .ap then .onAuth else .onAuthClient)
  else mlmeStaTbl[getFrameSubType f / 16]?

/-- `seq` is `RxMgmtFrameSeqNum` of the stations -/
def mgtDispatcher (a : Adapter) (seq : Mac → Nat) (f : RecvFrame) :
    Option MlmeHandler × (Mac → Nat) :=
  if getFrameType f ≠ .mgt then (none, seq)
  else if !forMe a f then (none, seq)
  else
    match mlmeHandler a f with
    | none => (none, seq)
    | some h =>
      if (a.rtwGetStainfo (getAddr2 f)).isNone then (some h, seq)
      else if getRetry f && f.attrib.seqNum.val = seq (staKey (getAddr2 f)) then (none, seq)
      else (some h, Function.update seq (staKey (getAddr2 f)) f.attrib.seqNum.val)

/-! ## runs of `validate_recv_mgnt_frame` -/

/-- a management frame comes with the attributes that `rtl8192e_query_rx_desc_status` has cleared;
nothing on its way fills in the addresses and the lengths -/
def rxMgntFrame (f : RecvFrame) : RecvFrame :=
  RecvPriv.parseHdr { f with attrib := { f.attrib with
    hdrlen := 0, ivLen := 0, icvLen := 0, ta := zeroMac, ra := zeroMac } }

/-- the gate asks `rtw_bip_verify` about an unprotected frame -/
def bipAsked (conf : RxConf) (sta : Option StaInfo) (f : RecvFrame) : Bool :=
  let subtype := getFrameSubType f
  let category := (f.byte wlanHdrA3Len).toNat
  conf.installBipKey && !f.attrib.privacy && (sta.map (·.mfp)).getD false && isMcast (getAddr1 f)
    && (subtype = wifiAction && !categoryIsGroupPrivacy category && categoryIsRobust category
      || subtype = wifiDeauth || subtype = wifiDisassoc)

structure MgntRun where
  adapter : Adapter
  rxMgmtFrameSeqNum : Mac → Nat
  /-- the frames for which `rtw_bip_verify` returned `_SUCCESS` -/
  verified : List (List UInt8)
  /-- the handlers called, with the frame as they see it -/
  calls : List (MlmeHandler × RecvFrame)

namespace MgntRun

def init (a : Adapter) (seq : Mac → Nat) : MgntRun := ⟨a, seq, [], []⟩

def dispatch (r : MgntRun) (f : RecvFrame) : MgntRun :=
  let ret := mgtDispatcher r.adapter r.rxMgmtFrameSeqNum f
  { r with rxMgmtFrameSeqNum := ret.2, calls := r.calls ++ (ret.1.map fun h => (h, f)).toList }

/-- `recvframe_chk_defrag` and what follows it -/
def defrag (r : MgntRun) (o : RxOracle) (f : RecvFrame) : MgntRun :=
  let ret := recvframeChkDefrag o.micOk r.adapter f
  let r := { r with adapter := ret.adapter }
  match ret.frame with
  | none => r
  | some g => r.dispatch g

def verify (r : MgntRun) (o : RxOracle) (conf : RxConf) (f : RecvFrame) : MgntRun :=
  if bipAsked conf (r.adapter.rtwGetStainfo (getAddr2 f)) f && o.bipVerify f then
    { r with verified := r.verified ++ [f.data] }
  else r

/-- `validate_recv_mgnt_frame` -/
def step (conf : RxConf) (r : MgntRun) (e : RxOracle × RecvFrame) : MgntRun :=
  let f := rxMgntFrame e.2
  let r := r.verify e.1 conf f
  match validateMgmtProtect e.1 conf r.adapter f with
  | .drop => r
  | .freed => r
  | .pass f => r.defrag e.1 f

end MgntRun

/-! ## subtypes and handlers -/

section handlers

variable {a : Adapter} {f : RecvFrame} {h : MlmeHandler}

theorem le16_mod (f : RecvFrame) : le16 f 0 % 256 = (f.byte 0).toNat := by
  have := (f.byte 0).toNat_lt
  unfold le16
  omega

theorem getFrameSubType_byte (f : RecvFrame) : getFrameSubType f = (f.byte 0).toNat &&& 0xfc := by
  have h1 := Nat.and_mod_two_pow (a := le16 f 0) (b := 0xfc) (n := 8)
  have h2 : le16 f 0 &&& 0xfc ≤ 0xfc := Nat.and_le_right
  rw [Nat.mod_eq_of_lt (by omega : (le16 f 0 &&& 0xfc) < 2 ^ 8), le16_mod] at h1
  exact h1

/-- of a management frame the subtype has its low bits clear -/
theorem getFrameSubType_mgt (ht : getFrameType f = .mgt) :
    getFrameSubType f = 16 * ((f.byte 0).toNat / 16) := by
  have hlow : ∀ n < 256, n / 4 % 4 = 0 → n &&& 0xfc = 16 * (n / 16) := by decide +kernel
  have htype : le16 f 0 / 4 % 4 = 0 := by
    unfold getFrameType at ht
    split at ht <;> first | assumption | cases ht
  have hb := le16_mod f
  rw [getFrameSubType_byte]
  exact hlow _ (f.byte 0).toNat_lt (by omega)

/-- the subtypes that reach a handler of robust frames -/
theorem mlmeHandler_robust (ht : getFrameType f = .mgt) (hh : mlmeHandler a f = some h) :
    (h = .onDeAuth → getFrameSubType f = wifiDeauth)
      ∧ (h = .onDisassoc → getFrameSubType f = wifiDisassoc)
      ∧ (h = .onAction → getFrameSubType f = wifiAction ∨ getFrameSubType f = wifiActionNoAck) := by
  have hs := getFrameSubType_mgt ht
  have hlt : (f.byte 0).toNat / 16 < 16 := by
    have := (f.byte 0).toNat_lt
    omega
  unfold mlmeHandler at hh
  split at hh
  · obtain rfl := Option.some.inj hh
    split <;> simp
  · rw [hs, Nat.mul_div_cancel_left _ (by decide)] at hh
    rw [hs]
    generalize (f.byte 0).toNat / 16 = n at hh hlt
    have hDeAuth : ∀ n < 16, mlmeStaTbl[n]? = some .onDeAuth → 16 * n = wifiDeauth := by decide
    have hDisassoc : ∀ n < 16, mlmeStaTbl[n]? = some .onDisassoc → 16 * n = wifiDisassoc := by decide
    have hAction : ∀ n < 16, mlmeStaTbl[n]? = some .onAction →
        16 * n = wifiAction ∨ 16 * n = wifiActionNoAck := by decide
    refine ⟨?_, ?_, ?_⟩
    · rintro rfl
      exact hDeAuth n hlt hh
    · rintro rfl
      exact hDisassoc n hlt hh
    · rintro rfl
      exact hAction n hlt hh

theorem mgtDispatcher_some {seq : Mac → Nat} (hh : (mgtDispatcher a seq f).1 = some h) :
    getFrameType f = .mgt ∧ forMe a f = true ∧ mlmeHandler a f = some h := by
  unfold mgtDispatcher at hh
  split at hh
  · cases hh
  rename_i ht
  split at hh
  · cases hh
  rename_i hme
  split at hh
  · cases hh
  rename_i h' hh'
  refine ⟨Decidable.not_not.mp ht, by simpa using hme, hh'.trans ?_⟩
  split at hh
  · exact hh
  · split at hh
    · cases hh
    · exact hh

end handlers

/-! ## the gate -/

/-- the frame would reach a handler of robust frames -/
def robust (f : RecvFrame) : Bool :=
  getFrameSubType f = wifiDeauth || getFrameSubType f = wifiDisassoc
    || (getFrameSubType f = wifiAction || getFrameSubType f = wifiActionNoAck)
      && categoryIsRobust (f.byte wlanHdrA3Len).toNat

section gate

variable {o : RxOracle} {conf : RxConf} {a : Adapter} {f g : RecvFrame} {sta : StaInfo}

/-- **The gate**: an unprotected frame of an MFP peer passes unchanged, and a robust one only
with a verified MIC or as Action No Ack. -/
theorem gate_pass (hbip : conf.installBipKey = true)
    (hkey : conf.pairwiseKey (getAddr2 f) = true) (hs : a.rtwGetStainfo (getAddr2 f) = some sta)
    (hmfp : sta.mfp = true) (hp : f.attrib.privacy = false)
    (h : validateMgmtProtect o conf a f = .pass g) :
    g = f ∧ (robust f = true → getFrameSubType f ≠ wifiActionNoAck →
      bipAsked conf (some sta) f = true ∧ o.bipVerify f = true) := by
  simp only [validateMgmtProtect, hbip, hp, hs, Bool.not_true, Bool.false_eq_true, if_false,
    Bool.not_false, if_true, mgmtUnprotected, Option.map_some, hmfp, Option.getD_some] at h
  simp only [robust, bipAsked, hbip, hp, hmfp, Option.map_some, Option.getD_some]
  generalize getFrameSubType f = s at *
  generalize (f.byte wlanHdrA3Len).toNat = c at *
  by_cases hm : isMcast (getAddr1 f) = true
  · rw [if_pos hm] at h
    split_ifs at h with h1 h2 h3
    · cases h
      refine ⟨rfl, fun _ _ => ⟨?_, h3⟩⟩
      simp only [hm]
      grind
    · cases h
      exact ⟨rfl, by grind⟩
  · rw [if_neg hm] at h
    split_ifs at h with h1 h2
    cases h
    exact ⟨rfl, by grind⟩

theorem bipAsked_mcast {sta : Option StaInfo} (h : bipAsked conf sta f = true) :
    isMcast (getAddr1 f) = true ∧ (getFrameSubType f = wifiAction →
      categoryIsGroupPrivacy (f.byte wlanHdrA3Len).toNat = false) := by
  simp only [bipAsked, Bool.and_eq_true] at h
  refine ⟨h.1.2, fun hs => ?_⟩
  have := h.2
  simp [hs, wifiAction, wifiDeauth, wifiDisassoc] at this
  exact this.1

end gate

/-! ## joined management frames -/

section joined

variable {f g r : RecvFrame} {a : Adapter} {mac : Mac}

theorem byte_of_isPrefix (h : f.data <+: r.data) {i : Nat} (hi : i < f.len) : r.byte i = f.byte i := by
  obtain ⟨t, ht⟩ := h
  have hi' : i < f.data.length := hi
  simp only [RecvFrame.byte, ← ht, List.append_assoc, List.getD_eq_getElem?_getD,
    List.getElem?_append_left hi']

theorem getFrameSubType_of_isPrefix (h : f.data <+: r.data) (h0 : 0 < f.len) :
    getFrameSubType r = getFrameSubType f := by
  rw [getFrameSubType_byte, getFrameSubType_byte, byte_of_isPrefix h h0]

theorem getAddr1_of_isPrefix (h : f.data <+: r.data) (hl : wlanHdrA3Len < f.len) :
    getAddr1 r = getAddr1 f := by
  unfold getAddr1 RecvFrame.bytes
  apply List.map_congr_left
  intro j hj
  have := List.mem_range.mp hj
  exact byte_of_isPrefix h (by unfold wlanHdrA3Len at hl; omega)

theorem appendFrag_isPrefix (f g : RecvFrame) (hf : f.attrib.icvLen = 0) :
    f.data <+: (appendFrag f g).data := by
  have hpull : recvframePullTail f f.attrib.icvLen = some f := by
    simp [recvframePullTail, hf, RecvFrame.len]
  simp only [appendFrag, hpull, Option.getD_some, recvframePut]
  split
  · exact List.prefix_rfl
  · exact List.prefix_append _ _

theorem appendFrag_attrib (f g : RecvFrame) :
    (appendFrag f g).attrib = { f.attrib with icvLen := g.attrib.icvLen } := by
  simp only [appendFrag, recvframePullTail, recvframePut]
  split <;> split <;> rfl

theorem pullHdr_attrib (g : RecvFrame) : (pullHdr g).attrib = g.attrib := by
  unfold pullHdr recvframePull
  split <;> rfl

/-- nothing is cut from a fragment that has no ICV -/
theorem defragLoop_isPrefix {pn : BitVec 64} {n : Nat} {l : List RecvFrame}
    (h : defragLoop f pn n l = some r) (hf : f.attrib.icvLen = 0) (hl : ∀ g ∈ l, g.attrib.icvLen = 0) :
    f.data <+: r.data ∧ r.attrib = f.attrib := by
  induction l generalizing f pn n with
  | nil =>
    obtain rfl : f = r := by simpa [defragLoop] using h
    exact ⟨List.prefix_rfl, rfl⟩
  | cons g l ih =>
    obtain ⟨-, -, pn', h⟩ := defragLoop_cons h
    have hg : g.attrib.icvLen = 0 := hl g List.mem_cons_self
    have hatt : (appendFrag f (pullHdr g)).attrib = f.attrib := by
      rw [appendFrag_attrib, pullHdr_attrib, hg, ← hf]
    obtain ⟨hpre, hatt'⟩ := ih h (hatt ▸ hf) fun x hx => hl x (List.mem_cons_of_mem _ hx)
    exact ⟨(appendFrag_isPrefix f _ hf).trans hpre, hatt'.trans hatt⟩

/-- no frame that begins with these bytes is robust, unless it goes to somebody else -/
structure Harmless (mac : Mac) (f : RecvFrame) : Prop where
  len : 0 < f.len
  leave : getFrameSubType f ≠ wifiDeauth ∧ getFrameSubType f ≠ wifiDisassoc
  action : getFrameSubType f = wifiAction ∨ getFrameSubType f = wifiActionNoAck →
    wlanHdrA3Len < f.len ∧ (getAddr1 f = mac ∨ getAddr1 f = bcAddr →
      categoryIsRobust (f.byte wlanHdrA3Len).toNat = false)

theorem Harmless.of_isPrefix (hf : Harmless mac f) (h : f.data <+: r.data)
    (hme : getAddr1 r = mac ∨ getAddr1 r = bcAddr) : robust r = false := by
  simp only [robust, getFrameSubType_of_isPrefix h hf.len]
  by_cases ha : getFrameSubType f = wifiAction ∨ getFrameSubType f = wifiActionNoAck
  · obtain ⟨hl, hc⟩ := hf.action ha
    rw [getAddr1_of_isPrefix h hl] at hme
    simp [hf.leave, byte_of_isPrefix h hl, hc hme]
  · rw [not_or] at ha
    simp [hf.leave, ha]

/-- a management fragment in a queue -/
structure Queued (mac : Mac) (g : RecvFrame) : Prop where
  icvLen : g.attrib.icvLen = 0
  privacy : g.attrib.privacy = false
  first : g.attrib.fragNum = 0 → Harmless mac g

theorem recvframeDefrag_robust {q : List RecvFrame} (hq : ∀ g ∈ q, Queued mac g)
    (h : recvframeDefrag q = some r) :
    r.attrib.privacy = false
      ∧ (getAddr1 r = mac ∨ getAddr1 r = bcAddr → robust r = false) := by
  cases q with
  | nil => cases h
  | cons f l =>
    simp only [recvframeDefrag] at h
    split at h
    · cases h
    rename_i h0
    have hf := hq f List.mem_cons_self
    obtain ⟨hpre, hatt⟩ := defragLoop_isPrefix h hf.icvLen
      fun g hg => (hq g (List.mem_cons_of_mem _ hg)).icvLen
    exact ⟨hatt ▸ hf.privacy, (hf.first (Decidable.not_not.mp h0)).of_isPrefix hpre⟩

theorem chkDefragQueue_frame (h : (chkDefragQueue a f).frame = some r) :
    (r = f ∧ f.attrib.mfrag = false ∧ f.attrib.fragNum = 0)
      ∨ ∃ q, defragCall a f = some q ∧ recvframeDefrag q = some r := by
  unfold chkDefragQueue at h
  split at h
  · rename_i hw
    simp only [Bool.and_eq_true, Bool.not_eq_true', decide_eq_true_eq] at hw
    exact Or.inl ⟨(Option.some.inj h).symm, hw⟩
  rename_i hw
  split at h
  · cases h
  rename_i hra
  split at h
  · cases h
  rename_i addr sta hs
  dsimp only at h
  split at h
  · split at h <;> cases h
  rename_i hm
  have hlast : (!f.attrib.mfrag && f.attrib.fragNum ≠ 0 && !isMcast f.attrib.ra) = true := by
    simpa [hm, hra] using hw
  refine Or.inr ⟨_, by rw [defragCall, if_pos hlast, hs]; rfl, ?_⟩
  split at h
  · cases h
  · rename_i r' hr
    rw [hr, ← h]

/-- **What comes out of `recvframe_chk_defrag`**: the frame that went in, or one that is not
robust. -/
theorem recvframeChkDefrag_out {R : RecvFrame → RecvFrame → Prop} {micOk : Adapter → RecvFrame → Bool}
    (hI : QueuesInv (Queued mac) R a) (hf : FitsQueue (Queued mac) R a f)
    (hp : f.attrib.privacy = false) (h : (recvframeChkDefrag micOk a f).frame = some r) :
    (r = f ∧ f.attrib.mfrag = false ∧ f.attrib.fragNum = 0)
      ∨ (getAddr1 r = mac ∨ getAddr1 r = bcAddr → robust r = false) := by
  have key : ∀ r', (chkDefragQueue a f).frame = some r' → r'.attrib.privacy = false
      ∧ ((r' = f ∧ f.attrib.mfrag = false ∧ f.attrib.fragNum = 0)
        ∨ (getAddr1 r' = mac ∨ getAddr1 r' = bcAddr → robust r' = false)) := by
    intro r' hr
    rcases chkDefragQueue_frame hr with hw | ⟨q, hq, hd⟩
    · exact ⟨hw.1 ▸ hp, Or.inl hw⟩
    · obtain ⟨hpr, hrob⟩ := recvframeDefrag_robust (hI.defragCall hf hq).2.1 hd
      exact ⟨hpr, Or.inr hrob⟩
  simp only [recvframeChkDefrag] at h
  split at h
  · rename_i hn
    rw [hn] at h
    cases h
  · rename_i r' hr
    obtain ⟨hpr, hout⟩ := key r' hr
    rw [hpr, if_neg Bool.false_ne_true, hr] at h
    exact Option.some.inj h ▸ hout

theorem chkDefragQueue_macAddr (a : Adapter) (f : RecvFrame) :
    (chkDefragQueue a f).adapter.macAddr = a.macAddr := by
  unfold chkDefragQueue
  split
  · rfl
  split
  · rfl
  split
  · rfl
  dsimp only
  split
  · split <;> rfl
  · split <;> rfl

/-- only queues change -/
theorem chkDefragQueue_mfp (a : Adapter) (f : RecvFrame) (addr : Mac) :
    ((chkDefragQueue a f).adapter.rtwGetStainfo addr).map (·.mfp)
      = (a.rtwGetStainfo addr).map (·.mfp) := by
  have hset : ∀ (s : Mac × StaInfo) (q : List RecvFrame), defragSta a f = some s →
      ((a.setSta s.1 { s.2 with defragQ := q }).rtwGetStainfo addr).map (·.mfp)
        = (a.rtwGetStainfo addr).map (·.mfp) := by
    intro s q hs
    have hs' := defragSta_some hs
    unfold Adapter.rtwGetStainfo at hs' ⊢
    by_cases hk : staKey addr = staKey s.1
    · rw [hk, hs']
      simp [Adapter.setSta]
    · simp [Adapter.setSta, Function.update_of_ne hk]
  unfold chkDefragQueue
  split
  · rfl
  split
  · rfl
  split
  · rfl
  rename_i addr' sta hs
  dsimp only
  split
  · split
    · exact hset (addr', sta) _ hs
    · exact hset (addr', sta) _ hs
  · split
    · exact hset (addr', sta) [] hs
    · exact hset (addr', sta) [] hs

end joined

/-! ## runs -/

/-- a handler of robust frames is called only for a group addressed frame that is not under group
privacy and whose MIC was verified -/
def Protected (verified : List (List UInt8)) (x : MlmeHandler × RecvFrame) : Prop :=
  x.1 = .onDeAuth ∨ x.1 = .onDisassoc
      ∨ x.1 = .onAction ∧ categoryIsRobust (x.2.byte wlanHdrA3Len).toNat = true →
    isMcast (getAddr1 x.2) = true
      ∧ (x.1 = .onAction → categoryIsGroupPrivacy (x.2.byte wlanHdrA3Len).toNat = false)
      ∧ x.2.data ∈ verified

instance (verified : List (List UInt8)) (x : MlmeHandler × RecvFrame) :
    Decidable (Protected verified x) :=
  inferInstanceAs (Decidable (_ → _ ∧ (_ → _) ∧ _))

namespace MgntRun

/-- a management frame of the peer without the Protected bit -/
structure Unprotected (peer : Mac) (f : RecvFrame) : Prop where
  type : getFrameType f = .mgt
  addr2 : getAddr2 f = peer
  privacy : getPrivacy f = false

instance (peer : Mac) (f : RecvFrame) : Decidable (Unprotected peer f) :=
  decidable_of_iff (getFrameType f = .mgt ∧ getAddr2 f = peer ∧ getPrivacy f = false)
    ⟨fun h => ⟨h.1, h.2.1, h.2.2⟩, fun h => ⟨h.type, h.addr2, h.privacy⟩⟩

/-- the gate and the handler see the same frame: no Action No Ack frame for this adapter has a
robust category; a first fragment needs no MIC and is long enough for what the gate reads -/
structure SeenAlike (conf : RxConf) (a : Adapter) (f : RecvFrame) : Prop where
  noAck : getFragNum f = 0 → getFrameSubType f = wifiActionNoAck → forMe a f = true →
    categoryIsRobust (f.byte wlanHdrA3Len).toNat = false
  first : getMFrag f = true → getFragNum f = 0 →
    bipAsked conf (a.rtwGetStainfo (getAddr2 f)) (rxMgntFrame f) = false ∧ 0 < f.len
      ∧ (getFrameSubType f = wifiAction ∨ getFrameSubType f = wifiActionNoAck →
        wlanHdrA3Len < f.len)

instance (conf : RxConf) (a : Adapter) (f : RecvFrame) : Decidable (SeenAlike conf a f) :=
  decidable_of_iff
    ((getFragNum f = 0 → getFrameSubType f = wifiActionNoAck → forMe a f = true →
        categoryIsRobust (f.byte wlanHdrA3Len).toNat = false)
      ∧ (getMFrag f = true → getFragNum f = 0 →
        bipAsked conf (a.rtwGetStainfo (getAddr2 f)) (rxMgntFrame f) = false ∧ 0 < f.len
          ∧ (getFrameSubType f = wifiAction ∨ getFrameSubType f = wifiActionNoAck →
            wlanHdrA3Len < f.len)))
    ⟨fun h => ⟨h.1, h.2⟩, fun h => ⟨h.noAck, h.first⟩⟩

structure Inv (mac peer : Mac) (r : MgntRun) : Prop where
  macAddr : r.adapter.macAddr = mac
  mfp : (r.adapter.rtwGetStainfo peer).map (·.mfp) = some true
  queues : QueuesInv (Queued mac) (fun _ _ => True) r.adapter
  calls : ∀ x ∈ r.calls, Protected r.verified x

section

variable {mac peer : Mac} {r : MgntRun} {o : RxOracle} {conf : RxConf} {f : RecvFrame}

@[simp] theorem verify_adapter : (r.verify o conf f).adapter = r.adapter := by
  unfold verify
  split <;> rfl

@[simp] theorem verify_calls : (r.verify o conf f).calls = r.calls := by
  unfold verify
  split <;> rfl

theorem Protected.mono {v w : List (List UInt8)} {x : MlmeHandler × RecvFrame} (h : Protected v x)
    (hvw : v ⊆ w) : Protected w x := by
  intro hx
  obtain ⟨h1, h2, h3⟩ := h hx
  exact ⟨h1, h2, hvw h3⟩

theorem Inv.verify (hI : r.Inv mac peer) : (r.verify o conf f).Inv mac peer := by
  refine ⟨?_, ?_, ?_, ?_⟩
  · rw [verify_adapter]
    exact hI.macAddr
  · rw [verify_adapter]
    exact hI.mfp
  · rw [verify_adapter]
    exact hI.queues
  · intro x hx
    rw [verify_calls] at hx
    apply Protected.mono (hI.calls x hx)
    unfold MgntRun.verify
    split
    · exact List.subset_append_left _ _
    · exact List.Subset.refl _

theorem mem_verified (hb : bipAsked conf (r.adapter.rtwGetStainfo (getAddr2 f)) f = true)
    (ho : o.bipVerify f = true) : f.data ∈ (r.verify o conf f).verified := by
  rw [verify, hb, ho]
  simp

/-- the MIC of a robust frame was verified -/
structure Verified (verified : List (List UInt8)) (f : RecvFrame) : Prop where
  mcast : isMcast (getAddr1 f) = true
  category : getFrameSubType f = wifiAction →
    categoryIsGroupPrivacy (f.byte wlanHdrA3Len).toNat = false
  subtype : getFrameSubType f ≠ wifiActionNoAck
  mem : f.data ∈ verified

theorem protected_of {v : List (List UInt8)} {h : MlmeHandler} {seq : Mac → Nat} {a : Adapter}
    (hd : (mgtDispatcher a seq f).1 = some h) (hf : forMe a f = true → robust f = true → Verified v f) :
    Protected v (h, f) := by
  obtain ⟨ht, hme, hh⟩ := mgtDispatcher_some hd
  obtain ⟨h1, h2, h3⟩ := mlmeHandler_robust ht hh
  intro hx
  have hr : robust f = true := by
    rcases hx with hx | hx | ⟨hx, hc⟩
    · simp [robust, h1 hx]
    · simp [robust, h2 hx]
    · rcases h3 hx with hs | hs
      · simp [robust, hs, hc]
      · simp [robust, hs, hc]
  have hv := hf hme hr
  exact ⟨hv.mcast, fun hx => hv.category ((h3 hx).resolve_right hv.subtype), hv.mem⟩

theorem Inv.defrag (hI : r.Inv mac peer) (hp : f.attrib.privacy = false)
    (hq : FitsQueue (Queued mac) (fun _ _ => True) r.adapter f)
    (hw : f.attrib.mfrag = false → f.attrib.fragNum = 0 → forMe r.adapter f = true →
      robust f = true → Verified r.verified f) : (r.defrag o f).Inv mac peer := by
  have hmac : (recvframeChkDefrag o.micOk r.adapter f).adapter.macAddr = mac := by
    rw [recvframeChkDefrag_adapter, chkDefragQueue_macAddr]
    exact hI.macAddr
  have hmfp : ((recvframeChkDefrag o.micOk r.adapter f).adapter.rtwGetStainfo peer).map (·.mfp)
      = some true := by
    rw [recvframeChkDefrag_adapter, chkDefragQueue_mfp]
    exact hI.mfp
  have hqueues : QueuesInv (Queued mac) (fun _ _ => True)
      (recvframeChkDefrag o.micOk r.adapter f).adapter := by
    rw [recvframeChkDefrag_adapter]
    exact hI.queues.chkDefragQueue hq
  unfold MgntRun.defrag
  dsimp only
  split
  · exact ⟨hmac, hmfp, hqueues, hI.calls⟩
  rename_i g hg
  refine ⟨hmac, hmfp, hqueues, ?_⟩
  intro x hx
  rcases List.mem_append.mp hx with hx | hx
  · exact hI.calls x hx
  rw [Option.mem_toList] at hx
  obtain ⟨h, hd, rfl⟩ := Option.map_eq_some_iff.mp hx
  apply protected_of hd
  intro hme hr
  have hme' : getAddr1 g = mac ∨ getAddr1 g = bcAddr := by
    simpa [forMe, hmac] using hme
  rcases recvframeChkDefrag_out hI.queues hq hp hg with ⟨rfl, hm, hn⟩ | hrob
  · exact hw hm hn (by simpa [forMe, hI.macAddr] using hme') hr
  · rw [hrob hme'] at hr
    cases hr

/-- a first fragment that passed the gate is harmless -/
theorem SeenAlike.fits (hs : SeenAlike conf r.adapter f) (hmac : r.adapter.macAddr = mac)
    (hp : getPrivacy f = false)
    (hgate : robust f = true → getFrameSubType f ≠ wifiActionNoAck →
      bipAsked conf (r.adapter.rtwGetStainfo (getAddr2 f)) (rxMgntFrame f) = true) :
    FitsQueue (Queued mac) (fun _ _ => True) r.adapter (rxMgntFrame f) := by
  intro hfrag _ s _
  refine ⟨⟨rfl, hp, ?_⟩, fun _ _ _ => trivial⟩
  intro h0
  have h0' : getFragNum f = 0 := h0
  have hm : getMFrag f = true := hfrag.resolve_right fun h => h h0
  obtain ⟨hask, hlen, hlong⟩ := hs.first hm h0'
  have hnr : getFrameSubType f ≠ wifiActionNoAck → robust f = false := by
    intro hn
    by_contra hr
    rw [hgate (Bool.eq_true_of_not_eq_false hr) hn] at hask
    cases hask
  refine ⟨hlen, ⟨?_, ?_⟩, fun ha => ⟨hlong ha, fun hme => ?_⟩⟩
  · intro hs'
    have hs'' : getFrameSubType f = wifiDeauth := hs'
    have := hnr (by rw [hs'']; decide)
    simp [robust, hs''] at this
  · intro hs'
    have hs'' : getFrameSubType f = wifiDisassoc := hs'
    have := hnr (by rw [hs'']; decide)
    simp [robust, hs''] at this
  · rcases ha with ha | ha
    · have ha' : getFrameSubType f = wifiAction := ha
      have := hnr (by rw [ha']; decide)
      show categoryIsRobust (f.byte wlanHdrA3Len).toNat = false
      simpa [robust, ha', wifiDeauth, wifiDisassoc, wifiAction] using this
    · have hme' : getAddr1 f = mac ∨ getAddr1 f = bcAddr := hme
      exact hs.noAck h0' ha (by simpa [forMe, hmac] using hme')

theorem inv_step (hbip : conf.installBipKey = true) (hkey : conf.pairwiseKey peer = true)
    (r : MgntRun) (e : RxOracle × RecvFrame) (hI : r.Inv mac peer)
    (hC : Unprotected peer e.2 ∧ SeenAlike conf r.adapter e.2) : (r.step conf e).Inv mac peer := by
  obtain ⟨hu, hs⟩ := hC
  obtain ⟨sta, hsta, hmfp⟩ := Option.map_eq_some_iff.mp hI.mfp
  unfold step
  dsimp only
  split
  · exact hI.verify
  · exact hI.verify
  rename_i g hg
  rw [verify_adapter] at hg
  have hsta' : r.adapter.rtwGetStainfo (getAddr2 (rxMgntFrame e.2)) = some sta := hu.addr2 ▸ hsta
  obtain ⟨rfl, hgate⟩ := gate_pass hbip (hu.addr2 ▸ hkey) hsta' hmfp hu.privacy hg
  have hgate' : robust e.2 = true → getFrameSubType e.2 ≠ wifiActionNoAck →
      bipAsked conf (r.adapter.rtwGetStainfo (getAddr2 e.2)) (rxMgntFrame e.2) = true := by
    intro h1 h2
    have h := (hgate h1 h2).1
    rwa [← hsta'] at h
  apply hI.verify.defrag hu.privacy
  · rw [verify_adapter]
    exact hs.fits hI.macAddr hu.privacy hgate'
  · intro _ hn hme hr
    rw [verify_adapter] at hme
    have hn : getFrameSubType e.2 ≠ wifiActionNoAck := by
      intro ha
      have hc := hs.noAck hn ha hme
      have hr' : robust e.2 = true := hr
      simp [robust, ha, hc, wifiActionNoAck, wifiDeauth, wifiDisassoc] at hr'
    obtain ⟨hb, ho⟩ := hgate hr hn
    obtain ⟨hm, hc⟩ := bipAsked_mcast hb
    exact ⟨hm, hc, hn, mem_verified (hsta'.symm ▸ hb) ho⟩

end

end MgntRun

/-- **Robust frames of an MFP peer need a verified MIC**, in a run where the handlers see what the
gate has seen. -/
theorem mgnt_run_protected (conf : RxConf) (a : Adapter) (seq : Mac → Nat) (peer : Mac)
    (sta : StaInfo) (es : List (RxOracle × RecvFrame)) (hbip : conf.installBipKey = true)
    (hsta : a.rtwGetStainfo peer = some sta) (hmfp : sta.mfp = true)
    (hkey : conf.pairwiseKey peer = true)
    (h0 : ∀ key sta, a.stations key = some sta → sta.defragQ = [])
    (hu : ∀ e ∈ es, MgntRun.Unprotected peer e.2)
    (hC : Along (MgntRun.step conf) (fun r e => MgntRun.SeenAlike conf r.adapter e.2)
      (MgntRun.init a seq) es) :
    let r := run (MgntRun.step conf) (MgntRun.init a seq) es
    ∀ x ∈ r.calls, Protected r.verified x := by
  have hI : (MgntRun.init a seq).Inv a.macAddr peer :=
    ⟨rfl, by rw [MgntRun.init, hsta, Option.map_some, hmfp],
      fun key sta hs => h0 key sta hs ▸ queueOk_nil, List.forall_mem_nil _⟩
  exact (run_inv (MgntRun.inv_step hbip hkey) _ es hI (along_and hu hC)).calls

/-- associated to `apMac` with management frame protection -/
def mfpAdapter : Adapter :=
  { staAdapter .aes false with
    stations := fun m => if m = apMac then some { mfp := true } else if m = bcAddr then some {} else none }

def mfpConf : RxConf := { installBipKey := true, pairwiseKey := fun m => m = apMac }

/-- a management frame from the access point: subtype, receiver, sequence control and body -/
def apMgnt (fc : List UInt8) (ra : Mac) (seq : List UInt8) (body : List UInt8) : RecvFrame where
  id := 0
  data := fc ++ [0, 0] ++ ra ++ apMac ++ apMac ++ seq ++ body
  room := List.replicate 64 0

def bipOracle (ok : Bool) : RxOracle := ⟨acceptAll, fun _ _ => true, fun _ => ok, true⟩

theorem mfpAdapter_defragQ (key : Mac) (sta : StaInfo) (h : mfpAdapter.stations key = some sta) :
    sta.defragQ = [] := by
  simp only [mfpAdapter] at h
  split at h
  · cases h
    rfl
  split at h
  · cases h
    rfl
  · cases h

/-- a deauthentication to this station is dropped, a verified one to everybody is handled, and a
fragmented public action frame is joined -/
theorem mgnt_run_protected_deauth :
    let es := [(bipOracle false, apMgnt [0xc0, 0] myMac [0x10, 0] [7, 0]),
      (bipOracle true, apMgnt [0xc0, 0] bcAddr [0x20, 0] [7, 0]),
      (bipOracle false, apMgnt [0xd0, 4] myMac [0x30, 0] [4, 1]),
      (bipOracle false, apMgnt [0xd0, 0] myMac [0x31, 0] [4])]
    let r := run (MgntRun.step mfpConf) (MgntRun.init mfpAdapter fun _ => 0xffff) es
    r.calls.map (·.1) = [.onDeAuth, .onAction] ∧ ∀ x ∈ r.calls, Protected r.verified x :=
  ⟨by decide, mgnt_run_protected mfpConf mfpAdapter _ apMac { mfp := true } _ rfl rfl rfl rfl
    mfpAdapter_defragQ (by decide) (by decide)⟩

/-- an Action No Ack frame takes down a block ack session: category `BACK`, action `DELBA` -/
theorem mgnt_run_actionNoAck :
    ¬ ∀ (conf : RxConf) (a : Adapter) (seq : Mac → Nat) (peer : Mac) (sta : StaInfo)
      (es : List (RxOracle × RecvFrame)), conf.installBipKey = true →
      a.rtwGetStainfo peer = some sta → sta.mfp = true → conf.pairwiseKey peer = true →
      (∀ key sta, a.stations key = some sta → sta.defragQ = []) →
      (∀ e ∈ es, MgntRun.Unprotected peer e.2) →
      let r := run (MgntRun.step conf) (MgntRun.init a seq) es
      ∀ x ∈ r.calls, Protected r.verified x := by
  intro h
  have h' := h mfpConf mfpAdapter (fun _ => 0xffff) apMac { mfp := true }
    [(bipOracle false, apMgnt [0xe0, 0] myMac [0x10, 0] [3, 2, 0, 0, 0, 0])] rfl rfl rfl rfl
    mfpAdapter_defragQ (by decide)
  exact absurd h' (by decide)

/-- a first fragment of 24 bytes: the gate reads the category behind its end, the handler finds the
header of the second fragment there -/
example :
    let first := { apMgnt [0xd0, 4] myMac [0x30, 0] [] with room := 4 :: List.replicate 64 0 }
    let last := apMgnt [0xd0, 0] myMac [0x31, 0] [4]
    let r := run (MgntRun.step mfpConf) (MgntRun.init mfpAdapter fun _ => 0xffff)
      [(bipOracle false, first), (bipOracle false, last)]
    ¬ ∀ x ∈ r.calls, Protected r.verified x := by
  decide

end Rtl8192eu
