import Mathlib.Data.List.TakeWhile
import Rtl8192eu.Lib.Ledger
import Rtl8192eu.Recv.Frame

/-!
# Frames and packets that an access point sends on

A group-addressed packet, from the host or from a station, may be sent as one unicast frame for each
station, as one group-addressed frame, or both.  `rtw_ap_data_bmc_to_uc` takes the unicast frames
from the pool, its callers give each of them a copy of the packet.

* `World`         what was taken and made, where it is, and what `rtw_xmit_posthandle` got;
* `rtwXmitEntry`, `recvProcessMpdu`   the host's packet, and what a station sent, for each pattern
                     of success and failure (`Luck`);
* `Held w hand`   the frames and packets of `w` that are nowhere else are those in `hand`;
* `forward_conserves_iff`   nothing is left in hand, but for three exits;
* `forward_once_iff`   a station is addressed once, but for the failures that are not undone.
-/

namespace Rtl8192eu

open Ledger

namespace Forward

/-! ## the parties -/

def zeroAddr : Mac := List.replicate 6 0
def bcastAddr : Mac := List.replicate 6 0xff

/-- `NUM_STA` -/
def numSta : Nat := 32
def nrXmitframe : Nat := 256
def ethHlen : Nat := 14
def maxSubframeCount : Nat := 64

/-- a station of `asoc_list` -/
structure Sta where
  macAddr : Mac
  /-- `WIFI_ASOC_STATE` -/
  asoc : Bool := true
  /-- `WLAN_STA_WDS` -/
  wds : Bool := false
  deriving DecidableEq, Repr

/-- `b2u_flags_ap_src` and `b2u_flags_ap_fwd` -/
structure B2uFlags where
  all : Bool := false
  gaUcast : Bool := false
  bcast : Bool := false
  ipMcast : Bool := false
  deriving DecidableEq, Repr

/-- an access point; each station has an entry of its own, under an individual address -/
structure Adapter where
  macAddr : Mac
  asocList : List Sta
  nodup : (asocList.map Sta.macAddr).Nodup
  individual : ∀ sta ∈ asocList, isMcast sta.macAddr = false
  length_le : asocList.length ≤ numSta
  /-- `rtw_get_stainfo` finds the address -/
  knows : Mac → Bool := fun a => asocList.any (·.macAddr == a)
  /-- `rtw_wds_nexthop_lookup`, with `adapter_use_wds` -/
  wdsNexthop : Option (Mac → Option Mac) := none
  apIsolate : Bool := false
  wifiSpec : Nat := 0
  freeXmitframeCnt : Nat := nrXmitframe
  b2uFlagsApSrc : B2uFlags
  b2uFlagsApFwd : B2uFlags

def isIpMcast (da : Mac) : Bool := da.take 3 == [0x01, 0x00, 0x5e]
def isIcmpv6Mcast (da : Mac) : Bool := da.take 2 == [0x33, 0x33] && da.getD 2 0 != 0xff

def apSrcB2uPolicyChk (flags : B2uFlags) (da : Mac) : Bool :=
  flags.all || flags.bcast && da == bcastAddr || flags.ipMcast && (isIpMcast da || isIcmpv6Mcast da)

def apFwdB2uPolicyChk (flags : B2uFlags) (da : Mac) (gaucst : Bool) : Bool :=
  flags.all || flags.gaUcast && gaucst || flags.bcast && da == bcastAddr
    || flags.ipMcast && (isIpMcast da || isIcmpv6Mcast da)

/-- which of the calls that can fail succeed; those for a frame by its receiver address -/
structure Luck where
  /-- the frame that `rtw_xmit` takes, or the group-addressed frame of the receive path -/
  allocFrame : Bool := true
  /-- the unicast frame of a station -/
  allocCopy : Mac → Bool := fun _ => true
  /-- `rtw_os_pkt_copy` for it -/
  copy : Mac → Bool := fun _ => true
  /-- `rtw_os_pkt_copy` of the packet that is indicated too -/
  copyFwd : Bool := true
  /-- `update_attrib` -/
  attrib : Mac → Bool := fun _ => true
  /-- a queue takes the frame instead of `rtw_hal_xmit` -/
  queued : Mac → Bool := fun _ => false
  /-- `wlanhdr_to_ethhdr`, or `rtw_os_alloc_msdu_pkt` of a subframe -/
  pkt : Bool := true
  /-- `rtw_recv_indicatepkt_check` -/
  indicate : Bool := true

/-! ## frames, packets and where they are -/

inductive Res where
  | xmitFrame (n : Nat)
  | pkt (n : Nat)
  deriving DecidableEq, Repr

inductive Place where
  | freeXmitQueue
  /-- the sleep queue, the queue of the station or `rtw_hal_xmit` -/
  | handedOn
  /-- in a frame that was handed on -/
  | carried
  | networkStack
  | freed
  deriving DecidableEq, Repr

structure World where
  /-- frames taken from the pool -/
  frames : Nat := 0
  /-- packets made; packet 0 was there -/
  pkts : Nat := 1
  place : Place → List Res := fun _ => []
  /-- `attrib.ra` of the frames that `rtw_xmit_posthandle` got -/
  posted : List Mac := []

/-- `struct pkt_attrib` of a frame, zero when the frame is taken -/
structure PktAttrib where
  ra : Mac := zeroAddr
  ta : Mac := zeroAddr
  dst : Mac := zeroAddr
  src : Mac := zeroAddr
  wds : Bool := false
  deriving DecidableEq, Repr

structure XmitFrame where
  id : Nat
  attrib : PktAttrib := {}
  pkt : Option Nat := none
  deriving DecidableEq, Repr

namespace World

def put (w : World) (p : Place) (r : Res) : World :=
  { w with place := Function.update w.place p (w.place p ++ [r]) }

def rtwAllocXmitframe (w : World) (ok : Bool) : World × Option XmitFrame :=
  if ok then ({ w with frames := w.frames + 1 }, some { id := w.frames }) else (w, none)

/-- the packet of the frame is freed with it -/
def rtwFreeXmitframe (w : World) (f : XmitFrame) : World :=
  let w := w.put .freeXmitQueue (.xmitFrame f.id)
  match f.pkt with
  | none => w
  | some p => w.put .freed (.pkt p)

/-- a new packet: `rtw_os_pkt_copy`, `rtw_os_alloc_msdu_pkt` -/
def newPkt (w : World) (ok : Bool) : World × Option Nat :=
  if ok then ({ w with pkts := w.pkts + 1 }, some w.pkts) else (w, none)

def rtwXmitPosthandle (w : World) (luck : Luck) (f : XmitFrame) (pkt : Nat) : World × Int :=
  let w := { w with posted := w.posted ++ [f.attrib.ra] }
  if luck.attrib f.attrib.ra then
    ((w.put .handedOn (.xmitFrame f.id)).put .carried (.pkt pkt),
      if luck.queued f.attrib.ra then 1 else 0)
  else (w.rtwFreeXmitframe f, -1)

end World

/-! ## unicast frames for a group address -/

section
variable (ad : Adapter) (luck : Luck)

/-- the stations that `rtw_ap_data_bmc_to_uc` does not leave out -/
def wants (sa : Mac) (oriTa : Option Mac) (sta : Sta) : Bool :=
  !(!sta.asoc || sta.macAddr == sa || oriTa == some sta.macAddr || sta.macAddr == bcastAddr
    || sta.macAddr == zeroAddr)

def b2uAttrib (da sa : Mac) (sta : Sta) : PktAttrib :=
  let wds := ad.wdsNexthop.isSome && sta.wds
  { ra := sta.macAddr, ta := ad.macAddr, dst := if wds then da else sta.macAddr, src := sa, wds }

/-- the second loop; the frames, and whether it was left because there was no frame -/
def b2uFrames (da sa : Mac) (oriTa : Option Mac) : World → List Sta → World × List XmitFrame × Bool
  | w, [] => (w, [], false)
  | w, sta :: stas =>
    if wants sa oriTa sta then
      match w.rtwAllocXmitframe (luck.allocCopy sta.macAddr) with
      | (w, none) => (w, [], true)
      | (w, some f) =>
        let r := b2uFrames da sa oriTa w stas
        (r.1, { f with attrib := b2uAttrib ad da sa sta } :: r.2.1, r.2.2)
    else b2uFrames da sa oriTa w stas

/-- the frames of `b2u_list`, and `bmc_need` -/
def rtwApDataBmcToUc (w : World) (da sa : Mac) (oriTa : Option Mac) : World × List XmitFrame × Bool :=
  let r := b2uFrames ad luck da sa oriTa w (ad.asocList.take numSta)
  (r.1, r.2.1, decide (numSta < ad.asocList.length) || r.2.2)

/-! ## the host's packet -/

/-- an Ethernet packet -/
structure Packet where
  len : Nat
  da : Mac
  sa : Mac
  deriving DecidableEq, Repr

inductive Resolved where
  | fail
  | success
  | bmcNoNeed
  deriving DecidableEq, Repr

def rtwApNexthopResolve (dst : Mac) : Mac × Bool :=
  match ad.wdsNexthop.bind fun lookup => lookup dst with
  | some ra => (ra, dst != ra)
  | none => (dst, false)

/-- the packet is to be sent as unicast frames -/
def srcConverts (pkt : Packet) : Bool :=
  isMcast pkt.da && apSrcB2uPolicyChk ad.b2uFlagsApSrc pkt.da && ad.wifiSpec == 0
    && decide (nrXmitframe / 4 < ad.freeXmitframeCnt)

/-- the addresses of the frame `xframe` of the packet, when it is needed -/
def fillAddrs (xframe : XmitFrame) (pkt : Packet) : XmitFrame :=
  let r := if isMcast pkt.da then (pkt.da, false) else rtwApNexthopResolve ad pkt.da
  { xframe with attrib := { dst := pkt.da, src := pkt.sa, ta := ad.macAddr, ra := r.1, wds := r.2 } }

def rtwApAddrResolve (w : World) (xframe : XmitFrame) (pkt : Packet) :
    World × XmitFrame × List XmitFrame × Resolved :=
  if pkt.len < ethHlen then (w, xframe, [], .fail)
  else
    let xframe := { xframe with pkt := some 0 }
    if srcConverts ad pkt then
      match rtwApDataBmcToUc ad luck w pkt.da pkt.sa none with
      | (w, b2uList, false) => (w, xframe, b2uList, .bmcNoNeed)
      | (w, b2uList, true) => (w, fillAddrs ad xframe pkt, b2uList, .success)
    else (w, fillAddrs ad xframe pkt, [], .success)

/-- the loop of `rtw_xmit` over `b2u_list` -/
def xmitB2u : World → Resolved → List XmitFrame → World × Resolved
  | w, res, [] => (w, res)
  | w, res, f :: fs =>
    match w.newPkt (luck.copy f.attrib.ra) with
    | (w, none) =>
      xmitB2u (w.rtwFreeXmitframe f) (if res = .bmcNoNeed then .success else res) fs
    | (w, some p) => xmitB2u (w.rtwXmitPosthandle luck { f with pkt := some p } p).1 res fs

/-- behind `IS_CH_WAITING` and `rtw_linked_check` -/
def rtwXmit (w : World) (pkt : Packet) : World × Int :=
  let a := w.rtwAllocXmitframe luck.allocFrame
  match a.2 with
  | none => (a.1, -1)
  | some xframe =>
    let r := rtwApAddrResolve ad luck a.1 xframe pkt
    if r.2.2.2 = .fail then (r.1, -1)
    else
      let b := xmitB2u luck r.1 r.2.2.2 r.2.2.1
      if b.2 = .bmcNoNeed then (b.1.rtwFreeXmitframe r.2.1, 0)
      else b.1.rtwXmitPosthandle luck { r.2.1 with pkt := none } 0

/-- `_rtw_xmit_entry` -/
def rtwXmitEntry (w : World) (pkt : Packet) : World :=
  let r := rtwXmit ad luck w pkt
  if r.2 < 0 then r.1.put .freed (.pkt 0) else r.1

/-! ## what a station sent -/

/-- an MSDU, or a subframe -/
structure Msdu where
  /-- `rframe->psta`, the transmitter -/
  ta : Mac
  da : Mac
  sa : Mac
  /-- from a WDS station to the access point alone -/
  gaUcast : Bool := false
  deriving DecidableEq, Repr

structure Act where
  indicate : Bool := false
  forward : Bool := false
  deriving DecidableEq, Repr

def fwdConverts (m : Msdu) : Bool :=
  isMcast m.da && apFwdB2uPolicyChk ad.b2uFlagsApFwd m.da m.gaUcast && ad.wifiSpec == 0
    && decide (nrXmitframe / 4 < ad.freeXmitframeCnt)

def fwdAttrib (m : Msdu) (fwdRa : Option Mac) : PktAttrib :=
  let ra := fwdRa.getD m.da
  { dst := m.da, src := m.sa, ta := ad.macAddr, ra, wds := ra != m.da }

/-- `fwd_chk` of `rtw_ap_rx_msdu_act_check` -/
def fwdChk (w : World) (m : Msdu) (indicate : Bool) (fwdRa : Option Mac) :
    World × Act × Option XmitFrame × List XmitFrame :=
  if ad.asocList.length ≤ 1 then (w, { indicate }, none, [])
  else
    let r := if fwdConverts ad m then rtwApDataBmcToUc ad luck w m.da m.sa (some m.ta)
      else (w, [], true)
    if r.2.2 then
      match r.1.rtwAllocXmitframe luck.allocFrame with
      -- the frames of the list are not freed
      | (w, none) => (w, { indicate }, none, r.2.1)
      | (w, some xframe) =>
        (w, { indicate, forward := true }, some { xframe with attrib := fwdAttrib ad m fwdRa }, r.2.1)
    else (r.1, { indicate, forward := true }, none, r.2.1)

def rtwApRxMsduActCheck (w : World) (m : Msdu) : World × Act × Option XmitFrame × List XmitFrame :=
  if m.sa = ad.macAddr then (w, {}, none, [])
  else if isMcast m.da then
    if ad.apIsolate then (w, { indicate := true }, none, []) else fwdChk ad luck w m true none
  else if m.da = ad.macAddr then (w, { indicate := true }, none, [])
  else
    let fwdRa := ad.wdsNexthop.bind fun lookup => lookup m.da
    if fwdRa.isSome || ad.knows m.da then
      if ad.apIsolate then (w, {}, none, []) else fwdChk ad luck w m false fwdRa
    else (w, { indicate := true }, none, [])

def recvFreeFwdResource (w : World) (fwdFrame : Option XmitFrame) (b2uList : List XmitFrame) : World :=
  b2uList.foldl World.rtwFreeXmitframe (fwdFrame.elim w w.rtwFreeXmitframe)

/-- the loop of `recv_fwd_pkt_hdl` over `b2u_list`; the last frame gets the packet itself if there
is no group-addressed frame -/
def fwdB2u (fwdPkt : Nat) (fwdFrame : Option XmitFrame) : World → List XmitFrame → World
  | w, [] => w
  | w, f :: fs =>
    if fwdFrame.isNone && fs.isEmpty then
      (w.rtwXmitPosthandle luck { f with pkt := some fwdPkt } fwdPkt).1
    else
      match w.newPkt (luck.copy f.attrib.ra) with
      | (w, none) => fwdB2u fwdPkt fwdFrame (w.rtwFreeXmitframe f) fs
      | (w, some p) =>
        fwdB2u fwdPkt fwdFrame (w.rtwXmitPosthandle luck { f with pkt := some p } p).1 fs

/-- both loops of `recv_fwd_pkt_hdl`, with the packet to be sent on -/
def fwdPktHdl (w : World) (fwdPkt : Nat) (fwdFrame : Option XmitFrame) (b2uList : List XmitFrame) :
    World :=
  let w := fwdB2u luck fwdPkt fwdFrame w b2uList
  match fwdFrame with
  | none => w
  | some f => (w.rtwXmitPosthandle luck { f with pkt := some fwdPkt } fwdPkt).1

def recvFwdPktHdl (w : World) (pkt : Nat) (act : Act) (fwdFrame : Option XmitFrame)
    (b2uList : List XmitFrame) : World :=
  if act.indicate then
    match w.newPkt luck.copyFwd with
    | (w, none) => recvFreeFwdResource w fwdFrame b2uList
    | (w, some fwdPkt) => fwdPktHdl luck w fwdPkt fwdFrame b2uList
  else fwdPktHdl luck w pkt fwdFrame b2uList

/-- the end of `recv_process_mpdu`; a dropped frame is freed with its packet -/
def indicatePkt (w : World) (cannotRun : Bool) : World :=
  if cannotRun || !luck.indicate then w.put .freed (.pkt 0) else w.put .networkStack (.pkt 0)

/-- `recv_process_mpdu` of an MSDU -/
def recvProcessMsdu (w : World) (m : Msdu) (cannotRun : Bool) : World :=
  match rtwApRxMsduActCheck ad luck w m with
  | (w, act, fwdFrame, b2uList) =>
    if !act.indicate && !act.forward then w.put .freed (.pkt 0)
    else if !luck.pkt then
      (if act.forward then recvFreeFwdResource w fwdFrame b2uList else w).put .freed (.pkt 0)
    else if act.forward then
      let w := recvFwdPktHdl luck w 0 act fwdFrame b2uList
      -- the packet has left the receive frame
      if act.indicate then indicatePkt luck w cannotRun else w
    else indicatePkt luck w cannotRun

/-- one round of `amsdu_to_msdu`: the packet to be indicated, and whether the loop goes on -/
def amsduSubframe (w : World) (m : Msdu) : World × Option Nat × Bool :=
  match rtwApRxMsduActCheck ad luck w m with
  | (w, act, fwdFrame, b2uList) =>
    if !act.indicate && !act.forward then (w, none, true)
    else
      match w.newPkt luck.pkt with
      | (w, none) => (if act.forward then recvFreeFwdResource w fwdFrame b2uList else w, none, false)
      | (w, some p) =>
        let w := if act.forward then recvFwdPktHdl luck w p act fwdFrame b2uList else w
        if !act.indicate then (w, none, true)
        else if luck.indicate then (w, some p, true)
        else (w.put .freed (.pkt p), none, true)

end

/-- a subframe, as the loop cuts it off -/
structure Subframe where
  msdu : Msdu
  luck : Luck
  /-- `validate_amsdu_content` -/
  contentOk : Bool := true

variable (ad : Adapter)

/-- the packets to be indicated are collected in `subframes` -/
def amsduLoop : World → List Nat → List Subframe → World × List Nat
  | w, subframes, [] => (w, subframes)
  | w, subframes, s :: ss =>
    if !s.contentOk then (w, subframes)
    else
      match amsduSubframe ad s.luck w s.msdu with
      | (w, _, false) => (w, subframes)
      | (w, p, true) =>
        let subframes := subframes ++ p.toList
        if maxSubframeCount ≤ subframes.length then (w, subframes) else amsduLoop w subframes ss

def amsduToMsdu (w : World) (ss : List Subframe) : World :=
  let r := amsduLoop ad w [] ss
  (r.2.foldl (fun w p => w.put .networkStack (.pkt p)) r.1).put .freed (.pkt 0)

/-! ## who has what -/

/-- what was taken or made so far -/
def World.Made (w : World) : Res → Prop
  | .xmitFrame n => n < w.frames
  | .pkt n => n < w.pkts

/-- everything that was made is in one place, once, or in `hand` -/
def Held (w : World) (hand : List Res) : Prop := Accounted w.Made w.place hand

/-- everything that was made is in one place, once -/
def Conserved (w : World) : Prop := Held w []

def XmitFrame.res (f : XmitFrame) : Res := .xmitFrame f.id

section
variable {w w' : World} {hand hand' : List Res} {r : Res} {f : XmitFrame} {fs : List XmitFrame}
  {n : Nat} {luck : Luck}

theorem held_init : Held {} [.pkt 0] where
  once x hx := by
    cases x with
    | xmitFrame n => exact absurd hx (Nat.not_lt_zero n)
    | pkt n =>
      have hn : n = 0 := Nat.lt_one_iff.mp hx
      subst hn
      exact ⟨none, rfl, fun p => rfl⟩
  no_other x hx := by
    refine ⟨fun hmem => hx ?_, fun p => List.not_mem_nil⟩
    rw [List.mem_singleton.mp hmem]
    exact Nat.lt_succ_self 0

theorem Held.perm (h : Held w hand) (hp : hand'.Perm hand) : Held w hand' := Accounted.perm h hp

/-- what is in hand is nowhere else -/
theorem Held.not_conserved (h : Held w (r :: hand)) : ¬Conserved w := by
  intro hc
  have hin : r ∈ r :: hand := List.mem_cons_self
  have hmade := Accounted.mem h hin
  obtain ⟨o, hhand, hpl⟩ := Accounted.once hc r hmade
  rw [List.count_nil] at hhand
  cases o with
  | none => exact absurd hhand (by decide)
  | some p =>
    have hp := hpl p
    rw [if_pos rfl, List.count_eq_zero.mpr (Accounted.not_mem_place h hin p)] at hp
    exact absurd hp (by decide)

theorem Held.put (h : Held w (r :: hand)) (p : Place) : Held (w.put p r) hand :=
  Accounted.put [r] h p

theorem Held.alloc (h : Held w hand) : Held { w with frames := w.frames + 1 }
    (.xmitFrame w.frames :: hand) := by
  have hf := Accounted.fresh h (x := Res.xmitFrame w.frames) (Nat.lt_irrefl w.frames)
  refine (congrArg (Accounted · w.place _) (funext fun x => ?_)).mp hf
  cases x with
  | xmitFrame n =>
    apply propext
    show n < w.frames ∨ _ ↔ n < w.frames + 1
    rw [Res.xmitFrame.injEq]
    omega
  | pkt n =>
    apply propext
    exact ⟨fun hx => hx.resolve_right fun e => (nomatch e), Or.inl⟩

theorem Held.newPkt (h : Held w hand) : Held { w with pkts := w.pkts + 1 }
    (.pkt w.pkts :: hand) := by
  have hf := Accounted.fresh h (x := Res.pkt w.pkts) (Nat.lt_irrefl w.pkts)
  refine (congrArg (Accounted · w.place _) (funext fun x => ?_)).mp hf
  cases x with
  | pkt n =>
    apply propext
    show n < w.pkts ∨ _ ↔ n < w.pkts + 1
    rw [Res.pkt.injEq]
    omega
  | xmitFrame n =>
    apply propext
    exact ⟨fun hx => hx.resolve_right fun e => (nomatch e), Or.inl⟩

theorem Held.free (hf : f.pkt = none) (h : Held w (f.res :: hand)) :
    Held (w.rtwFreeXmitframe f) hand := by
  unfold World.rtwFreeXmitframe
  rw [hf]
  exact Held.put h .freeXmitQueue

theorem Held.freeWith (hf : f.pkt = some n) (h : Held w (f.res :: .pkt n :: hand)) :
    Held (w.rtwFreeXmitframe f) hand := by
  unfold World.rtwFreeXmitframe
  rw [hf]
  exact Held.put (Held.put h .freeXmitQueue) .freed

/-- only the places matter -/
theorem Held.congr (h : Held w hand) (hf : w'.frames = w.frames) (hp : w'.pkts = w.pkts)
    (hpl : w'.place = w.place) : Held w' hand := by
  unfold Held
  have hm : w'.Made = w.Made := by
    funext x
    cases x with
    | xmitFrame n =>
      show (n < w'.frames) = (n < w.frames)
      rw [hf]
    | pkt n =>
      show (n < w'.pkts) = (n < w.pkts)
      rw [hp]
  rw [hm, hpl]
  exact h

/-- a frame with its packet is handed on, or both are freed -/
theorem Held.posthandle (hf : f.pkt = some n) (h : Held w (f.res :: .pkt n :: hand)) :
    Held (w.rtwXmitPosthandle luck f n).1 hand := by
  have h' : Held { w with posted := w.posted ++ [f.attrib.ra] } (f.res :: .pkt n :: hand) :=
    h.congr rfl rfl rfl
  unfold World.rtwXmitPosthandle
  dsimp only
  split
  · exact Held.put (Held.put h' .handedOn) .carried
  · exact Held.freeWith hf h'

/-- the caller keeps the packet of a frame that fails -/
theorem Held.posthandleKeep (luck : Luck) (hf : f.pkt = none) (h : Held w (f.res :: .pkt n :: hand)) :
    Held (w.rtwXmitPosthandle luck f n).1
      (if (w.rtwXmitPosthandle luck f n).2 < 0 then .pkt n :: hand else hand) := by
  have h' : Held { w with posted := w.posted ++ [f.attrib.ra] } (f.res :: .pkt n :: hand) :=
    h.congr rfl rfl rfl
  unfold World.rtwXmitPosthandle
  dsimp only
  split
  · have hres : ¬(if luck.queued f.attrib.ra then (1 : Int) else 0) < 0 := by
      split <;> decide
    rw [if_neg hres]
    exact Held.put (Held.put h' .handedOn) .carried
  · exact Held.free hf h'

end

/-! ### the frames of the list -/

/-- the stations that a packet has to reach -/
def targets (ad : Adapter) (sa : Mac) (oriTa : Option Mac) : List Sta :=
  ad.asocList.filter (wants sa oriTa)

def Luck.hasFrame (luck : Luck) (t : Sta) : Bool := luck.allocCopy t.macAddr

/-- those that have a frame before the pool is empty -/
def listed (luck : Luck) (ts : List Sta) : List Sta := ts.takeWhile luck.hasFrame

def allListed (luck : Luck) (ts : List Sta) : Bool := ts.all luck.hasFrame

theorem listed_of_all {luck : Luck} {ts : List Sta} (h : allListed luck ts = true) :
    listed luck ts = ts :=
  List.takeWhile_eq_self_iff.mpr (List.all_eq_true.mp h)

section
variable {ad : Adapter} {luck : Luck} {da sa : Mac} {oriTa : Option Mac} {w : World}
  {hand : List Res}

/-- what the frames of a list are for -/
structure ListFor (ts : List Sta) (fs : List XmitFrame) : Prop where
  ra : fs.map (·.attrib.ra) = ts.map Sta.macAddr
  pkt : ∀ f ∈ fs, f.pkt = none

theorem b2uFrames_spec (stas : List Sta) :
    let r := b2uFrames ad luck da sa oriTa w stas
    (∀ {hand}, Held w hand → Held r.1 (r.2.1.map XmitFrame.res ++ hand)) ∧
      ListFor (listed luck (stas.filter (wants sa oriTa))) r.2.1 ∧
      r.2.2 = !allListed luck (stas.filter (wants sa oriTa)) ∧ r.1.posted = w.posted := by
  induction stas generalizing w with
  | nil => exact ⟨fun h => h, ⟨rfl, fun _ hf => nomatch hf⟩, rfl, rfl⟩
  | cons sta stas ih =>
    unfold b2uFrames
    by_cases hw : wants sa oriTa sta = true
    · rw [if_pos hw, List.filter_cons_of_pos hw]
      unfold World.rtwAllocXmitframe listed allListed
      by_cases ha : luck.allocCopy sta.macAddr = true
      · obtain ⟨hheld, hfor, hneed, hposted⟩ := ih (w := { w with frames := w.frames + 1 })
        have hf : luck.hasFrame sta = true := ha
        rw [if_pos ha, List.takeWhile_cons_of_pos hf, List.all_cons, hf, Bool.true_and]
        refine ⟨fun h => (hheld h.alloc).perm List.perm_middle.symm, ⟨?_, ?_⟩, hneed, hposted⟩
        · exact congrArg (sta.macAddr :: ·) hfor.ra
        · intro f hf
          rcases List.mem_cons.mp hf with rfl | hf
          · rfl
          · exact hfor.pkt f hf
      · have hf : ¬luck.hasFrame sta = true := ha
        rw [if_neg ha, List.takeWhile_cons_of_neg hf, List.all_cons, Bool.eq_false_iff.mpr hf]
        exact ⟨fun h => h, ⟨rfl, fun _ hf => nomatch hf⟩, rfl, rfl⟩
    · rw [if_neg hw, List.filter_cons_of_neg hw]
      exact ih

theorem rtwApDataBmcToUc_spec (ad : Adapter) (luck : Luck) (w : World) (da sa : Mac)
    (oriTa : Option Mac) :
    let r := rtwApDataBmcToUc ad luck w da sa oriTa
    (∀ {hand}, Held w hand → Held r.1 (r.2.1.map XmitFrame.res ++ hand)) ∧
      ListFor (listed luck (targets ad sa oriTa)) r.2.1 ∧
      r.2.2 = !allListed luck (targets ad sa oriTa) ∧ r.1.posted = w.posted := by
  unfold rtwApDataBmcToUc
  rw [List.take_of_length_le ad.length_le, decide_eq_false (Nat.not_lt.mpr ad.length_le)]
  dsimp only
  rw [Bool.false_or]
  exact b2uFrames_spec ad.asocList

/-! ### the loops over the list -/

theorem xmitB2u_held (luck : Luck) {fs : List XmitFrame} (hp : ∀ f ∈ fs, f.pkt = none) (res : Resolved)
    (h : Held w (fs.map XmitFrame.res ++ hand)) : Held (xmitB2u luck w res fs).1 hand := by
  induction fs generalizing w res with
  | nil => exact h
  | cons f fs ih =>
    have hfs : ∀ x ∈ fs, x.pkt = none := fun x hx => hp x (List.mem_cons_of_mem _ hx)
    unfold xmitB2u World.newPkt
    by_cases hc : luck.copy f.attrib.ra = true
    · rw [if_pos hc]
      refine ih hfs _ (Held.posthandle (f := { f with pkt := some w.pkts }) rfl ?_)
      exact h.newPkt.perm (List.Perm.swap ..)
    · rw [if_neg hc]
      exact ih hfs _ (h.free (hp f List.mem_cons_self))

theorem recvFree_held {fs : List XmitFrame} (hp : ∀ f ∈ fs, f.pkt = none)
    (h : Held w (fs.map XmitFrame.res ++ hand)) : Held (recvFreeFwdResource w none fs) hand := by
  unfold recvFreeFwdResource
  rw [Option.elim_none]
  induction fs generalizing w with
  | nil => exact h
  | cons f fs ih =>
    exact ih (fun x hx => hp x (List.mem_cons_of_mem _ hx)) (h.free (hp f List.mem_cons_self))

/-- the group-addressed frame, if there is one -/
def fwdRes (fwdFrame : Option XmitFrame) : List Res := (fwdFrame.map XmitFrame.res).toList

theorem recvFreeFwdResource_held {fs : List XmitFrame} {fwdFrame : Option XmitFrame}
    (hp : ∀ f ∈ fs, f.pkt = none) (hg : ∀ f ∈ fwdFrame, f.pkt = none)
    (h : Held w (fwdRes fwdFrame ++ (fs.map XmitFrame.res ++ hand))) :
    Held (recvFreeFwdResource w fwdFrame fs) hand := by
  cases fwdFrame with
  | none => exact recvFree_held hp h
  | some f => exact recvFree_held hp (w := w.rtwFreeXmitframe f) (h.free (hg f rfl))

/-- with a group-addressed frame the packet stays in hand, and without one the last frame of the
list takes it -/
theorem fwdB2u_held (luck : Luck) (fwdFrame : Option XmitFrame) {fs : List XmitFrame} {n : Nat}
    (hp : ∀ f ∈ fs, f.pkt = none) (h : Held w (fs.map XmitFrame.res ++ .pkt n :: hand)) :
    Held (fwdB2u luck n fwdFrame w fs)
      (if fwdFrame = none ∧ fs ≠ [] then hand else .pkt n :: hand) := by
  induction fs generalizing w with
  | nil =>
    rw [if_neg (fun hc => hc.2 rfl)]
    exact h
  | cons f fs ih =>
    have hfs : ∀ x ∈ fs, x.pkt = none := fun x hx => hp x (List.mem_cons_of_mem _ hx)
    have hne : f :: fs ≠ [] := List.cons_ne_nil _ _
    unfold fwdB2u World.newPkt
    by_cases hlast : (fwdFrame.isNone && fs.isEmpty) = true
    · obtain ⟨h1, h2⟩ := Bool.and_eq_true_iff.mp hlast
      have hnil := List.isEmpty_iff.mp h2
      subst hnil
      rw [if_pos hlast, if_pos ⟨Option.isNone_iff_eq_none.mp h1, hne⟩]
      exact Held.posthandle (f := { f with pkt := some n }) rfl h
    · have hif : (if fwdFrame = none ∧ f :: fs ≠ [] then hand else .pkt n :: hand) =
          if fwdFrame = none ∧ fs ≠ [] then hand else .pkt n :: hand := by
        by_cases hg : fwdFrame = none
        · have hfs' : fs ≠ [] := by
            rintro rfl
            exact hlast (by rw [hg]; rfl)
          rw [if_pos ⟨hg, hne⟩, if_pos ⟨hg, hfs'⟩]
        · rw [if_neg fun hc => hg hc.1, if_neg fun hc => hg hc.1]
      rw [if_neg hlast, hif]
      by_cases hc : luck.copy f.attrib.ra = true
      · rw [if_pos hc]
        refine ih hfs (Held.posthandle (f := { f with pkt := some w.pkts }) rfl ?_)
        exact h.newPkt.perm (List.Perm.swap ..)
      · rw [if_neg hc]
        exact ih hfs (h.free (hp f List.mem_cons_self))

/-! ### the host's packet -/

/-- the stations for which the host's packet is copied -/
def xmitListed (ad : Adapter) (luck : Luck) (pkt : Packet) : List Sta :=
  if srcConverts ad pkt then listed luck (targets ad pkt.sa none) else []

/-- `RTW_BMC_NO_NEED` -/
def xmitNoNeed (ad : Adapter) (luck : Luck) (pkt : Packet) : Bool :=
  srcConverts ad pkt && allListed luck (targets ad pkt.sa none)

/-- what `rtw_ap_addr_resolve` answers for a whole packet -/
def xmitRes (ad : Adapter) (luck : Luck) (pkt : Packet) : Resolved :=
  if xmitNoNeed ad luck pkt then .bmcNoNeed else .success

theorem rtwApAddrResolve_spec (ad : Adapter) (luck : Luck) (xframe : XmitFrame) {pkt : Packet} (hlen : ¬pkt.len < ethHlen)
    (h : Held w hand) : ∃ (w' : World) (xframe' : XmitFrame) (fs : List XmitFrame),
      rtwApAddrResolve ad luck w xframe pkt = (w', xframe', fs, xmitRes ad luck pkt) ∧
      Held w' (fs.map XmitFrame.res ++ hand) ∧ ListFor (xmitListed ad luck pkt) fs ∧
      w'.posted = w.posted ∧ xframe'.id = xframe.id ∧ xframe'.pkt = some 0 ∧
      xframe'.attrib =
        if xmitNoNeed ad luck pkt then xframe.attrib else (fillAddrs ad xframe pkt).attrib := by
  unfold rtwApAddrResolve xmitListed xmitRes xmitNoNeed
  rw [if_neg hlen]
  by_cases hc : srcConverts ad pkt = true
  · obtain ⟨hheld, hfor, hneed, hposted⟩ := rtwApDataBmcToUc_spec ad luck w pkt.da pkt.sa none
    have hheld := hheld h
    simp only [hc, if_true, Bool.true_and]
    cases ha : allListed luck (targets ad pkt.sa none) with
    | true =>
      rw [ha] at hneed
      refine ⟨_, { xframe with pkt := some 0 }, _, ?_, hheld, hfor, hposted, rfl, rfl, rfl⟩
      split
      · rename_i w' fs heq
        rw [heq]
        rfl
      · rename_i w' fs heq
        rw [heq] at hneed
        exact nomatch hneed
    | false =>
      rw [ha] at hneed
      refine ⟨_, fillAddrs ad { xframe with pkt := some 0 } pkt, _, ?_, hheld, hfor, hposted, rfl, rfl,
        rfl⟩
      split
      · rename_i w' fs heq
        rw [heq] at hneed
        exact nomatch hneed
      · rename_i w' fs heq
        rw [heq]
        rfl
  · rw [if_neg hc, if_neg hc, Bool.eq_false_iff.mpr hc]
    exact ⟨w, fillAddrs ad { xframe with pkt := some 0 } pkt, [], rfl, h,
      ⟨rfl, fun _ hf => nomatch hf⟩, rfl, rfl, rfl, rfl⟩

theorem rtwXmit_noFrame (ha : luck.allocFrame = false) (pkt : Packet) :
    rtwXmit ad luck {} pkt = ({}, -1) := by
  unfold rtwXmit World.rtwAllocXmitframe
  rw [ha, if_neg Bool.false_ne_true]

theorem rtwXmit_short (ha : luck.allocFrame = true) {pkt : Packet} (hlen : pkt.len < ethHlen) :
    rtwXmit ad luck {} pkt = ({ frames := 1 }, -1) := by
  unfold rtwXmit World.rtwAllocXmitframe rtwApAddrResolve
  rw [ha, if_pos rfl]
  dsimp only
  rw [if_pos hlen]
  rfl

/-- the addresses of the packet's own frame, from the function that was asked for them -/
def xmitAttrib (ad : Adapter) (luck : Luck) (pkt : Packet) : PktAttrib :=
  if xmitNoNeed ad luck pkt then {} else (fillAddrs ad { id := 0 } pkt).attrib

/-- what `rtw_xmit` does once it has a frame for a whole packet -/
theorem rtwXmit_eq (ad : Adapter) {luck : Luck} (ha : luck.allocFrame = true) {pkt : Packet} (hlen : ¬pkt.len < ethHlen) :
    ∃ (w : World) (xframe : XmitFrame) (fs : List XmitFrame),
      Held w (fs.map XmitFrame.res ++ [.xmitFrame 0, .pkt 0]) ∧ w.posted = [] ∧
      ListFor (xmitListed ad luck pkt) fs ∧ xframe.id = 0 ∧ xframe.pkt = some 0 ∧
      xframe.attrib = xmitAttrib ad luck pkt ∧
      rtwXmit ad luck {} pkt =
        let b := xmitB2u luck w (xmitRes ad luck pkt) fs
        if b.2 = .bmcNoNeed then (b.1.rtwFreeXmitframe xframe, 0)
        else b.1.rtwXmitPosthandle luck { xframe with pkt := none } 0 := by
  obtain ⟨w, xframe, fs, heq, hheld, hfor, hposted, hid, hpkt, hattr⟩ :=
    rtwApAddrResolve_spec ad luck { id := 0 } hlen held_init.alloc
  refine ⟨w, xframe, fs, hheld, hposted, hfor, hid, hpkt, hattr, ?_⟩
  have hne : xmitRes ad luck pkt ≠ .fail := by
    unfold xmitRes
    split
    · decide
    · decide
  unfold rtwXmit World.rtwAllocXmitframe
  rw [ha, if_pos rfl]
  dsimp only
  rw [heq, if_neg hne]

/-- a frame is left in hand when the packet has no whole Ethernet header -/
theorem rtwXmitEntry_held (ad : Adapter) (luck : Luck) (pkt : Packet) :
    Held (rtwXmitEntry ad luck {} pkt)
      (if luck.allocFrame ∧ pkt.len < ethHlen then [.xmitFrame 0] else []) := by
  unfold rtwXmitEntry
  by_cases ha : luck.allocFrame = true
  · by_cases hlen : pkt.len < ethHlen
    · rw [rtwXmit_short ha hlen, if_pos (show (-1 : Int) < 0 by decide), if_pos ⟨ha, hlen⟩]
      exact Held.put (held_init.alloc.perm (List.Perm.swap ..)) .freed
    · obtain ⟨w, xframe, fs, hheld, -, hfor, hid, hpkt, -, heq⟩ := rtwXmit_eq ad ha hlen
      have hres : Res.xmitFrame 0 = xframe.res := (congrArg Res.xmitFrame hid).symm
      have hb := xmitB2u_held luck hfor.pkt (xmitRes ad luck pkt) hheld
      have hfalse : ¬((luck.allocFrame = true) ∧ pkt.len < ethHlen) := fun hc => hlen hc.2
      rw [hres] at hb
      rw [heq, if_neg hfalse]
      dsimp only
      by_cases hno : (xmitB2u luck w (xmitRes ad luck pkt) fs).2 = .bmcNoNeed
      · rw [if_pos hno]
        exact Held.freeWith hpkt hb
      · rw [if_neg hno]
        have hkeep := Held.posthandleKeep luck (f := { xframe with pkt := none }) rfl hb
        split
        · rename_i hneg
          rw [if_pos hneg] at hkeep
          exact hkeep.put .freed
        · rename_i hneg
          rw [if_neg hneg] at hkeep
          exact hkeep
  · have ha : luck.allocFrame = false := Bool.eq_false_iff.mpr ha
    rw [rtwXmit_noFrame ha, if_pos (show (-1 : Int) < 0 by decide), ha,
      if_neg fun hc => Bool.false_ne_true hc.1]
    exact Held.put held_init .freed

/-! ### what a station sent -/

/-- `fwd_chk` is reached, with more than one station -/
def getsFwdChk (ad : Adapter) (m : Msdu) : Bool :=
  m.sa != ad.macAddr && (isMcast m.da || m.da != ad.macAddr &&
    ((ad.wdsNexthop.bind fun lookup => lookup m.da).isSome || ad.knows m.da))
    && !ad.apIsolate && decide (1 < ad.asocList.length)

/-- `RTW_RX_MSDU_ACT_INDICATE` -/
def indicates (ad : Adapter) (m : Msdu) : Bool :=
  m.sa != ad.macAddr && (isMcast m.da || m.da == ad.macAddr ||
    !((ad.wdsNexthop.bind fun lookup => lookup m.da).isSome || ad.knows m.da))

/-- the stations for which the MSDU is copied -/
def msduListed (ad : Adapter) (luck : Luck) (m : Msdu) : List Sta :=
  if getsFwdChk ad m && fwdConverts ad m then listed luck (targets ad m.sa (some m.ta)) else []

/-- `bmc_need` -/
def msduNeed (ad : Adapter) (luck : Luck) (m : Msdu) : Bool :=
  !(fwdConverts ad m && allListed luck (targets ad m.sa (some m.ta)))

/-- what `rtw_ap_rx_msdu_act_check` has done -/
structure Checked (ad : Adapter) (luck : Luck) (m : Msdu) (w : World)
    (r : World × Act × Option XmitFrame × List XmitFrame) : Prop where
  held : ∀ {hand}, Held w hand → Held r.1 (fwdRes r.2.2.1 ++ (r.2.2.2.map XmitFrame.res ++ hand))
  posted : r.1.posted = w.posted
  listFor : ListFor (msduListed ad luck m) r.2.2.2
  indicate : r.2.1.indicate = indicates ad m
  forward : r.2.1.forward = (getsFwdChk ad m && (!msduNeed ad luck m || luck.allocFrame))
  group : r.2.2.1.isSome = (getsFwdChk ad m && msduNeed ad luck m && luck.allocFrame)
  pkt : ∀ f ∈ r.2.2.1, f.pkt = none
  ra : isMcast m.da = true → ∀ f ∈ r.2.2.1, f.attrib.ra = m.da

theorem checked_stop {m : Msdu} (hg : getsFwdChk ad m = false) {indicate : Bool}
    (hi : indicate = indicates ad m) : Checked ad luck m w (w, { indicate }, none, []) where
  held h := h
  posted := rfl
  listFor := by
    unfold msduListed
    rw [hg]
    exact ⟨rfl, fun _ hf => nomatch hf⟩
  indicate := hi
  forward := by rw [hg]; rfl
  group := by rw [hg]; rfl
  pkt _ hf := nomatch hf
  ra _ _ hf := nomatch hf

theorem checked_fwdChk {m : Msdu} {indicate : Bool} {fwdRa : Option Mac}
    (hg : getsFwdChk ad m = decide (1 < ad.asocList.length)) (hi : indicate = indicates ad m)
    (hra : isMcast m.da = true → fwdRa = none) :
    Checked ad luck m w (fwdChk ad luck w m indicate fwdRa) := by
  unfold fwdChk
  by_cases hlen : ad.asocList.length ≤ 1
  · rw [if_pos hlen]
    exact checked_stop (by rw [hg, decide_eq_false (Nat.not_lt.mpr hlen)]) hi
  · rw [if_neg hlen]
    rw [decide_eq_true (Nat.lt_of_not_le hlen)] at hg
    -- the list and `bmc_need`, converted or not
    have hlist : ∃ (w' : World) (fs : List XmitFrame),
        (if fwdConverts ad m then rtwApDataBmcToUc ad luck w m.da m.sa (some m.ta)
          else (w, [], true)) = (w', fs, msduNeed ad luck m) ∧
        (∀ {hand}, Held w hand → Held w' (fs.map XmitFrame.res ++ hand)) ∧
        ListFor (msduListed ad luck m) fs ∧ w'.posted = w.posted := by
      unfold msduNeed msduListed
      rw [hg, Bool.true_and]
      by_cases hc : fwdConverts ad m = true
      · obtain ⟨hheld, hfor, hneed, hposted⟩ := rtwApDataBmcToUc_spec ad luck w m.da m.sa
          (some m.ta)
        rw [if_pos hc, if_pos hc, hc, Bool.true_and]
        exact ⟨_, _, Prod.ext rfl (Prod.ext rfl hneed), hheld, hfor, hposted⟩
      · rw [if_neg hc, if_neg hc, Bool.eq_false_iff.mpr hc]
        exact ⟨w, [], rfl, fun h => h, ⟨rfl, fun _ hf => nomatch hf⟩, rfl⟩
    obtain ⟨w', fs, heq, hheld, hfor, hposted⟩ := hlist
    rw [heq]
    dsimp only
    cases hn : msduNeed ad luck m with
    | false =>
      exact ⟨hheld, hposted, hfor, hi, by rw [hg, hn]; rfl, by rw [hg, hn]; rfl,
        fun _ hf => (nomatch hf), fun _ _ hf => (nomatch hf)⟩
    | true =>
      rw [if_pos rfl]
      unfold World.rtwAllocXmitframe
      cases ha : luck.allocFrame with
      | false =>
        exact ⟨hheld, hposted, hfor, hi, by rw [hg, hn, ha]; rfl, by rw [hg, hn, ha]; rfl,
          fun _ hf => (nomatch hf), fun _ _ hf => (nomatch hf)⟩
      | true =>
        refine ⟨fun h => (hheld h).alloc, hposted, hfor, hi, by rw [hg, hn, ha]; rfl, by rw [hg, hn, ha]; rfl,
          ?_, ?_⟩
        · intro f hf
          cases hf
          rfl
        · intro hm f hf
          cases hf
          show fwdRa.getD m.da = m.da
          rw [hra hm]
          rfl

theorem checked_actCheck (ad : Adapter) (luck : Luck) (w : World) (m : Msdu) :
    Checked ad luck m w (rtwApRxMsduActCheck ad luck w m) := by
  unfold rtwApRxMsduActCheck
  by_cases hs : m.sa = ad.macAddr
  · rw [if_pos hs]
    exact checked_stop (by simp [getsFwdChk, hs]) (by simp [indicates, hs])
  rw [if_neg hs]
  cases hm : isMcast m.da with
  | true =>
    rw [if_pos rfl]
    cases hi : ad.apIsolate with
    | true => exact checked_stop (by simp [getsFwdChk, hi]) (by simp [indicates, hs, hm])
    | false =>
      exact checked_fwdChk (by simp [getsFwdChk, hs, hm, hi]) (by simp [indicates, hs, hm])
        fun _ => rfl
  | false =>
    rw [if_neg Bool.false_ne_true]
    by_cases hd : m.da = ad.macAddr
    · rw [if_pos hd]
      rw [hd] at hm
      exact checked_stop (by simp [getsFwdChk, hm, hd]) (by simp [indicates, hs, hd])
    · rw [if_neg hd]
      dsimp only
      cases hk : (ad.wdsNexthop.bind fun lookup => lookup m.da).isSome || ad.knows m.da with
      | true =>
        rw [if_pos rfl]
        cases hi : ad.apIsolate with
        | true => exact checked_stop (by simp [getsFwdChk, hi]) (by simp [indicates, hm, hd, hk])
        | false =>
          refine checked_fwdChk ?_ (by simp [indicates, hm, hd, hk]) fun hm' => ?_
          · have hk' := Bool.or_eq_true_iff.mp hk
            simp [getsFwdChk, hs, hd, hk', hi]
          · rw [hm] at hm'
            cases hm'
      | false => exact checked_stop (by simp [getsFwdChk, hm, hk]) (by simp [indicates, hs, hk])

/-- the packet is left in hand if there is no frame at all -/
theorem fwdPktHdl_held (luck : Luck) {fs : List XmitFrame} {fwdFrame : Option XmitFrame} {n : Nat}
    (hp : ∀ f ∈ fs, f.pkt = none)
    (h : Held w (fwdRes fwdFrame ++ (fs.map XmitFrame.res ++ .pkt n :: hand))) :
    Held (fwdPktHdl luck w n fwdFrame fs)
      (if fwdFrame = none ∧ fs = [] then .pkt n :: hand else hand) := by
  unfold fwdPktHdl
  cases fwdFrame with
  | none =>
    have hb := fwdB2u_held luck none hp h
    by_cases hf : fs = []
    · rw [if_neg fun hc => hc.2 hf] at hb
      rw [if_pos ⟨rfl, hf⟩]
      exact hb
    · rw [if_pos ⟨rfl, hf⟩] at hb
      rw [if_neg fun hc => hf hc.2]
      exact hb
  | some f =>
    have h' : Held w (fs.map XmitFrame.res ++ .pkt n :: f.res :: hand) := by
      refine h.perm ?_
      show (fs.map XmitFrame.res ++ .pkt n :: f.res :: hand).Perm
        (f.res :: (fs.map XmitFrame.res ++ .pkt n :: hand))
      exact ((List.Perm.swap ..).append_left _).trans List.perm_middle
    have hb := fwdB2u_held luck (some f) hp h'
    rw [if_neg fun hc => Option.some_ne_none f hc.1] at hb
    rw [if_neg fun hc => Option.some_ne_none f hc.1]
    exact Held.posthandle (f := { f with pkt := some n }) rfl (hb.perm (List.Perm.swap ..))

/-- with `RTW_RX_MSDU_ACT_INDICATE` a copy is sent on, and the packet stays in hand -/
theorem recvFwdPktHdl_held (luck : Luck) (act : Act) {fs : List XmitFrame}
    {fwdFrame : Option XmitFrame} {n : Nat}
    (hp : ∀ f ∈ fs, f.pkt = none) (hg : ∀ f ∈ fwdFrame, f.pkt = none)
    (h : Held w (fwdRes fwdFrame ++ (fs.map XmitFrame.res ++ .pkt n :: hand))) :
    ∃ lost, Held (recvFwdPktHdl luck w n act fwdFrame fs)
        (lost ++ if act.indicate then .pkt n :: hand else hand) ∧
      (lost = [] ↔ (fwdFrame = none → fs = [] → act.indicate = true → luck.copyFwd = false) ∧
        (fwdFrame = none → fs = [] → act.indicate = true)) := by
  unfold recvFwdPktHdl
  cases hi : act.indicate with
  | false =>
    have hb := fwdPktHdl_held luck hp h
    rw [if_neg Bool.false_ne_true, if_neg Bool.false_ne_true]
    by_cases hno : fwdFrame = none ∧ fs = []
    · rw [if_pos hno] at hb
      refine ⟨[.pkt n], hb, iff_of_false (List.cons_ne_nil _ _) ?_⟩
      exact fun hc => absurd (hc.2 hno.1 hno.2) Bool.false_ne_true
    · rw [if_neg hno] at hb
      refine ⟨[], hb, iff_of_true rfl ⟨fun h1 h2 => absurd ⟨h1, h2⟩ hno, fun h1 h2 =>
        absurd ⟨h1, h2⟩ hno⟩⟩
  | true =>
    rw [if_pos rfl, if_pos rfl]
    unfold World.newPkt
    cases hc : luck.copyFwd with
    | false =>
      refine ⟨[], recvFreeFwdResource_held hp hg h, iff_of_true rfl ⟨fun _ _ _ => rfl, fun _ _ => rfl⟩⟩
    | true =>
      have h' : Held { w with pkts := w.pkts + 1 }
          (fwdRes fwdFrame ++ (fs.map XmitFrame.res ++ .pkt w.pkts :: .pkt n :: hand)) := by
        refine h.newPkt.perm ?_
        rw [← List.append_assoc, ← List.append_assoc]
        exact List.perm_middle
      have hb := fwdPktHdl_held luck hp h'
      rw [if_pos rfl]
      by_cases hno : fwdFrame = none ∧ fs = []
      · rw [if_pos hno] at hb
        refine ⟨[.pkt w.pkts], hb, iff_of_false (List.cons_ne_nil _ _) ?_⟩
        exact fun hc => absurd (hc.1 hno.1 hno.2 rfl) (by decide)
      · rw [if_neg hno] at hb
        exact ⟨[], hb, iff_of_true rfl ⟨fun h1 h2 => absurd ⟨h1, h2⟩ hno, fun _ _ => rfl⟩⟩

/-- of an MSDU that is to be converted: there is a station, or no copy to be lost; and if the pool
is emptied half way it has one frame more -/
def MsduCond (ad : Adapter) (luck : Luck) (m : Msdu) : Prop :=
  getsFwdChk ad m = true → fwdConverts ad m = true →
    if allListed luck (targets ad m.sa (some m.ta)) then
      targets ad m.sa (some m.ta) ≠ [] ∨ luck.pkt = false ∨ luck.copyFwd = false
    else listed luck (targets ad m.sa (some m.ta)) = [] ∨ luck.allocFrame = true

theorem ListFor.eq_nil_iff {ts : List Sta} {fs : List XmitFrame} (h : ListFor ts fs) :
    fs = [] ↔ ts = [] := by
  have hl := congrArg List.length h.ra
  rw [List.length_map, List.length_map] at hl
  rw [← List.length_eq_zero_iff, hl, List.length_eq_zero_iff]

theorem isMcast_of_fwdConverts {m : Msdu} (h : fwdConverts ad m = true) : isMcast m.da = true := by
  unfold fwdConverts at h
  simp only [Bool.and_eq_true] at h
  exact h.1.1.1

/-- a group-addressed MSDU that gets to `fwd_chk` is indicated -/
theorem indicates_of_converts {m : Msdu} (hg : getsFwdChk ad m = true)
    (hc : fwdConverts ad m = true) : indicates ad m = true := by
  have hm := isMcast_of_fwdConverts hc
  unfold getsFwdChk at hg
  simp only [Bool.and_eq_true] at hg
  simp only [indicates, hg.1.1.1, hm, Bool.true_or, Bool.and_self]

section
variable {m : Msdu} {r : World × Act × Option XmitFrame × List XmitFrame}

/-- frames of the list that nobody gets -/
theorem Checked.notForward (hc : Checked ad luck m w r) (hf : r.2.1.forward = false) :
    r.2.2.1 = none ∧ (r.2.2.2 = [] ↔ MsduCond ad luck m) := by
  have hforward := hc.forward
  have hgroup := hc.group
  rw [hf] at hforward
  refine ⟨?_, ?_⟩
  · rw [← Option.not_isSome_iff_eq_none, hgroup, Bool.not_eq_true]
    cases hg : getsFwdChk ad m with
    | false => rfl
    | true =>
      rw [hg, Bool.true_and] at hforward
      rw [(Bool.or_eq_false_iff.mp hforward.symm).2, Bool.and_false]
  · rw [hc.listFor.eq_nil_iff]
    unfold msduListed MsduCond
    cases hg : getsFwdChk ad m with
    | false => exact iff_of_true rfl fun h => absurd h Bool.false_ne_true
    | true =>
      rw [hg, Bool.true_and] at hforward
      obtain ⟨hneed, halloc⟩ := Bool.or_eq_false_iff.mp hforward.symm
      cases hcv : fwdConverts ad m with
      | false => exact iff_of_true rfl fun _ h => absurd h Bool.false_ne_true
      | true =>
        unfold msduNeed at hneed
        rw [hcv, Bool.true_and, Bool.not_not] at hneed
        rw [hneed, halloc]
        simp

theorem Checked.noPkt (hc : Checked ad luck m w r) (hf : r.2.1.forward = true)
    (hp : luck.pkt = false) : MsduCond ad luck m := by
  have hforward := hc.forward
  rw [hf] at hforward
  intro hg hcv
  rw [hg, Bool.true_and] at hforward
  split
  · exact Or.inr (Or.inl hp)
  · rename_i hall
    unfold msduNeed at hforward
    rw [hcv, Bool.eq_false_iff.mpr hall] at hforward
    exact Or.inr (by simpa using hforward)

theorem Checked.cond_iff (hc : Checked ad luck m w r) (hf : r.2.1.forward = true)
    (hp : luck.pkt = true) : MsduCond ad luck m ↔
      (r.2.2.1 = none → r.2.2.2 = [] → r.2.1.indicate = true → luck.copyFwd = false) ∧
        (r.2.2.1 = none → r.2.2.2 = [] → r.2.1.indicate = true) := by
  have hforward := hc.forward
  have hgroup := hc.group
  rw [hf] at hforward
  have hforward := Bool.and_eq_true_iff.mp hforward.symm
  obtain ⟨hg, hforward⟩ := hforward
  rw [hg, Bool.true_and] at hgroup
  cases hn : msduNeed ad luck m with
  | true =>
    rw [hn, Bool.not_true, Bool.false_or] at hforward
    rw [hn, hforward] at hgroup
    have hsome : r.2.2.1 ≠ none := fun h => by rw [h] at hgroup; cases hgroup
    refine iff_of_true ?_ ⟨fun h => absurd h hsome, fun h => absurd h hsome⟩
    intro _ hcv
    unfold msduNeed at hn
    rw [hcv, Bool.true_and, Bool.not_eq_true'] at hn
    rw [hn, if_neg Bool.false_ne_true]
    exact Or.inr hforward
  | false =>
    unfold msduNeed at hn
    obtain ⟨hcv, hall⟩ := Bool.and_eq_true_iff.mp ((Bool.not_eq_false' (b := _)).mp hn)
    have hnone : r.2.2.1 = none := by
      rw [← Option.not_isSome_iff_eq_none, hgroup, Bool.not_eq_true]
      unfold msduNeed
      rw [hcv, hall]
      rfl
    have hind : r.2.1.indicate = true := hc.indicate.trans (indicates_of_converts hg hcv)
    have hnil : r.2.2.2 = [] ↔ targets ad m.sa (some m.ta) = [] := by
      rw [hc.listFor.eq_nil_iff]
      unfold msduListed
      rw [hg, hcv, Bool.true_and, if_pos rfl, listed_of_all hall]
    unfold MsduCond
    rw [hall, hp, hnil]
    simp only [hg, hcv, hnone, hind, if_true, true_implies, implies_true, and_true]
    rw [or_iff_not_imp_left, not_not]
    simp

/-- what `rtw_ap_rx_msdu_act_check` answers, as far as the callers ask: there is something to do -/
def hasAct (ad : Adapter) (luck : Luck) (m : Msdu) : Bool :=
  indicates ad m || getsFwdChk ad m && (!msduNeed ad luck m || luck.allocFrame)

theorem Checked.hasAct_eq (hc : Checked ad luck m w r) :
    (!r.2.1.indicate && !r.2.1.forward) = !hasAct ad luck m := by
  rw [hc.indicate, hc.forward, hasAct, Bool.not_or]

/-- with nothing to do there is nothing in the list -/
theorem Checked.nil_of_noAct (hc : Checked ad luck m w r) (ha : hasAct ad luck m = false) :
    r.2.2.1 = none ∧ r.2.2.2 = [] ∧ MsduCond ad luck m := by
  obtain ⟨hi, hf⟩ := Bool.or_eq_false_iff.mp ha
  obtain ⟨hnone, hiff⟩ := hc.notForward (hc.forward.trans hf)
  have hcond : MsduCond ad luck m := by
    intro hg hcv
    rw [indicates_of_converts hg hcv] at hi
    cases hi
  exact ⟨hnone, hiff.mpr hcond, hcond⟩

theorem Held.indicatePkt (h : Held w (.pkt 0 :: hand)) (cannotRun : Bool) :
    Held (indicatePkt luck w cannotRun) hand := by
  unfold Forward.indicatePkt
  split <;> exact h.put _

/-- the frames of the list in hand, beside a packet -/
theorem held_list {fs : List XmitFrame} {n : Nat} (h : Held w (fs.map XmitFrame.res ++ .pkt n :: hand)) :
    Held w (.pkt n :: (fs.map XmitFrame.res ++ hand)) := h.perm List.perm_middle.symm

theorem recvProcessMsdu_held (ad : Adapter) (luck : Luck) (m : Msdu) (cannotRun : Bool) :
    ∃ lost, Held (recvProcessMsdu ad luck {} m cannotRun) lost ∧ (lost = [] ↔ MsduCond ad luck m) := by
  have hc := checked_actCheck ad luck {} m
  have hact := hc.hasAct_eq
  unfold recvProcessMsdu
  generalize rtwApRxMsduActCheck ad luck {} m = r at hc hact ⊢
  obtain ⟨w, act, fwdFrame, fs⟩ := r
  have hheld := hc.held held_init
  dsimp only at hact hheld ⊢
  rw [hact]
  cases ha : hasAct ad luck m with
  | false =>
    obtain ⟨hnone, hnil, hcond⟩ := hc.nil_of_noAct ha
    dsimp only at hnone hnil
    subst hnone hnil
    exact ⟨[], Held.put hheld .freed, iff_of_true rfl hcond⟩
  | true =>
    rw [Bool.not_true, if_neg Bool.false_ne_true]
    cases hf : act.forward with
    | false =>
      -- the list is nobody's
      obtain ⟨hnone, hiff⟩ := hc.notForward hf
      dsimp only at hnone hiff
      subst hnone
      refine ⟨fs.map XmitFrame.res, ?_, List.map_eq_nil_iff.trans hiff⟩
      have hin := held_list hheld
      rw [List.append_nil] at hin
      rw [if_neg Bool.false_ne_true, if_neg Bool.false_ne_true]
      split
      · exact hin.put .freed
      · exact hin.indicatePkt cannotRun
    | true =>
      rw [if_pos rfl, if_pos rfl]
      cases hp : luck.pkt with
      | false =>
        rw [Bool.not_false, if_pos rfl]
        exact ⟨[], (recvFreeFwdResource_held hc.listFor.pkt hc.pkt hheld).put .freed,
          iff_of_true rfl (hc.noPkt hf hp)⟩
      | true =>
        rw [Bool.not_true, if_neg Bool.false_ne_true]
        obtain ⟨lost, hl, hiff⟩ := recvFwdPktHdl_held luck act hc.listFor.pkt hc.pkt hheld
        refine ⟨lost, ?_, hiff.trans (hc.cond_iff hf hp).symm⟩
        cases hi : act.indicate with
        | false =>
          rw [hi, if_neg Bool.false_ne_true, List.append_nil] at hl
          exact hl
        | true =>
          rw [hi, if_pos rfl] at hl
          exact (hl.perm (List.perm_append_singleton ..).symm).indicatePkt cannotRun

/-! ### an A-MSDU -/

/-- a round that ends with a packet to be indicated -/
def kept (ad : Adapter) (luck : Luck) (m : Msdu) : Bool := indicates ad m && luck.pkt && luck.indicate

/-- the round is not the last one -/
def goesOn (ad : Adapter) (luck : Luck) (m : Msdu) : Bool := !hasAct ad luck m || luck.pkt

theorem amsduSubframe_spec (ad : Adapter) (luck : Luck) (m : Msdu) (h : Held w hand) :
    let r := amsduSubframe ad luck w m
    r.2.2 = goesOn ad luck m ∧ r.2.1.isSome = kept ad luck m ∧
      ∃ lost, Held r.1 (lost ++ (r.2.1.toList.map Res.pkt ++ hand)) ∧
        (lost = [] ↔ MsduCond ad luck m) := by
  have hc := checked_actCheck ad luck w m
  have hact := hc.hasAct_eq
  have hind := hc.indicate
  unfold amsduSubframe kept goesOn World.newPkt
  generalize rtwApRxMsduActCheck ad luck w m = r at hc hact hind ⊢
  obtain ⟨w₁, act, fwdFrame, fs⟩ := r
  have hheld := hc.held h
  dsimp only at hact hheld hind ⊢
  rw [hact, ← hind]
  cases ha : hasAct ad luck m with
  | false =>
    obtain ⟨hnone, hnil, hcond⟩ := hc.nil_of_noAct ha
    dsimp only at hnone hnil
    subst hnone hnil
    have hi : act.indicate = false := hind.trans (Bool.or_eq_false_iff.mp ha).1
    rw [Bool.not_false, if_pos rfl, hi]
    exact ⟨rfl, rfl, [], hheld, iff_of_true rfl hcond⟩
  | true =>
    rw [Bool.not_true, if_neg Bool.false_ne_true]
    cases hp : luck.pkt with
    | false =>
      rw [if_neg Bool.false_ne_true, Bool.and_false]
      cases hf : act.forward with
      | false =>
        obtain ⟨hnone, hiff⟩ := hc.notForward hf
        dsimp only at hnone hiff
        subst hnone
        exact ⟨rfl, rfl, fs.map XmitFrame.res, hheld, List.map_eq_nil_iff.trans hiff⟩
      | true =>
        exact ⟨rfl, rfl, [], recvFreeFwdResource_held hc.listFor.pkt hc.pkt hheld,
          iff_of_true rfl (hc.noPkt hf hp)⟩
    | true =>
      rw [if_pos rfl]
      -- the packet of the subframe, and what is lost before it goes on
      have hnew : ∃ (w₂ : World) (lost : List Res),
          (if act.forward then recvFwdPktHdl luck { w₁ with pkts := w₁.pkts + 1 } w₁.pkts act fwdFrame fs
            else { w₁ with pkts := w₁.pkts + 1 }) = w₂ ∧
          Held w₂ (lost ++ if act.indicate then .pkt w₁.pkts :: hand else hand) ∧
          (lost = [] ↔ MsduCond ad luck m) := by
        have hn : Held { w₁ with pkts := w₁.pkts + 1 }
            (fwdRes fwdFrame ++ (fs.map XmitFrame.res ++ .pkt w₁.pkts :: hand)) := by
          refine hheld.newPkt.perm ?_
          rw [← List.append_assoc, ← List.append_assoc]
          exact List.perm_middle
        cases hf : act.forward with
        | false =>
          obtain ⟨hnone, hiff⟩ := hc.notForward hf
          dsimp only at hnone hiff
          subst hnone
          have hi : act.indicate = true := by
            have hall := hc.forward
            rw [hf] at hall
            unfold hasAct at ha
            rw [← hall, Bool.or_false] at ha
            exact hind.trans ha
          rw [hi, if_pos rfl]
          exact ⟨_, fs.map XmitFrame.res, rfl, hn, List.map_eq_nil_iff.trans hiff⟩
        | true =>
          obtain ⟨lost, hl, hiff⟩ := recvFwdPktHdl_held luck act hc.listFor.pkt hc.pkt hn
          exact ⟨_, lost, rfl, hl, hiff.trans (hc.cond_iff hf hp).symm⟩
      obtain ⟨w₂, lost, heq, hl, hiff⟩ := hnew
      dsimp only
      rw [heq]
      cases hi : act.indicate with
      | false =>
        rw [hi, if_neg Bool.false_ne_true] at hl
        exact ⟨rfl, rfl, lost, hl, hiff⟩
      | true =>
        rw [hi, if_pos rfl] at hl
        rw [Bool.not_true, if_neg Bool.false_ne_true]
        cases hx : luck.indicate with
        | true => exact ⟨rfl, rfl, lost, hl, hiff⟩
        | false =>
          exact ⟨rfl, rfl, lost, (hl.perm List.perm_middle.symm).put .freed, hiff⟩

end

end

/-- the condition of every subframe that the loop gets to, with `n` packets collected -/
def AmsduCond (ad : Adapter) : Nat → List Subframe → Prop
  | _, [] => True
  | n, s :: ss =>
    s.contentOk = true → MsduCond ad s.luck s.msdu ∧
      (goesOn ad s.luck s.msdu = true →
        let n := n + (if kept ad s.luck s.msdu then 1 else 0)
        n < maxSubframeCount → AmsduCond ad n ss)

theorem amsduLoop_held (ad : Adapter) (ss : List Subframe) {w : World} (ps : List Nat)
    {hand : List Res} (h : Held w (ps.map Res.pkt ++ hand)) :
    ∃ lost, Held (amsduLoop ad w ps ss).1 (lost ++ ((amsduLoop ad w ps ss).2.map Res.pkt ++ hand)) ∧
      (lost = [] ↔ AmsduCond ad ps.length ss) := by
  induction ss generalizing w ps hand with
  | nil => exact ⟨[], h, iff_of_true rfl trivial⟩
  | cons s ss ih =>
    unfold amsduLoop AmsduCond
    cases hok : s.contentOk with
    | false => exact ⟨[], h, iff_of_true rfl fun hc => absurd hc Bool.false_ne_true⟩
    | true =>
      rw [Bool.not_true, if_neg Bool.false_ne_true]
      obtain ⟨hgo, hkept, lost, hl, hiff⟩ :=
        amsduSubframe_spec ad s.luck s.msdu h
      generalize amsduSubframe ad s.luck w s.msdu = r at hgo hkept hl ⊢
      obtain ⟨w₁, p, go⟩ := r
      dsimp only at hgo hkept hl ⊢
      rw [← hgo]
      cases go with
      | false =>
        have hp : p = none := by
          have hpkt := (Bool.or_eq_false_iff.mp hgo.symm).2
          rw [← Option.not_isSome_iff_eq_none, hkept, kept, hpkt, Bool.and_false, Bool.false_and]
          exact Bool.false_ne_true
        subst hp
        refine ⟨lost, hl, hiff.trans ?_⟩
        simp
      | true =>
        have hcount : (ps ++ p.toList).length = ps.length + if kept ad s.luck s.msdu then 1 else 0 := by
          rw [List.length_append, ← hkept]
          cases p <;> rfl
        -- what is lost in this round stays in hand
        have hnext : Held w₁ ((ps ++ p.toList).map Res.pkt ++ (lost ++ hand)) := by
          refine hl.perm (List.perm_iff_count.mpr fun x => ?_)
          simp only [List.map_append, List.count_append]
          omega
        dsimp only
        simp only [true_implies]
        rw [← hcount]
        by_cases hmax : maxSubframeCount ≤ (ps ++ p.toList).length
        · rw [if_pos hmax]
          refine ⟨lost, hnext.perm (List.perm_iff_count.mpr fun x => ?_), hiff.trans ?_⟩
          · simp only [List.count_append]
            omega
          · exact ⟨fun hm => ⟨hm, fun hlt => absurd hlt (Nat.not_lt.mpr hmax)⟩, fun hm => hm.1⟩
        · rw [if_neg hmax]
          obtain ⟨lost', hl', hiff'⟩ := ih _ hnext
          refine ⟨lost' ++ lost, hl'.perm (List.perm_iff_count.mpr fun x => ?_), ?_⟩
          · simp only [List.count_append]
            omega
          · rw [List.append_eq_nil_iff, hiff', hiff]
            simp only [Nat.lt_of_not_le hmax, true_implies]
            exact and_comm

theorem amsduToMsdu_held (ad : Adapter) (ss : List Subframe) :
    ∃ lost, Held (amsduToMsdu ad {} ss) lost ∧ (lost = [] ↔ AmsduCond ad 0 ss) := by
  obtain ⟨lost, hl, hiff⟩ := amsduLoop_held ad ss [] held_init
  refine ⟨lost, ?_, hiff⟩
  have hall : ∀ (ps : List Nat) {w : World} {hand : List Res}, Held w (ps.map Res.pkt ++ hand) →
      Held (ps.foldl (fun w p => w.put .networkStack (.pkt p)) w) hand := by
    intro ps
    induction ps with
    | nil => exact fun h => h
    | cons p ps ih => exact fun h => ih (h.put .networkStack)
  have hperm : Held (amsduLoop ad {} [] ss).1
      ((amsduLoop ad {} [] ss).2.map Res.pkt ++ (.pkt 0 :: lost)) := by
    refine hl.perm (List.perm_iff_count.mpr fun x => ?_)
    simp only [List.count_append, List.count_cons, List.count_nil]
    omega
  exact (hall _ hperm).put .freed

/-! ## the calls -/

/-- a call, with what succeeds in it -/
inductive Call where
  | xmit (luck : Luck) (pkt : Packet)
  | msdu (luck : Luck) (m : Msdu) (cannotRun : Bool)
  | amsdu (ss : List Subframe)

/-- with the packet in hand, until the call has returned -/
def Call.run (ad : Adapter) : Call → World
  | xmit luck pkt => rtwXmitEntry ad luck {} pkt
  | msdu luck m cannotRun => recvProcessMsdu ad luck {} m cannotRun
  | amsdu ss => amsduToMsdu ad {} ss

/-- the packet has a whole Ethernet header, or no frame was there for it; and `MsduCond` -/
def Call.Keeps (ad : Adapter) : Call → Prop
  | xmit luck pkt => ¬(luck.allocFrame ∧ pkt.len < ethHlen)
  | msdu luck m _ => MsduCond ad luck m
  | amsdu ss => AmsduCond ad 0 ss

theorem Call.held (ad : Adapter) (c : Call) : ∃ lost, Held (c.run ad) lost ∧ (lost = [] ↔ c.Keeps ad) := by
  cases c with
  | xmit luck pkt =>
    refine ⟨_, rtwXmitEntry_held ad luck pkt, ?_⟩
    unfold Call.Keeps
    split
    · rename_i h
      exact iff_of_false (List.cons_ne_nil _ _) (not_not.mpr h)
    · rename_i h
      exact iff_of_true rfl h
  | msdu luck m cannotRun => exact recvProcessMsdu_held ad luck m cannotRun
  | amsdu ss => exact amsduToMsdu_held ad ss

end Forward

open Forward

/-- **frames and packets are conserved** by every call, but for a packet that is too short, for the
frames of a list that is given up, and for a copy that nobody gets -/
theorem forward_conserves_iff (ad : Adapter) (c : Call) : Conserved (c.run ad) ↔ c.Keeps ad := by
  obtain ⟨lost, hheld, hiff⟩ := c.held ad
  rw [← hiff]
  constructor
  · intro hc
    cases lost with
    | nil => rfl
    | cons r lost => exact absurd hc hheld.not_conserved
  · rintro rfl
    exact hheld

namespace Forward

/-- two stations, and unicast frames for every group address -/
def twoStations : Adapter where
  macAddr := [2, 0, 0, 0, 0, 9]
  asocList := [{ macAddr := [2, 0, 0, 0, 0, 1] }, { macAddr := [2, 0, 0, 0, 0, 2] }]
  nodup := by decide
  individual := by decide
  length_le := by decide
  b2uFlagsApSrc := { all := true }
  b2uFlagsApFwd := { all := true }

end Forward

/-- a packet of ten bytes costs a frame -/
theorem forward_shortPacket : ¬Conserved (Call.run twoStations (.xmit {} ⟨10, bcastAddr, zeroAddr⟩)) := by
  have h := rtwXmitEntry_held twoStations {} ⟨10, bcastAddr, zeroAddr⟩
  rw [if_pos (by decide)] at h
  exact h.not_conserved

end Rtl8192eu
