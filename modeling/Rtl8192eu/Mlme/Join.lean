import Rtl8192eu.Ie.Elems
import Rtl8192eu.Recv.MgntDispatch

/-!
# A station joins a network

The join of `core/rtw_mlme_ext.c`: `start_clnt_join`, `start_clnt_auth` and `start_clnt_assoc`, the
handlers of the frames that answer them, the link timer that repeats them, and the abort of
`_rtw_wait_join_done` in `core/rtw_mlme.c`.

* `FwState`     `pmlmeinfo->state`, a set of bits over the mode of the port;
* `Join.dispatch`   a frame through `mgt_dispatcher`;
* `Join.onBeacon`   the first beacon starts the authentication;
* `Join.linkTimerHdl`   repeats a request, or gives up;
* `Join.step`   runs of frames, beacons, timer and aborts.

What is sent and reported is kept in `out`.  The HT, WMM and ERP elements of a response are read
elsewhere and cannot fail.
-/

namespace Rtl8192eu

/-! ## state -/

/-- the mode of the port, the low two bits of the state -/
inductive HwState where
  | nolink | adhoc | station | ap
  deriving DecidableEq, Repr

structure FwState where
  hw : HwState := .nolink
  authNull : Bool := false
  authState : Bool := false
  authSuccess : Bool := false
  assocState : Bool := false
  assocSuccess : Bool := false
  deriving DecidableEq, Repr

/-- `WIFI_FW_LINKING_STATE` -/
def FwState.linking (st : FwState) : Bool :=
  st.authNull || st.authState || st.authSuccess || st.assocState

/-- a timer that is set again is another timer: `sets` tells them apart -/
structure LinkTimer where
  due : Option Nat := none
  sets : Nat := 0
  deriving DecidableEq, Repr

inductive JoinOut where
  | auth (seq : Nat)
  | assocReq
  /-- `report_join_res` -/
  | joinRes (res : Int) (status : Nat)
  /-- `report_del_sta_event` -/
  | delSta (addr : Mac) (reason : Nat)
  /-- `rtw_cfg80211_external_auth_request` -/
  | externalAuth
  /-- `rtw_cfg80211_rx_mframe` -/
  | rxMframe
  deriving DecidableEq, Repr

structure JoinConf where
  adapter : Adapter
  /-- this is the station side -/
  isSta : adapter.mode = .station
  /-- `GET_CFG80211_REPORT_MGMT` for authentication frames -/
  reportAuth : Bool := false
  /-- `auth_type` is `MLME_AUTHTYPE_SAE` -/
  authTypeSae : Bool := false
  /-- `rtw_cached_pmkid` finds the address -/
  cachedPmkid : Mac → Bool := fun _ => false

/-- `struct mlme_ext_info` and `struct mlme_ext_priv`, the part of the join -/
structure Join where
  bssid : Mac
  state : FwState := {}
  authSeq : Nat := 0
  authAlgo : AuthAlgrthm := .openSystem
  authStatus : Nat := 0
  reauthCount : Nat := 0
  reassocCount : Nat := 0
  chgTxt : List UInt8 := List.replicate 128 0
  capability : Nat := 0
  slotTime : Nat := 0
  aid : Nat := 0
  joinAbort : Bool := false
  linkTimer : LinkTimer := {}
  /-- `RxMgmtFrameSeqNum` of the stations -/
  rxMgmtFrameSeqNum : Mac → Nat := fun _ => 0
  out : List JoinOut := []

def reauthLimit : Nat := 4
def reassocLimit : Nat := 4
def reauthTo : Nat := 300
def reassocTo : Nat := 300

/-- the destination of a frame; by the DS bits, which a management frame should not have -/
def getDa (f : RecvFrame) : Mac := if fcBit f 8 then getAddr3 f else getAddr1 f

/-- the challenge text of an answer -/
def answerChgTxt (f : RecvFrame) : Option (Nat × Nat) :=
  rtwGetIe (fun i => f.byte (wlanHdrA3Len + 6 + i)) 16 (f.len - wlanHdrA3Len - 6)

namespace Join

variable (conf : JoinConf) (s : Join)

def emit (o : JoinOut) : Join := { s with out := s.out ++ [o] }

def setLinkTimer (ms : Nat) : Join := { s with linkTimer := ⟨some ms, s.linkTimer.sets + 1⟩ }

def cancelLinkTimer : Join := { s with linkTimer := { s.linkTimer with due := none } }

def reportJoinRes (res : Int) (status : Nat) : Join := s.emit (.joinRes res status)

/-- the join is over with this result -/
def giveUp (res : Int) (status : Nat) : Join := { s with state := {} }.reportJoinRes res status

def issueAuth : Join := s.emit (.auth s.authSeq)

/-- the authentication is left to user space -/
def externalSae : Bool := conf.authTypeSae && !conf.cachedPmkid s.bssid

/-! ## `start_clnt_*` -/

/-- `cap_ESS` and `cap_IBSS` of the network -/
inductive Caps where
  | ess | ibss | other
  deriving DecidableEq, Repr

def waitForBcnToMin : Nat := 6000
def waitForBcnToMax : Nat := 20000

def decideWaitForBeaconTimeout (bcnInterval : Nat) : Nat :=
  if bcnInterval * 4 < waitForBcnToMin then waitForBcnToMin
  else if waitForBcnToMax < bcnInterval * 4 then waitForBcnToMax
  else bcnInterval * 4

def startClntJoin (caps : Caps) (bcnInterval : Nat) : Join :=
  match caps with
  | .ess =>
    { s.setLinkTimer (decideWaitForBeaconTimeout bcnInterval) with
      state := { hw := .station, authNull := true } }
  | .ibss => { s with state := { hw := .adhoc } }.reportJoinRes 1 0
  | .other => s

def startClntAuth : Join :=
  let s := { s.cancelLinkTimer with
    state := { s.state with authNull := false, authState := true }
    authSeq := 1
    reauthCount := 0
    reassocCount := 0 }
  if s.externalSae conf then s.emit .externalAuth
  else s.issueAuth.setLinkTimer reauthTo

def startClntAssoc : Join :=
  let s := { s.cancelLinkTimer with
    state := { s.state with
      authNull := false, authState := false, authSuccess := true, assocState := true } }
  (s.emit .assocReq).setLinkTimer reassocTo

/-! ## the handlers -/

/-- status and sequence number of an authentication frame -/
def authWord (f : RecvFrame) (i : Nat) : Nat :=
  le16 f (wlanHdrA3Len + (if getPrivacy f then 4 else 0) + i)

/-- the algorithm to try after an answer with this status -/
def nextAuthAlgo (status : Nat) : AuthAlgrthm :=
  if status = 13 then if s.authAlgo = .shared then .openSystem else .shared else s.authAlgo

/-- the answer to the first frame of shared key carries the challenge -/
def onChgTxt (f : RecvFrame) : Join :=
  match answerChgTxt f with
  | none => s
  | some (i, n) =>
    if 128 < n then s
    else
      ({ s with
        chgTxt := f.bytes (wlanHdrA3Len + 6 + i + 2) n ++ s.chgTxt.drop n
        authSeq := 3 }.issueAuth).setLinkTimer reauthTo

def onAuthClient (f : RecvFrame) : Join :=
  if conf.reportAuth && s.externalSae conf then s.emit .rxMframe
  else if getDa f ≠ conf.adapter.macAddr then s
  else if !s.state.authState || s.joinAbort then s
  else if authWord f 4 ≠ 0 then
    { s with authAlgo := s.nextAuthAlgo (authWord f 4), authStatus := authWord f 4 }.setLinkTimer 1
  else if authWord f 2 = 2 then
    if s.authAlgo = .shared then s.onChgTxt f else s.startClntAssoc
  else if authWord f 2 = 4 then
    if s.authAlgo = .shared then s.startClntAssoc else s
  else s

/-- the association id in a response -/
def respAid (f : RecvFrame) : Nat := le16 f (wlanHdrA3Len + 4) &&& 0x3fff

def onAssocRsp (f : RecvFrame) : Join :=
  if getDa f ≠ conf.adapter.macAddr then s
  else if !(s.state.authSuccess || s.state.assocState) || s.joinAbort then s
  else if s.state.assocSuccess then s
  else
    let s := s.cancelLinkTimer
    let status := le16 f (wlanHdrA3Len + 2)
    if 0 < status then s.giveUp (-4) status
    else
      let cap := le16 f wlanHdrA3Len
      let s := { s with
        capability := cap
        slotTime := if cap.testBit 10 then 9 else 20
        aid := respAid f }
      if respAid f < 1 || 2007 < respAid f then s.giveUp (-4) status
      else
        { s with state := { s.state with assocState := false, assocSuccess := true } }.reportJoinRes
          (respAid f) status

def receiveDisconnect (addr : Mac) (reason : Nat) : Join :=
  if addr ≠ s.bssid then s
  else if s.state.hw = .station then
    if s.state.assocSuccess then { s with state := {} }.emit (.delSta addr reason)
    else if s.state.linking then s.giveUp (-2) reason
    else s
  else s

/-- the reasons 6 and 2 are what a peer answers to frames from before the join -/
def ignoreDeauth (reason : Nat) : Bool :=
  (s.state.authState || s.state.assocState) && (reason = 6 || reason = 2)

def onDeAuthSta (f : RecvFrame) : Join :=
  if getAddr3 f ≠ s.bssid then s
  else if s.ignoreDeauth (le16 f wlanHdrA3Len) then s
  else s.receiveDisconnect (getAddr2 f) (le16 f wlanHdrA3Len)

def onDisassocSta (f : RecvFrame) : Join :=
  if getAddr3 f ≠ s.bssid then s
  else s.receiveDisconnect (getAddr2 f) (le16 f wlanHdrA3Len)

def handle (f : RecvFrame) : Option MlmeHandler → Join
  | some .onAuthClient => s.onAuthClient conf f
  | some .onAssocRsp => s.onAssocRsp conf f
  | some .onDeAuth => s.onDeAuthSta f
  | some .onDisassoc => s.onDisassocSta f
  | _ => s

/-- `mgt_dispatcher`, for the frames of a join -/
def dispatch (f : RecvFrame) : Join :=
  let ret := mgtDispatcher conf.adapter s.rxMgmtFrameSeqNum f
  { s with rxMgmtFrameSeqNum := ret.2 }.handle conf f ret.1

/-! ## beacons and the timer -/

/-- what `OnBeacon` finds in a beacon of the network and around it -/
structure Beacon where
  /-- `validate_beacon_len` -/
  valid : Bool := true
  /-- `SCAN_PROCESS` -/
  scanning : Bool := false
  /-- `rtw_check_bcn_info` -/
  bcnInfo : Bool := true
  /-- `rtw_get_stainfo` finds the transmitter -/
  known : Bool := true
  /-- `rtw_sta_linking_test_wait_done` and `rtw_sta_linking_test_force_fail` -/
  testWaitDone : Bool := true
  testForceFail : Bool := false
  deriving DecidableEq, Repr

def onBeacon (b : Beacon) : Join :=
  let linked := s.state.hw = .station && s.state.assocSuccess
  if !b.valid then s
  else if b.scanning then
    if linked && !b.bcnInfo then s.receiveDisconnect s.bssid 0 else s
  else if s.state.authNull && (b.testWaitDone || s.joinAbort) then
    if b.testForceFail || s.joinAbort then s.setLinkTimer 1 else s.startClntAuth conf
  else if linked && b.known && !b.bcnInfo then s.receiveDisconnect s.bssid 0
  else s

def reauth : Join :=
  let s := { s with reauthCount := s.reauthCount + 1 }
  if reauthLimit < s.reauthCount then
    if s.authStatus ≠ 0 then { s.giveUp (-1) s.authStatus with authStatus := 0 } else s.giveUp (-1) 1
  else ({ s with authSeq := 1 }.issueAuth).setLinkTimer reauthTo

def reassoc : Join :=
  let s := { s with reassocCount := s.reassocCount + 1 }
  if reassocLimit < s.reassocCount then s.giveUp (-2) 1
  else (s.emit .assocReq).setLinkTimer reassocTo

def linkTimerHdl : Join :=
  if s.joinAbort && s.state ≠ {} then s.giveUp (-4) 1
  else if s.state.authNull then s.giveUp (-3) 1
  else if s.state.authState then if conf.authTypeSae then s else s.reauth
  else if s.state.assocState then s.reassoc
  else s

/-- the timer goes off, if it is set -/
def linkTimerFires : Join :=
  if s.linkTimer.due.isSome then s.cancelLinkTimer.linkTimerHdl conf else s

/-! ## runs -/

end Join

inductive JoinEvent where
  | frame (f : RecvFrame)
  | beacon (b : Join.Beacon)
  | linkTimer
  /-- `_rtw_wait_join_done` begins and ends -/
  | abort
  | abortDone

def Join.step (conf : JoinConf) (s : Join) : JoinEvent → Join
  | .frame f => s.dispatch conf f
  | .beacon b => s.onBeacon conf b
  | .linkTimer => s.linkTimerFires conf
  | .abort => { s with joinAbort := true }.setLinkTimer 1
  | .abortDone => { s with joinAbort := false }

end Rtl8192eu
