import Rtl8192eu.Recv.Mgnt
import Rtl8192eu.Recv.ReorderRun

/-!
# Block ack agreements of one TID

The recipient side of a block ack agreement: `process_addba_req` and `rtw_process_bar_frame` of
`core/rtw_wlan_util.c`, `add_ba_rsp_hdl` and the DELBA branch of `OnAction_back` of
`core/rtw_mlme_ext.c`.  None of them looks at the pending list of the reorder control.

* `processAddbaReq`   the answer to an ADDBA request: the status and the announced size;
* `addBaRspHdl`   the answer is sent, the next frame starts the window anew;
* `onDelba`       frames are handed up as they come from now on;
* `processBar`    the window start moves to the number of the block ack request;
* `BaRun`, `BaRun.step`   a run of frames, timer firings, requests and agreements.
-/

namespace Rtl8192eu

open Run

/-! ## the announced size -/

/-- `RX_AMPDU_SIZE_INVALID` and `RX_AMPDU_ACCEPT_INVALID` -/
def rxAmpduInvalid : UInt8 := 0xFF

/-- what `process_addba_req` reads; a build without `CONFIG_BT_COEXIST` and `CONFIG_80211AC_VHT` -/
structure AmpduConf where
  fixRxAmpduAccept : UInt8 := rxAmpduInvalid
  fixRxAmpduSize : UInt8 := rxAmpduInvalid
  /-- the scan state is neither `SCAN_DISABLE` nor `SCAN_COMPLETE` -/
  scanning : Bool := false
  ssRxAmpduAccept : UInt8 := rxAmpduInvalid
  ssRxAmpduSize : UInt8 := rxAmpduInvalid
  bAcceptAddbaReq : Bool := true
  driverRxAmpduFactor : UInt8 := 0xFF
  /-- `HW_VAR_MAX_RX_AMPDU_FACTOR` -/
  halRxAmpduFactor : UInt8 := 3
  /-- `is_supported_ht` of the station -/
  staHt : Bool := true
  /-- the first four bytes of the MCS sets of the adapter and of the station -/
  mcsRate : Fin 4 → UInt8 := fun _ => 0xFF
  suppMcsSet : Fin 4 → UInt8 := fun _ => 0xFF
  /-- the narrower of the two bandwidths -/
  bw : Nat := 0
  /-- `rx_ampdu_sz_limit_by_nss_bw`, from one stream on -/
  rxAmpduSzLimit : Nat → Nat → UInt8 := fun _ _ => 0xFF

namespace AmpduConf

def rtwRxAmpduIsAccept (a : AmpduConf) : Bool :=
  if a.fixRxAmpduAccept ≠ rxAmpduInvalid then a.fixRxAmpduAccept ≠ 0
  else if a.scanning && a.ssRxAmpduAccept ≠ rxAmpduInvalid then a.ssRxAmpduAccept ≠ 0
  else a.bAcceptAddbaReq

def maxRxAmpduFactor (a : AmpduConf) : UInt8 :=
  if a.driverRxAmpduFactor ≠ 0xFF then a.driverRxAmpduFactor else a.halRxAmpduFactor

def rtwRxAmpduSize (a : AmpduConf) : UInt8 :=
  let size : UInt8 :=
    if a.scanning && a.ssRxAmpduSize ≠ rxAmpduInvalid then a.ssRxAmpduSize
    else if a.maxRxAmpduFactor = 3 then 64
    else if a.maxRxAmpduFactor = 2 then 32
    else if a.maxRxAmpduFactor = 1 then 16
    else if a.maxRxAmpduFactor = 0 then 8
    else 64
  if 127 < size then 127 else size

end AmpduConf

def rtwHtMcssetToNss (mcs : Fin 4 → UInt8) : Nat :=
  if mcs 3 ≠ 0 then 4
  else if mcs 2 ≠ 0 then 3
  else if mcs 1 ≠ 0 then 2
  else 1

def AmpduConf.rxAmpduSizeStaLimit (a : AmpduConf) : UInt8 :=
  if a.staHt then
    a.rxAmpduSzLimit (min (rtwHtMcssetToNss a.mcsRate) (rtwHtMcssetToNss a.suppMcsSet) - 1) a.bw
  else 0xFF

/-- `struct addBaRsp_parm`; `accept` is status 0, else status 37 -/
structure AddBaRsp where
  accept : Bool
  size : Nat
  deriving DecidableEq, Repr

def processAddbaReq (a : AmpduConf) : AddBaRsp where
  accept := a.rtwRxAmpduIsAccept
  size :=
    if a.fixRxAmpduSize ≠ rxAmpduInvalid then a.fixRxAmpduSize.toNat
    else (min a.rtwRxAmpduSize a.rxAmpduSizeStaLimit).toNat

/-! ## the writers of the reorder control -/

namespace RecvReorderCtrl

/-- `add_ba_rsp_hdl`; `wsize_b` stays as it is -/
def addBaRspHdl (c : RecvReorderCtrl) (p : AddBaRsp) : RecvReorderCtrl :=
  { c with recAbbaRspAck := true, enable := p.accept }

def onDelba (c : RecvReorderCtrl) : RecvReorderCtrl := { c with enable := false }

/-- `rtw_process_bar_frame` at its TID -/
def processBar (c : RecvReorderCtrl) (start : Nat) : RecvReorderCtrl := { c with indicateSeq := start }

/-- a frame that is not reordered: `recv_set_iseq_before_mpdu_process` and
`recv_set_iseq_after_mpdu_process` -/
def direct (c : RecvReorderCtrl) (f : RecvFrame) : RecvReorderCtrl :=
  { c with indicateSeq := (f.attrib.seqNum.val + 1) % 4096 }

end RecvReorderCtrl

/-! ## runs -/

structure BaRun where
  ctrl : RecvReorderCtrl
  arrived : Nat
  /-- the number of frames that arrived before the last change of the agreement -/
  mark : Nat
  ampduSize : Nat
  /-- the size of the last response that accepted -/
  announced : Option Nat
  accepted : List RecvFrame
  up : List RecvFrame

inductive BaEvent where
  | arrive (f : RecvFrame)
  | timeout (cannotRun : Bool)
  /-- a block ack request with the 12 bits of its starting number -/
  | bar (start : Fin 4096)
  /-- `add_ba_rsp_hdl` with the answer that `process_addba_req` made up -/
  | addba (conf : AmpduConf)
  | delba

/-- the arrival of a frame with number `seq` -/
def BaEvent.data (seq : Fin 4096) : BaEvent := .arrive { id := 0, attrib := { seqNum := seq } }

namespace BaRun

/-- as `rtw_alloc_stainfo` leaves the control block -/
def init (enable : Bool) : BaRun := ⟨RecvReorderCtrl.init 64 enable, 0, 0, 0xFF, none, [], []⟩

def arrive (r : BaRun) (f : RecvFrame) : BaRun :=
  match recvIndicatepktReorder r.ctrl f with
  | (.fail, c, _) => { r with ctrl := c, arrived := r.arrived + 1 }
  | (.handled, c, up) =>
    { r with ctrl := c, arrived := r.arrived + 1, accepted := r.accepted ++ [f], up := r.up ++ up }
  | (.success, c, _) =>
    { r with ctrl := c.direct f, arrived := r.arrived + 1, accepted := r.accepted ++ [f], up := r.up ++ [f] }

def timeout (r : BaRun) (cannotRun : Bool) : BaRun :=
  let (c, up) := rtwReorderingCtrlTimeoutHandler { r.ctrl with timer := false } cannotRun
  { r with ctrl := c, up := r.up ++ up }

def step (r : BaRun) : BaEvent → BaRun
  | .arrive f => r.arrive (stamp r.arrived f)
  | .timeout cannotRun => r.timeout cannotRun
  | .bar start => { r with ctrl := r.ctrl.processBar start }
  | .addba conf =>
    let p := processAddbaReq conf
    { r with
      ctrl := r.ctrl.addBaRspHdl p
      mark := r.arrived
      ampduSize := if p.accept then p.size else r.ampduSize
      announced := if p.accept then some p.size else r.announced }
  | .delba => { r with ctrl := r.ctrl.onDelba, mark := r.arrived, ampduSize := 0xFF }

end BaRun

end Rtl8192eu
