import Mathlib.Logic.Function.Basic
import Rtl8192eu.Recv.ReorderCtrl

/-!
# The adapter's state on the receive path

`struct security_priv`, `struct sta_info` and the part of `struct mlme_priv` that the receive
path of `core/rtw_recv.c` reads and writes.  The station table is keyed by address: one entry
holds all group addresses, as `rtw_get_stainfo` looks these up under the broadcast address.

* `Adapter.rtwGetStainfo`   the station of an address;
* `Adapter.setSta`   a write through the `sta_info` pointer;
* `getEncryAlgo`, `setIceIvLen`   the two macros of `rtw_security.h`.
-/

namespace Rtl8192eu

structure SecurityPriv where
  dot11AuthAlgrthm : AuthAlgrthm := .openSystem
  dot11PrivacyAlgrthm : SecurityType := .noPrivacy
  dot118021XGrpPrivacy : SecurityType := .noPrivacy
  busetkipkey : Bool := false
  /-- `iv_seq`, the group receive counter of each key id -/
  ivSeq : Fin 4 → BitVec 64 := fun _ => 0

structure StaInfo where
  /-- `WLAN_STA_AMSDU_DISABLE` and `WLAN_STA_MFP` of `flags` -/
  amsduDisable : Bool := false
  mfp : Bool := false
  dot118021XPrivacy : SecurityType := .noPrivacy
  ieee8021xBlocked : Bool := false
  tidRxseq : Fin 16 → Nat := fun _ => 0xffff
  nonqosRxseq : Nat := 0xffff
  bmcTidRxseq : Fin 16 → Nat := fun _ => 0xffff
  nonqosBmcRxseq : Nat := 0xffff
  iv : Fin 16 → BitVec 64 := fun _ => 0
  defragQ : List RecvFrame := []
  /-- number of pairwise keys installed so far -/
  keytrack : Nat := 0
  recvreorderCtrl : Fin 16 → RecvReorderCtrl := fun _ => .init 64 false

inductive FwMode where
  | station | ap | adhoc | adhocMaster | other
  deriving DecidableEq, Repr

structure Adapter where
  macAddr : Mac := []
  bssid : Mac := []
  mode : FwMode := .station
  /-- `WIFI_ASOC_STATE` and `WIFI_UNDER_LINKING` of `fw_state` -/
  asoc : Bool := false
  linking : Bool := false
  useWds : Bool := false
  /-- `rtw_rx_wds_gptr_check` -/
  wdsGptr : Mac → Bool := fun _ => false
  /-- `rtw_wds_nexthop_lookup` finds the address -/
  wdsNexthop : Mac → Bool := fun _ => false
  apIsolate : Bool := false
  /-- `amsdu_mode` is `RTW_AMSDU_MODE_NON_SPP` -/
  amsduNonSpp : Bool := true
  sec : SecurityPriv := {}
  stations : Mac → Option StaInfo := fun _ => none

/-! ## the station table -/

def bcAddr : Mac := [0xff, 0xff, 0xff, 0xff, 0xff, 0xff]

def zeroMac : Mac := [0, 0, 0, 0, 0, 0]

/-- the address a station is kept under -/
def staKey (addr : Mac) : Mac := if isMcast addr then bcAddr else addr

def Adapter.rtwGetStainfo (a : Adapter) (addr : Mac) : Option StaInfo := a.stations (staKey addr)

def Adapter.setSta (a : Adapter) (addr : Mac) (sta : StaInfo) : Adapter :=
  { a with stations := Function.update a.stations (staKey addr) (some sta) }

@[simp] theorem Adapter.rtwGetStainfo_setSta (a : Adapter) (addr : Mac) (sta : StaInfo) :
    (a.setSta addr sta).rtwGetStainfo addr = some sta :=
  Function.update_self ..

/-! ## ciphers -/

def getEncryAlgo (sec : SecurityPriv) (sta : StaInfo) (bmcst : Bool) : SecurityType :=
  match sec.dot11AuthAlgrthm with
  | .openSystem | .shared | .auto | .wapi => sec.dot11PrivacyAlgrthm
  | .ieee8021x => if bmcst then sec.dot118021XGrpPrivacy else sta.dot118021XPrivacy

/-- `SET_ICE_IV_LEN`: the lengths of the IV and of the ICV -/
def setIceIvLen : SecurityType → Nat × Nat
  | .wep40 | .wep104 => (4, 4)
  | .tkip => (8, 4)
  | .aes => (8, 8)
  | .gcmp | .gcmp256 | .ccmp256 => (8, 16)
  | .sms4 => (18, 16)
  | .noPrivacy | .tkipWtmic => (0, 0)

end Rtl8192eu
