import Mathlib.Data.Int.Order.Basic
import Mathlib.Data.List.Basic

/-!
# The transmit power of a rate

`phy_get_txpwr_target` and `hal_com_get_txpwr_idx` of `hal/hal_com_phycfg.c` in the 2.4 GHz band, with the
values of `init_hal_spec_8192e`; a power is a number of index steps, two to a dBm.

* `phyGetTxpwrLmt`, `phyGetTxpwrLmtSubChs`   the regulatory limit, over the bandwidths of the rate;
* `cfg80211RtwSetTxpower`   what the user configures, in mBm;
* `phyGetTxpwrTarget`, `halComGetTxpwrIdx`   the target, and the index that is written.

Neither `CONFIG_BT_COEXIST` nor `CONFIG_MP_INCLUDED` is defined, and the 8192E has no extra bias.
-/

namespace Rtl8192eu

/-! ## numbers -/

/-- a conversion to `s8` -/
def toS8 (x : Int) : Int := x.bmod 256

/-- a conversion to `s16` -/
def toS16 (x : Int) : Int := x.bmod 65536

/-- `hal_spec->txgi_max` of the 8192E; also the mark of no limit, and of no target -/
def txgiMax : Int := 63

/-- `hal_spec->txgi_pdbm` of the 8192E -/
def txgiPdbm : Int := 2

/-- `MBM_PDBM` -/
def mbmPdbm : Int := 100

/-- `UNSPECIFIED_MBM` -/
def unspecifiedMbm : Int := 32767

/-- `phy_txpwr_ww_lmt_value` -/
def wwLmtVal : Int := if txgiMax = 63 then -63 else -128

def mbOfNtx (ntx : Nat) : Int := [0, 301, 477, 602, 699, 778, 845, 903].getD (ntx - 1) 0

/-! ## what the power depends on -/

inductive ChannelWidth where
  | w20 | w40
  deriving DecidableEq, Repr

/-- `TXPWR_LMT_RS_..` -/
inductive LmtRs where
  | cck | ofdm | ht | vht
  deriving DecidableEq, Repr

/-- `enum MGN_RATE` -/
inductive MgnRate where
  | cck (i : Fin 4) | ofdm (i : Fin 8) | ht (i : Fin 32) | vht (i : Fin 40)
  deriving DecidableEq, Repr

/-- a limit of an entry, or the mark of WW -/
abbrev LmtVal := {v : Int // -63 ≤ v ∧ v ≤ 63}

/-- a value of the table by rate -/
abbrev TxgiVal := {v : Int // 0 ≤ v ∧ v ≤ 63}

structure TxpwrLmtEnt where
  regdName : String
  /-- by bandwidth, rate section, channel index and number of antennas -/
  lmt2g : ChannelWidth → LmtRs → Nat → Nat → LmtVal

/-- the fields of the registry, `hal_data` and `rf_ctl` that are read -/
structure TxpwrCfg where
  regEnableTxPowerLimit : Nat
  regEnableTxPowerByRate : Nat
  eepromRegulatory : Nat
  regdName : String
  txpwrLmtList : List TxpwrLmtEnt
  cch20 : Nat
  cch40 : Nat
  rateBmpHtByBw : ChannelWidth → Nat
  rateBmpVhtByBw : ChannelWidth → Nat
  /-- `TxPwrByRate[BAND_ON_2_4G]`, by path and rate -/
  txPwrByRate : Nat → MgnRate → TxgiVal
  /-- `target_txpwr_2g`, by path and rate section -/
  targetTxpwr2g : Nat → Nat → TxgiVal
  txpathNumNss : Nat → Nat
  /-- `tpc_mode` is `TPC_MODE_MANUAL` -/
  tpcManual : Bool

/-- the arguments of `phy_get_txpwr_target` -/
structure TxpwrArgs where
  rfpath : Nat
  rs : Nat
  rate : MgnRate
  ntxIdx : Nat
  bw : ChannelWidth
  cch : Nat
  opch : Nat

/-! ## the regulatory limit -/

namespace TxpwrCfg

/-- `RegEnableTxPowerLimit` is on, or leaves it to an efuse that says so -/
def lmtEnabled (c : TxpwrCfg) : Bool :=
  !((c.regEnableTxPowerLimit == 2 && c.eepromRegulatory != 1) || c.regEnableTxPowerLimit == 0)

/-- `_rtw_txpwr_lmt_get_by_name` -/
def lmtGetByName (c : TxpwrCfg) (name : String) : Option TxpwrLmtEnt :=
  c.txpwrLmtList.find? fun ent => ent.regdName == name

/-- the loop for a WW regulation or limit -/
def wwMinLmt (c : TxpwrCfg) (bw : ChannelWidth) (tlrs : LmtRs) (chIdx ntxIdx : Nat) : Int :=
  c.txpwrLmtList.foldl
    (fun lmt ent =>
      if (ent.lmt2g bw tlrs chIdx ntxIdx).val ≠ wwLmtVal then min lmt (ent.lmt2g bw tlrs chIdx ntxIdx).val
      else lmt)
    txgiMax

def phyGetTxpwrLmt (c : TxpwrCfg) (regdName : Option String) (bw : ChannelWidth) (tlrs : LmtRs)
    (ntxIdx cch : Nat) : Int :=
  let name := regdName.getD c.regdName
  -- `phy_GetChannelIndexOfTxPowerLimit` has no index for channel 0
  if !c.lmtEnabled || c.txpwrLmtList.length == 0 || name == "NONE" then txgiMax
  else if name = "WW" then if cch = 0 then txgiMax else c.wwMinLmt bw tlrs (cch - 1) ntxIdx
  else
    match c.lmtGetByName name with
    | none => txgiMax
    | some ent =>
      if cch = 0 then txgiMax
      else if (ent.lmt2g bw tlrs (cch - 1) ntxIdx).val ≠ wwLmtVal then
        (ent.lmt2g bw tlrs (cch - 1) ntxIdx).val
      else c.wwMinLmt bw tlrs (cch - 1) ntxIdx

end TxpwrCfg

/-- `rtw_get_scch_by_cch_opch`, at 40 MHz in the 2.4 GHz band -/
def rtwGetScchByCchOpch (cch opch : Nat) : Nat :=
  if opch = cch then 0
  else if 3 ≤ cch ∧ cch ≤ 11 then if cch < opch then cch + 2 else cch - 2
  else 0

def MgnRate.lmtRs : MgnRate → LmtRs
  | .cck _ => .cck
  | .ofdm _ => .ofdm
  | .ht _ => .ht
  | .vht _ => .vht

/-- the bandwidths up to `bw` -/
def ChannelWidth.upTo : ChannelWidth → List ChannelWidth
  | .w20 => [.w20]
  | .w40 => [.w20, .w40]

namespace TxpwrCfg

/-- `rtw_get_tx_bw_bmp_of_ht_rate` or `.._vht_rate`: the bandwidths with a rate that is not lower -/
def txBwBmp (rateBmpByBw : ChannelWidth → Nat) (i : Nat) (maxBw : ChannelWidth) : List ChannelWidth :=
  maxBw.upTo.filter fun bw => decide (1 <<< i ≤ rateBmpByBw bw)

/-- the bandwidths that the rate may be sent with, `bw_bmp` of `phy_get_txpwr_lmt_sub_chs` -/
def txBws (c : TxpwrCfg) (rate : MgnRate) (bw : ChannelWidth) : List ChannelWidth :=
  match rate with
  | .cck _ | .ofdm _ => [.w20]
  | .ht i => if txBwBmp c.rateBmpHtByBw i bw = [] then [bw] else txBwBmp c.rateBmpHtByBw i bw
  | .vht i => if txBwBmp c.rateBmpVhtByBw i bw = [] then [bw] else txBwBmp c.rateBmpVhtByBw i bw

/-- the center channel of a bandwidth; `opch` is 0 for the current channel -/
def lmtCch (c : TxpwrCfg) (bw : ChannelWidth) (cch opch : Nat) : ChannelWidth → Nat
  | .w20 =>
    if opch = 0 then c.cch20
    else if bw = .w40 ∧ cch ≠ 0 then rtwGetScchByCchOpch cch opch
    else if bw = .w20 then cch
    else 0
  | .w40 => if opch = 0 then c.cch40 else if bw = .w40 then cch else 0

def phyGetTxpwrLmtSubChs (c : TxpwrCfg) (regdName : Option String) (a : TxpwrArgs) : Int :=
  (a.bw.upTo.filter fun bw => decide (bw ∈ c.txBws a.rate a.bw)).foldl
    (fun minLmt bw =>
      let lmt := c.phyGetTxpwrLmt regdName bw a.rate.lmtRs a.ntxIdx (c.lmtCch a.bw a.cch a.opch bw)
      if minLmt ≥ lmt then lmt else minLmt)
    txgiMax

end TxpwrCfg

/-! ## what the user configures -/

/-- `txpwr_total_lmt_mbm` and `txpwr_total_target_mbm` of the wiphy -/
structure UserTxpwr where
  totalLmtMbm : Int := unspecifiedMbm
  totalTargetMbm : Int := unspecifiedMbm
  deriving DecidableEq, Repr

/-- `enum nl80211_tx_power_setting` -/
inductive TxPowerSetting where
  | automatic | limited | fixed | other
  deriving DecidableEq, Repr

/-- `phy_is_txpwr_user_mbm_valid`; the argument is an `s16` -/
def phyIsTxpwrUserMbmValid (mbm : Int) : Bool := !decide (txgiMax ≤ (toS16 mbm * txgiPdbm).tdiv mbmPdbm)

/-- the result says if the request was accepted; `wdev` is that of the request -/
def cfg80211RtwSetTxpower (wdev : Bool) (type : TxPowerSetting) (mbm : Int) (w : UserTxpwr) :
    Bool × UserTxpwr :=
  if wdev then (false, w)
  else
    match type with
    | .automatic => (true, ⟨unspecifiedMbm, unspecifiedMbm⟩)
    | .limited => if phyIsTxpwrUserMbmValid mbm then (true, ⟨toS16 mbm, unspecifiedMbm⟩) else (false, w)
    | .fixed => if phyIsTxpwrUserMbmValid mbm then (true, ⟨unspecifiedMbm, toS16 mbm⟩) else (false, w)
    | .other => (false, w)

/-- the steps of a total power for one antenna -/
def singleIdx (totalMbm : Int) (ntxIdx : Nat) : Int :=
  ((totalMbm - mbOfNtx (ntxIdx + 1)) * txgiPdbm).tdiv mbmPdbm

def phyGetTxpwrUserTarget (w : UserTxpwr) (ntxIdx : Nat) : Int :=
  if w.totalTargetMbm ≠ unspecifiedMbm then toS8 (singleIdx w.totalTargetMbm ntxIdx) else txgiMax

def phyGetTxpwrUserLmt (w : UserTxpwr) (ntxIdx : Nat) : Int :=
  if w.totalLmtMbm ≠ unspecifiedMbm then toS8 (singleIdx w.totalLmtMbm ntxIdx) else txgiMax

/-! ## the target -/

namespace TxpwrCfg

/-- the steps of the TPC constraint, a `u16` -/
def tpcCnst (c : TxpwrCfg) (constraint : BitVec 16) : Int :=
  if c.tpcManual then (constraint.toNat * txgiPdbm).tdiv mbmPdbm else 0

def phyGetTxpwrTpc (c : TxpwrCfg) (constraint : BitVec 16) : Int := toS8 (-c.tpcCnst constraint)

/-- `PHY_GetTxPowerByRate`, without the mark of no value -/
def byRate (c : TxpwrCfg) (a : TxpwrArgs) : Int :=
  let needed := c.regEnableTxPowerByRate == 1 || (c.regEnableTxPowerByRate == 2 && c.eepromRegulatory != 2)
  let value := if needed then (c.txPwrByRate a.rfpath a.rate).val else (c.targetTxpwr2g a.rfpath a.rs).val
  if value = txgiMax then 0 else value

/-- the target before the TPC constraint -/
def limitedTarget (c : TxpwrCfg) (w : UserTxpwr) (a : TxpwrArgs) : Int :=
  let utgt := phyGetTxpwrUserTarget w a.ntxIdx
  let lmt := c.phyGetTxpwrLmtSubChs none a
  let ulmt := phyGetTxpwrUserLmt w a.ntxIdx
  let target := if utgt ≠ txgiMax then utgt else toS8 (c.byRate a)
  let target := if target > lmt then lmt else target
  if target > ulmt then ulmt else target

def phyGetTxpwrTarget (c : TxpwrCfg) (w : UserTxpwr) (constraint : BitVec 16) (a : TxpwrArgs) : Int :=
  toS8 (c.limitedTarget w a + c.phyGetTxpwrTpc constraint)

end TxpwrCfg

/-! ## the index -/

/-- what `hal_com_get_txpwr_idx` adds to the target, as the calls return it -/
structure TxpwrBase where
  /-- `txpwr_pg_mode` is `TXPWR_PG_WITH_PWR_IDX` -/
  pgWithPwrIdx : Bool
  /-- `phy_get_pg_txpwr_idx` -/
  pgTxpwrIdx : BitVec 8
  /-- `PHY_GetTxPowerTrackingOffset` -/
  trackingOffset : BitVec 8

/-- the streams of a rate, from 0 -/
def MgnRate.nss : MgnRate → Nat
  | .cck _ | .ofdm _ => 0
  | .ht i => i / 8
  | .vht i => i / 10

def TxpwrCfg.phyGetCurrentTxNum (c : TxpwrCfg) (rate : MgnRate) : Nat := c.txpathNumNss rate.nss - 1

/-- the number of antennas is that of the rate -/
def halComGetTxpwrIdx (c : TxpwrCfg) (w : UserTxpwr) (constraint : BitVec 16) (a : TxpwrArgs)
    (b : TxpwrBase) : Int :=
  let rateTarget := c.phyGetTxpwrTarget w constraint { a with ntxIdx := c.phyGetCurrentTxNum a.rate }
  let rsTarget := (c.targetTxpwr2g a.rfpath a.rs).val
  let powerIdx :=
    if b.pgWithPwrIdx then toS16 (b.pgTxpwrIdx.toInt + (rateTarget - rsTarget) + b.trackingOffset.toInt) else 0
  if powerIdx < 0 then 0 else if powerIdx > txgiMax then txgiMax else powerIdx

end Rtl8192eu
