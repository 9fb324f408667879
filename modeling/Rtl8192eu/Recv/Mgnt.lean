import Rtl8192eu.Recv.Defrag

/-!
# Management and control frames

`validate_mgmt_protect` and `validate_recv_ctrl_frame` of `core/rtw_recv.c`, as far as they decide
about the frame or move a reorder window.

* `validateMgmtProtect`   lets a frame through, drops it, or has it freed by `decryptor`;
* `validateRecvCtrlFrame`   a block ack request moves the window start of its TID.
-/

namespace Rtl8192eu

/-- what the receive path reads besides the adapter of `Adapter` -/
structure RxConf where
  /-- `WIFI_MONITOR_STATE` of `fw_state` -/
  monitor : Bool := false
  /-- `ndisauthtype` is `Ndis802_11AuthModeWPAPSK` -/
  wpapsk : Bool := false
  swDecrypt : Bool := false
  installBipKey : Bool := false
  /-- `bpairwise_key_installed` of the station of an address -/
  pairwiseKey : Mac → Bool := fun _ => false

/-- the answers of the code outside this model: the ciphers, the MICs and the allocator -/
structure RxOracle where
  dec : SwDecrypt
  micOk : Adapter → RecvFrame → Bool
  bipVerify : RecvFrame → Bool
  zmalloc : Bool

/-- a write through the pointer to one reorder control -/
def StaInfo.setCtrl (sta : StaInfo) (tid : Fin 16) (c : RecvReorderCtrl) : StaInfo :=
  { sta with recvreorderCtrl := Function.update sta.recvreorderCtrl tid c }

def getFrameSubType (f : RecvFrame) : Nat := le16 f 0 &&& 0xfc

def wifiDisassoc : Nat := 0xa0
def wifiDeauth : Nat := 0xc0
def wifiAction : Nat := 0xd0
def wifiBar : Nat := 0x84

def categoryIsGroupPrivacy (cat : Nat) : Bool := cat = 13 || cat = 14

def categoryIsRobust (cat : Nat) : Bool :=
  !(cat = 4 || cat = 7 || cat = 11 || cat = 15 || cat = 21 || cat = 0x7f)

/-- what `validate_mgmt_protect` leaves -/
inductive MgmtProtect where
  | pass (f : RecvFrame)
  | drop
  /-- `decryptor` failed and has freed the frame -/
  | freed

def mgmtUnprotected (o : RxOracle) (conf : RxConf) (sta : Option StaInfo) (f : RecvFrame) :
    MgmtProtect :=
  let subtype := getFrameSubType f
  let category := (f.byte wlanHdrA3Len).toNat
  let leave : Bool := subtype = wifiDeauth || subtype = wifiDisassoc
  if !(sta.map (·.mfp)).getD false then .pass f
  else if isMcast (getAddr1 f) then
    if subtype = wifiAction && categoryIsGroupPrivacy category then .drop
    else if subtype = wifiAction && categoryIsRobust category || leave then
      if o.bipVerify f then .pass f else .drop
    else .pass f
  else if leave then .drop
  else if subtype = wifiAction && categoryIsRobust category && conf.pairwiseKey (getAddr2 f) then .drop
  else .pass f

/-- the body of a decrypted management frame moves over its IV -/
def overwriteIv (f : RecvFrame) : RecvFrame :=
  let att := f.attrib
  let dataLen := f.len - att.hdrlen - att.ivLen - att.icvLen
  { f with data := f.data.take att.hdrlen ++ (f.data.drop (att.hdrlen + att.ivLen)).take dataLen
      ++ f.data.drop (att.hdrlen + dataLen) }

/-- the attributes that a protected management frame is decrypted with -/
def mgmtAttrib (sta : StaInfo) (f : RecvFrame) : RecvFrame :=
  { f with attrib := { f.attrib with
      bdecrypted := false
      encrypt := sta.dot118021XPrivacy
      hdrlen := wlanHdrA3Len
      ivLen := (setIceIvLen sta.dot118021XPrivacy).1
      icvLen := (setIceIvLen sta.dot118021XPrivacy).2
      ra := getAddr1 f
      ta := getAddr2 f } }

def validateMgmtProtect (o : RxOracle) (conf : RxConf) (a : Adapter) (f : RecvFrame) :
    MgmtProtect :=
  if !conf.installBipKey then .pass f
  else if !f.attrib.privacy then mgmtUnprotected o conf (a.rtwGetStainfo (getAddr2 f)) f
  else
    match a.rtwGetStainfo (getAddr2 f) with
    | none => .drop
    | some sta =>
      let f := mgmtAttrib sta f
      if !sta.mfp then .drop
      -- the length of a short frame wraps, and nothing of that size is allocated
      else if !o.zmalloc || f.len < f.attrib.hdrlen + f.attrib.ivLen + f.attrib.icvLen then .drop
      else
        match decryptor o.dec a f with
        | none => .freed
        | some f => .pass (overwriteIv f)

def rtwProcessBarFrame (a : Adapter) (f : RecvFrame) : Adapter :=
  match a.rtwGetStainfo (getAddr2 f) with
  | none => a
  | some sta =>
    let tid : Fin 16 := Fin.ofNat 16 (le16 f 16 / 4096)
    a.setSta (getAddr2 f)
      (sta.setCtrl tid { sta.recvreorderCtrl tid with indicateSeq := le16 f 18 / 16 })

/-- of the control frames only the block ack request has a part here -/
def validateRecvCtrlFrame (a : Adapter) (f : RecvFrame) : Adapter :=
  if getAddr1 f ≠ a.macAddr then a
  else if getFrameSubType f = wifiBar then rtwProcessBarFrame a f
  else a

section

variable {o : RxOracle} {f : RecvFrame}

theorem mgmtUnprotected_id {conf : RxConf} {sta : Option StaInfo} {g : RecvFrame}
    (h : mgmtUnprotected o conf sta f = .pass g) : g.id = f.id := by
  simp only [mgmtUnprotected] at h
  split_ifs at h <;> cases h <;> rfl

theorem validateMgmtProtect_id {conf : RxConf} {a : Adapter} {g : RecvFrame}
    (h : validateMgmtProtect o conf a f = .pass g) : g.id = f.id := by
  unfold validateMgmtProtect at h
  split at h
  · cases h
    rfl
  split at h
  · exact mgmtUnprotected_id h
  split at h
  · cases h
  dsimp only at h
  split at h
  · cases h
  split at h
  · cases h
  split at h
  · cases h
  · rename_i sta _ _ _ _ g' hg
    cases h
    have hid : g'.id = (mgmtAttrib sta f).id := decryptor_id hg
    exact hid

end

end Rtl8192eu
