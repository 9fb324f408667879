import Rtl8192eu.Recv.Defrag

/-!
# From a received frame to the network stack

`recv_process_mpdu` of `core/rtw_recv.c` with `amsdu_to_msdu`, `wlanhdr_to_ethhdr` and
`rtw_recv_llc_parse`, and what 802.1X port control (`portctrl`) says about the result.

* `rtwRecvLlcParse`   whether the LLC/SNAP header of a body is removed;
* `amsduSubframes`   the walk over the subframes of an A-MSDU;
* `recvProcessMpdu`   the MSDUs handed to the network stack;
* `EapolBody`   the bodies whose LLC headers agree with what port control tested.
-/

namespace Rtl8192eu

def ethHlen : Nat := 14
def snapSize : Nat := 6
def maxSubframeCount : Nat := 64
def rtwRfc1042Header : List UInt8 := [0xaa, 0xaa, 0x03, 0x00, 0x00, 0x00]
def rtwBridgeTunnelHeader : List UInt8 := [0xaa, 0xaa, 0x03, 0x00, 0x00, 0xf8]
def ethPAarp : Nat := 0x80F3
def ethPIpx : Nat := 0x8137

structure Msdu where
  da : Mac
  sa : Mac
  ethType : Nat
  payload : List UInt8
  deriving DecidableEq, Repr

/-- the part of the environment that decides what becomes of a frame -/
structure RxEnv where
  cannotRun : Bool := false
  /-- `rtw_os_alloc_msdu_pkt` finds a buffer for the subframe at this offset -/
  alloc : Nat → Bool := fun _ => true
  /-- a frame from the second address to the first is forwarded -/
  fwd : Mac → Mac → Bool := fun _ _ => false

/-! ## LLC -/

inductive LlcHdl where
  | keep | remove
  deriving DecidableEq, Repr

/-- the MSDU starts at offset `off` -/
def rtwRecvLlcParse (f : RecvFrame) (off msduLen : Nat) : LlcHdl :=
  if msduLen < 8 then .keep
  else
    let ethType := be16 f (off + snapSize)
    if (f.bytes off snapSize = rtwRfc1042Header ∧ ethType ≠ ethPAarp ∧ ethType ≠ ethPIpx)
        ∨ f.bytes off snapSize = rtwBridgeTunnelHeader then .remove
    else .keep

/-! ## what is done with an MSDU -/

structure MsduAct where
  indicate : Bool
  forward : Bool
  deriving DecidableEq, Repr

def rtwApRxMsduActCheck (env : RxEnv) (a : Adapter) (da sa : Mac) : MsduAct :=
  if sa = a.macAddr then ⟨false, false⟩
  else if isMcast da then ⟨true, !a.apIsolate && env.fwd da sa⟩
  else if da = a.macAddr then ⟨true, false⟩
  else if (a.useWds && a.wdsNexthop da) || (a.rtwGetStainfo da).isSome then
    ⟨false, !a.apIsolate && env.fwd da sa⟩
  else ⟨true, false⟩

def rtwStaRxAmsduActCheck (a : Adapter) (da sa : Mac) : MsduAct :=
  ⟨!(a.useWds && isMcast da && a.wdsGptr sa), false⟩

def amsduActCheck (env : RxEnv) (a : Adapter) (da sa : Mac) : MsduAct :=
  match a.mode with
  | .ap => rtwApRxMsduActCheck env a da sa
  | .station => rtwStaRxAmsduActCheck a da sa
  | _ => ⟨true, false⟩

/-! ## A-MSDU -/

def validateAmsduContent (a : Adapter) (att : RxPktAttrib) (da sa : Mac) : Bool :=
  if a.amsduNonSpp && a.sec.dot11PrivacyAlgrthm != .noPrivacy then
    !(att.toFrDs = 1 && da ≠ att.ra) && !(att.toFrDs = 2 && sa ≠ att.ta)
      && !(da = rtwRfc1042Header)
  else true

/-- a subframe: where its MSDU starts, how long it is, and its addresses -/
structure Subframe where
  off : Nat
  len : Nat
  da : Mac
  sa : Mac
  deriving DecidableEq, Repr

def paddingLen (subLen : Nat) : Nat := (4 - (subLen + ethHlen) % 4) % 4

/-- the `while` loop of `amsdu_to_msdu`: the subframes that are indicated.  `aLen` bytes are left
at offset `off`, `nr` subframes were taken.  A turn takes at least `ETH_HLEN` bytes, so `aLen`
turns are enough. -/
def amsduLoop (env : RxEnv) (a : Adapter) (f : RecvFrame) :
    Nat → Nat → Nat → Nat → List Subframe
  | 0, _, _, _ => []
  | n + 1, off, aLen, nr =>
    if aLen ≤ ethHlen then []
    else
      let subLen := be16 f (off + 12)
      if aLen < ethHlen + subLen then []
      else
        let da := f.bytes off ethAlen
        let sa := f.bytes (off + ethAlen) ethAlen
        if !validateAmsduContent a f.attrib da sa then []
        else
          let act := amsduActCheck env a da sa
          if (act.indicate || act.forward) && !env.alloc off then []
          else
            let out : List Subframe :=
              if act.indicate then [⟨off + ethHlen, subLen, da, sa⟩] else []
            let nr := nr + out.length
            if maxSubframeCount ≤ nr then out
            else
              let aLen := aLen - ethHlen - subLen
              if aLen = 0 then out
              else if aLen < paddingLen subLen then out
              else
                out ++ amsduLoop env a f n (off + ethHlen + subLen + paddingLen subLen)
                  (aLen - paddingLen subLen) nr

/-- header, IV and ICV are pulled; the results are not tested -/
def amsduStrip (f : RecvFrame) : RecvFrame :=
  let f := (recvframePull f f.attrib.hdrlen).getD f
  let f := if 0 < f.attrib.ivLen then (recvframePull f f.attrib.ivLen).getD f else f
  if f.attrib.encrypt ≠ .noPrivacy then (recvframePullTail f f.attrib.icvLen).getD f else f

def amsduSubframes (env : RxEnv) (a : Adapter) (f : RecvFrame) : List Subframe :=
  amsduLoop env a (amsduStrip f) (amsduStrip f).len 0 (amsduStrip f).len 0

def rtwOsAllocMsduPkt (f : RecvFrame) (s : Subframe) : Msdu :=
  match rtwRecvLlcParse f s.off s.len with
  | .remove => ⟨s.da, s.sa, be16 f (s.off + snapSize), f.bytes (s.off + snapSize + 2) (s.len - snapSize - 2)⟩
  | .keep => ⟨s.da, s.sa, s.len, f.bytes s.off s.len⟩

def amsduToMsdu (env : RxEnv) (a : Adapter) (f : RecvFrame) : List Msdu :=
  (amsduSubframes env a f).map (rtwOsAllocMsduPkt (amsduStrip f))

/-! ## one MSDU -/

/-- the ICV of an encrypted frame is pulled; the result is not tested -/
def pullIcv (f : RecvFrame) : RecvFrame :=
  if f.attrib.encrypt ≠ .noPrivacy then (recvframePullTail f f.attrib.icvLen).getD f else f

def msduLen (f : RecvFrame) : Nat :=
  (((f.len : Int) - f.attrib.hdrlen - f.attrib.ivLen
    - (if f.attrib.encrypt ≠ .noPrivacy then f.attrib.icvLen else 0)) % 65536).toNat

/-- `u16 len` of `wlanhdr_to_ethhdr`, when the LLC header is kept -/
def keptLen (f : RecvFrame) : Nat :=
  ((((pullIcv f).len : Int) - f.attrib.hdrlen - f.attrib.ivLen) % 65536).toNat

/-- the bytes pulled in front of the Ethernet header -/
def ethPullLen (f : RecvFrame) : LlcHdl → Nat
  | .keep => f.attrib.hdrlen + f.attrib.ivLen - ethHlen
  | .remove => f.attrib.hdrlen + f.attrib.ivLen + snapSize - ethHlen + 2

def wlanhdrToEthhdr (f : RecvFrame) (llc : LlcHdl) : Option Msdu :=
  let off := f.attrib.hdrlen + f.attrib.ivLen
  (recvframePull (pullIcv f) (ethPullLen f llc)).map fun _ =>
    match llc with
    | .keep => ⟨f.attrib.dst, f.attrib.src, keptLen f, (pullIcv f).data.drop off⟩
    | .remove => ⟨f.attrib.dst, f.attrib.src, be16 f (off + snapSize), (pullIcv f).data.drop (off + snapSize + 2)⟩

def mpduActCheck (env : RxEnv) (a : Adapter) (f : RecvFrame) : MsduAct :=
  if a.mode = .ap then rtwApRxMsduActCheck env a f.attrib.dst f.attrib.src else ⟨true, false⟩

def recvProcessMpdu (env : RxEnv) (a : Adapter) (f : RecvFrame) : List Msdu :=
  if f.attrib.amsdu then amsduToMsdu env a f
  else
    let llc := rtwRecvLlcParse f (f.attrib.hdrlen + f.attrib.ivLen) (msduLen f)
    let act := mpduActCheck env a f
    if act = ⟨false, false⟩ then []
    else
      match wlanhdrToEthhdr f llc with
      | none => []
      | some m => if act.indicate && !env.cannotRun then [m] else []

theorem pullIcv_data {f : RecvFrame} {xs icv : List UInt8} (h : f.data = xs ++ icv)
    (hi : icv.length = if f.attrib.encrypt ≠ .noPrivacy then f.attrib.icvLen else 0) :
    (pullIcv f).data = xs := by
  have hl : f.len = xs.length + icv.length := by
    rw [RecvFrame.len, h, List.length_append]
  unfold pullIcv
  split
  · rename_i he
    rw [if_pos he] at hi
    have hn : f.len - f.attrib.icvLen = xs.length := by omega
    rw [recvframePullTail, if_neg (by omega), Option.getD_some]
    show f.data.take _ = _
    rw [hn, h, List.take_left' rfl]
  · rename_i he
    rw [if_neg he, List.length_eq_zero_iff] at hi
    rw [h, hi, List.append_nil]

theorem amsduLoop_nil {env : RxEnv} {a : Adapter} {f : RecvFrame} {n off aLen nr : Nat} (h : aLen ≤ ethHlen) :
    amsduLoop env a f n off aLen nr = [] := by
  cases n with
  | zero => rfl
  | succ n => exact if_pos h

/-- a turn takes at least `ETH_HLEN` bytes: more turns than bytes change nothing -/
theorem amsduLoop_fuel (env : RxEnv) (a : Adapter) (f : RecvFrame) {n m off aLen nr : Nat}
    (hn : aLen ≤ n) (hm : aLen ≤ m) :
    amsduLoop env a f n off aLen nr = amsduLoop env a f m off aLen nr := by
  induction n generalizing m off aLen nr with
  | zero =>
    have h := hn.trans (Nat.zero_le ethHlen)
    rw [amsduLoop_nil h, amsduLoop_nil h]
  | succ n ih =>
    by_cases h : aLen ≤ ethHlen
    · rw [amsduLoop_nil h, amsduLoop_nil h]
    · have hpos : 0 < ethHlen := by decide
      obtain ⟨m, rfl⟩ := Nat.exists_eq_succ_of_ne_zero (by omega : m ≠ 0)
      simp only [amsduLoop]
      rw [ih (m := m) (by omega) (by omega)]

/-! ## port control -/

/-- what `portctrl` tests when it lets a frame of a blocked station pass -/
theorem portctrl_blocked {a : Adapter} {f g : RecvFrame} {sta : StaInfo}
    (hauth : a.sec.dot11AuthAlgrthm = .ieee8021x) (hsta : a.rtwGetStainfo f.attrib.ta = some sta)
    (hblk : sta.ieee8021xBlocked = true) (h : portctrl a f = some g) :
    g = f ∧ be16 f (f.attrib.hdrlen + f.attrib.ivLen + llcHeaderSize) = eapolType := by
  unfold portctrl at h
  simp only [hauth, hsta, hblk, ↓reduceIte] at h
  split at h
  · rename_i he
    exact ⟨(Option.some.inj h).symm, he⟩
  · cases h

/-- the EtherType of a subframe is EAPOL -/
def SnapEapol (f : RecvFrame) (s : Subframe) : Prop :=
  match rtwRecvLlcParse f s.off s.len with
  | .remove => be16 f (s.off + snapSize) = eapolType
  | .keep => s.len = eapolType

instance (f : RecvFrame) (s : Subframe) : Decidable (SnapEapol f s) :=
  match h : rtwRecvLlcParse f s.off s.len with
  | .remove => decidable_of_iff (be16 f (s.off + snapSize) = eapolType) (by rw [SnapEapol, h])
  | .keep => decidable_of_iff (s.len = eapolType) (by rw [SnapEapol, h])

/-- the subframe whose header is at `off` -/
def subframeAt (f : RecvFrame) (off : Nat) : Subframe :=
  ⟨off + ethHlen, be16 f (off + 12), f.bytes off ethAlen, f.bytes (off + ethAlen) ethAlen⟩

/-- where the next header is, by the length field of this one -/
def nextSubframe (f : RecvFrame) (off : Nat) : Nat :=
  off + ethHlen + be16 f (off + 12) + paddingLen (be16 f (off + 12))

def subframeAct (env : RxEnv) (a : Adapter) (f : RecvFrame) (off : Nat) : MsduAct :=
  amsduActCheck env a (subframeAt f off).da (subframeAt f off).sa

/-- the subframe lies in the bytes, its addresses are admitted, and it finds a buffer or needs none -/
def subframePasses (env : RxEnv) (a : Adapter) (f : RecvFrame) (off : Nat) : Bool :=
  let act := subframeAct env a f off
  decide (off + ethHlen < f.len) && decide (off + ethHlen + be16 f (off + 12) ≤ f.len)
    && validateAmsduContent a f.attrib (subframeAt f off).da (subframeAt f off).sa
    && !((act.indicate || act.forward) && !env.alloc off)

/-- the `k`-th subframe from `off` on is for this host: it and those before it pass, and with the `nr`
before `off` there is room for it -/
def SubframeHere (env : RxEnv) (a : Adapter) (f : RecvFrame) (off nr k : Nat) : Prop :=
  (∀ j ≤ k, subframePasses env a f ((nextSubframe f)^[j] off) = true)
    ∧ nr + (List.range k).countP (fun j => (subframeAct env a f ((nextSubframe f)^[j] off)).indicate)
      < maxSubframeCount
    ∧ (subframeAct env a f ((nextSubframe f)^[k] off)).indicate = true

instance (env : RxEnv) (a : Adapter) (f : RecvFrame) (off nr k : Nat) :
    Decidable (SubframeHere env a f off nr k) := inferInstanceAs (Decidable (_ ∧ _))

/-- each subframe for this host is EAPOL; a header takes `ETH_HLEN` bytes -/
def EapolSubframes (env : RxEnv) (a : Adapter) (f : RecvFrame) : Prop :=
  ∀ k < f.len, SubframeHere env a f 0 0 k → SnapEapol f (subframeAt f ((nextSubframe f)^[k] 0))

instance (env : RxEnv) (a : Adapter) (f : RecvFrame) : Decidable (EapolSubframes env a f) :=
  inferInstanceAs (Decidable (∀ k < f.len, _ → _))

/-- a frame that is no A-MSDU goes to the network stack -/
def mpduDelivered (env : RxEnv) (a : Adapter) (f : RecvFrame) : Bool :=
  (mpduActCheck env a f).indicate && !env.cannotRun
    && ethPullLen f (rtwRecvLlcParse f (f.attrib.hdrlen + f.attrib.ivLen) (msduLen f)) ≤ (pullIcv f).len

/-- the LLC headers say EAPOL: of a frame that is no A-MSDU a SNAP header is removed (or what is
put in the place of the EtherType, the length, is `0x888e`), or it does not reach the network
stack; the body of an A-MSDU, cut by its length fields, has only EAPOL subframes for this host -/
def EapolBody (env : RxEnv) (a : Adapter) (f : RecvFrame) : Prop :=
  if f.attrib.amsdu then EapolSubframes env a (amsduStrip f)
  else mpduDelivered env a f = true →
    rtwRecvLlcParse f (f.attrib.hdrlen + f.attrib.ivLen) (msduLen f) = .remove ∨ keptLen f = eapolType

instance (env : RxEnv) (a : Adapter) (f : RecvFrame) : Decidable (EapolBody env a f) :=
  inferInstanceAs (Decidable (ite _ _ _))

theorem rtwOsAllocMsduPkt_ethType (f : RecvFrame) (s : Subframe) :
    (rtwOsAllocMsduPkt f s).ethType = eapolType ↔ SnapEapol f s := by
  unfold rtwOsAllocMsduPkt SnapEapol
  cases rtwRecvLlcParse f s.off s.len <;> exact Iff.rfl

/-! ### the loop and the bytes -/

section
variable {env : RxEnv} {a : Adapter} {f : RecvFrame} {off nr k n : Nat}

theorem subframePasses_iff : subframePasses env a f off = true ↔
    off + ethHlen < f.len ∧ off + ethHlen + be16 f (off + 12) ≤ f.len
      ∧ validateAmsduContent a f.attrib (subframeAt f off).da (subframeAt f off).sa = true
      ∧ (((subframeAct env a f off).indicate || (subframeAct env a f off).forward) && !env.alloc off) = false := by
  unfold subframePasses
  rw [Bool.and_eq_true, Bool.and_eq_true, Bool.and_eq_true, decide_eq_true_iff, decide_eq_true_iff, Bool.not_eq_true',
    and_assoc, and_assoc]

/-- a turn that does not break off: the subframe at `off`, and the loop from the next header on -/
theorem amsduLoop_passes {here : List Subframe} (h : subframePasses env a f off = true)
    (hhere : (if (subframeAct env a f off).indicate then [subframeAt f off] else []) = here) :
    amsduLoop env a f (n + 1) off (f.len - off) nr =
      here ++ if nr + here.length < maxSubframeCount then
        amsduLoop env a f n (nextSubframe f off) (f.len - nextSubframe f off) (nr + here.length) else [] := by
  have heth : ethHlen = 14 := rfl
  obtain ⟨hhdr, hbody, hcon, halloc⟩ := subframePasses_iff.mp h
  have hout : (if (amsduActCheck env a (f.bytes off ethAlen) (f.bytes (off + ethAlen) ethAlen)).indicate = true
      then [(⟨off + ethHlen, be16 f (off + 12), f.bytes off ethAlen, f.bytes (off + ethAlen) ethAlen⟩ : Subframe)]
      else []) = here := hhere
  rw [amsduLoop, if_neg (by omega)]
  dsimp only
  rw [if_neg (by omega), if_neg (by rw [Bool.not_eq_true', Bool.eq_false_iff]; exact not_not.mpr hcon), hout]
  refine (if_neg (Bool.eq_false_iff.mp halloc)).trans ?_
  by_cases hmax : maxSubframeCount ≤ nr + here.length
  · rw [if_pos hmax, if_neg (Nat.not_lt.mpr hmax), List.append_nil]
  rw [if_neg hmax, if_pos (Nat.lt_of_not_le hmax)]
  have hnext : nextSubframe f off = off + ethHlen + be16 f (off + 12) + paddingLen (be16 f (off + 12)) := rfl
  -- the loop ends with the body, or in its padding
  have hrest : f.len - nextSubframe f off ≤ ethHlen →
      here = here ++ amsduLoop env a f n (nextSubframe f off) (f.len - nextSubframe f off) (nr + here.length) :=
    fun hle => by rw [amsduLoop_nil hle, List.append_nil]
  split
  · exact hrest (by omega)
  split
  · exact hrest (by omega)
  · rw [hnext]
    congr 2
    omega

theorem amsduLoop_stops (h : subframePasses env a f off ≠ true) :
    amsduLoop env a f (n + 1) off (f.len - off) nr = [] := by
  have heth : ethHlen = 14 := rfl
  rw [amsduLoop]
  dsimp only
  split
  · rfl
  split
  · rfl
  split
  · rfl
  rename_i hcon
  rw [Bool.not_eq_true', Bool.not_eq_false] at hcon
  refine if_pos ?_
  by_contra hgo
  exact h (subframePasses_iff.mpr ⟨by omega, by omega, hcon, Bool.eq_false_iff.mpr hgo⟩)

theorem subframeHere_succ : SubframeHere env a f off nr (k + 1) ↔ subframePasses env a f off = true ∧
    SubframeHere env a f (nextSubframe f off) (nr + if (subframeAct env a f off).indicate then 1 else 0) k := by
  unfold SubframeHere
  have hcount : (List.range (k + 1)).countP (fun j => (subframeAct env a f ((nextSubframe f)^[j] off)).indicate)
      = (List.range k).countP (fun j => (subframeAct env a f ((nextSubframe f)^[j] (nextSubframe f off))).indicate)
        + if (subframeAct env a f off).indicate then 1 else 0 := by
    rw [List.range_succ_eq_map, List.countP_cons, List.countP_map]
    rfl
  have hpass : (∀ j ≤ k + 1, subframePasses env a f ((nextSubframe f)^[j] off) = true) ↔
      subframePasses env a f off = true
        ∧ ∀ j ≤ k, subframePasses env a f ((nextSubframe f)^[j] (nextSubframe f off)) = true := by
    constructor
    · intro h
      exact ⟨h 0 (Nat.zero_le _), fun j hj => h (j + 1) (Nat.succ_le_succ hj)⟩
    · rintro ⟨h0, h⟩ (_ | j) hj
      · exact h0
      · exact h j (Nat.le_of_succ_le_succ hj)
  rw [hcount, hpass, Nat.add_assoc, Nat.add_comm (List.countP _ _), Function.iterate_succ_apply, and_assoc]

theorem SubframeHere.passes (h : SubframeHere env a f off nr k) : subframePasses env a f off = true :=
  h.1 0 (Nat.zero_le k)

/-- the loop takes the subframes of the bytes that are for this host -/
theorem mem_amsduLoop_iff {s : Subframe} (hn : f.len - off ≤ n) (hnr : nr < maxSubframeCount) :
    s ∈ amsduLoop env a f n off (f.len - off) nr
      ↔ ∃ k, SubframeHere env a f off nr k ∧ s = subframeAt f ((nextSubframe f)^[k] off) := by
  induction n generalizing off nr with
  | zero =>
    constructor
    · intro h
      cases h
    · rintro ⟨k, h, -⟩
      have hhdr := (subframePasses_iff.mp h.passes).1
      omega
  | succ n ih =>
    rw [← Nat.or_exists_add_one]
    by_cases hp : subframePasses env a f off = true
    · rw [amsduLoop_passes hp rfl, List.mem_append]
      refine or_congr ?_ ?_
      · unfold SubframeHere
        cases hi : (subframeAct env a f off).indicate with
        | false => simp [hi]
        | true => simp [hi, hp, hnr]
      · have hlen : (if (subframeAct env a f off).indicate then [subframeAt f off] else []).length
            = if (subframeAct env a f off).indicate then 1 else 0 := by
          split <;> rfl
        simp only [subframeHere_succ, hp, true_and, Function.iterate_succ_apply, hlen]
        by_cases hroom : nr + (if (subframeAct env a f off).indicate then 1 else 0) < maxSubframeCount
        · rw [if_pos hroom]
          have hpos : off + ethHlen ≤ nextSubframe f off := Nat.le_add_right_of_le (Nat.le_add_right _ _)
          have heth : ethHlen = 14 := rfl
          exact ih (by omega) hroom
        · rw [if_neg hroom]
          constructor
          · intro h
            cases h
          · rintro ⟨k, ⟨-, hlt, -⟩, -⟩
            exact absurd (Nat.lt_of_le_of_lt (Nat.le_add_right _ _) hlt) hroom
    · rw [amsduLoop_stops hp]
      constructor
      · intro h
        cases h
      · rintro (⟨h, -⟩ | ⟨k, h, -⟩)
        · exact absurd h.passes hp
        · exact absurd h.passes hp

theorem SubframeHere.lt (h : SubframeHere env a f 0 0 k) : k < f.len := by
  have hle : ∀ k, k ≤ (nextSubframe f)^[k] 0 := by
    intro k
    induction k with
    | zero => exact Nat.zero_le _
    | succ k ih =>
      rw [Function.iterate_succ_apply']
      show k + 1 ≤ (nextSubframe f)^[k] 0 + 14 + _ + _
      omega
  have hhdr := (subframePasses_iff.mp (h.1 k le_rfl)).1
  exact Nat.lt_of_le_of_lt (Nat.le_add_right_of_le (hle k)) hhdr

/-- the subframes that are handed up, by the bytes -/
theorem amsduSubframes_eapol_iff :
    (∀ s ∈ amsduSubframes env a f, SnapEapol (amsduStrip f) s) ↔ EapolSubframes env a (amsduStrip f) := by
  have hmem : ∀ s, s ∈ amsduSubframes env a f ↔ ∃ k, SubframeHere env a (amsduStrip f) 0 0 k
      ∧ s = subframeAt (amsduStrip f) ((nextSubframe (amsduStrip f))^[k] 0) :=
    fun s => mem_amsduLoop_iff (Nat.sub_le _ _) (by decide)
  simp only [hmem]
  constructor
  · intro h k _ hk
    exact h _ ⟨k, hk, rfl⟩
  · rintro h s ⟨k, hk, rfl⟩
    exact h k hk.lt hk

end

theorem recvProcessMpdu_mem {env : RxEnv} {a : Adapter} {f : RecvFrame}
    (hm : f.attrib.amsdu = false) (m : Msdu) :
    m ∈ recvProcessMpdu env a f ↔ mpduDelivered env a f = true
      ∧ wlanhdrToEthhdr f (rtwRecvLlcParse f (f.attrib.hdrlen + f.attrib.ivLen) (msduLen f)) = some m := by
  generalize hl : rtwRecvLlcParse f (f.attrib.hdrlen + f.attrib.ivLen) (msduLen f) = llc
  have hd : mpduDelivered env a f = ((mpduActCheck env a f).indicate && !env.cannotRun
      && decide (ethPullLen f llc ≤ (pullIcv f).len)) := by
    unfold mpduDelivered
    rw [hl]
  have hw : wlanhdrToEthhdr f llc ≠ none ↔ ethPullLen f llc ≤ (pullIcv f).len := by
    simp [wlanhdrToEthhdr, recvframePull]
  simp only [recvProcessMpdu, hm, hl, Bool.false_eq_true, ↓reduceIte, hd]
  cases hw' : wlanhdrToEthhdr f llc with
  | none =>
    split <;> simp
  | some m' =>
    rw [decide_eq_true (hw.mp (by rw [hw']; exact Option.some_ne_none m')), Bool.and_true]
    split
    · rename_i ha
      simp [ha]
    · cases hi : ((mpduActCheck env a f).indicate && !env.cannotRun) <;> simp [eq_comm]

theorem wlanhdrToEthhdr_ethType {f : RecvFrame} {llc : LlcHdl} {m : Msdu}
    (hchk : be16 f (f.attrib.hdrlen + f.attrib.ivLen + snapSize) = eapolType)
    (h : wlanhdrToEthhdr f llc = some m) :
    m.ethType = eapolType ↔ llc = .remove ∨ keptLen f = eapolType := by
  obtain ⟨g, -, rfl⟩ := Option.map_eq_some_iff.mp h
  cases llc with
  | remove => exact ⟨fun _ => Or.inl rfl, fun _ => hchk⟩
  | keep => exact ⟨Or.inr, fun h => h.resolve_left (by decide)⟩

/-- the two bytes that were tested are the EtherType exactly for an EAPOL body -/
theorem recvProcessMpdu_eapol_iff {env : RxEnv} {a : Adapter} {f : RecvFrame}
    (hchk : be16 f (f.attrib.hdrlen + f.attrib.ivLen + snapSize) = eapolType) :
    (∀ m ∈ recvProcessMpdu env a f, m.ethType = eapolType) ↔ EapolBody env a f := by
  unfold EapolBody
  cases hm : f.attrib.amsdu with
  | true =>
    simp only [recvProcessMpdu, hm, ↓reduceIte, amsduToMsdu, List.forall_mem_map,
      rtwOsAllocMsduPkt_ethType]
    exact amsduSubframes_eapol_iff
  | false =>
    simp only [recvProcessMpdu_mem hm, Bool.false_eq_true, ↓reduceIte]
    constructor
    · intro h hd
      obtain ⟨m, hw⟩ : ∃ m, wlanhdrToEthhdr f
          (rtwRecvLlcParse f (f.attrib.hdrlen + f.attrib.ivLen) (msduLen f)) = some m := by
        simp only [mpduDelivered, Bool.and_eq_true, decide_eq_true_eq] at hd
        simp [wlanhdrToEthhdr, recvframePull, hd.2]
      exact (wlanhdrToEthhdr_ethType hchk hw).mp (h m ⟨hd, hw⟩)
    · rintro h m ⟨hd, hw⟩
      exact (wlanhdrToEthhdr_ethType hchk hw).mpr (h hd)

/-- a received data frame up to port control -/
def portAccepted (dec : SwDecrypt) (a : Adapter) (f : RecvFrame) : Option (Adapter × RecvFrame) :=
  match acceptFrame dec a f with
  | (_, none) => none
  | (a', some g) => (portctrl a' g).map fun h => (a', h)

/-- **Port control of a blocked station**: the MSDUs that reach the network stack are all EAPOL
if and only if the LLC headers of the accepted frame say so. -/
theorem portctrl_eapol_iff (dec : SwDecrypt) (env : RxEnv) (a a' : Adapter) (f g : RecvFrame)
    (sta : StaInfo) (hauth : a.sec.dot11AuthAlgrthm = .ieee8021x)
    (hsta : a.rtwGetStainfo (getAddr2 f) = some sta) (hblk : sta.ieee8021xBlocked = true)
    (hacc : portAccepted dec a f = some (a', g)) :
    (∀ m ∈ recvProcessMpdu env a' g, m.ethType = eapolType) ↔ EapolBody env a' g := by
  unfold portAccepted at hacc
  split at hacc
  · cases hacc
  · rename_i a₁ g₁ hf
    obtain ⟨h, hp, e⟩ := Option.map_eq_some_iff.mp hacc
    obtain ⟨rfl, rfl⟩ := Prod.mk.inj e
    obtain ⟨sta₀, sta', hs, ⟨_, _, _, _, _, rfl⟩, hs', hau, -⟩ := acceptFrame_some hf
    obtain rfl : sta₀ = sta := Option.some.inj (hs.symm.trans hsta)
    obtain ⟨rfl, hchk⟩ := portctrl_blocked (hau.trans hauth) hs' hblk hp
    exact recvProcessMpdu_eapol_iff hchk

/-- an EAPOL frame in plaintext -/
def eapolFrame : RecvFrame :=
  apFrame [0x08, 0x02] myMac [0x50, 0] [0xaa, 0xaa, 3, 0, 0, 0, 0x88, 0x8e, 1, 3, 0, 0]

/-- an A-MSDU of EAPOL: the Protected bit without a cipher, and a source address that starts with `88:8e` -/
def eapolAmsdu : RecvFrame :=
  apFrame [0x88, 0x42] myMac [0x50, 0] ([0x80, 0] ++ myMac ++ [0x88, 0x8e, 0, 0, 0, 1] ++ [0, 10]
    ++ [0xaa, 0xaa, 3, 0, 0, 0, 0x88, 0x8e, 1, 3])

/-- an A-MSDU with the Protected bit but no cipher; its subframe, IPv4, has a source address that
starts with `88:8e` -/
def cloakedAmsdu : RecvFrame :=
  apFrame [0x88, 0x42] myMac [0x50, 0] ([0x80, 0] ++ myMac ++ [0x88, 0x8e, 0, 0, 0, 1] ++ [0, 10]
    ++ [0xaa, 0xaa, 3, 0, 0, 0, 0x08, 0x00, 0x45, 0])

theorem frames_accepted : ∀ f ∈ [eapolFrame, eapolAmsdu, cloakedAmsdu],
    (portAccepted acceptAll (staAdapter .noPrivacy true) f).isSome = true := by decide

theorem portctrl_eapol_iff_snap :
    (∃ a' g, portAccepted acceptAll (staAdapter .noPrivacy true) eapolFrame = some (a', g)
      ∧ recvProcessMpdu {} a' g ≠ [] ∧ ∀ m ∈ recvProcessMpdu {} a' g, m.ethType = eapolType)
    ∧ ∃ a' g, portAccepted acceptAll (staAdapter .noPrivacy true) eapolAmsdu = some (a', g)
      ∧ recvProcessMpdu {} a' g ≠ [] ∧ ∀ m ∈ recvProcessMpdu {} a' g, m.ethType = eapolType := by
  have hacc := fun f hf => (Option.some_get (frames_accepted f hf)).symm
  have hf := hacc eapolFrame (by decide)
  have ha := hacc eapolAmsdu (by decide)
  exact ⟨⟨_, _, hf, by decide, (portctrl_eapol_iff acceptAll {} _ _ _ _ _ rfl rfl rfl hf).mpr (by decide)⟩,
    _, _, ha, by decide, (portctrl_eapol_iff acceptAll {} _ _ _ _ _ rfl rfl rfl ha).mpr (by decide)⟩

theorem portctrl_passes_ipv4 :
    ¬ ∀ (dec : SwDecrypt) (env : RxEnv) (a a' : Adapter) (f g : RecvFrame) (sta : StaInfo),
      a.sec.dot11AuthAlgrthm = .ieee8021x → a.sec.dot11PrivacyAlgrthm ≠ .noPrivacy →
      a.rtwGetStainfo (getAddr2 f) = some sta → sta.ieee8021xBlocked = true →
      sta.dot118021XPrivacy = .noPrivacy → portAccepted dec a f = some (a', g) →
      ∀ m ∈ recvProcessMpdu env a' g, m.ethType = eapolType := by
  intro h
  have h' := h acceptAll {} (staAdapter .noPrivacy true) _ cloakedAmsdu _ _ rfl (by decide) rfl rfl
    rfl (Option.some_get (frames_accepted _ (by decide))).symm
  exact absurd h' (by decide)

end Rtl8192eu
