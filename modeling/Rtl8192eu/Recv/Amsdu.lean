import Mathlib.Logic.Relation
import Rtl8192eu.Recv.Indicate

/-!
# The walk over the subframes of an A-MSDU

`amsdu_to_msdu` of `core/rtw_recv.c`, turn by turn: the pointer, the counter of the bytes that are
left, the packets taken so far, and whether all bytes read so far were bytes of the frame.  The
access point looks into a subframe it may forward (`rtw_os_recv_select_queue`).  A packet is a copy
(`CONFIG_SKB_COPY`): what is read of it later is not read of the frame.

* `amsduTurn`, `amsduWalk`   one turn of the `while` loop, and the loop;
* `encodeAmsdu`   the body of an A-MSDU with given subframes;
* `amsduWalk_done`   the loop ends, with at most `MA_SUBFRAME_COUNT` packets;
* `amsduWalk_encode`   of an encoded body it takes the subframes;
* `amsduWalk_amsduLoop`   it takes what the loop of `Recv.Indicate` takes;
* `amsdu_iff`     when no byte behind the frame is read.
-/

namespace Rtl8192eu

def ethPIp : Nat := 0x0800

structure AmsduEnv extends RxEnv where
  asocListCnt : Nat := 0
  /-- `rtw_recv_indicatepkt_check` -/
  indicatepktCheck : Msdu → Bool := fun _ => true

/-- locals of `amsdu_to_msdu`; `pdata` counts from `rx_data` -/
structure AmsduWalk where
  pdata : Nat
  aLen : Int
  subframes : List Msdu := []
  inside : Bool := true
  deriving DecidableEq, Repr

/-- `n` bytes at offset `i` are read -/
def AmsduWalk.read (f : RecvFrame) (s : AmsduWalk) (i n : Nat) : AmsduWalk :=
  { s with inside := s.inside && decide (i + n ≤ f.len) }

/-- the forwarding path is only taken with a second station -/
def AmsduEnv.act (env : AmsduEnv) (a : Adapter) (da sa : Mac) : MsduAct :=
  amsduActCheck { env.toRxEnv with fwd := fun d s => decide (1 < env.asocListCnt) && env.fwd d s }
    a da sa

/-- `rtw_ap_rx_msdu_act_check` gets behind `fwd_chk` -/
def selectsQueue (env : AmsduEnv) (a : Adapter) (da sa : Mac) : Bool :=
  a.mode == .ap && sa != a.macAddr && !a.apIsolate
    && (isMcast da || (da != a.macAddr
      && ((a.useWds && a.wdsNexthop da) || (a.rtwGetStainfo da).isSome)))
    && decide (1 < env.asocListCnt)

def readLlc (f : RecvFrame) (s : AmsduWalk) (msdu n : Nat) : AmsduWalk :=
  if n < 8 then s else s.read f msdu (snapSize + 2)

/-- `rtw_os_recv_select_queue`: the EtherType, and `tos` of an IPv4 header -/
def readQueue (f : RecvFrame) (s : AmsduWalk) (msdu : Nat) : LlcHdl → AmsduWalk
  | .keep => s
  | .remove =>
    let s := s.read f (msdu + snapSize) 2
    if be16 f (msdu + snapSize) = ethPIp then s.read f (msdu + snapSize + 2 + 1) 1 else s

/-- what becomes of an MSDU, and whether `move_to_next` is reached -/
def amsduAct (env : AmsduEnv) (a : Adapter) (f : RecvFrame) (s : AmsduWalk) (n : Nat) (da sa : Mac) :
    AmsduWalk × Bool :=
  let msdu := s.pdata + ethHlen
  let act := env.act a da sa
  if !act.indicate && !act.forward then (s, true)
  else if !env.alloc s.pdata then (s, false)
  else
    let subPkt := rtwOsAllocMsduPkt f ⟨msdu, n, da, sa⟩
    let s := s.read f msdu n
    if act.indicate && env.indicatepktCheck subPkt then
      ({ s with subframes := s.subframes ++ [subPkt] }, true)
    else (s, true)

/-- a turn up to `move_to_next`, and whether it gets there -/
def amsduSubframe (env : AmsduEnv) (a : Adapter) (f : RecvFrame) (s : AmsduWalk) : AmsduWalk × Bool :=
  let n := be16 f (s.pdata + 12)
  let s := s.read f (s.pdata + 12) 2
  if s.aLen < ethHlen + n then (s, false)
  else
    let da := f.bytes s.pdata ethAlen
    let sa := f.bytes (s.pdata + ethAlen) ethAlen
    let s := s.read f s.pdata (ethAlen + ethAlen)
    if !validateAmsduContent a f.attrib da sa then (s, false)
    else
      let msdu := s.pdata + ethHlen
      let llcHdl := rtwRecvLlcParse f msdu n
      let s := readLlc f s msdu n
      let s := if selectsQueue env a da sa then readQueue f s msdu llcHdl else s
      amsduAct env a f s n da sa

/-- `move_to_next`, and whether the loop goes on -/
def moveToNext (s : AmsduWalk) (n : Nat) : AmsduWalk × Bool :=
  let s := { s with pdata := s.pdata + ethHlen, aLen := s.aLen - ethHlen }
  if maxSubframeCount ≤ s.subframes.length then (s, false)
  else
    let s := { s with pdata := s.pdata + n, aLen := s.aLen - n }
    if s.aLen = 0 then (s, true)
    else if s.aLen < paddingLen n then (s, false)
    else ({ s with pdata := s.pdata + paddingLen n, aLen := s.aLen - paddingLen n }, true)

def amsduTurn (env : AmsduEnv) (a : Adapter) (f : RecvFrame) (s : AmsduWalk) : AmsduWalk × Bool :=
  match amsduSubframe env a f s with
  | (s', true) => moveToNext s' (be16 f (s.pdata + 12))
  | (s', false) => (s', false)

/-- the `while` loop, with so many turns at most; `none` if these do not suffice -/
def amsduWalk (env : AmsduEnv) (a : Adapter) (f : RecvFrame) : Nat → AmsduWalk → Option AmsduWalk
  | 0, _ => none
  | n + 1, s =>
    if s.aLen ≤ ethHlen then some s
    else
      match amsduTurn env a f s with
      | (s', true) => amsduWalk env a f n s'
      | (s', false) => some s'

/-- the loop starts at the first byte of what is left without header, IV and ICV -/
def amsduStart (f : RecvFrame) : AmsduWalk := { pdata := 0, aLen := (amsduStrip f).len }

variable {env : AmsduEnv} {a : Adapter} {f : RecvFrame} {s s' : AmsduWalk} {n : Nat}

/-! ## a turn -/

/-- the pointer and the counter belong together -/
structure AmsduWalk.Ok (f : RecvFrame) (s : AmsduWalk) : Prop where
  sum : (s.pdata : Int) + s.aLen = f.len
  nonneg : 0 ≤ s.aLen

/-- a subframe at the end of the body whose IPv4 header does not reach to `tos`, and the queue for
forwarding it is looked for -/
def CutIp (env : AmsduEnv) (a : Adapter) (f : RecvFrame) (s : AmsduWalk) : Prop :=
  let n := be16 f (s.pdata + 12)
  let da := f.bytes s.pdata ethAlen
  let sa := f.bytes (s.pdata + ethAlen) ethAlen
  (ethHlen + n : Int) ≤ s.aLen ∧ validateAmsduContent a f.attrib da sa = true
    ∧ selectsQueue env a da sa = true ∧ rtwRecvLlcParse f (s.pdata + ethHlen) n = .remove
    ∧ be16 f (s.pdata + ethHlen + snapSize) = ethPIp ∧ s.aLen < ethHlen + snapSize + 2 + 2

theorem read_of_le {i k : Nat} (h : i + k ≤ f.len) : s.read f i k = s := by
  unfold AmsduWalk.read
  rw [decide_eq_true h, Bool.and_true]

/-- an LLC header is removed only of a body of eight bytes -/
theorem le_of_llc_remove {off : Nat} (h : rtwRecvLlcParse f off n = .remove) : 8 ≤ n := by
  by_contra hlt
  unfold rtwRecvLlcParse at h
  rw [if_pos (by omega)] at h
  cases h

theorem readLlc_eq {msdu : Nat} (h : msdu + n ≤ f.len) : readLlc f s msdu n = s := by
  have hsnap : snapSize = 6 := rfl
  unfold readLlc
  split
  · rfl
  · exact read_of_le (by omega)

theorem readQueue_frame (msdu : Nat) (llc : LlcHdl) :
    ∃ b, readQueue f s msdu llc = { s with inside := b } := by
  cases llc with
  | keep => exact ⟨s.inside, rfl⟩
  | remove =>
    unfold readQueue AmsduWalk.read
    dsimp only
    split
    · exact ⟨_, rfl⟩
    · exact ⟨_, rfl⟩

theorem readQueue_inside {msdu : Nat} {llc : LlcHdl} (hn : llc = .remove → msdu + 8 ≤ f.len) :
    (readQueue f s msdu llc).inside = true ↔ s.inside = true ∧
      ¬(llc = .remove ∧ be16 f (msdu + snapSize) = ethPIp ∧ f.len < msdu + snapSize + 2 + 2) := by
  have hsnap : snapSize = 6 := rfl
  cases llc with
  | keep => exact ⟨fun h => ⟨h, fun hc => nomatch hc.1⟩, And.left⟩
  | remove =>
    have h8 := hn rfl
    have hty : s.read f (msdu + snapSize) 2 = s := read_of_le (by omega)
    unfold readQueue
    rw [hty]
    dsimp only
    split
    · rename_i hip
      have hread : (s.read f (msdu + snapSize + 2 + 1) 1).inside =
          (s.inside && decide (msdu + snapSize + 2 + 1 + 1 ≤ f.len)) := rfl
      rw [hread, Bool.and_eq_true, decide_eq_true_eq]
      constructor
      · rintro ⟨hs, hle⟩
        exact ⟨hs, fun hc => absurd hc.2.2 (by omega)⟩
      · rintro ⟨hs, hc⟩
        refine ⟨hs, ?_⟩
        by_contra hgt
        exact hc ⟨rfl, hip, by omega⟩
    · rename_i hip
      exact ⟨fun hs => ⟨hs, fun hc => hip hc.2.1⟩, And.left⟩

/-- a packet at most is taken -/
theorem amsduAct_spec (env : AmsduEnv) (a : Adapter) {da sa : Mac} (h : s.pdata + ethHlen + n ≤ f.len) :
    ∃ out : List Msdu, (amsduAct env a f s n da sa).1 = { s with subframes := s.subframes ++ out }
      ∧ out.length ≤ 1 := by
  have hcopy : s.read f (s.pdata + ethHlen) n = s := read_of_le h
  have hnone : s = { s with subframes := s.subframes ++ [] } := by
    rw [List.append_nil]
  unfold amsduAct
  dsimp only
  rw [hcopy]
  split
  · exact ⟨[], hnone, by simp⟩
  split
  · exact ⟨[], hnone, by simp⟩
  split
  · exact ⟨[_], rfl, by simp⟩
  · exact ⟨[], hnone, by simp⟩

/-- the only read that may leave the frame is the one of `tos` -/
theorem amsduSubframe_eq (env : AmsduEnv) (a : Adapter) (hok : s.Ok f)
    (hfit : (ethHlen + be16 f (s.pdata + 12) : Int) ≤ s.aLen)
    (hval : validateAmsduContent a f.attrib (f.bytes s.pdata ethAlen)
      (f.bytes (s.pdata + ethAlen) ethAlen) = true) :
    ∃ b, (b = true ↔ s.inside = true ∧ ¬CutIp env a f s)
      ∧ amsduSubframe env a f s = amsduAct env a f { s with inside := b } (be16 f (s.pdata + 12))
        (f.bytes s.pdata ethAlen) (f.bytes (s.pdata + ethAlen) ethAlen) := by
  have heth : ethHlen = 14 := rfl
  have hal : ethAlen = 6 := rfl
  have hsnap : snapSize = 6 := rfl
  obtain ⟨hsum, hpos⟩ := hok
  have hread : s.read f (s.pdata + 12) 2 = s := read_of_le (by omega)
  have hhdr : s.read f s.pdata (ethAlen + ethAlen) = s := read_of_le (by omega)
  have hbody : s.pdata + ethHlen + be16 f (s.pdata + 12) ≤ f.len := by omega
  unfold amsduSubframe CutIp
  dsimp only
  rw [hread, if_neg (by omega), hhdr, hval, if_neg (by decide), readLlc_eq hbody]
  generalize hllc : rtwRecvLlcParse f (s.pdata + ethHlen) (be16 f (s.pdata + 12)) = llc
  split
  · rename_i hsel
    obtain ⟨b, hb⟩ := readQueue_frame (f := f) (s := s) (s.pdata + ethHlen) llc
    have h8 : llc = .remove → s.pdata + ethHlen + 8 ≤ f.len := by
      intro hr
      have := le_of_llc_remove (hllc.trans hr)
      omega
    have hin := readQueue_inside (s := s) h8
    rw [hb] at hin ⊢
    refine ⟨b, hin.trans (and_congr_right fun _ => not_congr ?_), rfl⟩
    constructor
    · rintro ⟨hr, hip, hlt⟩
      exact ⟨hfit, rfl, hsel, hr, hip, by omega⟩
    · rintro ⟨-, -, -, hr, hip, hlt⟩
      exact ⟨hr, hip, by omega⟩
  · rename_i hsel
    exact ⟨s.inside, ⟨fun h => ⟨h, fun hc => hsel hc.2.2.1⟩, And.left⟩, rfl⟩

/-- a turn up to `move_to_next` -/
theorem amsduSubframe_spec (env : AmsduEnv) (a : Adapter) (hok : s.Ok f) (hlen : (ethHlen : Int) < s.aLen) :
    ∃ out b, (amsduSubframe env a f s).1 = { s with inside := b, subframes := s.subframes ++ out }
      ∧ out.length ≤ 1 ∧ (b = true ↔ s.inside = true ∧ ¬CutIp env a f s) := by
  have heth : ethHlen = 14 := rfl
  have hal : ethAlen = 6 := rfl
  have hsum := hok.sum
  have hread : s.read f (s.pdata + 12) 2 = s := read_of_le (by omega)
  have hhdr : s.read f s.pdata (ethAlen + ethAlen) = s := read_of_le (by omega)
  have hnone : s = { s with inside := s.inside, subframes := s.subframes ++ [] } := by
    rw [List.append_nil]
  by_cases hfit : (ethHlen + be16 f (s.pdata + 12) : Int) ≤ s.aLen
  · cases hval : validateAmsduContent a f.attrib (f.bytes s.pdata ethAlen)
        (f.bytes (s.pdata + ethAlen) ethAlen) with
    | true =>
      obtain ⟨b, hb, he⟩ := amsduSubframe_eq env a hok hfit hval
      have hbody : s.pdata + ethHlen + be16 f (s.pdata + 12) ≤ f.len := by omega
      obtain ⟨out, hout, hone⟩ := amsduAct_spec (f := f) (s := { s with inside := b }) env a hbody
      exact ⟨out, b, he ▸ hout, hone, hb⟩
    | false =>
      refine ⟨[], s.inside, ?_, by simp, fun h => ⟨h, fun hc => ?_⟩, And.left⟩
      · unfold amsduSubframe
        dsimp only
        rw [hread, if_neg (by omega), hhdr, hval]
        exact hnone
      · exact absurd (hval.symm.trans hc.2.1) (by decide)
  · refine ⟨[], s.inside, ?_, by simp, fun h => ⟨h, fun hc => hfit hc.1⟩, And.left⟩
    unfold amsduSubframe
    dsimp only
    rw [hread, if_pos (by omega)]
    exact hnone

/-- what `move_to_next` does: the pointer and the counter stay together, and the counter falls -/
theorem moveToNext_spec (n : Nat) (hok : s.Ok f) :
    (moveToNext s n).1.subframes = s.subframes ∧ (moveToNext s n).1.inside = s.inside
      ∧ ((moveToNext s n).2 = true → (moveToNext s n).1.Ok f ∧ (moveToNext s n).1.aLen < s.aLen
        ∧ s.subframes.length < maxSubframeCount) := by
  have heth : ethHlen = 14 := rfl
  obtain ⟨hsum, hpos⟩ := hok
  unfold moveToNext
  dsimp only
  split
  · exact ⟨rfl, rfl, fun h => nomatch h⟩
  rename_i hmax
  have hcount : s.subframes.length < maxSubframeCount := Nat.not_le.mp hmax
  split
  · refine ⟨rfl, rfl, fun _ => ⟨⟨?_, ?_⟩, ?_, hcount⟩⟩
    · dsimp only
      omega
    · dsimp only
      omega
    · dsimp only
      omega
  split
  · exact ⟨rfl, rfl, fun h => nomatch h⟩
  · refine ⟨rfl, rfl, fun _ => ⟨⟨?_, ?_⟩, ?_, hcount⟩⟩
    · dsimp only
      omega
    · dsimp only
      omega
    · dsimp only
      omega

theorem amsduTurn_spec (env : AmsduEnv) (a : Adapter) (hok : s.Ok f) (hlen : (ethHlen : Int) < s.aLen) :
    (amsduTurn env a f s).1.subframes.length ≤ s.subframes.length + 1
      ∧ ((amsduTurn env a f s).1.inside = true ↔ s.inside = true ∧ ¬CutIp env a f s)
      ∧ ((amsduTurn env a f s).2 = true → (amsduTurn env a f s).1.Ok f
        ∧ (amsduTurn env a f s).1.aLen < s.aLen
        ∧ (amsduTurn env a f s).1.subframes.length < maxSubframeCount) := by
  obtain ⟨out, b, hs', hout, hb⟩ := amsduSubframe_spec env a hok hlen
  have hcount : (s.subframes ++ out).length ≤ s.subframes.length + 1 := by
    rw [List.length_append]
    omega
  unfold amsduTurn
  generalize amsduSubframe env a f s = r at *
  obtain ⟨s₁, go⟩ := r
  obtain rfl : s₁ = _ := hs'
  cases go with
  | false => exact ⟨hcount, hb, fun h => nomatch h⟩
  | true =>
    have hok₁ : ({ s with inside := b, subframes := s.subframes ++ out } : AmsduWalk).Ok f :=
      ⟨hok.sum, hok.nonneg⟩
    obtain ⟨hsub, hin, hgo⟩ := moveToNext_spec (be16 f (s.pdata + 12)) hok₁
    refine ⟨?_, ?_, ?_⟩
    · show (moveToNext _ _).1.subframes.length ≤ _
      rw [hsub]
      exact hcount
    · show (moveToNext _ _).1.inside = true ↔ _
      rw [hin]
      exact hb
    · intro h
      obtain ⟨hok', hlt, hmax⟩ := hgo h
      refine ⟨hok', hlt, ?_⟩
      show (moveToNext _ _).1.subframes.length < _
      rw [hsub]
      exact hmax

/-! ## the loop -/

/-- a turn after which the loop goes on -/
def AmsduStep (env : AmsduEnv) (a : Adapter) (f : RecvFrame) (s s' : AmsduWalk) : Prop :=
  (ethHlen : Int) < s.aLen ∧ amsduTurn env a f s = (s', true)

/-- the turns that start in `s` find no subframe that is cut before `tos` -/
def NoCutIp (env : AmsduEnv) (a : Adapter) (f : RecvFrame) (s : AmsduWalk) : Prop :=
  ∀ t, Relation.ReflTransGen (AmsduStep env a f) s t → ¬CutIp env a f t

theorem noCutIp_iff : NoCutIp env a f s ↔
    ¬CutIp env a f s ∧ ∀ s', AmsduStep env a f s s' → NoCutIp env a f s' := by
  constructor
  · intro h
    exact ⟨h s .refl, fun s' hs t ht => h t (.head hs ht)⟩
  · rintro ⟨h, hs⟩ t ht
    cases ht.cases_head with
    | inl e => exact e ▸ h
    | inr hex =>
      obtain ⟨s', hstep, hrest⟩ := hex
      exact hs s' hstep t hrest

/-- where the loop stops nothing is read -/
theorem not_cutIp_of_short (h : s.aLen ≤ ethHlen) : ¬CutIp env a f s := by
  intro hc
  have h8 := le_of_llc_remove hc.2.2.2.1
  have hle := hc.1
  omega

/-- the loop ends, and says whether it stayed in the frame -/
theorem amsduWalk_done (env : AmsduEnv) (a : Adapter) (f : RecvFrame) {n : Nat} {s : AmsduWalk} (hok : s.Ok f)
    (hn : s.aLen < n) (hmax : s.subframes.length < maxSubframeCount) :
    ∃ t, amsduWalk env a f n s = some t ∧ t.subframes.length ≤ maxSubframeCount
      ∧ (t.inside = true ↔ s.inside = true ∧ NoCutIp env a f s) := by
  induction n generalizing s with
  | zero => exact absurd hok.nonneg (by omega)
  | succ n ih =>
    unfold amsduWalk
    split
    · rename_i hstop
      refine ⟨s, rfl, hmax.le, fun h => ⟨h, noCutIp_iff.mpr ⟨not_cutIp_of_short hstop, ?_⟩⟩, And.left⟩
      intro s' hs
      exact absurd hs.1 (by omega)
    rename_i hgo
    have hlen : (ethHlen : Int) < s.aLen := by omega
    obtain ⟨hcount, hin, hnext⟩ := amsduTurn_spec env a hok hlen
    have hstep : ∀ s', AmsduStep env a f s s' ↔ amsduTurn env a f s = (s', true) :=
      fun s' => ⟨And.right, fun h => ⟨hlen, h⟩⟩
    rw [noCutIp_iff]
    simp only [hstep]
    generalize amsduTurn env a f s = r at *
    obtain ⟨s₁, go⟩ := r
    cases go with
    | false =>
      refine ⟨s₁, rfl, hcount.trans hmax, hin.trans (and_congr_right fun _ => ?_)⟩
      exact ⟨fun h => ⟨h, fun s' hs => nomatch hs⟩, And.left⟩
    | true =>
      obtain ⟨hok', hlt, hmax'⟩ := hnext rfl
      have hn' : s₁.aLen < n := by
        have hlt' : s₁.aLen < s.aLen := hlt
        omega
      obtain ⟨t, ht, htmax, hti⟩ := ih hok' hn' hmax'
      refine ⟨t, ht, htmax, ?_⟩
      rw [hti, hin, and_assoc]
      refine and_congr_right fun _ => and_congr_right fun _ => ?_
      exact ⟨fun h s' hs => (Prod.mk.inj hs).1 ▸ h, fun h => h s₁ rfl⟩

/-! ## an encoded body -/

structure AmsduSubframe where
  da : Mac
  sa : Mac
  payload : List UInt8
  deriving DecidableEq, Repr

/-- what can be put into a subframe -/
structure AmsduSubframe.Valid (m : AmsduSubframe) : Prop where
  da : m.da.length = ethAlen
  sa : m.sa.length = ethAlen
  pos : 0 < m.payload.length
  lt : m.payload.length < 65536

def AmsduSubframe.bytes (m : AmsduSubframe) : List UInt8 :=
  m.da ++ m.sa ++ be16Bytes m.payload.length ++ m.payload

/-- zeros up to a multiple of four, except behind the last -/
def encodeAmsdu : List AmsduSubframe → List UInt8
  | [] => []
  | [m] => m.bytes
  | m :: ms => m.bytes ++ (List.replicate (paddingLen m.payload.length) 0 ++ encodeAmsdu ms)

/-- the EtherType behind an LLC/SNAP header -/
def snapType (payload : List UInt8) : Nat :=
  256 * (payload.getD snapSize 0).toNat + (payload.getD (snapSize + 1) 0).toNat

def hasSnap (payload : List UInt8) : Bool :=
  8 ≤ payload.length && ((payload.take snapSize == rtwRfc1042Header
    && snapType payload != ethPAarp && snapType payload != ethPIpx)
      || payload.take snapSize == rtwBridgeTunnelHeader)

/-- the Ethernet frame of a subframe: the type behind an LLC/SNAP header takes the place of the
length -/
def AmsduSubframe.msdu (m : AmsduSubframe) : Msdu :=
  if hasSnap m.payload then ⟨m.da, m.sa, snapType m.payload, m.payload.drop (snapSize + 2)⟩
  else ⟨m.da, m.sa, m.payload.length, m.payload⟩

/-- the checks let the subframe at offset `off` pass, and there is a packet for it -/
structure Passes (env : AmsduEnv) (a : Adapter) (f : RecvFrame) (m : AmsduSubframe) : Prop where
  content : validateAmsduContent a f.attrib m.da m.sa = true
  indicate : (env.act a m.da m.sa).indicate = true
  alloc : ∀ off, env.alloc off = true
  check : env.indicatepktCheck m.msdu = true

theorem AmsduSubframe.length_bytes {m : AmsduSubframe} (h : m.Valid) :
    m.bytes.length = ethHlen + m.payload.length := by
  have hb : (be16Bytes m.payload.length).length = 2 := rfl
  have hal : ethAlen = 6 := rfl
  have heth : ethHlen = 14 := rfl
  unfold AmsduSubframe.bytes
  rw [List.length_append, List.length_append, List.length_append, h.da, h.sa, hb]
  omega

theorem be16_payload {xs zs payload : List UInt8} {off : Nat} (hd : f.data = xs ++ payload ++ zs)
    (hx : xs.length = off) (h8 : snapSize + 2 ≤ payload.length) :
    be16 f (off + snapSize) = snapType payload := by
  have hbyte : ∀ i, i < payload.length → f.byte (off + i) = payload.getD i 0 := by
    intro i hi
    rw [byte_of_append hd (by rw [List.length_append]; omega), List.getD_eq_getElem?_getD,
      List.getElem?_append_right (by omega), hx, Nat.add_sub_cancel_left,
      ← List.getD_eq_getElem?_getD]
  unfold be16 snapType
  rw [hbyte snapSize (by omega), Nat.add_assoc, hbyte (snapSize + 1) (by omega)]

theorem rtwRecvLlcParse_payload {xs zs payload : List UInt8} {off : Nat}
    (hd : f.data = xs ++ payload ++ zs) (hx : xs.length = off) :
    rtwRecvLlcParse f off payload.length = if hasSnap payload then .remove else .keep := by
  unfold rtwRecvLlcParse hasSnap
  by_cases h8 : payload.length < 8
  · rw [if_pos h8, decide_eq_false (Nat.not_le.mpr h8)]
    rfl
  · have hsnap : f.bytes off snapSize = payload.take snapSize := by
      have hsix : snapSize = 6 := rfl
      have hsplit : f.data = xs ++ payload.take snapSize ++ (payload.drop snapSize ++ zs) := by
        rw [hd, List.append_assoc xs, List.append_assoc xs, ← List.append_assoc (payload.take snapSize),
          List.take_append_drop]
      apply bytes_of_append hsplit hx
      rw [List.length_take]
      omega
    have hsix : snapSize = 6 := rfl
    have htype : be16 f (off + snapSize) = snapType payload := be16_payload hd hx (by omega)
    rw [if_neg h8, decide_eq_true (Nat.not_lt.mp h8), hsnap, htype]
    simp only [ne_eq, Bool.true_and, Bool.or_eq_true, Bool.and_eq_true, beq_iff_eq, bne_iff_ne,
      and_assoc]

theorem rtwOsAllocMsduPkt_payload {m : AmsduSubframe} {xs zs : List UInt8} {off : Nat}
    (hd : f.data = xs ++ m.payload ++ zs) (hx : xs.length = off) :
    rtwOsAllocMsduPkt f ⟨off, m.payload.length, m.da, m.sa⟩ = m.msdu := by
  have hsix : snapSize = 6 := rfl
  have hbytes : f.bytes off m.payload.length = m.payload := bytes_of_append hd hx rfl
  unfold rtwOsAllocMsduPkt AmsduSubframe.msdu
  dsimp only
  rw [rtwRecvLlcParse_payload hd hx]
  cases hs : hasSnap m.payload with
  | false => exact congrArg (Msdu.mk m.da m.sa m.payload.length) hbytes
  | true =>
    have h8 : 8 ≤ m.payload.length := by
      unfold hasSnap at hs
      rw [Bool.and_eq_true, decide_eq_true_eq] at hs
      exact hs.1
    have hrest : f.bytes (off + snapSize + 2) (m.payload.length - snapSize - 2) =
        m.payload.drop (snapSize + 2) := by
      have hsplit : f.data = xs ++ m.payload.take (snapSize + 2) ++ m.payload.drop (snapSize + 2) ++ zs := by
        rw [hd, List.append_assoc xs (m.payload.take _), List.take_append_drop]
      apply bytes_of_append hsplit
      · rw [List.length_append, List.length_take, hx]
        omega
      · rw [List.length_drop]
        omega
    have htype : be16 f (off + snapSize) = snapType m.payload := be16_payload hd hx (by omega)
    simp only [↓reduceIte, hrest, htype]

/-- a turn over a subframe that passes takes it -/
theorem amsduTurn_bytes {m : AmsduSubframe} {xs zs : List UInt8} (hv : m.Valid) (hp : Passes env a f m)
    (hok : s.Ok f) (hd : f.data = xs ++ m.bytes ++ zs) (hx : xs.length = s.pdata) :
    ∃ b, amsduTurn env a f s =
      moveToNext { s with inside := b, subframes := s.subframes ++ [m.msdu] } m.payload.length := by
  have heth : ethHlen = 14 := rfl
  have hal : ethAlen = 6 := rfl
  have hlen : f.len = f.data.length := rfl
  have hsum := hok.sum
  have hbs : f.data = xs ++ (m.da ++ m.sa ++ be16Bytes m.payload.length ++ m.payload) ++ zs := hd
  have hb2 : (be16Bytes m.payload.length).length = 2 := rfl
  have hn : be16 f (s.pdata + 12) = m.payload.length := by
    have hsplit : f.data = xs ++ (m.da ++ m.sa) ++ be16Bytes m.payload.length ++ (m.payload ++ zs) := by
      simp only [hbs, List.append_assoc]
    apply be16_of_append hsplit _ hv.lt
    rw [List.length_append, List.length_append, hv.da, hv.sa, hx]
    rfl
  have hda : f.bytes s.pdata ethAlen = m.da := by
    have hsplit : f.data = xs ++ m.da ++ (m.sa ++ be16Bytes m.payload.length ++ m.payload ++ zs) := by
      simp only [hbs, List.append_assoc]
    exact bytes_of_append hsplit hx hv.da
  have hsa : f.bytes (s.pdata + ethAlen) ethAlen = m.sa := by
    have hsplit : f.data = xs ++ m.da ++ m.sa ++ (be16Bytes m.payload.length ++ m.payload ++ zs) := by
      simp only [hbs, List.append_assoc]
    apply bytes_of_append hsplit _ hv.sa
    rw [List.length_append, hv.da, hx]
  have hfit : (ethHlen + be16 f (s.pdata + 12) : Int) ≤ s.aLen := by
    have hl : f.data.length = s.pdata + (ethHlen + m.payload.length) + zs.length := by
      rw [hd, List.length_append, List.length_append, hx, AmsduSubframe.length_bytes hv]
    rw [hn]
    omega
  have hval : validateAmsduContent a f.attrib (f.bytes s.pdata ethAlen)
      (f.bytes (s.pdata + ethAlen) ethAlen) = true := by
    rw [hda, hsa]
    exact hp.content
  obtain ⟨b, -, he⟩ := amsduSubframe_eq env a hok hfit hval
  have hpkt : rtwOsAllocMsduPkt f ⟨s.pdata + ethHlen, m.payload.length, m.da, m.sa⟩ = m.msdu := by
    have hsplit : f.data = xs ++ (m.da ++ m.sa ++ be16Bytes m.payload.length) ++ m.payload ++ zs := by
      simp only [hbs, List.append_assoc]
    apply rtwOsAllocMsduPkt_payload hsplit
    rw [List.length_append, List.length_append, List.length_append, hv.da, hv.sa, hb2, hx]
    rfl
  have hcopy : ({ s with inside := b } : AmsduWalk).read f (s.pdata + ethHlen) m.payload.length =
      { s with inside := b } := read_of_le (by omega)
  have hact : amsduAct env a f { s with inside := b } m.payload.length m.da m.sa =
      ({ s with inside := b, subframes := s.subframes ++ [m.msdu] }, true) := by
    unfold amsduAct
    dsimp only
    rw [hp.indicate, hp.alloc, hcopy, hpkt, hp.check]
    rfl
  refine ⟨b, ?_⟩
  unfold amsduTurn
  rw [he, hn, hda, hsa, hact]

/-- the last subframe: nothing is left -/
theorem moveToNext_last {k : Nat} (ha : s.aLen = ethHlen + k) :
    (moveToNext s k).1.subframes = s.subframes
      ∧ ((moveToNext s k).2 = true → (moveToNext s k).1.aLen ≤ ethHlen) := by
  unfold moveToNext
  dsimp only
  split
  · exact ⟨rfl, fun h => nomatch h⟩
  split
  · refine ⟨rfl, fun _ => ?_⟩
    dsimp only
    omega
  · rename_i hz
    exact absurd (by omega) hz

/-- not the last: the pointer gets to the next one -/
theorem moveToNext_more {k : Nat} (hmax : s.subframes.length < maxSubframeCount)
    (ha : (ethHlen + k + paddingLen k : Int) < s.aLen) :
    moveToNext s k = ({ s with
      pdata := s.pdata + ethHlen + k + paddingLen k
      aLen := s.aLen - ethHlen - k - paddingLen k }, true) := by
  unfold moveToNext
  dsimp only
  rw [if_neg (Nat.not_le.mpr hmax), if_neg (by omega), if_neg (by omega)]

theorem encodeAmsdu_cons (m : AmsduSubframe) {ms : List AmsduSubframe} (h : ms ≠ []) :
    encodeAmsdu (m :: ms) = m.bytes ++ (List.replicate (paddingLen m.payload.length) 0 ++ encodeAmsdu ms) := by
  cases ms with
  | nil => exact absurd rfl h
  | cons m' ms => rfl

theorem length_encodeAmsdu_pos {ms : List AmsduSubframe} (hv : ∀ m ∈ ms, m.Valid) (h : ms ≠ []) :
    ethHlen < (encodeAmsdu ms).length := by
  cases ms with
  | nil => exact absurd rfl h
  | cons m ms =>
    have hm := hv m List.mem_cons_self
    have hlen := AmsduSubframe.length_bytes hm
    have hpos := hm.pos
    by_cases hms : ms = []
    · subst hms
      show ethHlen < m.bytes.length
      omega
    · rw [encodeAmsdu_cons m hms, List.length_append]
      omega

/-- the loop ends behind the last subframe -/
theorem amsduWalk_last {m : AmsduSubframe} {xs : List UInt8} (hm : m.Valid) (hp : Passes env a f m)
    (hd : f.data = xs ++ m.bytes) (hx : xs.length = s.pdata) (hok : s.Ok f) (hn : s.aLen < n) :
    ∃ t, amsduWalk env a f n s = some t ∧ t.subframes = s.subframes ++ [m.msdu] := by
  have heth : ethHlen = 14 := rfl
  have hbl := AmsduSubframe.length_bytes hm
  have hsum := hok.sum
  have hpos := hm.pos
  have hd' : f.data = xs ++ m.bytes ++ [] := hd.trans (List.append_nil _).symm
  have ha : s.aLen = ethHlen + m.payload.length := by
    have hlen : f.len = xs.length + m.bytes.length := by
      rw [RecvFrame.len, hd, List.length_append]
    omega
  obtain ⟨n, rfl⟩ : ∃ k, n = k + 2 := ⟨n - 2, by omega⟩
  obtain ⟨b, ht⟩ := amsduTurn_bytes hm hp hok hd' hx
  obtain ⟨hsub, hstop⟩ := moveToNext_last
    (s := { s with inside := b, subframes := s.subframes ++ [m.msdu] }) ha
  unfold amsduWalk
  rw [if_neg (by omega), ht]
  generalize moveToNext _ m.payload.length = r at *
  obtain ⟨t, go⟩ := r
  refine ⟨t, ?_, hsub⟩
  cases go with
  | false => rfl
  | true =>
    have hshort : t.aLen ≤ ethHlen := hstop rfl
    show amsduWalk env a f (n + 1) t = some t
    unfold amsduWalk
    rw [if_pos hshort]

/-- **The loop inverts the encoding**: of an encoded body it takes the subframes, in order. -/
theorem amsduWalk_encode (ms : List AmsduSubframe) {n : Nat} {s : AmsduWalk} {xs : List UInt8} (hms : ms ≠ [])
    (hv : ∀ m ∈ ms, m.Valid) (hp : ∀ m ∈ ms, Passes env a f m) (hd : f.data = xs ++ encodeAmsdu ms)
    (hx : xs.length = s.pdata) (hok : s.Ok f) (hn : s.aLen < n)
    (hmax : s.subframes.length + ms.length ≤ maxSubframeCount) :
    ∃ t, amsduWalk env a f n s = some t ∧ t.subframes = s.subframes ++ ms.map AmsduSubframe.msdu := by
  induction ms generalizing n s xs with
  | nil => exact absurd rfl hms
  | cons m ms ih =>
    have hm := hv m List.mem_cons_self
    have hpm := hp m List.mem_cons_self
    by_cases hrest : ms = []
    · subst hrest
      exact amsduWalk_last hm hpm hd hx hok hn
    have hvr : ∀ m' ∈ ms, m'.Valid := fun m' h => hv m' (List.mem_cons_of_mem _ h)
    have hpr : ∀ m' ∈ ms, Passes env a f m' := fun m' h => hp m' (List.mem_cons_of_mem _ h)
    have heth : ethHlen = 14 := rfl
    have hrpos := length_encodeAmsdu_pos hvr hrest
    have hsum := hok.sum
    have hnn := hok.nonneg
    have hbl := AmsduSubframe.length_bytes hm
    rw [encodeAmsdu_cons m hrest, ← List.append_assoc] at hd
    have hlen : f.len = xs.length + m.bytes.length
        + (paddingLen m.payload.length + (encodeAmsdu ms).length) := by
      rw [RecvFrame.len, hd, List.length_append, List.length_append, List.length_append,
        List.length_replicate]
    obtain ⟨b, ht⟩ := amsduTurn_bytes hm hpm hok hd hx
    have hmore : (s.subframes ++ [m.msdu]).length < maxSubframeCount := by
      have hne : 0 < ms.length := List.length_pos_of_ne_nil hrest
      rw [List.length_append, List.length_singleton]
      rw [List.length_cons] at hmax
      omega
    obtain ⟨n, rfl⟩ : ∃ k, n = k + 1 := ⟨n - 1, by omega⟩
    unfold amsduWalk
    rw [if_neg (by omega), ht, moveToNext_more hmore (by dsimp only; omega)]
    -- the state at the next subframe
    let s' : AmsduWalk := { s with
      inside := b
      subframes := s.subframes ++ [m.msdu]
      pdata := s.pdata + ethHlen + m.payload.length + paddingLen m.payload.length
      aLen := s.aLen - ethHlen - m.payload.length - paddingLen m.payload.length }
    have hd' : f.data = (xs ++ m.bytes ++ List.replicate (paddingLen m.payload.length) 0) ++ encodeAmsdu ms := by
      rw [hd, List.append_assoc (xs ++ m.bytes)]
    have hx' : (xs ++ m.bytes ++ List.replicate (paddingLen m.payload.length) 0).length = s'.pdata := by
      show _ = s.pdata + ethHlen + m.payload.length + paddingLen m.payload.length
      rw [List.length_append, List.length_append, List.length_replicate]
      omega
    have hal' : s'.aLen = s.aLen - ethHlen - m.payload.length - paddingLen m.payload.length := rfl
    have hpd' : s'.pdata = s.pdata + ethHlen + m.payload.length + paddingLen m.payload.length := rfl
    have hmax' : s'.subframes.length + ms.length ≤ maxSubframeCount := by
      show (s.subframes ++ [m.msdu]).length + ms.length ≤ maxSubframeCount
      rw [List.length_append, List.length_singleton]
      rw [List.length_cons] at hmax
      omega
    obtain ⟨t, hw, hsub⟩ := ih (n := n) hrest hvr hpr hd' hx' ⟨by omega, by omega⟩ (by omega) hmax'
    refine ⟨t, hw, ?_⟩
    rw [hsub, List.map_cons]
    show s.subframes ++ [m.msdu] ++ _ = _
    rw [List.append_assoc]
    rfl

/-! ## the frame -/

/-- the body of the frame, behind header and IV and before the ICV, is the encoding -/
structure Carries (f : RecvFrame) (ms : List AmsduSubframe) : Prop where
  data : ∃ hdr iv icv, f.data = hdr ++ iv ++ encodeAmsdu ms ++ icv ∧ hdr.length = f.attrib.hdrlen
    ∧ iv.length = f.attrib.ivLen
    ∧ icv.length = if f.attrib.encrypt ≠ .noPrivacy then f.attrib.icvLen else 0

theorem pull_attrib (g : RecvFrame) (k : Nat) : ((recvframePull g k).getD g).attrib = g.attrib := by
  unfold recvframePull
  split <;> rfl

theorem pullIcv_attrib (g : RecvFrame) : (pullIcv g).attrib = g.attrib := by
  unfold pullIcv recvframePullTail
  split
  · split <;> rfl
  · rfl

theorem amsduStrip_attrib (f : RecvFrame) : (amsduStrip f).attrib = f.attrib := by
  unfold amsduStrip
  refine (pullIcv_attrib _).trans ?_
  split
  · rw [pull_attrib, pull_attrib]
  · exact pull_attrib _ _

theorem pull_prefix {g : RecvFrame} {xs ys : List UInt8} {k : Nat} (h : g.data = xs ++ ys)
    (hk : xs.length = k) : ((recvframePull g k).getD g).data = ys := by
  have hle : ¬g.len < k := by
    rw [RecvFrame.len, h, List.length_append]
    omega
  unfold recvframePull
  rw [if_neg hle]
  show g.data.drop k = ys
  rw [h, ← hk, List.drop_left]

theorem amsduStrip_data {ms : List AmsduSubframe} (h : Carries f ms) :
    (amsduStrip f).data = encodeAmsdu ms := by
  obtain ⟨hdr, iv, icv, hd, hh, hi, hc⟩ := h.data
  rw [List.append_assoc, List.append_assoc] at hd
  have hattrib : ∀ g k, ((recvframePull g k).getD g).attrib = g.attrib := pull_attrib
  have hd₁ := pull_prefix hd hh
  have hi₁ : iv.length = ((recvframePull f f.attrib.hdrlen).getD f).attrib.ivLen := by
    rw [hattrib]
    exact hi
  unfold amsduStrip
  dsimp only
  split
  · have hd₂ := pull_prefix hd₁ hi₁
    apply pullIcv_data hd₂
    rw [hattrib, hattrib]
    exact hc
  · rename_i hz
    have hiv : iv = [] := List.length_eq_zero_iff.mp (by omega)
    rw [hiv, List.nil_append] at hd₁
    apply pullIcv_data hd₁
    rw [hattrib]
    exact hc

/-- it inverts the encoding, ends in time, and stays in the frame -/
structure AmsduOk (env : AmsduEnv) (a : Adapter) (f : RecvFrame) : Prop where
  inverts : ∀ ms, ms ≠ [] → ms.length ≤ maxSubframeCount → (∀ m ∈ ms, m.Valid) → (∀ m ∈ ms, Passes env a f m) →
    Carries f ms → ∀ n, (amsduStrip f).len < n →
      ∃ t, amsduWalk env a (amsduStrip f) n (amsduStart f) = some t ∧ t.subframes = ms.map AmsduSubframe.msdu
  ends : ∀ n, (amsduStrip f).len < n →
    ∃ t, amsduWalk env a (amsduStrip f) n (amsduStart f) = some t
      ∧ t.subframes.length ≤ maxSubframeCount ∧ t.inside = true

theorem amsduStart_ok (f : RecvFrame) : (amsduStart f).Ok (amsduStrip f) where
  sum := Int.zero_add _
  nonneg := Int.natCast_nonneg _

/-- **When the walk stays in the frame**: it always ends in time and always inverts the encoding; it
reads behind the frame exactly when an access point looks for the queue of a last subframe whose
IPv4 header is cut before `tos`. -/
theorem amsdu_iff (env : AmsduEnv) (a : Adapter) (f : RecvFrame) :
    AmsduOk env a f ↔ NoCutIp env a (amsduStrip f) (amsduStart f) := by
  have hdone : ∀ n, (amsduStrip f).len < n → _ := fun n hn =>
    amsduWalk_done env a (amsduStrip f) (amsduStart_ok f) (Int.ofNat_lt.mpr hn) (Nat.zero_lt_succ _)
  constructor
  · intro h
    obtain ⟨t, ht, -, hin⟩ := h.ends _ (Nat.lt_succ_self _)
    obtain ⟨t', ht', -, hiff⟩ := hdone _ (Nat.lt_succ_self _)
    obtain rfl : t' = t := Option.some.inj (ht'.symm.trans ht)
    exact (hiff.mp hin).2
  · intro h
    constructor
    · intro ms hms hle hv hp hc n hn
      have hp' : ∀ m ∈ ms, Passes env a (amsduStrip f) m := by
        intro m hm
        obtain ⟨hcon, hind, hall, hchk⟩ := hp m hm
        exact ⟨amsduStrip_attrib f ▸ hcon, hind, hall, hchk⟩
      have hd : (amsduStrip f).data = [] ++ encodeAmsdu ms := amsduStrip_data hc
      have hle' : (amsduStart f).subframes.length + ms.length ≤ maxSubframeCount := by
        have h0 : (amsduStart f).subframes.length = 0 := rfl
        omega
      exact amsduWalk_encode ms hms hv hp' hd rfl (amsduStart_ok f) (Int.ofNat_lt.mpr hn) hle'
    · intro n hn
      obtain ⟨t, ht, hmax, hin⟩ := hdone n hn
      exact ⟨t, ht, hmax, hin.mpr ⟨rfl, h⟩⟩

/-- the environment of `amsduLoop` -/
def AmsduEnv.loopEnv (env : AmsduEnv) : RxEnv :=
  { env.toRxEnv with fwd := fun d s => decide (1 < env.asocListCnt) && env.fwd d s }

/-- the packets that `amsduLoop` takes from a subframe on -/
def amsduLoopPkts (env : AmsduEnv) (a : Adapter) (f : RecvFrame) (n : Nat) (s : AmsduWalk) : List Msdu :=
  (amsduLoop env.loopEnv a f n s.pdata (f.len - s.pdata) s.subframes.length).map (rtwOsAllocMsduPkt f)

/-- `move_to_next`, and what `amsduLoop` does behind a subframe -/
theorem moveToNext_amsduLoop {t : AmsduWalk} (hok : s.Ok f)
    (ih : ∀ {s' : AmsduWalk}, s'.Ok f → amsduWalk env a f n s' = some t →
      t.subframes = s'.subframes ++ amsduLoopPkts env a f n s')
    (h : (match moveToNext s (be16 f (s.pdata + 12)) with
      | (s', true) => amsduWalk env a f n s'
      | (s', false) => some s') = some t) :
    t.subframes = s.subframes ++ (if s.subframes.length < maxSubframeCount then
      amsduLoop env.loopEnv a f n (nextSubframe f s.pdata) (f.len - nextSubframe f s.pdata) s.subframes.length
      else []).map (rtwOsAllocMsduPkt f) := by
  obtain ⟨hsum, hnn⟩ := hok
  have hnext : nextSubframe f s.pdata
      = s.pdata + ethHlen + be16 f (s.pdata + 12) + paddingLen (be16 f (s.pdata + 12)) := rfl
  unfold moveToNext at h
  dsimp only at h
  by_cases hmax : maxSubframeCount ≤ s.subframes.length
  · rw [if_pos hmax] at h
    rw [if_neg (Nat.not_lt.mpr hmax), List.map_nil, List.append_nil, ← Option.some.inj h]
  rw [if_neg hmax] at h
  rw [if_pos (Nat.lt_of_not_le hmax)]
  by_cases hz : s.aLen - ethHlen - be16 f (s.pdata + 12) = 0
  · rw [if_pos hz] at h
    rw [ih ⟨by dsimp only; omega, le_of_eq hz.symm⟩ h, amsduLoop_nil (by omega)]
    unfold amsduLoopPkts
    rw [amsduLoop_nil (by dsimp only; omega)]
  rw [if_neg hz] at h
  by_cases hpad : s.aLen - ethHlen - be16 f (s.pdata + 12) < paddingLen (be16 f (s.pdata + 12))
  · rw [if_pos hpad] at h
    rw [amsduLoop_nil (by omega), List.map_nil, List.append_nil, ← Option.some.inj h]
  · rw [if_neg hpad] at h
    exact ih ⟨by dsimp only; omega, by dsimp only; omega⟩ h

/-- a subframe is handed up, or forwarded, or both, unless there is no buffer for it -/
theorem amsduAct_eq (hchk : ∀ m, env.indicatepktCheck m = true) {k : Nat} (da sa : Mac)
    (hbody : s.pdata + ethHlen + k ≤ f.len) :
    amsduAct env a f s k da sa =
      if (((env.act a da sa).indicate || (env.act a da sa).forward) && !env.alloc s.pdata) = true then (s, false)
      else ({ s with subframes := s.subframes ++ (if (env.act a da sa).indicate then
        [(⟨s.pdata + ethHlen, k, da, sa⟩ : Subframe)] else []).map (rtwOsAllocMsduPkt f) }, true) := by
  unfold amsduAct
  dsimp only
  rw [read_of_le hbody, hchk]
  cases (env.act a da sa).indicate <;> cases (env.act a da sa).forward <;> cases env.alloc s.pdata <;> simp

/-- the loop takes the packets that `amsduLoop` of `Recv.Indicate` takes -/
theorem amsduWalk_amsduLoop {t : AmsduWalk} (hchk : ∀ m, env.indicatepktCheck m = true) (hok : s.Ok f)
    (h : amsduWalk env a f n s = some t) : t.subframes = s.subframes ++ amsduLoopPkts env a f n s := by
  induction n generalizing s with
  | zero => cases h
  | succ n ih =>
    have heth : ethHlen = 14 := rfl
    have hal : ethAlen = 6 := rfl
    obtain ⟨hsum, hnn⟩ := id hok
    unfold amsduWalk at h
    unfold amsduLoopPkts
    by_cases hstop : s.aLen ≤ ethHlen
    · rw [if_pos hstop] at h
      rw [amsduLoop_nil (by omega), List.map_nil, List.append_nil, Option.some.inj h]
    rw [if_neg hstop] at h
    have hread : s.read f (s.pdata + 12) 2 = s := read_of_le (by omega)
    have hhdr : s.read f s.pdata (ethAlen + ethAlen) = s := read_of_le (by omega)
    -- a turn that breaks off
    have hbreak : amsduTurn env a f s = (s, false) → subframePasses env.loopEnv a f s.pdata ≠ true →
        t.subframes = s.subframes ++ (amsduLoop env.loopEnv a f (n + 1) s.pdata (f.len - s.pdata)
          s.subframes.length).map (rtwOsAllocMsduPkt f) := by
      intro hturn hno
      rw [hturn] at h
      rw [amsduLoop_stops hno, List.map_nil, List.append_nil, ← Option.some.inj h]
    by_cases hfit : (ethHlen + be16 f (s.pdata + 12) : Int) ≤ s.aLen
    swap
    · refine hbreak ?_ fun hp => ?_
      · unfold amsduTurn amsduSubframe
        dsimp only
        rw [hread, if_pos (by omega)]
      · have := (subframePasses_iff.mp hp).2.1
        omega
    cases hval : validateAmsduContent a f.attrib (f.bytes s.pdata ethAlen) (f.bytes (s.pdata + ethAlen) ethAlen) with
    | false =>
      refine hbreak ?_ fun hp => ?_
      · unfold amsduTurn amsduSubframe
        dsimp only
        rw [hread, if_neg (by omega), hhdr, hval]
        rfl
      · exact Bool.false_ne_true (hval.symm.trans (subframePasses_iff.mp hp).2.2.1)
    | true =>
      obtain ⟨b, -, he⟩ := amsduSubframe_eq env a hok hfit hval
      have hbody : s.pdata + ethHlen + be16 f (s.pdata + 12) ≤ f.len := by omega
      have hact := amsduAct_eq (a := a) (s := { s with inside := b }) hchk (f.bytes s.pdata ethAlen)
        (f.bytes (s.pdata + ethAlen) ethAlen) hbody
      unfold amsduTurn at h
      rw [he, hact] at h
      by_cases hnobuf : (((env.act a (f.bytes s.pdata ethAlen) (f.bytes (s.pdata + ethAlen) ethAlen)).indicate
          || (env.act a (f.bytes s.pdata ethAlen) (f.bytes (s.pdata + ethAlen) ethAlen)).forward)
          && !env.alloc s.pdata) = true
      · rw [if_pos hnobuf] at h
        have hno : subframePasses env.loopEnv a f s.pdata ≠ true :=
          fun hp => Bool.eq_false_iff.mp (subframePasses_iff.mp hp).2.2.2 hnobuf
        rw [amsduLoop_stops hno, List.map_nil, List.append_nil, ← Option.some.inj h]
      · rw [if_neg hnobuf] at h
        have hpass : subframePasses env.loopEnv a f s.pdata = true :=
          subframePasses_iff.mpr ⟨by omega, hbody, hval, Bool.eq_false_iff.mpr hnobuf⟩
        have hok' : ({ s with
            inside := b
            subframes := s.subframes ++ (if (subframeAct env.loopEnv a f s.pdata).indicate then
              [subframeAt f s.pdata] else []).map (rtwOsAllocMsduPkt f) } : AmsduWalk).Ok f := ⟨hsum, hnn⟩
        have ht := moveToNext_amsduLoop hok' ih h
        rw [List.length_append, List.length_map] at ht
        rw [ht, amsduLoop_passes hpass rfl, List.map_append, ← List.append_assoc]

/-- what `recvProcessMpdu` hands on is what the walk takes -/
theorem amsduWalk_amsduToMsdu {t : AmsduWalk} (hchk : ∀ m, env.indicatepktCheck m = true)
    (hn : (amsduStrip f).len < n) (h : amsduWalk env a (amsduStrip f) n (amsduStart f) = some t) :
    t.subframes = amsduToMsdu env.loopEnv a f := by
  have hw := amsduWalk_amsduLoop hchk (amsduStart_ok f) h
  rw [hw]
  show amsduLoopPkts env a (amsduStrip f) n (amsduStart f) = _
  unfold amsduLoopPkts amsduToMsdu amsduSubframes
  have hlen : (amsduStrip f).len - (amsduStart f).pdata = (amsduStrip f).len := rfl
  rw [hlen, amsduLoop_fuel env.loopEnv a (amsduStrip f) hn.le le_rfl]
  rfl

/-! ## a cut IPv4 header -/

/-- an access point with a second station -/
def relayEnv : AmsduEnv := { asocListCnt := 2 }

/-- a group addressed subframe that ends behind the EtherType `0x0800` -/
def cutIpAmsdu : RecvFrame where
  id := 0
  attrib := { amsdu := true }
  data := [1, 0, 0x5e, 0, 0, 1] ++ [2, 0, 0, 0, 0, 9] ++ [0, 8] ++ [0xaa, 0xaa, 3, 0, 0, 0, 8, 0]

theorem amsdu_reads_behind : ¬ ∀ (env : AmsduEnv) (a : Adapter) (f : RecvFrame), AmsduOk env a f := by
  intro h
  obtain ⟨t, ht, -, hin⟩ := (h relayEnv { mode := .ap, macAddr := myMac } cutIpAmsdu).ends 23 (by decide)
  have hw : (amsduWalk relayEnv { mode := .ap, macAddr := myMac } (amsduStrip cutIpAmsdu) 23
      (amsduStart cutIpAmsdu)).map AmsduWalk.inside = some false := by decide
  rw [ht] at hw
  exact absurd (hin.symm.trans (Option.some.inj hw)) (by decide)

end Rtl8192eu
