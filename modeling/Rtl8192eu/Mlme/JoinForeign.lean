import Rtl8192eu.Lib.Run
import Rtl8192eu.Mlme.Join

/-!
# A join and the frames of other transmitters

`receive_disconnect` compares the transmitter with the BSSID, `OnAuthClient` and `OnAssocRsp` do
not: an answer to an authentication or an association counts whoever sent it.

* `Join.view`      what a join is to its environment;
* `Join.takesPart`   the answers that are acted on (`onAuthClient_takesPart`,
                          `onAssocRsp_takesPart`);
* `join_foreign`   a frame of another transmitter leaves the join alone exactly when it is
                          not one of these, and a run without such answers ends as it does without
                          any frame of another transmitter.
-/

namespace Rtl8192eu

open Run

/-! ## what a join is -/

structure JoinView where
  state : FwState
  authSeq : Nat
  authAlgo : AuthAlgrthm
  authStatus : Nat
  chgTxt : List UInt8
  capability : Nat
  aid : Nat
  linkTimer : LinkTimer
  results : List (Int × Nat)
  deriving DecidableEq, Repr

def JoinOut.result : JoinOut → Option (Int × Nat)
  | .joinRes res status => some (res, status)
  | _ => none

/-- the calls of `report_join_res` -/
def Join.results (s : Join) : List (Int × Nat) := s.out.filterMap JoinOut.result

def Join.view (s : Join) : JoinView :=
  ⟨s.state, s.authSeq, s.authAlgo, s.authStatus, s.chgTxt, s.capability, s.aid, s.linkTimer, s.results⟩

/-- `WIFI_FW_AUTH_NULL`, `WIFI_FW_AUTH_STATE` or `WIFI_FW_ASSOC_STATE` -/
def Join.joining (s : Join) : Bool := s.state.authNull || s.state.authState || s.state.assocState

def wifiAssocRsp : Nat := 0x10
def wifiReassocRsp : Nat := 0x30

/-- authentication, (re)association response, deauthentication or disassociation -/
def joinFrame (f : RecvFrame) : Bool :=
  getFrameType f = .mgt
    && getFrameSubType f ∈ [wifiAuth, wifiAssocRsp, wifiReassocRsp, wifiDeauth, wifiDisassoc]

/-- a frame of a join with another transmitter than the access point -/
def foreignFrame (bssid : Mac) (f : RecvFrame) : Bool := joinFrame f && getAddr2 f ≠ bssid

def foreignEvent (bssid : Mac) : JoinEvent → Bool
  | .frame f => foreignFrame bssid f
  | _ => false

namespace Join

/-! ## the answers that count -/

/-- `mgt_dispatcher` hands the frame on: it is for this adapter and no duplicate -/
def delivered (conf : JoinConf) (s : Join) (f : RecvFrame) : Bool :=
  forMe conf.adapter f
    && !((conf.adapter.rtwGetStainfo (getAddr2 f)).isSome && getRetry f
      && f.attrib.seqNum.val = s.rxMgmtFrameSeqNum (staKey (getAddr2 f)))

/-- a challenge text that fits -/
def chgTxtFits (f : RecvFrame) : Bool := (answerChgTxt f).any fun r => r.2 ≤ 128

/-- an authentication is under way and this is a refusal, the challenge or the last frame -/
def authTakesPart (s : Join) (f : RecvFrame) : Bool :=
  s.state.authState && !s.joinAbort
    && (authWord f 4 ≠ 0
      || authWord f 2 = 2 && (s.authAlgo ≠ .shared || chgTxtFits f)
      || authWord f 2 = 4 && s.authAlgo = .shared)

/-- an association is under way -/
def assocTakesPart (s : Join) : Bool :=
  (s.state.authSuccess || s.state.assocState) && !s.joinAbort && !s.state.assocSuccess

def takesPart (conf : JoinConf) (s : Join) (f : RecvFrame) : Bool :=
  s.delivered conf f && getDa f = conf.adapter.macAddr
    && (getFrameSubType f = wifiAuth && s.authTakesPart f
      || (getFrameSubType f = wifiAssocRsp || getFrameSubType f = wifiReassocRsp) && s.assocTakesPart)

section

variable {conf : JoinConf} {s s' : Join} {f : RecvFrame}

theorem view_ne_of_sets (h : s'.linkTimer.sets = s.linkTimer.sets + 1) : s'.view ≠ s.view := by
  intro he
  have := congrArg (fun v => v.linkTimer.sets) he
  dsimp only [view] at this
  omega

theorem view_ne_of_result {res : Int} {status : Nat} (h : s'.out = s.out ++ [.joinRes res status]) :
    s'.view ≠ s.view := by
  intro he
  have := congrArg (fun v => v.results.length) he
  simp [view, results, h, JoinOut.result] at this

theorem onChgTxt_spec :
    (chgTxtFits f = false → s.onChgTxt f = s)
      ∧ (chgTxtFits f = true → (s.onChgTxt f).linkTimer.sets = s.linkTimer.sets + 1) := by
  unfold onChgTxt chgTxtFits
  cases answerChgTxt f with
  | none => exact ⟨fun _ => rfl, by simp⟩
  | some r =>
    by_cases hn : 128 < r.2
    · refine ⟨fun _ => if_pos hn, fun h => ?_⟩
      simp at h
      omega
    · refine ⟨fun h => ?_, fun _ => ?_⟩
      · simp at h
        omega
      · dsimp only
        rw [if_neg hn]
        rfl

/-- an authentication frame sets the link timer, or changes nothing -/
theorem onAuthClient_takesPart (hsae : s.externalSae conf = false)
    (hda : getDa f = conf.adapter.macAddr) :
    (s.authTakesPart f = false → s.onAuthClient conf f = s)
      ∧ (s.authTakesPart f = true →
        (s.onAuthClient conf f).linkTimer.sets = s.linkTimer.sets + 1) := by
  obtain ⟨hnot, hfits⟩ := onChgTxt_spec (s := s) (f := f)
  unfold onAuthClient authTakesPart
  rw [hsae, Bool.and_false, if_neg Bool.false_ne_true, if_neg (not_not.mpr hda)]
  split
  · rename_i hidle
    refine ⟨fun _ => rfl, fun h => ?_⟩
    revert hidle h
    cases s.state.authState <;> cases s.joinAbort <;> simp
  rename_i hbusy
  have hb : s.state.authState = true ∧ s.joinAbort = false := by
    revert hbusy
    cases s.state.authState <;> cases s.joinAbort <;> simp
  rw [hb.1, hb.2]
  split
  · rename_i hst
    exact ⟨fun h => by simp [hst] at h, fun _ => rfl⟩
  rename_i hst
  split
  · rename_i h2
    split
    · rename_i hsh
      constructor
      · intro h
        exact hnot (by simpa [hst, h2, hsh] using h)
      · intro h
        exact hfits (by simpa [hst, h2, hsh] using h)
    · rename_i hsh
      exact ⟨fun h => by simp [hst, h2, hsh] at h, fun _ => rfl⟩
  rename_i h2
  split
  · rename_i h4
    split
    · rename_i hsh
      exact ⟨fun h => by simp [hst, h4, hsh] at h, fun _ => rfl⟩
    · rename_i hsh
      exact ⟨fun _ => rfl, fun h => by simp [hst, h4, hsh] at h⟩
  · rename_i h4
    exact ⟨fun _ => rfl, fun h => by simp [hst, h2, h4] at h⟩

/-- a response reports a result, or changes nothing -/
theorem onAssocRsp_takesPart (hda : getDa f = conf.adapter.macAddr) :
    (s.assocTakesPart = false → s.onAssocRsp conf f = s)
      ∧ (s.assocTakesPart = true →
        ∃ res status, (s.onAssocRsp conf f).out = s.out ++ [.joinRes res status]) := by
  unfold onAssocRsp assocTakesPart
  rw [if_neg (not_not.mpr hda)]
  split
  · rename_i hidle
    refine ⟨fun _ => rfl, fun h => ?_⟩
    revert hidle h
    cases s.state.authSuccess <;> cases s.state.assocState <;> cases s.joinAbort <;> simp
  rename_i hbusy
  split
  · rename_i hsucc
    exact ⟨fun _ => rfl, fun h => by simp [hsucc] at h⟩
  rename_i hsucc
  refine ⟨fun h => ?_, fun _ => ?_⟩
  · revert hbusy hsucc h
    cases s.state.authSuccess <;> cases s.state.assocState <;> cases s.joinAbort <;>
      cases s.state.assocSuccess <;> simp
  · dsimp only
    split
    · exact ⟨_, _, rfl⟩
    split
    · exact ⟨_, _, rfl⟩
    · exact ⟨_, _, rfl⟩

theorem receiveDisconnect_foreign {addr : Mac} {reason : Nat} (h : addr ≠ s.bssid) :
    s.receiveDisconnect addr reason = s :=
  if_pos h

end

/-! ## one frame -/

/-- another record of the sequence numbers seen -/
def withSeq (s : Join) (seq : Mac → Nat) : Join := { s with rxMgmtFrameSeqNum := seq }

section

variable {conf : JoinConf} {s : Join} {f : RecvFrame}

theorem mlmeHandler_joinFrame (conf : JoinConf) (hf : joinFrame f = true) :
    getFrameSubType f = wifiAuth ∧ mlmeHandler conf.adapter f = some .onAuthClient
      ∨ (getFrameSubType f = wifiAssocRsp ∨ getFrameSubType f = wifiReassocRsp)
        ∧ mlmeHandler conf.adapter f = some .onAssocRsp
      ∨ getFrameSubType f = wifiDeauth ∧ mlmeHandler conf.adapter f = some .onDeAuth
      ∨ getFrameSubType f = wifiDisassoc ∧ mlmeHandler conf.adapter f = some .onDisassoc := by
  simp only [joinFrame, List.mem_cons, List.not_mem_nil, or_false, Bool.and_eq_true,
    decide_eq_true_eq] at hf
  unfold mlmeHandler
  rw [conf.isSta]
  rcases hf.2 with h | h | h | h | h <;> rw [h] <;> decide

/-- the handlers of a join are reached by no other frame -/
theorem handle_other (hf : joinFrame f = false) (ht : getFrameType f = .mgt) :
    s.handle conf f (mlmeHandler conf.adapter f) = s := by
  have hs := getFrameSubType_mgt ht
  have hlt : (f.byte 0).toNat / 16 < 16 := by
    have := (f.byte 0).toNat_lt
    omega
  have hn : getFrameSubType f ∉ [wifiAuth, wifiAssocRsp, wifiReassocRsp, wifiDeauth, wifiDisassoc] := by
    simpa [joinFrame, ht] using hf
  have hauth : getFrameSubType f ≠ wifiAuth := fun h => hn (h ▸ List.mem_cons_self)
  rw [mlmeHandler, if_neg hauth, hs, Nat.mul_div_cancel_left _ (by decide)]
  rw [hs] at hn
  generalize (f.byte 0).toNat / 16 = n at hn hlt
  have htbl : ∀ n < 16, 16 * n ∉ [wifiAuth, wifiAssocRsp, wifiReassocRsp, wifiDeauth, wifiDisassoc] →
      mlmeStaTbl[n]? ≠ some .onAuthClient ∧ mlmeStaTbl[n]? ≠ some .onAssocRsp
        ∧ mlmeStaTbl[n]? ≠ some .onDeAuth ∧ mlmeStaTbl[n]? ≠ some .onDisassoc := by
    decide
  obtain ⟨h1, h2, h3, h4⟩ := htbl n hlt hn
  unfold handle
  split
  · exact absurd ‹_› h1
  · exact absurd ‹_› h2
  · exact absurd ‹_› h3
  · exact absurd ‹_› h4
  · rfl

/-- the record changes for the station of the transmitter only -/
theorem mgtDispatcher_ne {a : Adapter} {seq : Mac → Nat} {k : Mac} (hk : k ≠ staKey (getAddr2 f)) :
    (mgtDispatcher a seq f).2 k = seq k := by
  unfold mgtDispatcher
  split
  · rfl
  split
  · rfl
  split
  · rfl
  split
  · rfl
  split
  · rfl
  · exact Function.update_of_ne hk _ _

theorem dispatch_joinFrame {h : MlmeHandler} (hf : joinFrame f = true)
    (hh : mlmeHandler conf.adapter f = some h) :
    s.dispatch conf f
      = (s.withSeq (mgtDispatcher conf.adapter s.rxMgmtFrameSeqNum f).2).handle conf f
        (if s.delivered conf f then some h else none) := by
  have hd : (mgtDispatcher conf.adapter s.rxMgmtFrameSeqNum f).1
      = if s.delivered conf f then some h else none := by
    have ht : getFrameType f = .mgt := by
      simp only [joinFrame, Bool.and_eq_true, decide_eq_true_eq] at hf
      exact hf.1
    unfold mgtDispatcher delivered
    rw [if_neg (not_not.mpr ht), hh]
    cases forMe conf.adapter f <;> cases conf.adapter.rtwGetStainfo (getAddr2 f) <;> simp
    split <;> rename_i hdup <;> simp [hdup]
  unfold dispatch
  rw [← hd]
  rfl

/-- a foreign frame that takes no part leaves only the record of its sequence number -/
theorem dispatch_foreign (hsae : s.externalSae conf = false) (hf : foreignFrame s.bssid f = true)
    (hp : s.takesPart conf f = false) :
    s.dispatch conf f = s.withSeq (mgtDispatcher conf.adapter s.rxMgmtFrameSeqNum f).2 := by
  simp only [foreignFrame, Bool.and_eq_true, decide_eq_true_eq] at hf
  obtain ⟨hj, ha⟩ := hf
  have hh := mlmeHandler_joinFrame conf hj
  obtain ⟨h, hsome⟩ : ∃ h, mlmeHandler conf.adapter f = some h := by
    rcases hh with ⟨_, hh⟩ | ⟨_, hh⟩ | ⟨_, hh⟩ | ⟨_, hh⟩ <;> exact ⟨_, hh⟩
  rw [dispatch_joinFrame hj hsome]
  generalize (mgtDispatcher conf.adapter s.rxMgmtFrameSeqNum f).2 = seq
  cases hd : s.delivered conf f with
  | false =>
    rw [if_neg Bool.false_ne_true]
    rfl
  | true =>
    rw [if_pos rfl, ← hsome]
    rcases hh with ⟨hs, hh⟩ | ⟨hs, hh⟩ | ⟨hs, hh⟩ | ⟨hs, hh⟩ <;> rw [hh]
    · by_cases hda : getDa f = conf.adapter.macAddr
      · apply (onAuthClient_takesPart (s := s.withSeq seq) hsae hda).1
        show s.authTakesPart f = false
        simpa [takesPart, hd, hda, hs, wifiAssocRsp, wifiReassocRsp, wifiAuth] using hp
      · show onAuthClient conf (s.withSeq seq) f = _
        rw [onAuthClient, show (s.withSeq seq).externalSae conf = false from hsae, Bool.and_false,
          if_neg Bool.false_ne_true, if_pos hda]
    · by_cases hda : getDa f = conf.adapter.macAddr
      · apply (onAssocRsp_takesPart (s := s.withSeq seq) hda).1
        show s.assocTakesPart = false
        rcases hs with hs | hs <;>
          simpa [takesPart, hd, hda, hs, wifiAssocRsp, wifiReassocRsp, wifiAuth] using hp
      · exact if_pos hda
    · show onDeAuthSta (s.withSeq seq) f = _
      unfold onDeAuthSta
      rw [receiveDisconnect_foreign (s := s.withSeq seq) ha]
      split
      · rfl
      · exact ite_self _
    · show onDisassocSta (s.withSeq seq) f = _
      unfold onDisassocSta
      rw [receiveDisconnect_foreign (s := s.withSeq seq) ha]
      exact ite_self _

theorem dispatch_takesPart (hsae : s.externalSae conf = false) (hj : joinFrame f = true)
    (hp : s.takesPart conf f = true) : (s.dispatch conf f).view ≠ s.view := by
  have hp' := hp
  simp only [takesPart, Bool.and_eq_true, decide_eq_true_eq] at hp'
  obtain ⟨⟨hd, hda⟩, hor⟩ := hp'
  rcases mlmeHandler_joinFrame conf hj with ⟨hs, hh⟩ | ⟨hs, hh⟩ | ⟨hs, hh⟩ | ⟨hs, hh⟩
  · rw [dispatch_joinFrame hj hh, hd, if_pos rfl]
    generalize (mgtDispatcher conf.adapter s.rxMgmtFrameSeqNum f).2 = seq
    apply view_ne_of_sets
    apply (onAuthClient_takesPart (s := s.withSeq seq) hsae hda).2
    show s.authTakesPart f = true
    simpa [hs, wifiAssocRsp, wifiReassocRsp, wifiAuth] using hor
  · rw [dispatch_joinFrame hj hh, hd, if_pos rfl]
    generalize (mgtDispatcher conf.adapter s.rxMgmtFrameSeqNum f).2 = seq
    have ht : s.assocTakesPart = true := by
      rcases hs with hs | hs <;>
        simpa [hs, wifiAssocRsp, wifiReassocRsp, wifiAuth] using hor
    obtain ⟨res, status, hout⟩ := (onAssocRsp_takesPart (s := s.withSeq seq) hda).2 ht
    exact view_ne_of_result hout
  · simp [hs, wifiAssocRsp, wifiReassocRsp, wifiAuth, wifiDeauth] at hor
  · simp [hs, wifiAssocRsp, wifiReassocRsp, wifiAuth, wifiDisassoc] at hor

end

/-! ## runs -/

/-- nothing else reads or writes the sequence numbers and the BSSID -/
structure SeqFree (g : Join → Join) : Prop where
  comm : ∀ s seq, g (s.withSeq seq) = (g s).withSeq seq
  bssid : ∀ s, (g s).bssid = s.bssid
  seq : ∀ s, (g s).rxMgmtFrameSeqNum = s.rxMgmtFrameSeqNum

theorem SeqFree.id : SeqFree fun s => s := ⟨fun _ _ => rfl, fun _ => rfl, fun _ => rfl⟩

theorem SeqFree.ite {c : Join → Prop} [DecidablePred c] {g h : Join → Join}
    (hc : ∀ s seq, c (s.withSeq seq) ↔ c s) (hg : SeqFree g) (hh : SeqFree h) :
    SeqFree fun s => if c s then g s else h s := by
  refine ⟨fun s seq => ?_, fun s => ?_, fun s => ?_⟩
  · by_cases hs : c s
    · simp only [if_pos hs, if_pos ((hc s seq).mpr hs), hg.comm]
    · simp only [if_neg hs, if_neg fun hn => hs ((hc s seq).mp hn), hh.comm]
  · split
    · exact hg.bssid s
    · exact hh.bssid s
  · split
    · exact hg.seq s
    · exact hh.seq s

theorem SeqFree.comp {g h : Join → Join} (hg : SeqFree g) (hh : SeqFree h) :
    SeqFree fun s => g (h s) :=
  ⟨fun s seq => by rw [hh.comm, hg.comm], fun s => by rw [hg.bssid, hh.bssid],
    fun s => by rw [hg.seq, hh.seq]⟩

section

variable (conf : JoinConf) (f : RecvFrame)

theorem giveUp_seqFree (res : Int) (status : Nat) : SeqFree fun s => s.giveUp res status :=
  ⟨fun _ _ => rfl, fun _ => rfl, fun _ => rfl⟩

theorem setLinkTimer_seqFree (ms : Nat) : SeqFree fun s => s.setLinkTimer ms :=
  ⟨fun _ _ => rfl, fun _ => rfl, fun _ => rfl⟩

theorem startClntAssoc_seqFree : SeqFree startClntAssoc :=
  ⟨fun _ _ => rfl, fun _ => rfl, fun _ => rfl⟩

theorem startClntAuth_seqFree : SeqFree (startClntAuth conf) :=
  SeqFree.ite (c := fun s => s.externalSae conf = true) (fun _ _ => Iff.rfl)
    ⟨fun _ _ => rfl, fun _ => rfl, fun _ => rfl⟩ ⟨fun _ _ => rfl, fun _ => rfl, fun _ => rfl⟩

theorem onChgTxt_seqFree : SeqFree fun s => s.onChgTxt f := by
  unfold onChgTxt
  cases answerChgTxt f with
  | none => exact SeqFree.id
  | some r =>
    apply SeqFree.ite (fun _ _ => Iff.rfl) SeqFree.id
    exact ⟨fun _ _ => rfl, fun _ => rfl, fun _ => rfl⟩

theorem onAuthClient_seqFree : SeqFree fun s => s.onAuthClient conf f := by
  have hassoc := startClntAssoc_seqFree
  unfold onAuthClient
  refine SeqFree.ite (fun _ _ => Iff.rfl) ⟨fun _ _ => rfl, fun _ => rfl, fun _ => rfl⟩ ?_
  refine SeqFree.ite (fun _ _ => Iff.rfl) SeqFree.id ?_
  refine SeqFree.ite (fun _ _ => Iff.rfl) SeqFree.id ?_
  refine SeqFree.ite (fun _ _ => Iff.rfl) ⟨fun _ _ => rfl, fun _ => rfl, fun _ => rfl⟩ ?_
  refine SeqFree.ite (fun _ _ => Iff.rfl) ?_ ?_
  · exact SeqFree.ite (fun _ _ => Iff.rfl) (onChgTxt_seqFree f) hassoc
  refine SeqFree.ite (fun _ _ => Iff.rfl) ?_ SeqFree.id
  exact SeqFree.ite (fun _ _ => Iff.rfl) hassoc SeqFree.id

theorem onAssocRsp_seqFree : SeqFree fun s => s.onAssocRsp conf f := by
  unfold onAssocRsp
  refine SeqFree.ite (fun _ _ => Iff.rfl) SeqFree.id ?_
  refine SeqFree.ite (fun _ _ => Iff.rfl) SeqFree.id ?_
  refine SeqFree.ite (fun _ _ => Iff.rfl) SeqFree.id ?_
  refine SeqFree.ite (fun _ _ => Iff.rfl) ⟨fun _ _ => rfl, fun _ => rfl, fun _ => rfl⟩ ?_
  exact SeqFree.ite (fun _ _ => Iff.rfl) ⟨fun _ _ => rfl, fun _ => rfl, fun _ => rfl⟩
    ⟨fun _ _ => rfl, fun _ => rfl, fun _ => rfl⟩

/-- the address may be that of the frame or the BSSID -/
theorem receiveDisconnect_seqFree (addr : Join → Mac) (ha : ∀ s seq, addr (s.withSeq seq) = addr s)
    (reason : Nat) : SeqFree fun s => s.receiveDisconnect (addr s) reason := by
  unfold receiveDisconnect
  refine SeqFree.ite (fun s seq => by rw [ha]; rfl) SeqFree.id ?_
  refine SeqFree.ite (fun _ _ => Iff.rfl) ?_ SeqFree.id
  refine SeqFree.ite (fun _ _ => Iff.rfl) ?_ ?_
  · refine ⟨fun s seq => ?_, fun _ => rfl, fun _ => rfl⟩
    rw [ha]
    rfl
  · exact SeqFree.ite (fun _ _ => Iff.rfl) (giveUp_seqFree _ _) SeqFree.id

theorem handle_seqFree (h : Option MlmeHandler) : SeqFree fun s => s.handle conf f h := by
  have hrd := fun reason => receiveDisconnect_seqFree (fun _ => getAddr2 f) (fun _ _ => rfl) reason
  unfold handle
  split
  · exact onAuthClient_seqFree conf f
  · exact onAssocRsp_seqFree conf f
  · unfold onDeAuthSta
    refine SeqFree.ite (fun _ _ => Iff.rfl) SeqFree.id ?_
    exact SeqFree.ite (fun _ _ => Iff.rfl) SeqFree.id (hrd _)
  · exact SeqFree.ite (fun _ _ => Iff.rfl) SeqFree.id (hrd _)
  · exact SeqFree.id

theorem onBeacon_seqFree (b : Beacon) : SeqFree fun s => s.onBeacon conf b := by
  have hrd := receiveDisconnect_seqFree (fun s => s.bssid) (fun _ _ => rfl) 0
  unfold onBeacon
  refine SeqFree.ite (fun _ _ => Iff.rfl) SeqFree.id ?_
  refine SeqFree.ite (fun _ _ => Iff.rfl) ?_ ?_
  · exact SeqFree.ite (fun _ _ => Iff.rfl) hrd SeqFree.id
  refine SeqFree.ite (fun _ _ => Iff.rfl) ?_ ?_
  · exact SeqFree.ite (fun _ _ => Iff.rfl) (setLinkTimer_seqFree 1) (startClntAuth_seqFree conf)
  · exact SeqFree.ite (fun _ _ => Iff.rfl) hrd SeqFree.id

theorem reauth_seqFree : SeqFree reauth := by
  unfold reauth
  refine SeqFree.ite (fun _ _ => Iff.rfl) ?_ ⟨fun _ _ => rfl, fun _ => rfl, fun _ => rfl⟩
  exact SeqFree.ite (fun _ _ => Iff.rfl) ⟨fun _ _ => rfl, fun _ => rfl, fun _ => rfl⟩
    ⟨fun _ _ => rfl, fun _ => rfl, fun _ => rfl⟩

theorem reassoc_seqFree : SeqFree reassoc :=
  SeqFree.ite (c := fun s => reassocLimit < s.reassocCount + 1) (fun _ _ => Iff.rfl)
    ⟨fun _ _ => rfl, fun _ => rfl, fun _ => rfl⟩ ⟨fun _ _ => rfl, fun _ => rfl, fun _ => rfl⟩

theorem linkTimerFires_seqFree : SeqFree fun s => s.linkTimerFires conf := by
  have hgive := giveUp_seqFree
  have hcancel : SeqFree cancelLinkTimer := ⟨fun _ _ => rfl, fun _ => rfl, fun _ => rfl⟩
  have hhdl : SeqFree (linkTimerHdl conf) := by
    unfold linkTimerHdl
    refine SeqFree.ite (fun _ _ => Iff.rfl) (hgive _ _) ?_
    refine SeqFree.ite (fun _ _ => Iff.rfl) (hgive _ _) ?_
    refine SeqFree.ite (fun _ _ => Iff.rfl) ?_ ?_
    · exact SeqFree.ite (fun _ _ => Iff.rfl) SeqFree.id reauth_seqFree
    · exact SeqFree.ite (fun _ _ => Iff.rfl) reassoc_seqFree SeqFree.id
  exact SeqFree.ite (fun _ _ => Iff.rfl) (hhdl.comp hcancel) SeqFree.id

end

/-- the same join, but for what other stations have sent -/
structure SameBut (bssid : Mac) (s t : Join) : Prop where
  eq : t = s.withSeq t.rxMgmtFrameSeqNum
  peer : s.bssid = bssid
  seq : t.rxMgmtFrameSeqNum (staKey bssid) = s.rxMgmtFrameSeqNum (staKey bssid)

section

variable {conf : JoinConf} {bssid : Mac} {s t : Join} {f : RecvFrame}

theorem SeqFree.sameBut {g : Join → Join} (hg : SeqFree g) (h : SameBut bssid s t) :
    SameBut bssid (g s) (g t) := by
  refine ⟨?_, ?_, ?_⟩
  · rw [hg.seq t]
    nth_rewrite 1 [h.eq]
    exact hg.comm _ _
  · rw [hg.bssid, h.peer]
  · rw [hg.seq, hg.seq, h.seq]

theorem SameBut.withSeq {q q' : Mac → Nat} (h : SameBut bssid s t)
    (hq : q' (staKey bssid) = q (staKey bssid)) : SameBut bssid (s.withSeq q) (t.withSeq q') := by
  refine ⟨?_, h.peer, hq⟩
  rw [h.eq]
  rfl

theorem SameBut.view (h : SameBut bssid s t) : t.view = s.view := by
  rw [h.eq]
  rfl

/-- the dispatcher looks at the record of the transmitter only -/
theorem mgtDispatcher_agree {a : Adapter} {q q' : Mac → Nat}
    (hq : q' (staKey (getAddr2 f)) = q (staKey (getAddr2 f))) :
    (mgtDispatcher a q' f).1 = (mgtDispatcher a q f).1
      ∧ (mgtDispatcher a q' f).2 (staKey (getAddr2 f)) = (mgtDispatcher a q f).2 (staKey (getAddr2 f)) := by
  unfold mgtDispatcher
  rw [hq]
  split
  · exact ⟨rfl, hq⟩
  split
  · exact ⟨rfl, hq⟩
  split
  · exact ⟨rfl, hq⟩
  split
  · exact ⟨rfl, hq⟩
  split
  · exact ⟨rfl, hq⟩
  · refine ⟨rfl, ?_⟩
    dsimp only
    rw [Function.update_self, Function.update_self]

theorem dispatch_other (hf : joinFrame f = false) :
    s.dispatch conf f = s.withSeq (mgtDispatcher conf.adapter s.rxMgmtFrameSeqNum f).2 := by
  show (s.withSeq _).handle conf f _ = _
  generalize hh : (mgtDispatcher conf.adapter s.rxMgmtFrameSeqNum f).1 = h
  cases h with
  | none => rfl
  | some h =>
    obtain ⟨ht, -, hm⟩ := mgtDispatcher_some hh
    rw [← hm]
    exact handle_other hf ht

theorem SameBut.dispatch (h : SameBut bssid s t) (hf : foreignFrame bssid f = false) :
    SameBut bssid (s.dispatch conf f) (t.dispatch conf f) := by
  by_cases hk : staKey (getAddr2 f) = staKey bssid
  · have hq := h.seq
    rw [← hk] at hq
    obtain ⟨h1, h2⟩ := mgtDispatcher_agree (a := conf.adapter) hq
    rw [hk] at h2
    show SameBut bssid ((s.withSeq _).handle conf f _) ((t.withSeq _).handle conf f _)
    rw [h1]
    exact (handle_seqFree conf f _).sameBut (h.withSeq h2)
  · -- of another station, so it is no frame of the join
    have hj : joinFrame f = false := by
      have hne : getAddr2 f ≠ bssid := fun e => hk (by rw [e])
      simpa [foreignFrame, hne] using hf
    rw [dispatch_other hj, dispatch_other hj]
    apply h.withSeq
    rw [mgtDispatcher_ne (Ne.symm hk), mgtDispatcher_ne (Ne.symm hk)]
    exact h.seq

/-- before a frame of another transmitter: it takes no part, and is not counted as one of the
access point by the duplicate check -/
def ForeignOk (conf : JoinConf) (bssid : Mac) (s : Join) : JoinEvent → Prop
  | .frame f => foreignFrame bssid f = true →
    s.takesPart conf f = false ∧ staKey (getAddr2 f) ≠ staKey bssid
  | _ => True

instance decidableForeignOk (conf : JoinConf) (bssid : Mac) (s : Join) :
    ∀ e, Decidable (s.ForeignOk conf bssid e)
  | .frame f => inferInstanceAs (Decidable (foreignFrame bssid f = true →
      s.takesPart conf f = false ∧ staKey (getAddr2 f) ≠ staKey bssid))
  | .beacon _ => isTrue trivial
  | .linkTimer => isTrue trivial
  | .abort => isTrue trivial
  | .abortDone => isTrue trivial

theorem sameBut_step (h : SameBut bssid s t) (e : JoinEvent) (he : foreignEvent bssid e = false) :
    SameBut bssid (s.step conf e) (t.step conf e) := by
  cases e with
  | frame f => exact h.dispatch he
  | beacon b => exact (onBeacon_seqFree conf b).sameBut h
  | linkTimer => exact (linkTimerFires_seqFree conf).sameBut h
  | abort =>
    have hg : SeqFree fun s => { s with joinAbort := true }.setLinkTimer 1 :=
      ⟨fun _ _ => rfl, fun _ => rfl, fun _ => rfl⟩
    exact hg.sameBut h
  | abortDone =>
    have hg : SeqFree fun s => { s with joinAbort := false } :=
      ⟨fun _ _ => rfl, fun _ => rfl, fun _ => rfl⟩
    exact hg.sameBut h

theorem sameBut_foreign (h : SameBut bssid s t) (hsae : s.externalSae conf = false) (e : JoinEvent)
    (he : foreignEvent bssid e = true) (hC : s.ForeignOk conf bssid e) :
    SameBut bssid (s.step conf e) t := by
  cases e with
  | frame f =>
    obtain ⟨hp, hk⟩ := hC he
    show SameBut bssid (s.dispatch conf f) t
    rw [dispatch_foreign hsae (by rw [h.peer]; exact he) hp]
    refine ⟨h.eq, h.peer, ?_⟩
    rw [h.seq]
    exact (mgtDispatcher_ne (Ne.symm hk)).symm
  | beacon b => cases he
  | linkTimer => cases he
  | abort => cases he
  | abortDone => cases he

end

end Join

/-- **A join and the frames of other transmitters.**  A frame of a join from another transmitter
changes nothing exactly when it is not an answer that is acted on; and a run in which none of them
is ends as it does without them. -/
theorem join_foreign (conf : JoinConf) :
    (∀ (s : Join) (f : RecvFrame), s.joining = true → s.externalSae conf = false →
      foreignFrame s.bssid f = true →
      ((s.dispatch conf f).view = s.view ↔ s.takesPart conf f = false))
    ∧ ∀ (s : Join) (es : List JoinEvent), s.externalSae conf = false →
      Along (Join.step conf) (Join.ForeignOk conf s.bssid) s es →
      (run (Join.step conf) s es).view
        = (run (Join.step conf) s (es.filter fun e => !foreignEvent s.bssid e)).view := by
  constructor
  · intro s f _ hsae hf
    constructor
    · intro hv
      have hj : joinFrame f = true := by
        simp only [foreignFrame, Bool.and_eq_true] at hf
        exact hf.1
      cases hp : s.takesPart conf f with
      | false => rfl
      | true => exact absurd hv (Join.dispatch_takesPart hsae hj hp)
    · intro hp
      rw [Join.dispatch_foreign hsae hf hp]
      rfl
  · intro s es hsae hC
    have hR : Join.SameBut s.bssid s s := ⟨rfl, rfl, rfl⟩
    refine (Run.run_filter_rel (R := Join.SameBut s.bssid) ?_ ?_ s s es hR hC).view.symm
    · intro s' t e h hk
      exact Join.sameBut_step h e (by simpa using hk)
    · intro s' t e h hk hok
      have hsae' : s'.externalSae conf = false := by
        rw [Join.externalSae, h.peer]
        exact hsae
      exact Join.sameBut_foreign h hsae' e (by simpa using hk) hok

/-! ## an open network -/

def joinAp : Mac := [2, 0, 0, 0, 0, 2]
def joinSta : Mac := [2, 0, 0, 0, 0, 1]

def joinConf : JoinConf where
  adapter := { macAddr := joinSta }
  isSta := rfl

/-- the authentication request has been sent -/
def joinAuthSent : Join where
  bssid := joinAp
  state := { hw := .station, authState := true }
  authSeq := 1
  linkTimer := ⟨some 300, 2⟩

/-- a management frame to the station, with subtype, transmitter and body -/
def joinMgnt (subtype : UInt8) (sa : Mac) (body : List UInt8) : RecvFrame where
  id := 0
  data := [subtype, 0, 0, 0] ++ joinSta ++ sa ++ joinAp ++ [0, 0] ++ body
  room := List.replicate 64 0

/-- another station deauthenticates us in vain -/
theorem join_foreign_deauth :
    let f := joinMgnt 0xc0 [2, 0, 0, 0, 0, 9] [3, 0]
    let es := [.frame f, .frame (joinMgnt 0xb0 joinAp [0, 0, 2, 0, 0, 0])]
    (joinAuthSent.dispatch joinConf f).view = joinAuthSent.view
      ∧ (run (Join.step joinConf) joinAuthSent es).view
        = (run (Join.step joinConf) joinAuthSent (es.filter fun e => !foreignEvent joinAp e)).view :=
  ⟨((join_foreign joinConf).1 joinAuthSent _ (by decide) (by decide) (by decide)).mpr (by decide),
    (join_foreign joinConf).2 joinAuthSent _ (by decide) (by decide)⟩

/-- an authentication frame of another station starts the association -/
theorem join_foreign_auth :
    ¬ ∀ (conf : JoinConf) (s : Join) (f : RecvFrame), s.joining = true → s.externalSae conf = false →
      foreignFrame s.bssid f = true → (s.dispatch conf f).view = s.view := by
  intro h
  have h' := h joinConf joinAuthSent (joinMgnt 0xb0 [2, 0, 0, 0, 0, 9] [0, 0, 2, 0, 0, 0])
    (by decide) (by decide) (by decide)
  exact absurd (congrArg JoinView.state h') (by decide)

end Rtl8192eu
