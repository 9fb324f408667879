import Rtl8192eu.Mlme.JoinForeign

/-!
# The result of a join

From `start_clnt_join` on, the state goes from waiting for a beacon over authentication to
association, each with the link timer running, and is left with one result.

* `JoinSeen`    the two answers that a positive result rests on;
* `JoinPhase`   the invariant: the phase, with what has been reported in it;
* `JoinPhase.step`   one lemma for each handler;
* `join_one_result`   every run in which the timer does not find an abort on an established link.

An abort that is set when the link is up makes the timer report a second result.
-/

namespace Rtl8192eu

open Run

/-! ## the answers -/

/-- an authentication frame with status 0 is accepted -/
def AuthSeen (conf : JoinConf) (p : Join × JoinEvent) : Prop :=
  ∃ f, p.2 = .frame f ∧ getFrameSubType f = wifiAuth ∧ p.1.state.authState = true
    ∧ Join.authWord f 4 = 0 ∧ (p.1.dispatch conf f).state.assocState = true

/-- an association response with status 0 and this association id is accepted -/
def AssocSeen (conf : JoinConf) (res : Int) (p : Join × JoinEvent) : Prop :=
  ∃ f, p.2 = .frame f ∧ (getFrameSubType f = wifiAssocRsp ∨ getFrameSubType f = wifiReassocRsp)
    ∧ p.1.state.assocState = true ∧ le16 f (wlanHdrA3Len + 2) = 0
    ∧ 1 ≤ Join.respAid f ∧ Join.respAid f ≤ 2007 ∧ res = Join.respAid f
    ∧ (p.1.dispatch conf f).state.assocSuccess = true

/-- first the one, then the other -/
def JoinSeen (conf : JoinConf) (tr : List (Join × JoinEvent)) (res : Int) : Prop :=
  ∃ p q, AuthSeen conf p ∧ AssocSeen conf res q ∧ [p, q].Sublist tr

/-! ## phases -/

def FwState.waiting : FwState := { hw := .station, authNull := true }
def FwState.authenticating : FwState := { hw := .station, authState := true }
def FwState.associating : FwState := { hw := .station, authSuccess := true, assocState := true }
def FwState.linked : FwState := { hw := .station, authSuccess := true, assocSuccess := true }

/-- nothing is reported and the timer runs -/
structure Join.Open (s : Join) (st : FwState) : Prop where
  state : s.state = st
  results : s.results = []
  timer : s.linkTimer.due.isSome = true

inductive JoinPhase (conf : JoinConf) (s : Join) (tr : List (Join × JoinEvent)) : Prop where
  | waiting (h : s.Open .waiting)
  | authenticating (h : s.Open .authenticating)
  | associating (h : s.Open .associating) (p : Join × JoinEvent) (hp : AuthSeen conf p) (hm : p ∈ tr)
  | linked (h : s.state = .linked) (res : Int) (status : Nat) (hr : s.results = [(res, status)])
      (hs : JoinSeen conf tr res)
  | ended (h : s.state = {}) (res : Int) (status : Nat) (hr : s.results = [(res, status)])
      (hs : 0 < res → JoinSeen conf tr res)

section

variable {conf : JoinConf} {s : Join} {tr tr' : List (Join × JoinEvent)} {res : Int} {status : Nat}

theorem JoinSeen.append (h : JoinSeen conf tr res) : JoinSeen conf (tr ++ tr') res := by
  obtain ⟨p, q, hp, hq, hs⟩ := h
  exact ⟨p, q, hp, hq, hs.trans (List.sublist_append_left tr tr')⟩

theorem JoinSeen.of_last {p q : Join × JoinEvent} (hp : AuthSeen conf p) (hm : p ∈ tr)
    (hq : AssocSeen conf res q) : JoinSeen conf (tr ++ [q]) res :=
  ⟨p, q, hp, hq, (List.singleton_sublist.mpr hm).append (List.Sublist.refl [q])⟩

/-- nothing happens -/
theorem JoinPhase.append (h : JoinPhase conf s tr) : JoinPhase conf s (tr ++ tr') := by
  cases h with
  | waiting h => exact .waiting h
  | authenticating h => exact .authenticating h
  | associating h p hp hm => exact .associating h p hp (List.mem_append_left _ hm)
  | linked h res status hr hs => exact .linked h res status hr hs.append
  | ended h res status hr hs => exact .ended h res status hr fun hpos => (hs hpos).append

/-- state and reports stay, and a timer keeps running -/
theorem JoinPhase.of_same {s' : Join} (h : JoinPhase conf s tr) (hst : s'.state = s.state)
    (hres : s'.results = s.results) (ht : s.linkTimer.due.isSome = true → s'.linkTimer.due.isSome = true) :
    JoinPhase conf s' tr := by
  have hopen {st : FwState} (h : s.Open st) : s'.Open st := ⟨hst.trans h.state, hres.trans h.results, ht h.timer⟩
  cases h with
  | waiting h => exact .waiting (hopen h)
  | authenticating h => exact .authenticating (hopen h)
  | associating h p hp hm => exact .associating (hopen h) p hp hm
  | linked h res status hr hs => exact .linked (hst.trans h) res status (hres.trans hr) hs
  | ended h res status hr hs => exact .ended (hst.trans h) res status (hres.trans hr) hs

theorem JoinPhase.of_seq {seq : Mac → Nat} (h : JoinPhase conf s tr) : JoinPhase conf (s.withSeq seq) tr :=
  h.of_same rfl rfl id

theorem results_giveUp (s : Join) (res : Int) (status : Nat) :
    (s.giveUp res status).results = s.results ++ [(res, status)] := by
  simp [Join.giveUp, Join.reportJoinRes, Join.emit, Join.results, JoinOut.result]

/-- a join that is given up is over -/
theorem JoinPhase.of_giveUp (hr : s.results = []) (hneg : res ≤ 0) :
    JoinPhase conf (s.giveUp res status) tr := by
  refine .ended rfl res status ?_ fun hpos => absurd hpos (by omega)
  rw [results_giveUp, hr]
  rfl

theorem results_emit (s : Join) {o : JoinOut} (ho : o.result = none) : (s.emit o).results = s.results := by
  simp [Join.emit, Join.results, ho]

end

/-! ## what a handler can do -/

namespace Join

variable {conf : JoinConf} {s : Join} {f : RecvFrame}

/-- the request is on its way again, or another one -/
structure Rearmed (s s' : Join) : Prop where
  state : s'.state = s.state
  results : s'.results = s.results
  timer : s'.linkTimer.due.isSome = true

theorem onAuthClient_cases (hsae : s.externalSae conf = false) :
    s.onAuthClient conf f = s
      ∨ s.state.authState = true ∧ (Rearmed s (s.onAuthClient conf f)
        ∨ authWord f 4 = 0 ∧ s.onAuthClient conf f = s.startClntAssoc) := by
  have hchg : s.onChgTxt f = s ∨ Rearmed s (s.onChgTxt f) := by
    unfold onChgTxt
    split
    · exact .inl rfl
    split
    · exact .inl rfl
    · exact .inr ⟨rfl, results_emit _ rfl, rfl⟩
  unfold onAuthClient
  rw [hsae, Bool.and_false, if_neg Bool.false_ne_true]
  split
  · exact .inl rfl
  split
  · exact .inl rfl
  rename_i hbusy
  have hst : s.state.authState = true := by
    revert hbusy
    cases s.state.authState <;> simp
  split
  · exact .inr ⟨hst, .inl ⟨rfl, rfl, rfl⟩⟩
  rename_i h0
  have h0 := Decidable.not_not.mp h0
  split
  · split
    · exact hchg.imp_right fun h => ⟨hst, .inl h⟩
    · exact .inr ⟨hst, .inr ⟨h0, rfl⟩⟩
  split
  · split
    · exact .inr ⟨hst, .inr ⟨h0, rfl⟩⟩
    · exact .inl rfl
  · exact .inl rfl

theorem onAssocRsp_cases (conf : JoinConf) (s : Join) (f : RecvFrame) :
    s.onAssocRsp conf f = s
      ∨ (s.state.authSuccess = true ∨ s.state.assocState = true) ∧ s.state.assocSuccess = false
        ∧ ((∃ status, (s.onAssocRsp conf f).state = {}
            ∧ (s.onAssocRsp conf f).results = s.results ++ [(-4, status)])
          ∨ le16 f (wlanHdrA3Len + 2) = 0 ∧ 1 ≤ respAid f ∧ respAid f ≤ 2007
            ∧ (s.onAssocRsp conf f).state
              = { s.state with assocState := false, assocSuccess := true }
            ∧ (s.onAssocRsp conf f).results = s.results ++ [((respAid f : Int), 0)]) := by
  unfold onAssocRsp
  split
  · exact .inl rfl
  split
  · exact .inl rfl
  rename_i hbusy
  split
  · exact .inl rfl
  rename_i hsucc
  have hst : s.state.authSuccess = true ∨ s.state.assocState = true := by
    revert hbusy
    cases s.state.authSuccess <;> cases s.state.assocState <;> simp
  refine .inr ⟨hst, Bool.eq_false_of_not_eq_true hsucc, ?_⟩
  dsimp only
  split
  · exact .inl ⟨_, rfl, results_giveUp _ _ _⟩
  rename_i h0
  split
  · exact .inl ⟨_, rfl, results_giveUp _ _ _⟩
  rename_i haid
  have h0 : le16 f (wlanHdrA3Len + 2) = 0 := by omega
  simp only [Bool.or_eq_true, decide_eq_true_eq, not_or] at haid
  refine .inr ⟨h0, by omega, by omega, rfl, ?_⟩
  simp [reportJoinRes, emit, results, JoinOut.result, cancelLinkTimer, h0]

theorem receiveDisconnect_cases (s : Join) (addr : Mac) (reason : Nat) :
    s.receiveDisconnect addr reason = s
      ∨ s.state.assocSuccess = true ∧ (s.receiveDisconnect addr reason).state = {}
        ∧ (s.receiveDisconnect addr reason).results = s.results
      ∨ s.state.assocSuccess = false ∧ s.state.hw = .station
        ∧ s.receiveDisconnect addr reason = s.giveUp (-2) reason := by
  unfold receiveDisconnect
  split
  · exact .inl rfl
  split
  · rename_i hsta
    split
    · rename_i hsucc
      exact .inr (.inl ⟨hsucc, rfl, results_emit _ rfl⟩)
    rename_i hsucc
    split
    · exact .inr (.inr ⟨Bool.eq_false_of_not_eq_true hsucc, hsta, rfl⟩)
    · exact .inl rfl
  · exact .inl rfl

theorem onBeacon_cases (conf : JoinConf) (s : Join) (b : Beacon) :
    s.onBeacon conf b = s
      ∨ s.state.authNull = true
        ∧ (s.onBeacon conf b = s.setLinkTimer 1 ∨ s.onBeacon conf b = s.startClntAuth conf)
      ∨ s.state.assocSuccess = true ∧ s.onBeacon conf b = s.receiveDisconnect s.bssid 0 := by
  unfold onBeacon
  dsimp only
  split
  · exact .inl rfl
  split
  · split
    · rename_i hl
      simp only [Bool.and_eq_true] at hl
      exact .inr (.inr ⟨hl.1.2, rfl⟩)
    · exact .inl rfl
  split
  · rename_i hn
    simp only [Bool.and_eq_true] at hn
    split
    · exact .inr (.inl ⟨hn.1, .inl rfl⟩)
    · exact .inr (.inl ⟨hn.1, .inr rfl⟩)
  split
  · rename_i hl
    simp only [Bool.and_eq_true] at hl
    exact .inr (.inr ⟨hl.1.1.2, rfl⟩)
  · exact .inl rfl

theorem startClntAuth_rearmed (hsae : conf.authTypeSae = false) :
    (s.startClntAuth conf).state = { s.state with authNull := false, authState := true }
      ∧ (s.startClntAuth conf).results = s.results
      ∧ (s.startClntAuth conf).linkTimer.due.isSome = true := by
  unfold startClntAuth
  dsimp only
  rw [externalSae, hsae, Bool.false_and, if_neg Bool.false_ne_true]
  exact ⟨rfl, results_emit _ rfl, rfl⟩

theorem reauth_cases :
    Rearmed s s.reauth ∨ s.reauth.state = {} ∧ ∃ status, s.reauth.results = s.results ++ [(-1, status)] := by
  unfold reauth
  dsimp only
  split
  · split
    · exact .inr ⟨rfl, _, results_giveUp _ _ _⟩
    · exact .inr ⟨rfl, _, results_giveUp _ _ _⟩
  · exact .inl ⟨rfl, results_emit _ rfl, rfl⟩

theorem reassoc_cases :
    Rearmed s s.reassoc ∨ s.reassoc.state = {} ∧ ∃ status, s.reassoc.results = s.results ++ [(-2, status)] := by
  unfold reassoc
  dsimp only
  split
  · exact .inr ⟨rfl, _, results_giveUp _ _ _⟩
  · exact .inl ⟨rfl, results_emit _ rfl, rfl⟩

theorem linkTimerHdl_cases (hsae : conf.authTypeSae = false) :
    s.joinAbort = true ∧ s.state ≠ {} ∧ s.linkTimerHdl conf = s.giveUp (-4) 1
      ∨ s.state.authNull = true ∧ s.linkTimerHdl conf = s.giveUp (-3) 1
      ∨ s.state.authState = true ∧ s.linkTimerHdl conf = s.reauth
      ∨ s.state.assocState = true ∧ s.linkTimerHdl conf = s.reassoc
      ∨ (s.state.authNull = false ∧ s.state.authState = false ∧ s.state.assocState = false)
        ∧ s.linkTimerHdl conf = s := by
  unfold linkTimerHdl
  rw [hsae, if_neg Bool.false_ne_true]
  split
  · rename_i ha
    simp only [Bool.and_eq_true, decide_eq_true_eq] at ha
    exact .inl ⟨ha.1, ha.2, rfl⟩
  split
  · rename_i hn
    exact .inr (.inl ⟨hn, rfl⟩)
  rename_i hn
  split
  · rename_i hs
    exact .inr (.inr (.inl ⟨hs, rfl⟩))
  rename_i hs
  split
  · rename_i hs
    exact .inr (.inr (.inr (.inl ⟨hs, rfl⟩)))
  · rename_i hs'
    rw [Bool.not_eq_true] at hn hs hs'
    exact .inr (.inr (.inr (.inr ⟨⟨hn, hs, hs'⟩, rfl⟩)))

end Join

/-! ## one lemma for each handler -/

namespace JoinPhase

variable {conf : JoinConf} {s s' : Join} {tr : List (Join × JoinEvent)} {f : RecvFrame}

/-- a handler that found the authentication under way -/
theorem authState (h : JoinPhase conf s tr) (hs : s.state.authState = true) : s.Open .authenticating := by
  cases h with
  | waiting h => cases (congrArg FwState.authState h.state).symm.trans hs
  | authenticating h => exact h
  | associating h => cases (congrArg FwState.authState h.state).symm.trans hs
  | linked h => cases (congrArg FwState.authState h).symm.trans hs
  | ended h => cases (congrArg FwState.authState h).symm.trans hs

theorem authNull (h : JoinPhase conf s tr) (hs : s.state.authNull = true) : s.Open .waiting := by
  cases h with
  | waiting h => exact h
  | authenticating h => cases (congrArg FwState.authNull h.state).symm.trans hs
  | associating h => cases (congrArg FwState.authNull h.state).symm.trans hs
  | linked h => cases (congrArg FwState.authNull h).symm.trans hs
  | ended h => cases (congrArg FwState.authNull h).symm.trans hs

theorem associated (h : JoinPhase conf s tr)
    (hs : s.state.authSuccess = true ∨ s.state.assocState = true) (hn : s.state.assocSuccess = false) :
    s.Open .associating ∧ ∃ p ∈ tr, AuthSeen conf p := by
  cases h with
  | waiting h => rw [h.state] at hs; simp [FwState.waiting] at hs
  | authenticating h => rw [h.state] at hs; simp [FwState.authenticating] at hs
  | associating h p hp hm => exact ⟨h, p, hm, hp⟩
  | linked h => rw [h] at hn; simp [FwState.linked] at hn
  | ended h => rw [h] at hs; simp at hs

theorem assocState (h : JoinPhase conf s tr) (hs : s.state.assocState = true) :
    s.Open .associating ∧ ∃ p ∈ tr, AuthSeen conf p := by
  apply h.associated (.inr hs)
  cases h with
  | waiting h => rw [h.state]; rfl
  | authenticating h => rw [h.state]; rfl
  | associating h => rw [h.state]; rfl
  | linked h => rw [h] at hs; cases hs
  | ended h => rw [h]

theorem receiveDisconnect {addr : Mac} {reason : Nat} (h : JoinPhase conf s tr) :
    JoinPhase conf (s.receiveDisconnect addr reason) tr := by
  rcases s.receiveDisconnect_cases addr reason with
    he | ⟨hsucc, hst, hres⟩ | ⟨hsucc, hsta, he⟩
  · rw [he]
    exact h
  · cases h with
    | waiting h => rw [h.state] at hsucc; cases hsucc
    | authenticating h => rw [h.state] at hsucc; cases hsucc
    | associating h => rw [h.state] at hsucc; cases hsucc
    | linked h res status hr hs => exact .ended hst res status (hres.trans hr) fun _ => hs
    | ended h => rw [h] at hsucc; cases hsucc
  · rw [he]
    cases h with
    | waiting h => exact of_giveUp h.results (by decide)
    | authenticating h => exact of_giveUp h.results (by decide)
    | associating h => exact of_giveUp h.results (by decide)
    | linked h => rw [h] at hsucc; cases hsucc
    | ended h => rw [h] at hsta; cases hsta

theorem onAuthClient {seq : Mac → Nat} (h : JoinPhase conf s tr) (hsae : conf.authTypeSae = false)
    (hsub : getFrameSubType f = wifiAuth)
    (hd : s.dispatch conf f = (s.withSeq seq).onAuthClient conf f) :
    JoinPhase conf (s.dispatch conf f) (tr ++ [(s, .frame f)]) := by
  have hext : (s.withSeq seq).externalSae conf = false := by
    rw [Join.externalSae, hsae, Bool.false_and]
  rcases (s.withSeq seq).onAuthClient_cases (f := f) hext with he | ⟨hst, hre | ⟨h0, he⟩⟩
  · rw [hd, he]
    exact h.of_seq.append
  · have ho := h.authState hst
    rw [hd]
    exact .authenticating ⟨hre.state.trans ho.state, hre.results.trans ho.results, hre.timer⟩
  · have ho := h.authState hst
    have hnew : (s.dispatch conf f).state = .associating := by
      rw [hd, he]
      show { s.state with authNull := false, authState := false, authSuccess := true, assocState := true } = _
      rw [ho.state]
      rfl
    have hseen : AuthSeen conf (s, .frame f) := ⟨f, rfl, hsub, hst, h0, by rw [hnew]; rfl⟩
    refine .associating ⟨hnew, ?_, ?_⟩ (s, .frame f) hseen (by simp)
    · rw [hd, he]
      exact (results_emit _ rfl).trans ho.results
    · rw [hd, he]
      rfl

theorem onAssocRsp {seq : Mac → Nat} (h : JoinPhase conf s tr)
    (hsub : getFrameSubType f = wifiAssocRsp ∨ getFrameSubType f = wifiReassocRsp)
    (hd : s.dispatch conf f = (s.withSeq seq).onAssocRsp conf f) :
    JoinPhase conf (s.dispatch conf f) (tr ++ [(s, .frame f)]) := by
  rcases Join.onAssocRsp_cases conf (s.withSeq seq) f with
    he | ⟨hst, hsucc, ⟨status, hnull, hres⟩ | ⟨h0, hlo, hhi, hnew, hres⟩⟩
  · rw [hd, he]
    exact h.of_seq.append
  · obtain ⟨ho, -⟩ := h.associated hst hsucc
    rw [hd]
    refine .ended hnull (-4) status ?_ fun hpos => absurd hpos (by decide)
    rw [hres]
    exact congrArg (· ++ _) ho.results
  · obtain ⟨ho, p, hm, hp⟩ := h.associated hst hsucc
    have hlinked : (s.dispatch conf f).state = .linked := by
      rw [hd, hnew]
      show { s.state with assocState := false, assocSuccess := true } = _
      rw [ho.state]
      rfl
    have hq : AssocSeen conf (Join.respAid f) (s, .frame f) :=
      ⟨f, rfl, hsub, by rw [ho.state]; rfl, h0, hlo, hhi, rfl, by rw [hlinked]; rfl⟩
    refine .linked hlinked (Join.respAid f) 0 ?_ (JoinSeen.of_last hp hm hq)
    rw [hd, hres]
    exact congrArg (· ++ _) ho.results

theorem dispatch (h : JoinPhase conf s tr) (hsae : conf.authTypeSae = false) :
    JoinPhase conf (s.dispatch conf f) (tr ++ [(s, .frame f)]) := by
  cases hj : joinFrame f with
  | false =>
    rw [Join.dispatch_other hj]
    exact h.of_seq.append
  | true =>
    cases hdel : s.delivered conf f with
    | false =>
      obtain ⟨handler, hh⟩ : ∃ handler, mlmeHandler conf.adapter f = some handler := by
        rcases Join.mlmeHandler_joinFrame conf hj with ⟨_, hh⟩ | ⟨_, hh⟩ | ⟨_, hh⟩ | ⟨_, hh⟩ <;>
          exact ⟨_, hh⟩
      rw [Join.dispatch_joinFrame hj hh, hdel, if_neg Bool.false_ne_true]
      exact h.of_seq.append
    | true =>
      rcases Join.mlmeHandler_joinFrame conf hj with ⟨hs, hh⟩ | ⟨hs, hh⟩ | ⟨hs, hh⟩ | ⟨hs, hh⟩ <;>
        have hd := Join.dispatch_joinFrame (s := s) hj hh <;> rw [hdel, if_pos rfl] at hd
      · exact h.onAuthClient hsae hs hd
      · exact h.onAssocRsp hs hd
      · rw [hd]
        show JoinPhase conf (Join.onDeAuthSta _ f) _
        unfold Join.onDeAuthSta
        split
        · exact h.of_seq.append
        split
        · exact h.of_seq.append
        · exact h.of_seq.receiveDisconnect.append
      · rw [hd]
        show JoinPhase conf (Join.onDisassocSta _ f) _
        unfold Join.onDisassocSta
        split
        · exact h.of_seq.append
        · exact h.of_seq.receiveDisconnect.append

theorem onBeacon {b : Join.Beacon} (h : JoinPhase conf s tr) (hsae : conf.authTypeSae = false) :
    JoinPhase conf (s.onBeacon conf b) tr := by
  rcases Join.onBeacon_cases conf s b with he | ⟨hn, he | he⟩ | ⟨_, he⟩ <;> rw [he]
  · exact h
  · have ho := h.authNull hn
    exact .waiting ⟨ho.state, ho.results, rfl⟩
  · have ho := h.authNull hn
    obtain ⟨hst, hres, ht⟩ := s.startClntAuth_rearmed hsae
    refine .authenticating ⟨?_, hres.trans ho.results, ht⟩
    rw [hst, ho.state]
    rfl
  · exact h.receiveDisconnect

/-- the timer goes off; on an established link only without an abort -/
theorem linkTimerFires (h : JoinPhase conf s tr) (hsae : conf.authTypeSae = false)
    (hC : s.linkTimer.due.isSome = true → s.joinAbort = true → s.state.assocSuccess = false) :
    JoinPhase conf (s.linkTimerFires conf) tr := by
  unfold Join.linkTimerFires
  split
  · rename_i hdue
    rcases s.cancelLinkTimer.linkTimerHdl_cases hsae with
      ⟨ha, hne, he⟩ | ⟨hs, he⟩ | ⟨hs, he⟩ | ⟨hs, he⟩ | ⟨⟨h1, h2, h3⟩, he⟩ <;> rw [he]
    · cases h with
      | waiting h => exact of_giveUp h.results (by decide)
      | authenticating h => exact of_giveUp h.results (by decide)
      | associating h => exact of_giveUp h.results (by decide)
      | linked h => exact absurd (hC hdue ha) (by rw [h]; decide)
      | ended h => exact absurd h hne
    · exact of_giveUp (h.authNull hs).results (by decide)
    · have ho := h.authState hs
      rcases s.cancelLinkTimer.reauth_cases with hr | ⟨hst, status, hr⟩
      · exact .authenticating ⟨hr.state.trans ho.state, hr.results.trans ho.results, hr.timer⟩
      · refine .ended hst (-1) status ?_ fun hpos => absurd hpos (by decide)
        rw [hr]
        exact congrArg (· ++ _) ho.results
    · obtain ⟨ho, p, hm, hp⟩ := h.assocState hs
      rcases s.cancelLinkTimer.reassoc_cases with hr | ⟨hst, status, hr⟩
      · exact .associating ⟨hr.state.trans ho.state, hr.results.trans ho.results, hr.timer⟩ p hp hm
      · refine .ended hst (-2) status ?_ fun hpos => absurd hpos (by decide)
        rw [hr]
        exact congrArg (· ++ _) ho.results
    · cases h with
      | waiting h => exact absurd (h1.symm.trans (congrArg FwState.authNull h.state)) (by decide)
      | authenticating h => exact absurd (h2.symm.trans (congrArg FwState.authState h.state)) (by decide)
      | associating h => exact absurd (h3.symm.trans (congrArg FwState.assocState h.state)) (by decide)
      | linked h res status hr hs => exact .linked h res status hr hs
      | ended h res status hr hs => exact .ended h res status hr hs
  · exact h

/-- an abort begins -/
theorem abort (h : JoinPhase conf s tr) :
    JoinPhase conf ({ s with joinAbort := true }.setLinkTimer 1) tr := h.of_same rfl rfl fun _ => rfl

theorem abortDone (h : JoinPhase conf s tr) : JoinPhase conf { s with joinAbort := false } tr :=
  h.of_same rfl rfl id

end JoinPhase

/-! ## runs -/

namespace Join

/-- the timer does not go off under an abort when the link is up -/
def AbortOk (s : Join) : JoinEvent → Prop
  | .linkTimer => s.linkTimer.due.isSome = true → s.joinAbort = true → s.state.assocSuccess = false
  | _ => True

instance decidableAbortOk (s : Join) : ∀ e, Decidable (s.AbortOk e)
  | .linkTimer => inferInstanceAs (Decidable (_ → _ → s.state.assocSuccess = false))
  | .frame _ => isTrue trivial
  | .beacon _ => isTrue trivial
  | .abort => isTrue trivial
  | .abortDone => isTrue trivial

end Join

theorem JoinPhase.step {conf : JoinConf} (hsae : conf.authTypeSae = false) (s : Join)
    (tr : List (Join × JoinEvent)) (e : JoinEvent) (h : JoinPhase conf s tr) (hC : s.AbortOk e) :
    JoinPhase conf (s.step conf e) (tr ++ [(s, e)]) := by
  cases e with
  | frame f => exact h.dispatch hsae
  | beacon b => exact (h.onBeacon hsae).append
  | linkTimer => exact (h.linkTimerFires hsae hC).append
  | abort => exact h.abort.append
  | abortDone => exact h.abortDone.append

/-- a join of an ESS network begins, with nothing reported yet -/
def Join.started (s : Join) (bcnInterval : Nat) : Join :=
  { s with out := [] }.startClntJoin .ess bcnInterval

/-- **One result.**  From `start_clnt_join` on, as long as the timer does not find an abort on an
established link: there is at most one result, a positive one comes after both answers of the access
point, and without a result the link timer runs. -/
theorem join_one_result (conf : JoinConf) (s₀ : Join) (bcnInterval : Nat) (es : List JoinEvent)
    (hsae : conf.authTypeSae = false)
    (hC : Along (Join.step conf) Join.AbortOk (s₀.started bcnInterval) es) :
    let s := s₀.started bcnInterval
    let r := run (Join.step conf) s es
    r.results.length ≤ 1
      ∧ (∀ res ∈ r.results, 0 < res.1 → JoinSeen conf (trace (Join.step conf) s es) res.1)
      ∧ (r.results = [] → r.linkTimer.due.isSome = true) := by
  have h0 : JoinPhase conf (s₀.started bcnInterval) [] := .waiting ⟨rfl, rfl, rfl⟩
  have h := run_inv_trace (JoinPhase.step hsae) _ [] es h0 hC
  rw [List.nil_append] at h
  have hopen : ∀ {st : FwState}, (run (Join.step conf) (s₀.started bcnInterval) es).Open st →
      (run (Join.step conf) (s₀.started bcnInterval) es).results.length ≤ 1
        ∧ (∀ res ∈ (run (Join.step conf) (s₀.started bcnInterval) es).results, 0 < res.1 →
          JoinSeen conf (trace (Join.step conf) (s₀.started bcnInterval) es) res.1)
        ∧ ((run (Join.step conf) (s₀.started bcnInterval) es).results = [] →
          (run (Join.step conf) (s₀.started bcnInterval) es).linkTimer.due.isSome = true) := by
    intro st ho
    exact ⟨by simp [ho.results], by simp [ho.results], fun _ => ho.timer⟩
  cases h with
  | waiting h => exact hopen h
  | authenticating h => exact hopen h
  | associating h => exact hopen h
  | linked h res status hr hs => simp [hr, hs]
  | ended h res status hr hs => simpa [hr] using hs

/-! ## a link that is up is aborted -/

/-- beacon, authentication and association with id 1 -/
def joinAnswers : List JoinEvent :=
  [.beacon {}, .frame (joinMgnt 0xb0 joinAp [0, 0, 2, 0, 0, 0]),
    .frame (joinMgnt 0x10 joinAp [1, 0, 0, 0, 1, 0xc0])]

def joinIdle : Join where
  bssid := joinAp

theorem join_one_result_linked :
    let r := run (Join.step joinConf) (joinIdle.started 100) joinAnswers
    r.results = [(1, 0)] ∧ r.results.length ≤ 1 :=
  ⟨by decide, (join_one_result joinConf joinIdle 100 joinAnswers rfl (by decide)).1⟩

/-- the timer of an abort finds the link up and reports again -/
theorem join_two_results :
    ¬ ∀ (conf : JoinConf) (s₀ : Join) (bcnInterval : Nat) (es : List JoinEvent),
      conf.authTypeSae = false → (∀ e ∈ es, foreignEvent s₀.bssid e = false) →
      let s := s₀.started bcnInterval
      let r := run (Join.step conf) s es
      r.results.length ≤ 1
        ∧ (∀ res ∈ r.results, 0 < res.1 → JoinSeen conf (trace (Join.step conf) s es) res.1)
        ∧ (r.results = [] → r.linkTimer.due.isSome = true) := by
  intro h
  have h' := h joinConf joinIdle 100 (joinAnswers ++ [.abort, .linkTimer]) rfl (by decide)
  exact absurd h'.1 (by decide)

end Rtl8192eu
