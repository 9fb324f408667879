import Rtl8192eu.Ap.MfpSta
import Rtl8192eu.Ap.StaView
import Rtl8192eu.Security.Wep

/-!
# Shared key authentication

`OnAuth` with `dot11AuthAlgrthm` shared.  The challenge is looked for at a fixed place and compared; that
the frame was protected, the integrity value, and the length of the element are not looked at, and a
refusal before the station is looked up leaves `auth_seq` as it was.

* `SharedAuth.step`   an Authentication frame;
* `onAuth_case`   what it can do to the station of its address;
* `KeyProof`      what a frame that authenticates a station should be;
* `shared_key_iff`   the runs in which each of them is.

The driver draws no challenge: the text is constant.
-/

namespace Rtl8192eu

open Run

/-! ## frames -/

/-- what `OnAuth` sets for a protected frame -/
def authAttrib (f : RecvFrame) : RecvFrame :=
  { f with attrib := { f.attrib with
      hdrlen := wlanHdrA3Len
      encrypt := .wep40
      keyIndex := (f.byte (wlanHdrA3Len + 3)).toNat / 64 % 4
      ivLen := 4
      icvLen := 4 } }

def authDecrypt (k : WepKeys) (f : RecvFrame) : RecvFrame := rtwWepDecrypt k (authAttrib f)

/-- `attack` is the answer of `rtw_defs_attack_chk` -/
def authOracle (k : WepKeys) (attack : Bool) : ApOracle := ⟨attack, authDecrypt k⟩

/-- the challenge in the answer of `issue_auth` to a frame with sequence number `seq` -/
def issueAuthChg (sta : ApSta) (seq : Nat) : Option (List UInt8) :=
  if seq + 1 = 2 ∧ sta.state.authState = true ∧ sta.authalg ≠ 0 then some sta.chgTxt else none

structure SharedAuth where
  priv : StaPriv := {}
  /-- the last Authentication frame with this address was accepted, with sequence number 1 -/
  opened : Mac → Bool := fun _ => false
  /-- the last challenge sent to this address -/
  sent : Mac → Option (List UInt8) := fun _ => none

/-- a received frame, with the answer of `rtw_defs_attack_chk` -/
structure AuthFrame where
  attack : Bool := false
  frame : RecvFrame

namespace SharedAuth

def words (k : WepKeys) (e : AuthFrame) : AuthWords := authWords (authOracle k e.attack) e.frame

def step (conf : ApConf) (k : WepKeys) (r : SharedAuth) (e : AuthFrame) : SharedAuth :=
  let out := onAuth conf (authOracle k e.attack) r.priv e.frame
  let sa := getAddr2 e.frame
  let seq := (words k e).seq
  let accepted := out.2 = [.auth sa 0]
  { priv := out.1
    opened := Function.update r.opened sa (accepted && seq = 1)
    sent :=
      if accepted then
        Function.update r.sent sa (((out.1.view sa).bind fun sta => issueAuthChg sta seq).or (r.sent sa))
      else r.sent }

/-- `WIFI_FW_AUTH_SUCCESS` of the station with this address -/
def authOk (r : SharedAuth) (addr : Mac) : Bool :=
  match r.priv.view addr with
  | some sta => sta.state.authSuccess
  | none => false

end SharedAuth

/-! ## one frame -/

/-- the tests that come before the station is looked up -/
def authReaches (conf : ApConf) (o : ApOracle) (s : StaPriv) (f : RecvFrame) : Prop :=
  conf.asoc = true ∧ invalidMac (getAddr2 f) = false
    ∧ authRefused conf o s (getAddr2 f) (authWords o f).alg = none

instance (conf : ApConf) (o : ApOracle) (s : StaPriv) (f : RecvFrame) : Decidable (authReaches conf o s f) :=
  inferInstanceAs (Decidable (_ ∧ _ ∧ _))

/-- the station of the frame when its sequence number is looked at: one that was there, or a new one -/
def Heard (s : StaPriv) (sa : Mac) (sta : ApSta) : Prop :=
  ∃ expireTo, match s.view sa with
    | some old => sta = { old with expireTo := expireTo }
    | none => sta = { macAddr := sa, state := { authNull := true }, expireTo := expireTo }

/-- what `OnAuth` can do to the station of the frame's address -/
inductive AuthCase (conf : ApConf) (o : ApOracle) (s : StaPriv) (f : RecvFrame) : StaPriv × List ApOut → Prop where
  /-- the frame is ignored, or refused before the station is looked up -/
  | early (out : List ApOut) (hr : authReaches conf o s f → s.view (getAddr2 f) = none)
      (h : out ≠ [.auth (getAddr2 f) 0]) : AuthCase conf o s f (s, out)
  | refused (s' : StaPriv) (status : Nat) (sta : ApSta) (hr : authReaches conf o s f) (hs : Heard s (getAddr2 f) sta)
      (h : authSeqCheck .shared s.assocTo sta (authWords o f).alg (authWords o f).seq (authWords o f).frame = .error status)
      (hv : s'.view (getAddr2 f) = none) (hne : ∀ addr, staKey addr ≠ getAddr2 f → s'.view addr = s.view addr) :
      AuthCase conf o s f (s', [.auth (getAddr2 f) status])
  | accepted (s' : StaPriv) (sta sta' : ApSta) (hr : authReaches conf o s f) (hs : Heard s (getAddr2 f) sta)
      (h : authSeqCheck .shared s.assocTo sta (authWords o f).alg (authWords o f).seq (authWords o f).frame = .ok sta')
      (hv : s'.view (getAddr2 f) = some (sta'.authNext (authWords o f).seq))
      (hne : ∀ addr, staKey addr ≠ getAddr2 f → s'.view addr = s.view addr) :
      AuthCase conf o s f (s', [.auth (getAddr2 f) 0])

section

variable {conf : ApConf} {o : ApOracle} {s s' : StaPriv} {f : RecvFrame} {P : List Mac} {sa : Mac} {p : Nat}

theorem authMode_shared (hconf : conf.dot11AuthAlgrthm = .shared) (alg : Nat) : authMode conf alg = .shared := by
  unfold authMode
  rw [hconf]
  rfl

theorem authRefused_ne_zero {alg status : Nat} (h : authRefused conf o s sa alg = some status) : status ≠ 0 := by
  unfold authRefused at h
  split at h
  · rw [← Option.some.inj h]
    exact nofun
  split at h
  · next hf =>
    rw [← Option.some.inj h]
    exact hf
  split at h
  · rw [← Option.some.inj h]
    exact nofun
  split at h
  · rw [← Option.some.inj h]
    exact nofun
  · cases h

/-- the station is found or allocated -/
theorem authFind_spec (h : ListsOk P s) (hsa : staKey sa = sa) (hf : authFind s sa = some (p, s')) :
    s'.rtwGetStainfo sa = some p ∧ s'.assocTo = s.assocTo ∧ Heard s sa (s'.pool p)
      ∧ ∀ addr, staKey addr ≠ sa → s'.view addr = s.view addr := by
  unfold authFind at hf
  split at hf
  · rename_i q hq
    have hprot := h.not_isProtected (StaPriv.rtwGetStainfo_some hq).1
    rw [hprot, if_neg Bool.false_ne_true] at hf
    obtain ⟨rfl, rfl⟩ := Prod.mk.inj (Option.some.inj hf)
    refine ⟨hq, rfl, ⟨(s.pool q).expireTo, ?_⟩, fun _ _ => rfl⟩
    rw [StaPriv.view_of_found hq]
  · rename_i hnone
    obtain ⟨⟨q, t⟩, ha, he⟩ := Option.map_eq_some_iff.mp hf
    obtain ⟨rfl, rfl⟩ := Prod.mk.inj he
    have hassoc : t.assocTo = s.assocTo := by
      unfold StaPriv.rtwAllocStainfo at ha
      split at ha
      · cases ha
      · obtain ⟨-, rfl⟩ := Prod.mk.inj (Option.some.inj ha)
        rfl
    obtain ⟨hfound, hpool, hne⟩ := StaPriv.view_alloc h.table hsa hnone ha
    have hg : ∀ sta : ApSta, ({ sta with state := { authNull := true }, authSeq := 0 } : ApSta).macAddr = sta.macAddr :=
      fun _ => rfl
    refine ⟨?_, hassoc, ⟨0, ?_⟩, fun addr haddr => ?_⟩
    · rw [StaPriv.rtwGetStainfo_modSta (hg _)]
      exact hfound
    · have hview : s.view sa = none := by
        unfold StaPriv.view
        rw [hnone]
        rfl
      rw [hview]
      show (t.modSta q _).pool q = _
      rw [StaPriv.modSta_pool, hpool]
    · rw [StaPriv.view_modSta_ne _ (hg _)]
      · exact hne addr haddr
      · rw [hpool]
        exact Ne.symm haddr

/-- the time to live that `authList` sets -/
def authTime (authTo : Nat) (sta : ApSta) : ApSta :=
  if sta.authSeq = 0 then { sta with expireTo := authTo } else sta

theorem authTime_eq (authTo : Nat) (sta : ApSta) : ∃ e, authTime authTo sta = { sta with expireTo := e } := by
  unfold authTime
  split
  · exact ⟨authTo, rfl⟩
  · exact ⟨sta.expireTo, rfl⟩

theorem authList_spec (hp : s.rtwGetStainfo sa = some p) :
    (authList s p).rtwGetStainfo sa = some p ∧ (authList s p).assocTo = s.assocTo
      ∧ (∃ e, (authList s p).pool p = { s.pool p with expireTo := e })
      ∧ ∀ addr, staKey addr ≠ staKey sa → (authList s p).view addr = s.view addr := by
  have heq : ∃ l, authList s p = ({ s with authList := l } : StaPriv).modSta p (authTime s.authTo) := by
    unfold authList
    split
    · exact ⟨s.authList, rfl⟩
    · exact ⟨_, rfl⟩
  obtain ⟨l, heq⟩ := heq
  obtain ⟨e, he⟩ := authTime_eq s.authTo (s.pool p)
  have hmac : (authTime s.authTo (s.pool p)).macAddr = (s.pool p).macAddr := by rw [he]
  rw [heq]
  refine ⟨?_, rfl, ⟨e, ?_⟩, fun addr haddr => ?_⟩
  · rw [StaPriv.rtwGetStainfo_modSta (s := { s with authList := l }) hmac]
    exact hp
  · rw [StaPriv.modSta_pool]
    exact he
  · rw [StaPriv.view_modSta_ne (s := { s with authList := l }) _ hmac]
    · rfl
    · show (s.pool p).macAddr ≠ staKey addr
      rw [(StaPriv.rtwGetStainfo_some hp).2]
      exact Ne.symm haddr

theorem onAuth_early (h : ¬ authReaches conf o s f) :
    ∃ out, out ≠ [.auth (getAddr2 f) 0] ∧ onAuth conf o s f = (s, out) := by
  unfold onAuth
  dsimp only
  split
  · exact ⟨[], nofun, rfl⟩
  rename_i hskip
  rw [Bool.or_eq_true, not_or, Bool.not_eq_true, Bool.not_eq_true, Bool.not_eq_false'] at hskip
  cases href : authRefused conf o s (getAddr2 f) (authWords o f).alg with
  | some status =>
    refine ⟨[.auth (getAddr2 f) status], fun he => ?_, rfl⟩
    exact authRefused_ne_zero href (ApOut.auth.inj (List.cons.inj he).1).2
  | none => exact absurd ⟨hskip.1, hskip.2, href⟩ h

/-- **What a frame can do.** -/
theorem onAuth_case (h : ListsOk P s) (hconf : conf.dot11AuthAlgrthm = .shared) :
    AuthCase conf o s f (onAuth conf o s f) := by
  by_cases hreach : authReaches conf o s f
  · have hr := hreach
    obtain ⟨hasoc, hmac, href⟩ := hreach
    have hsa : staKey (getAddr2 f) = getAddr2 f := invalidMac_key hmac
    unfold onAuth
    simp only [hasoc, hmac, href, Bool.not_true, Bool.or_false, Bool.false_eq_true, if_false]
    cases hfind : authFind s (getAddr2 f) with
    | none =>
      refine .early _ (fun _ => ?_) fun he => absurd (ApOut.auth.inj (List.cons.inj he).1).2 nofun
      cases hv : s.rtwGetStainfo (getAddr2 f) with
      | none => exact congrArg (Option.map s.pool) hv
      | some p =>
        unfold authFind at hfind
        rw [hv] at hfind
        cases hfind
    | some r =>
      obtain ⟨p, t⟩ := r
      obtain ⟨hp, hto, hheard, hne⟩ := authFind_spec h hsa hfind
      obtain ⟨hok, hmem, hnot⟩ := h.authFind hsa hfind
      obtain ⟨hok', -, -⟩ := hok.authList hmem hnot
      obtain ⟨hp', hto', ⟨e, he⟩, hne'⟩ := authList_spec hp
      have hother : ∀ addr, staKey addr ≠ getAddr2 f → (authList t p).view addr = s.view addr := by
        intro addr haddr
        rw [hne' addr (by rw [hsa]; exact haddr)]
        exact hne addr haddr
      have hheard' : Heard s (getAddr2 f) ((authList t p).pool p) := by
        rw [he]
        obtain ⟨x, hx⟩ := hheard
        refine ⟨e, ?_⟩
        cases hv : s.view (getAddr2 f) with
        | some old =>
          rw [hv] at hx
          show _ = ({ old with expireTo := e } : ApSta)
          rw [show t.pool p = { old with expireTo := x } from hx]
        | none =>
          rw [hv] at hx
          show _ = ({ macAddr := getAddr2 f, state := { authNull := true }, expireTo := e } : ApSta)
          rw [show t.pool p = { macAddr := getAddr2 f, state := { authNull := true }, expireTo := x } from hx]
      show AuthCase conf o s f (authSta conf (authList t p) (getAddr2 f) p (authWords o f))
      unfold authSta
      rw [if_neg (by simp [authReported, authMode_shared hconf])]
      rw [authMode_shared hconf, hto', hto]
      cases hchk : authSeqCheck .shared s.assocTo ((authList t p).pool p) (authWords o f).alg (authWords o f).seq
          (authWords o f).frame with
      | error status =>
        obtain ⟨hgone, hrest⟩ := StaPriv.view_free hok'.table hp'
        refine .refused _ status _ hr hheard' hchk hgone fun addr haddr => ?_
        rw [hrest addr (by rw [hsa]; exact haddr)]
        exact hother addr haddr
      | ok sta =>
        have hg : (sta.authNext (authWords o f).seq).macAddr = ((authList t p).pool p).macAddr :=
          (authSeqCheck_sameSta hchk).1
        refine .accepted _ _ sta hr hheard' hchk ?_ fun addr haddr => ?_
        · exact StaPriv.view_modSta (g := fun _ => sta.authNext (authWords o f).seq) hp' hg
        · rw [StaPriv.view_modSta_ne (g := fun _ => sta.authNext (authWords o f).seq) _ hg]
          · exact hother addr haddr
          · rw [(StaPriv.rtwGetStainfo_some hp').2, hsa]
            exact Ne.symm haddr
  · obtain ⟨out, hout, he⟩ := onAuth_early hreach
    rw [he]
    exact .early out (fun hr => absurd hr hreach) hout

/-! ## sequence number and challenge -/

/-- what an accepted frame makes of a station -/
theorem authSeqCheck_shared {assocTo alg seq : Nat} {sta sta' : ApSta} (hp : sta.isProtected = false)
    (h : authSeqCheck .shared assocTo sta alg seq f = .ok sta') :
    (sta.authSeq = 0 ∧ seq = 1 ∧ sta' = { sta with
        chgTxt := List.replicate 128 78
        state := { sta.state with authNull := false, authState := true }
        authalg := alg
        authSeq := 2 })
      ∨ (sta.authSeq = 2 ∧ seq = 3 ∧ chgTxtOk sta f = true
        ∧ sta' = { sta with state := { sta.state with authState := false, authSuccess := true }, expireTo := assocTo }) := by
  unfold authSeqCheck at h
  split at h
  · cases h
  rename_i hseq
  rw [if_neg (by simp)] at h
  split at h
  · next h1 =>
    obtain rfl := Except.ok.inj h
    refine Or.inl ⟨by omega, h1, ?_⟩
    rw [hp, if_neg Bool.false_ne_true]
  split at h
  · next h3 =>
    split at h
    · cases h
    · next i n hie =>
      split at h
      · cases h
      next hn =>
      split at h
      · next htxt =>
        obtain rfl := Except.ok.inj h
        refine Or.inr ⟨by omega, h3, ?_, ?_⟩
        · unfold chgTxtOk
          rw [hie]
          simp [hn, htxt]
        · rw [ApSta.authDone, hp, if_neg Bool.false_ne_true]
      · cases h
  · cases h

theorem authSeqCheck_third (assocTo alg : Nat) {sta : ApSta} (hs : sta.authSeq = 2) (hc : chgTxtOk sta f = true) :
    ∃ sta', authSeqCheck .shared assocTo sta alg 3 f = .ok sta' := by
  unfold chgTxtOk at hc
  unfold authSeqCheck
  rw [if_neg (by rw [hs]; exact fun h => h rfl), if_neg (by simp), if_neg (by decide), if_pos rfl]
  cases hie : chgTxtIe f with
  | none =>
    rw [hie] at hc
    cases hc
  | some r =>
    rw [hie] at hc
    simp only [Bool.and_eq_true, decide_eq_true_eq] at hc
    simp only [if_neg hc.1, if_pos hc.2]
    exact ⟨_, rfl⟩

end

/-! ## runs -/

namespace SharedAuth

/-- what a frame that authenticates a station should be -/
structure KeyProof (k : WepKeys) (r : SharedAuth) (e : AuthFrame) : Prop where
  seq : (words k e).seq = 3
  privacy : getPrivacy e.frame = true
  icv : wepIcvOk (words k e).frame = true
  follows : r.opened (getAddr2 e.frame) = true
  challenge : ∃ i, chgTxtIe (words k e).frame = some (i, 128)
    ∧ r.sent (getAddr2 e.frame) = some ((words k e).frame.bytes (wlanHdrA3Len + 4 + 6 + i + 2) 128)

/-- `WIFI_FW_AUTH_SUCCESS` is set only by such a frame -/
def SetByProof (conf : ApConf) (k : WepKeys) (r : SharedAuth) (e : AuthFrame) : Prop :=
  ∀ addr, (r.step conf k e).authOk addr = true →
    r.authOk addr = true ∨ staKey addr = getAddr2 e.frame ∧ KeyProof k r e

/-- the frame passes the tests that are made of a third frame -/
def Answers (conf : ApConf) (k : WepKeys) (r : SharedAuth) (e : AuthFrame) : Prop :=
  authReaches conf (authOracle k e.attack) r.priv e.frame ∧ (words k e).seq = 3
    ∧ ∃ sta, r.priv.view (getAddr2 e.frame) = some sta ∧ sta.authSeq = 2 ∧ chgTxtOk sta (words k e).frame = true

/-- a third frame that passes is protected, with the right integrity value and a challenge of the right
length, and no refused frame of its station came after the first one -/
def NoForgery (conf : ApConf) (k : WepKeys) (r : SharedAuth) (e : AuthFrame) : Prop :=
  r.Answers conf k e → getPrivacy e.frame = true ∧ wepIcvOk (words k e).frame = true
    ∧ (chgTxtIe (words k e).frame).map Prod.snd = some 128 ∧ r.opened (getAddr2 e.frame) = true

/-- a station waits for its first or its third frame -/
def StaOk (r : SharedAuth) (addr : Mac) (sta : ApSta) : Prop :=
  sta.authSeq = 0 ∨ sta.authSeq = 2 ∧ sta.state.authSuccess = false ∧ r.sent addr = some sta.chgTxt

structure Inv (r : SharedAuth) : Prop where
  lists : ListsOk [] r.priv
  sta : ∀ addr sta, staKey addr = addr → r.priv.view addr = some sta → r.StaOk addr sta

section

variable {conf : ApConf} {k : WepKeys} {r : SharedAuth} {e : AuthFrame}

theorem view_staKey {s : StaPriv} {addr sa : Mac} (h : staKey addr = sa) (hsa : staKey sa = sa) :
    s.view addr = s.view sa := by
  unfold StaPriv.view StaPriv.rtwGetStainfo
  rw [h, hsa]

theorem Heard.not_isProtected {s : StaPriv} {sa : Mac} {sta : ApSta} (h : ListsOk [] s) (hs : Heard s sa sta) :
    sta.isProtected = false := by
  obtain ⟨x, hx⟩ := hs
  cases hv : s.view sa with
  | none =>
    rw [hv] at hx
    rw [show sta = _ from hx]
    rfl
  | some old =>
    rw [hv] at hx
    obtain ⟨p, hp, rfl⟩ := StaPriv.view_eq_some hv
    rw [show sta = { s.pool p with expireTo := x } from hx]
    exact h.not_isProtected (StaPriv.rtwGetStainfo_some hp).1

/-- the frames that open an authentication are no open system ones -/
theorem alg_ne_zero {s : StaPriv} {o : ApOracle} {f : RecvFrame} (hconf : conf.dot11AuthAlgrthm = .shared)
    (h : authReaches conf o s f) : (authWords o f).alg ≠ 0 := by
  intro h0
  have href := h.2.2
  unfold authRefused at href
  rw [h0, authMode_shared hconf] at href
  split at href
  · cases href
  split at href
  · cases href
  · rw [if_pos (by decide)] at href
    cases href

/-- a frame that a holder of the key has sealed -/
theorem icv_of_seal {hdr iv body : List UInt8} (hp : getPrivacy e.frame = true)
    (hd : e.frame.data = wepSeal k hdr iv (authAttrib e.frame).attrib.keyIndex body)
    (hh : hdr.length = wlanHdrA3Len) (hi : iv.length = 4) : wepIcvOk (words k e).frame = true := by
  have hframe : (words k e).frame = rtwWepDecrypt k (authAttrib e.frame) := by
    unfold words authWords
    rw [hp]
    rfl
  rw [hframe]
  exact wepIcvOk_seal (Or.inl rfl) hd hh hi hi

theorem step_priv : (r.step conf k e).priv = (onAuth conf (authOracle k e.attack) r.priv e.frame).1 := rfl

theorem sent_of_accepted {out : StaPriv × List ApOut}
    (h : onAuth conf (authOracle k e.attack) r.priv e.frame = out) (ha : out.2 = [.auth (getAddr2 e.frame) 0]) :
    (r.step conf k e).sent = Function.update r.sent (getAddr2 e.frame)
      (((out.1.view (getAddr2 e.frame)).bind fun sta => issueAuthChg sta (words k e).seq).or (r.sent (getAddr2 e.frame))) := by
  unfold step
  dsimp only
  rw [h, if_pos ha]

theorem sent_of_not_accepted {out : StaPriv × List ApOut}
    (h : onAuth conf (authOracle k e.attack) r.priv e.frame = out) (ha : out.2 ≠ [.auth (getAddr2 e.frame) 0]) :
    (r.step conf k e).sent = r.sent := by
  unfold step
  dsimp only
  rw [h, if_neg ha]

/-- the other stations are as they were, and what was sent to them -/
theorem StaOk.frame {addr : Mac} {sta : ApSta} (h : r.StaOk addr sta) (hne : addr ≠ getAddr2 e.frame) :
    (r.step conf k e).StaOk addr sta := by
  have hsent : (r.step conf k e).sent addr = r.sent addr := by
    by_cases ha : (onAuth conf (authOracle k e.attack) r.priv e.frame).2 = [.auth (getAddr2 e.frame) 0]
    · rw [sent_of_accepted rfl ha, Function.update_of_ne hne]
    · rw [sent_of_not_accepted rfl ha]
  unfold StaOk
  rw [hsent]
  exact h

/-- a station that was heard before has the fields the checks read -/
theorem Heard.old {s : StaPriv} {sa : Mac} {sta : ApSta} (hs : Heard s sa sta) (h : sta.authSeq ≠ 0) :
    ∃ old, s.view sa = some old ∧ old.authSeq = sta.authSeq ∧ old.chgTxt = sta.chgTxt ∧ old.state = sta.state := by
  obtain ⟨x, hx⟩ := hs
  cases hv : s.view sa with
  | none =>
    rw [hv] at hx
    rw [show sta = _ from hx] at h
    exact absurd rfl h
  | some old =>
    rw [hv] at hx
    rw [show sta = { old with expireTo := x } from hx]
    exact ⟨old, rfl, rfl, rfl, rfl⟩

theorem inv_step (hconf : conf.dot11AuthAlgrthm = .shared) (e : AuthFrame) (h : r.Inv) : (r.step conf k e).Inv := by
  refine ⟨h.lists.onAuth, fun addr sta hkey hv => ?_⟩
  rw [step_priv] at hv
  have hcase := onAuth_case (o := authOracle k e.attack) (f := e.frame) h.lists hconf
  generalize hout : onAuth conf (authOracle k e.attack) r.priv e.frame = out at hv hcase
  by_cases hsa : addr = getAddr2 e.frame
  · subst hsa
    cases hcase with
    | early out hr hne =>
      unfold StaOk
      rw [sent_of_not_accepted hout hne]
      exact h.sta _ sta hkey hv
    | refused s' status sta₀ hr hs hchk hgone _ => exact nomatch hgone.symm.trans hv
    | accepted s' sta₀ sta' hr hs hchk hnew _ =>
      obtain rfl := Option.some.inj (hnew.symm.trans hv)
      rcases authSeqCheck_shared (Heard.not_isProtected h.lists hs) hchk with ⟨h0, h1, rfl⟩ | ⟨-, -, -, rfl⟩
      · unfold StaOk ApSta.authNext
        rw [h1]
        split
        · exact Or.inl rfl
        · next hfree =>
          rw [Bool.or_eq_true, not_or, Bool.not_eq_true, Bool.not_eq_true] at hfree
          refine Or.inr ⟨rfl, hfree.1, ?_⟩
          rw [sent_of_accepted hout rfl, Function.update_self, hnew]
          have hchg : issueAuthChg (ApSta.authNext { sta₀ with
                chgTxt := List.replicate 128 78
                state := { sta₀.state with authNull := false, authState := true }
                authalg := (authWords (authOracle k e.attack) e.frame).alg
                authSeq := 2 } (authWords (authOracle k e.attack) e.frame).seq) (words k e).seq
              = some (List.replicate 128 78) :=
            if_pos ⟨congrArg (· + 1) h1, rfl, alg_ne_zero hconf hr⟩
          rw [Option.bind_some, hchg]
          rfl
      · exact Or.inl rfl
  · refine StaOk.frame (h.sta addr sta hkey ?_) hsa
    have hkeyne : staKey addr ≠ getAddr2 e.frame := by
      rw [hkey]
      exact hsa
    cases hcase with
    | early out hr hne => exact hv
    | refused s' status sta₀ hr hs hchk hgone hne => rw [← hne addr hkeyne]; exact hv
    | accepted s' sta₀ sta' hr hs hchk hnew hne => rw [← hne addr hkeyne]; exact hv

/-- **A station becomes authenticated exactly by a third frame that passes.** -/
theorem authOk_step (hconf : conf.dot11AuthAlgrthm = .shared) (h : r.Inv) (addr : Mac) :
    (r.step conf k e).authOk addr = true
      → r.authOk addr = true ∨ staKey addr = getAddr2 e.frame ∧ r.Answers conf k e := by
  intro hok
  unfold authOk at hok
  rw [step_priv] at hok
  have hcase := onAuth_case (o := authOracle k e.attack) (f := e.frame) h.lists hconf
  generalize onAuth conf (authOracle k e.attack) r.priv e.frame = out at hok hcase
  by_cases hsa : staKey addr = getAddr2 e.frame
  · cases hcase with
    | early out hr hne => exact Or.inl hok
    | refused s' status sta hr hs hchk hgone _ =>
      have hkey := invalidMac_key hr.2.1
      rw [view_staKey (s := s') hsa hkey, hgone] at hok
      cases hok
    | accepted s' sta sta' hr hs hchk hnew _ =>
      have hkey := invalidMac_key hr.2.1
      rw [view_staKey (s := s') hsa hkey, hnew] at hok
      rcases authSeqCheck_shared (Heard.not_isProtected h.lists hs) hchk with ⟨-, -, rfl⟩ | ⟨h2, h3, hchg, -⟩
      · -- the first frame does not change it
        refine Or.inl ?_
        change sta.state.authSuccess = true at hok
        unfold authOk
        rw [view_staKey hsa hkey]
        obtain ⟨x, hx⟩ := hs
        cases hv : r.priv.view (getAddr2 e.frame) with
        | none =>
          rw [hv] at hx
          rw [show sta = _ from hx] at hok
          cases hok
        | some old =>
          rw [hv] at hx
          rw [show sta = { old with expireTo := x } from hx] at hok
          exact hok
      · obtain ⟨old, hv, hseq, htxt, -⟩ := Heard.old hs (by rw [h2]; exact nofun)
        refine Or.inr ⟨hsa, hr, h3, old, hv, hseq.trans h2, ?_⟩
        unfold chgTxtOk at hchg ⊢
        rw [htxt]
        exact hchg
  · refine Or.inl ?_
    unfold authOk
    cases hcase with
    | early out hr hne => exact hok
    | refused s' status sta hr hs hchk hgone hne => rw [← hne addr hsa]; exact hok
    | accepted s' sta sta' hr hs hchk hnew hne => rw [← hne addr hsa]; exact hok

theorem authOk_of_answers (hconf : conf.dot11AuthAlgrthm = .shared) (h : r.Inv) (ha : r.Answers conf k e) :
    (r.step conf k e).authOk (getAddr2 e.frame) = true ∧ r.authOk (getAddr2 e.frame) = false := by
  obtain ⟨hreach, h3, old, hv, h2, hchg⟩ := ha
  have hkey := invalidMac_key hreach.2.1
  have hfalse : old.state.authSuccess = false := by
    rcases h.sta _ old hkey hv with h0 | ⟨-, hf, -⟩
    · rw [h2] at h0
      cases h0
    · exact hf
  constructor
  · unfold authOk
    rw [step_priv]
    have hcase := onAuth_case (o := authOracle k e.attack) (f := e.frame) h.lists hconf
    generalize onAuth conf (authOracle k e.attack) r.priv e.frame = out at hcase
    have hheard : ∀ sta, Heard r.priv (getAddr2 e.frame) sta → sta.authSeq = 2 ∧ chgTxtOk sta (words k e).frame = true := by
      rintro sta ⟨x, hx⟩
      rw [hv] at hx
      rw [show sta = { old with expireTo := x } from hx]
      exact ⟨h2, hchg⟩
    cases hcase with
    | early out hr hne => exact nomatch (hr hreach).symm.trans hv
    | refused s' status sta hr hs hchk hgone _ =>
      obtain ⟨hs2, hsc⟩ := hheard sta hs
      obtain ⟨sta', hok⟩ := authSeqCheck_third r.priv.assocTo
        (authWords (authOracle k e.attack) e.frame).alg hs2 hsc
      rw [show (authWords (authOracle k e.attack) e.frame).seq = 3 from h3] at hchk
      exact nomatch hok.symm.trans hchk
    | accepted s' sta sta' hr hs hchk hnew _ =>
      obtain ⟨hs2, hsc⟩ := hheard sta hs
      rw [hnew]
      rcases authSeqCheck_shared (Heard.not_isProtected h.lists hs) hchk with ⟨h0, -, -⟩ | ⟨-, -, -, rfl⟩
      · rw [hs2] at h0
        cases h0
      · rfl
  · unfold authOk
    rw [hv]
    exact hfalse

theorem setByProof_iff (hconf : conf.dot11AuthAlgrthm = .shared) (h : r.Inv) :
    r.SetByProof conf k e ↔ r.NoForgery conf k e := by
  constructor
  · intro hset ha
    obtain ⟨hnew, hold⟩ := authOk_of_answers hconf h ha
    rcases hset _ hnew with hok | ⟨-, hproof⟩
    · exact absurd (hold.symm.trans hok) Bool.false_ne_true
    · obtain ⟨i, hie, -⟩ := hproof.challenge
      exact ⟨hproof.privacy, hproof.icv, by rw [hie]; rfl, hproof.follows⟩
  · intro hno addr hok
    refine (authOk_step hconf h addr hok).imp_right fun ⟨hsa, ha⟩ => ⟨hsa, ?_⟩
    obtain ⟨hpriv, hicv, hlen, hopen⟩ := hno ha
    obtain ⟨hreach, h3, old, hv, h2, hchg⟩ := ha
    refine ⟨h3, hpriv, hicv, hopen, ?_⟩
    obtain ⟨⟨i, n⟩, hie, rfl⟩ := Option.map_eq_some_iff.mp hlen
    refine ⟨i, hie, ?_⟩
    unfold chgTxtOk at hchg
    rw [hie] at hchg
    simp only [Bool.and_eq_true, decide_eq_true_eq] at hchg
    rcases h.sta _ old (invalidMac_key hreach.2.1) hv with h0 | ⟨-, -, hsent⟩
    · rw [h2] at h0
      cases h0
    · rw [hsent, hchg.2]

end

theorem inv_init {s : StaPriv} (hs : ListsOk [] s) (hempty : s.table = []) : ({ priv := s } : SharedAuth).Inv := by
  refine ⟨hs, fun addr sta _ hv => ?_⟩
  obtain ⟨p, hp, -⟩ := StaPriv.view_eq_some hv
  have hmem := (StaPriv.rtwGetStainfo_some hp).1
  change p ∈ s.table at hmem
  rw [hempty] at hmem
  cases hmem

end SharedAuth

/-- **Shared key authentication proves possession of the key in exactly the runs in which every third
frame that passes the tests is also protected, intact, complete and in its place.** -/
theorem shared_key_iff (conf : ApConf) (k : WepKeys) (s : StaPriv) (hconf : conf.dot11AuthAlgrthm = .shared)
    (hs : ListsOk [] s) (hempty : s.table = []) (es : List AuthFrame) :
    Along (SharedAuth.step conf k) (SharedAuth.SetByProof conf k) { priv := s } es
      ↔ Along (SharedAuth.step conf k) (SharedAuth.NoForgery conf k) { priv := s } es := by
  refine along_congr (I := SharedAuth.Inv) (C := fun _ _ => True) (fun r e h _ => SharedAuth.inv_step hconf e h)
    (fun r e h _ => SharedAuth.setByProof_iff hconf h) (SharedAuth.inv_init hs hempty) ?_
  exact along_of_forall_prefix fun _ _ _ => trivial

/-- an Authentication frame from one station; the body begins with algorithm, sequence number and status -/
def authFrameOf (body : List UInt8) : AuthFrame where
  frame := { id := 0, data := [0xb0, 0, 0, 0] ++ [2, 0, 0, 0, 0, 1] ++ [2, 0, 0, 0, 0, 9] ++ [2, 0, 0, 0, 0, 1] ++ [0, 0] ++ body }

def sharedConf : ApConf := { dot11AuthAlgrthm := .shared, dot11PrivacyAlgrthm := .wep40 }

/-- a third frame in the clear -/
def clearThird : AuthFrame :=
  authFrameOf ([1, 0, 3, 0, 0, 0] ++ [0, 0, 0, 0] ++ [16, 128] ++ List.replicate 128 78)

theorem shared_key_forged : ¬ ∀ (k : WepKeys) (es : List AuthFrame),
    Along (SharedAuth.step sharedConf k) (SharedAuth.SetByProof sharedConf k) {} es := by
  intro h
  have hstep := (h {} [authFrameOf [1, 0, 1, 0, 0, 0], clearThird]).2.1 [2, 0, 0, 0, 0, 9] (by decide +kernel)
  rcases hstep with hok | ⟨-, hproof⟩
  · exact absurd hok (by decide +kernel)
  · exact absurd hproof.privacy (by decide +kernel)

theorem listsOk_init : ListsOk [] {} :=
  ⟨init_tableOk, ⟨List.nodup_nil, nofun, rfl⟩, ⟨List.nodup_nil, nofun, rfl⟩, nofun, nofun, nofun, nofun⟩

def wepKeys : WepKeys := ⟨fun _ => 5, fun _ => [1, 2, 3, 4, 5]⟩

def thirdHdr : List UInt8 :=
  [0xb0, 0x40, 0, 0] ++ [2, 0, 0, 0, 0, 1] ++ [2, 0, 0, 0, 0, 9] ++ [2, 0, 0, 0, 0, 1] ++ [0, 0]

def thirdBody : List UInt8 := [1, 0, 3, 0, 0, 0] ++ [16, 128] ++ List.replicate 128 78

/-- the third frame as a station with the key sends it -/
def sealedThird : AuthFrame where
  frame := { id := 0, data := wepSeal wepKeys thirdHdr [1, 2, 3, 0] 0 thirdBody }

def openedThird : RecvFrame :=
  { authAttrib sealedThird.frame with data := thirdHdr ++ [1, 2, 3, 0] ++ (thirdBody ++ icvBytes thirdBody) }

theorem words_sealedThird : SharedAuth.words wepKeys sealedThird = ⟨openedThird, 1, 3⟩ := by
  have hopen : authDecrypt wepKeys sealedThird.frame = openedThird :=
    rtwWepDecrypt_seal (Or.inl rfl) rfl rfl rfl rfl
  have hpriv : getPrivacy sealedThird.frame = true := rfl
  unfold SharedAuth.words authWords
  rw [hpriv]
  show AuthWords.mk (authDecrypt wepKeys sealedThird.frame) (le16 (authDecrypt wepKeys sealedThird.frame) 28)
    (le16 (authDecrypt wepKeys sealedThird.frame) 30) = _
  rw [hopen]
  rfl

theorem shared_key_iff_sealed :
    Along (SharedAuth.step sharedConf wepKeys) (SharedAuth.SetByProof sharedConf wepKeys) { priv := {} }
        [authFrameOf [1, 0, 1, 0, 0, 0], sealedThird]
      ∧ (run (SharedAuth.step sharedConf wepKeys) { priv := {} }
        [authFrameOf [1, 0, 1, 0, 0, 0], sealedThird]).authOk [2, 0, 0, 0, 0, 9] = true := by
  have hinv : (SharedAuth.step sharedConf wepKeys { priv := {} } (authFrameOf [1, 0, 1, 0, 0, 0])).Inv :=
    SharedAuth.inv_step rfl _ (SharedAuth.inv_init listsOk_init rfl)
  constructor
  · refine (shared_key_iff sharedConf wepKeys {} rfl listsOk_init rfl _).mpr ⟨fun ha => ?_, fun _ => ?_, trivial⟩
    · exact absurd ha.2.1 (by decide +kernel)
    · refine ⟨rfl, SharedAuth.icv_of_seal rfl rfl rfl rfl, ?_, ?_⟩
      · rw [words_sealedThird]
        decide +kernel
      · have haddr : getAddr2 sealedThird.frame = [2, 0, 0, 0, 0, 9] := rfl
        rw [haddr]
        decide +kernel
  · refine (SharedAuth.authOk_of_answers (e := sealedThird) rfl hinv ⟨⟨rfl, by decide +kernel, ?_⟩, ?_, ?_⟩).1
    · show authRefused sharedConf _ _ _ (SharedAuth.words wepKeys sealedThird).alg = none
      rw [words_sealedThird]
      decide +kernel
    · rw [words_sealedThird]
    · have hwaits : ((SharedAuth.step sharedConf wepKeys {} (authFrameOf [1, 0, 1, 0, 0, 0])).priv.view
          [2, 0, 0, 0, 0, 9]).any (fun sta => decide (sta.authSeq = 2) && chgTxtOk sta openedThird) = true := by
        decide +kernel
      obtain ⟨sta, hv, hp⟩ := (Option.any_eq_true ..).mp hwaits
      rw [words_sealedThird]
      rw [Bool.and_eq_true, decide_eq_true_eq] at hp
      exact ⟨sta, hv, hp⟩

end Rtl8192eu
