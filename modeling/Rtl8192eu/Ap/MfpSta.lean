import Rtl8192eu.Ap.Mlme

/-!
# Unprotected requests and a protected station

A station that is associated with management frame protection and has its pairwise key keeps its
place through the requests that anybody can send in its name, as long as none of them is refused:
a refused authentication frees the station, and `OnAssocReq` takes the association back and clears
the ciphers before it looks at the request.

* `AuthInSeq`      `authSeqCheck` accepts exactly these (`authSeqCheck_ok`);
* `mfp_sta_kept`   the station stays as it was, in a run where no request is refused or
                            asks for something else.
-/

namespace Rtl8192eu

open Run

/-! ## authentication -/

def openMode (mode : AuthAlgrthm) (alg : Nat) : Bool :=
  alg = 0 && (mode = .openSystem || mode = .ieee8021x || mode = .auto)

/-- the challenge text comes back as it was sent -/
def chgTxtOk (sta : ApSta) (f : RecvFrame) : Bool :=
  match chgTxtIe f with
  | none => false
  | some (i, n) => n ≠ 0 && f.bytes (wlanHdrA3Len + 4 + 6 + i + 2) 128 = sta.chgTxt

/-- the next frame of an authentication: the first one, or the third of shared key -/
def AuthInSeq (mode : AuthAlgrthm) (sta : ApSta) (alg seq : Nat) (f : RecvFrame) : Prop :=
  sta.authSeq + 1 = seq ∧ (seq = 1 ∨ openMode mode alg = false ∧ seq = 3 ∧ chgTxtOk sta f = true)

instance (mode : AuthAlgrthm) (sta : ApSta) (alg seq : Nat) (f : RecvFrame) :
    Decidable (AuthInSeq mode sta alg seq f) := inferInstanceAs (Decidable (_ ∧ _))

/-- only these fields of a protected station change -/
def AuthOnly (sta sta' : ApSta) : Prop :=
  ∃ expireTo authSeq authalg chgTxt,
    sta' = { sta with expireTo := expireTo, authSeq := authSeq, authalg := authalg, chgTxt := chgTxt }

theorem authSeqCheck_ok {mode : AuthAlgrthm} {sta : ApSta} {alg seq : Nat} {f : RecvFrame} (assocTo : Nat)
    (h : AuthInSeq mode sta alg seq f) (hp : sta.isProtected = true) :
    ∃ sta', authSeqCheck mode assocTo sta alg seq f = .ok sta' ∧ AuthOnly sta sta' := by
  obtain ⟨hseq, hcase⟩ := h
  unfold authSeqCheck
  rw [if_neg (by omega)]
  rcases hcase with h1 | ⟨hmode, h3, hchg⟩
  · simp only [if_pos h1, ApSta.authDone, if_pos hp]
    split
    · exact ⟨_, rfl, _, _, _, _, rfl⟩
    · exact ⟨_, rfl, _, _, _, _, rfl⟩
  · rw [if_neg (by simpa [openMode] using hmode), if_neg (by omega), if_pos h3]
    unfold chgTxtOk at hchg
    cases hie : chgTxtIe f with
    | none =>
      rw [hie] at hchg
      cases hchg
    | some r =>
      rw [hie] at hchg
      simp only [Bool.and_eq_true, decide_eq_true_eq] at hchg
      simp only [if_neg hchg.1, if_pos hchg.2, ApSta.authDone, if_pos hp]
      exact ⟨_, rfl, _, _, _, _, rfl⟩

/-! ## the station -/

/-- the station `p` with address `mac` is associated under protection -/
structure Kept (mac : Mac) (p : Nat) (info : AsocInfo) (s : StaPriv) : Prop where
  found : s.rtwGetStainfo mac = some p
  linked : p ∈ s.asocList.nodes
  info : (s.pool p).asocInfo = info
  assoc : (s.pool p).state.assocSuccess = true
  mfp : (s.pool p).flags.mfp = true
  key : (s.pool p).bpairwiseKeyInstalled = true

section

variable {conf : ApConf} {mac : Mac} {p : Nat} {info : AsocInfo} {s : StaPriv} {f : RecvFrame}

theorem Kept.isProtected (h : Kept mac p info s) : (s.pool p).isProtected = true := by
  rw [ApSta.isProtected, h.mfp, h.key]
  rfl

theorem Kept.authOnly {g : ApSta → ApSta} (h : Kept mac p info s)
    (hg : AuthOnly (s.pool p) (g (s.pool p))) : Kept mac p info (s.modSta p g) := by
  obtain ⟨e, a, l, c, hg⟩ := hg
  refine ⟨?_, h.linked, ?_, ?_, ?_, ?_⟩
  · rw [StaPriv.rtwGetStainfo_modSta (by rw [hg])]
    exact h.found
  · rw [StaPriv.modSta_pool, hg]
    exact h.info
  · rw [StaPriv.modSta_pool, hg]
    exact h.assoc
  · rw [StaPriv.modSta_pool, hg]
    exact h.mfp
  · rw [StaPriv.modSta_pool, hg]
    exact h.key

theorem Kept.authFind (h : Kept mac p info s) : Rtl8192eu.authFind s mac = some (p, s) := by
  simp only [Rtl8192eu.authFind, h.found, h.isProtected, if_true]

theorem Kept.authList (h : Kept mac p info s) : Kept mac p info (Rtl8192eu.authList s p) := by
  simp only [Rtl8192eu.authList, h.isProtected, if_true]
  apply h.authOnly
  split
  · exact ⟨_, _, _, _, rfl⟩
  · exact ⟨_, _, _, _, rfl⟩

/-- the authentication is not refused once the station is known -/
def AuthKeeps (conf : ApConf) (s : StaPriv) (mac : Mac) (w : AuthWords) : Prop :=
  authReported conf w.alg = false → ∀ p ∈ s.rtwGetStainfo mac,
    AuthInSeq (authMode conf w.alg) (s.pool p) w.alg w.seq w.frame

theorem Kept.authSta {w : AuthWords} (h : Kept mac p info s)
    (hw : authReported conf w.alg = false →
      AuthInSeq (authMode conf w.alg) (s.pool p) w.alg w.seq w.frame) :
    Kept mac p info (authSta conf s mac p w).1 ∧ .addSta mac ∉ (Rtl8192eu.authSta conf s mac p w).2 := by
  unfold Rtl8192eu.authSta
  split
  · constructor
    · dsimp only
      exact h.authOnly ⟨_, _, _, _, rfl⟩
    · simp
  · rename_i hr
    obtain ⟨sta', hok, hsta⟩ := authSeqCheck_ok s.assocTo
      (hw (Bool.eq_false_of_not_eq_true hr)) h.isProtected
    simp only [hok]
    constructor
    · apply h.authOnly
      obtain ⟨e, a, l, c, rfl⟩ := hsta
      exact ⟨_, _, _, _, rfl⟩
    · simp

theorem AuthInSeq.of_authOnly {mode : AuthAlgrthm} {sta sta' : ApSta} {alg seq : Nat}
    (h : AuthInSeq mode sta alg seq f) (hs : sta'.authSeq = sta.authSeq)
    (hc : sta'.chgTxt = sta.chgTxt) : AuthInSeq mode sta' alg seq f := by
  unfold AuthInSeq chgTxtOk at *
  rwa [hs, hc]

theorem authList_pool (s : StaPriv) (p : Nat) :
    ((authList s p).pool p).authSeq = (s.pool p).authSeq
      ∧ ((authList s p).pool p).chgTxt = (s.pool p).chgTxt := by
  unfold authList
  dsimp only
  rw [StaPriv.modSta_pool]
  have hpool : ∀ s' : StaPriv, s' = (if (s.pool p).isProtected then s
      else { s with authList := s.authList.link p }) → s'.pool p = s.pool p := by
    rintro s' rfl
    split <;> rfl
  rw [hpool _ rfl]
  split <;> exact ⟨rfl, rfl⟩

theorem Kept.onAuth {o : ApOracle} (h : Kept mac p info s) (hf : getAddr2 f = mac)
    (hC : authRefused conf o s mac (authWords o f).alg = none → AuthKeeps conf s mac (authWords o f)) :
    Kept mac p info (onAuth conf o s f).1 ∧ .addSta mac ∉ (Rtl8192eu.onAuth conf o s f).2 := by
  unfold Rtl8192eu.onAuth
  dsimp only
  rw [hf]
  split
  · exact ⟨h, by simp⟩
  split
  · exact ⟨h, by simp⟩
  rename_i href
  simp only [h.authFind]
  apply h.authList.authSta
  intro hr
  exact (hC href hr p h.found).of_authOnly (authList_pool s p).1 (authList_pool s p).2

end

/-! ## association -/

section

variable {conf : ApConf} {mac : Mac} {p : Nat} {info : AsocInfo} {s : StaPriv} {f : RecvFrame}

instance decidableAuthKeeps (conf : ApConf) (s : StaPriv) (mac : Mac) (w : AuthWords) :
    Decidable (AuthKeeps conf s mac w) :=
  inferInstanceAs (Decidable (_ → ∀ p ∈ s.rtwGetStainfo mac,
    AuthInSeq (authMode conf w.alg) (s.pool p) w.alg w.seq w.frame))

/-- a request that `OnAssocReq` does not ignore is accepted and asks for what the station has -/
def AssocKeeps (conf : ApConf) (s : StaPriv) (mac : Mac) (f : RecvFrame) : Prop :=
  asocreqIeOffset f ≤ f.len → ∀ p ∈ s.rtwGetStainfo mac,
    ((s.pool p).authalg = authAlgSae → (s.pool p).state.authNull = false) →
      (∀ st ∈ assocStart (s.pool p).state, (assocParse conf { s.pool p with state := st } f).1 = 0)
        ∧ ∀ e ∈ rtwIeee80211ParseElems (f.data.drop (asocreqIeOffset f)),
          askedSuites conf e (s.pool p).asocInfo = (s.pool p).asocInfo

instance decidableAssocKeeps (conf : ApConf) (s : StaPriv) (mac : Mac) (f : RecvFrame) :
    Decidable (AssocKeeps conf s mac f) :=
  inferInstanceAs (Decidable (_ → ∀ p ∈ s.rtwGetStainfo mac, (_ → _) →
    (∀ st ∈ assocStart (s.pool p).state, _)
      ∧ ∀ e ∈ rtwIeee80211ParseElems (f.data.drop (asocreqIeOffset f)), _))

/-- a protected station that is accepted again keeps its place in the lists -/
theorem Kept.assocDone {sta : ApSta} {st : StaState} (h : Kept mac p info s)
    (hr : ReqOnly conf { s.pool p with state := st } sta) (hi : sta.asocInfo = info) :
    Kept mac p info (assocDone (s.modSta p fun _ => sta) p mac).1
      ∧ .addSta mac ∉ (Rtl8192eu.assocDone (s.modSta p fun _ => sta) p mac).2 := by
  obtain ⟨flags, sec, cap, rates, rfl, hmfp, -⟩ := hr
  have hp : ((s.modSta p fun _ =>
        { s.pool p with state := st, flags := flags, sec := sec, capability := cap, bssrateset := rates }).modSta p
      fun sta => { sta with state := { sta.state with assocState := false, assocSuccess := true } }).pool p
      = { s.pool p with
          state := { st with assocState := false, assocSuccess := true }
          flags := flags, sec := sec, capability := cap, bssrateset := rates } := by
    simp
  have hprot : ApSta.isProtected { s.pool p with
      state := { st with assocState := false, assocSuccess := true }
      flags := flags, sec := sec, capability := cap, bssrateset := rates } = true := by
    simp only [ApSta.isProtected, h.key, hmfp h.mfp, Bool.and_self]
  simp only [Rtl8192eu.assocDone, assocLists, hp, hprot, if_true]
  refine ⟨⟨?_, h.linked, ?_, ?_, ?_, ?_⟩, by simp⟩
  · rw [StaPriv.rtwGetStainfo_modSta (by simp), StaPriv.rtwGetStainfo_modSta (by simp)]
    exact h.found
  · rw [hp]
    exact hi
  · rw [hp]
  · rw [hp]
    exact hmfp h.mfp
  · rw [hp]
    exact h.key

theorem Kept.onAssocReq (h : Kept mac p info s) (haid : info.aid ≠ 0) (hf : getAddr2 f = mac)
    (hC : AssocKeeps conf s mac f) :
    Kept mac p info (onAssocReq conf s f).1 ∧ .addSta mac ∉ (Rtl8192eu.onAssocReq conf s f).2 := by
  unfold Rtl8192eu.onAssocReq
  dsimp only
  rw [hf]
  split
  · exact ⟨h, by simp⟩
  split
  · exact ⟨h, by simp⟩
  rename_i hlen
  simp only [h.found]
  split
  · exact ⟨h, by simp⟩
  rename_i hsae
  obtain ⟨hok, hsame⟩ := hC (Nat.le_of_not_lt hlen) p h.found (by simpa using hsae)
  split
  · exact ⟨h, by simp⟩
  rename_i st hst
  have h0 := hok st hst
  obtain ⟨hreq, hinfo⟩ := assocParse_spec conf { s.pool p with state := st } f
  obtain ⟨e, he, hasked⟩ := hinfo h0
  have hinfo : (assocParse conf { s.pool p with state := st } f).2.asocInfo = info := by
    rw [hasked]
    exact (hsame e he).trans h.info
  split
  · rename_i sta hparse
    rw [hparse] at hreq hinfo
    have hpos : 0 < ((s.modSta p fun _ => sta).pool p).aid := by
      rw [StaPriv.modSta_pool]
      have : sta.aid = info.aid := congrArg AsocInfo.aid hinfo
      omega
    simp only [assocAid, if_pos hpos]
    exact h.assocDone hreq hinfo
  · rename_i status sta hne hparse
    rw [hparse] at h0
    exact absurd h0 hne

end

/-! ## runs -/

namespace ApRun

/-- an unprotected authentication or association request in the name of `mac` -/
def Unprotected (mac : Mac) : ApEvent → Prop
  | .auth _ f | .assocReq f => getAddr2 f = mac ∧ getPrivacy f = false
  | _ => False

/-- before a request: it is not refused once the station is known, and asks for nothing new -/
def Keeps (conf : ApConf) (mac : Mac) (r : ApRun) : ApEvent → Prop
  | .auth o f =>
    authRefused conf o r.priv mac (authWords o f).alg = none → AuthKeeps conf r.priv mac (authWords o f)
  | .assocReq f => AssocKeeps conf r.priv mac f
  | _ => True

instance decidableUnprotected (mac : Mac) : ∀ e, Decidable (Unprotected mac e)
  | .auth _ f => inferInstanceAs (Decidable (getAddr2 f = mac ∧ getPrivacy f = false))
  | .assocReq f => inferInstanceAs (Decidable (getAddr2 f = mac ∧ getPrivacy f = false))
  | .deauth _ => isFalse id
  | .disassoc _ => isFalse id
  | .stadel _ => isFalse id
  | .authExpire => isFalse id

instance decidableKeeps (conf : ApConf) (mac : Mac) (r : ApRun) : ∀ e, Decidable (r.Keeps conf mac e)
  | .auth o f => inferInstanceAs (Decidable (authRefused conf o r.priv mac (authWords o f).alg = none →
      AuthKeeps conf r.priv mac (authWords o f)))
  | .assocReq f => inferInstanceAs (Decidable (AssocKeeps conf r.priv mac f))
  | .deauth _ => isTrue trivial
  | .disassoc _ => isTrue trivial
  | .stadel _ => isTrue trivial
  | .authExpire => isTrue trivial

structure Inv (mac : Mac) (p : Nat) (info : AsocInfo) (r : ApRun) : Prop where
  kept : Kept mac p info r.priv
  pending : r.pending = []
  out : .addSta mac ∉ r.out

theorem inv_step {conf : ApConf} {mac : Mac} {p : Nat} {info : AsocInfo} (haid : info.aid ≠ 0)
    (r : ApRun) (e : ApEvent) (hI : r.Inv mac p info) (hC : Unprotected mac e ∧ r.Keeps conf mac e) :
    (r.step conf e).Inv mac p info := by
  obtain ⟨hu, hk⟩ := hC
  have hmem : ∀ {out : List ApOut}, .addSta mac ∉ out → .addSta mac ∉ r.out ++ out :=
    fun h => by simpa [hI.out] using h
  cases e with
  | auth o f =>
    obtain ⟨h1, h2⟩ := hI.kept.onAuth hu.1 hk
    exact ⟨h1, hI.pending, hmem h2⟩
  | assocReq f =>
    obtain ⟨h1, h2⟩ := hI.kept.onAssocReq haid hu.1 hk
    exact ⟨h1, hI.pending, hmem h2⟩
  | deauth f => exact hu.elim
  | disassoc f => exact hu.elim
  | stadel i => exact hu.elim
  | authExpire => exact hu.elim

end ApRun

/-- **A protected station is not disturbed** by unprotected requests in its name, as long as none
of them is refused or asks for other ciphers: it stays in the table and in `asoc_list` with its
association, nobody is told of a new station and no deletion is queued. -/
theorem mfp_sta_kept (conf : ApConf) (s : StaPriv) (mac : Mac) (p : Nat) (es : List ApEvent)
    (hs : Kept mac p (s.pool p).asocInfo s) (haid : (s.pool p).aid ≠ 0)
    (hu : ∀ e ∈ es, ApRun.Unprotected mac e)
    (hC : Along (ApRun.step conf) (ApRun.Keeps conf mac) { priv := s } es) :
    let r := run (ApRun.step conf) { priv := s } es
    Kept mac p (s.pool p).asocInfo r.priv ∧ r.pending = [] ∧ .addSta mac ∉ r.out := by
  have hI : ApRun.Inv mac p (s.pool p).asocInfo { priv := s } := ⟨hs, rfl, by simp⟩
  have h := run_inv (ApRun.inv_step haid) _ es hI (along_and hu hC)
  exact ⟨h.kept, h.pending, h.out⟩

/-! ## an access point with WPA2 and optional protection -/

def apAddr : Mac := [2, 0, 0, 0, 0, 1]
def staAddr : Mac := [2, 0, 0, 0, 0, 7]

def wpa2Conf : ApConf where
  bssid := apAddr
  ssid := [0x61]
  dot11AuthAlgrthm := .ieee8021x
  dot11PrivacyAlgrthm := .aes
  wpaPsk := 2
  wpa2GroupCipher := 16
  wpa2PairwiseCipher := 16
  akmp := 2
  mfpOpt := 2

/-- one station, associated with CCMP, PSK and protection -/
def mfpStaPriv : StaPriv where
  pool := fun _ => {
    macAddr := staAddr
    state := { asoc := true, assocSuccess := true }
    flags := { mfp := true }
    sec := { wpa2GroupCipher := 16, wpa2PairwiseCipher := 16, akmSuiteType := 2 }
    bpairwiseKeyInstalled := true
    aid := 1 }
  freeStaQueue := List.range' 1 31
  table := [0]
  asocList := ⟨[0], 1⟩
  staAid := fun aid => if aid = 1 then some 0 else none

/-- a management frame to the access point: frame control, transmitter and body -/
def staMgnt (fc : List UInt8) (sa : Mac) (body : List UInt8) : RecvFrame where
  id := 0
  data := fc ++ [0, 0] ++ apAddr ++ sa ++ apAddr ++ [0, 0] ++ body
  room := List.replicate 64 0

def rsnBody : List UInt8 :=
  [0x30, 20, 1, 0, 0, 0x0f, 0xac, 4, 1, 0, 0, 0x0f, 0xac, 4, 1, 0, 0, 0x0f, 0xac, 2, 0x80, 0]

/-- SSID, one rate and RSN with CCMP, PSK and protection -/
def wpa2Req (sa : Mac) : RecvFrame :=
  staMgnt [0x00, 0] sa ([0x31, 4, 0, 0] ++ [0, 1, 0x61] ++ [1, 1, 0x82] ++ rsnBody)

theorem mfpStaPriv_kept : Kept staAddr 0 (mfpStaPriv.pool 0).asocInfo mfpStaPriv :=
  ⟨by decide, by decide, rfl, rfl, rfl, rfl⟩

theorem mfp_sta_kept_again :
    let es := [.auth {} (staMgnt [0xb0, 0] staAddr [0, 0, 1, 0, 0, 0]), .assocReq (wpa2Req staAddr)]
    let r := run (ApRun.step wpa2Conf) { priv := mfpStaPriv } es
    .saQuery staAddr ∈ r.out ∧ Kept staAddr 0 (mfpStaPriv.pool 0).asocInfo r.priv :=
  ⟨by decide, (mfp_sta_kept wpa2Conf mfpStaPriv staAddr 0 _ mfpStaPriv_kept (by decide) (by decide)
    (by decide)).1⟩

/-- an authentication frame with sequence number 2 frees the station -/
theorem mfp_sta_freed :
    ¬ ∀ (conf : ApConf) (s : StaPriv) (mac : Mac) (p : Nat) (es : List ApEvent),
      Kept mac p (s.pool p).asocInfo s → (s.pool p).aid ≠ 0 →
      (∀ e ∈ es, ApRun.Unprotected mac e) →
      let r := run (ApRun.step conf) { priv := s } es
      Kept mac p (s.pool p).asocInfo r.priv ∧ r.pending = [] ∧ .addSta mac ∉ r.out := by
  intro h
  have h' := h wpa2Conf mfpStaPriv staAddr 0
    [.auth {} (staMgnt [0xb0, 0] staAddr [0, 0, 2, 0, 0, 0])] mfpStaPriv_kept (by decide) (by decide)
  exact absurd h'.1.found (by decide)

/-- an association request with another SSID takes the association back -/
example :
    let req := staMgnt [0x00, 0] staAddr ([0x31, 4, 0, 0] ++ [0, 1, 0x62])
    let r := run (ApRun.step wpa2Conf) { priv := mfpStaPriv } [.assocReq req]
    (r.priv.pool 0).state.assocSuccess = false := by
  decide

end Rtl8192eu
