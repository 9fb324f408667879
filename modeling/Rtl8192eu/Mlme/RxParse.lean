import Rtl8192eu.Ap.SharedKey
import Rtl8192eu.Ie.Lookup
import Rtl8192eu.Ie.Rsne
import Rtl8192eu.Mlme.Join

/-!
# What the handlers of a join read

`OnAuth`, `OnAuthClient` and `OnAssocRsp` of `core/rtw_mlme_ext.c`, with every read checked against the end of
the frame.  None of them looks at the length before the fixed fields, or before a length goes to `rtw_get_ie`;
the challenge is compared over 128 bytes; and the loop over the elements of a response only looks where they
begin.

* `onAuthParse`, `onAuthClientParse`, `onAssocRspParse`   the reads; `none` is one outside the frame;
* `Contained`      all of them are inside, no length wraps around, and what is handed on is complete;
* `RxHandler.Ok`   the frames that stay inside;
* `rxParse_iff`    and no others do.

P2P, VHT, TDLS, WAPI, 802.11k and 802.11r are not compiled in.
-/

namespace Rtl8192eu

open Records Walk

/-! ## frames and reads -/

/-- a management frame with its header; the length is the same as `uint` and as `sint` -/
structure MgtFrame where
  bytes : List UInt8
  hdr : 24 ≤ bytes.length
  fits : bytes.length < 2 ^ 31

/-- the frame, with `room` behind it -/
def MgtFrame.recv (b : MgtFrame) (room : List UInt8) : RecvFrame := { id := 0, data := b.bytes, room := room }

/-- `rtw_get_ie` on the bytes from `off` on; the length is a difference of `uint` -/
def getIeAt (b : List UInt8) (off : Nat) (index : Int) : Option (Option (Nat × Nat)) :=
  Walk.rtwGetIe (b.drop off) index (sintOfUint ((b.length + 2 ^ 32 - off) % 2 ^ 32))

/-- what is left by the reads of a handler -/
structure RxReads where
  /-- what was subtracted from the length for `rtw_get_ie` -/
  lookups : List Nat := []
  /-- place and declared length of the elements that were handed to a handler -/
  handed : List (Nat × Nat) := []
  deriving DecidableEq, Repr

/-- every read is inside, no difference is below zero, and the elements are complete -/
def Contained (n : Nat) (r : Option RxReads) : Prop :=
  ∃ p, r = some p ∧ (∀ k ∈ p.lookups, k ≤ n) ∧ ∀ x ∈ p.handed, x.1 + 2 + x.2 ≤ n

/-! ## `OnAuth` -/

def ivOffset (f : RecvFrame) : Nat := if getPrivacy f then 4 else 0

/-- the frame after `rtw_wep_decrypt`, if it was protected; the four bytes of the IV are read -/
def authBytes (k : WepKeys) (b : MgtFrame) : Option (List UInt8) :=
  if getPrivacy (b.recv []) then
    (readBytes b.bytes wlanHdrA3Len 4).map fun _ => (authDecrypt k (b.recv [])).data
  else some b.bytes

/-- the station whose challenge the frame is compared with, if it gets so far -/
def challengedSta (conf : ApConf) (o : ApOracle) (s : StaPriv) (sa : Mac) (alg seq : Nat) : Option ApSta :=
  if invalidMac sa || (authRefused conf o s sa alg).isSome then none
  else
    match authFind s sa with
    | none => none
    | some (p, s') =>
      let sta := (authList s' p).pool p
      let mode := authMode conf alg
      if authReported conf alg || sta.authSeq + 1 ≠ seq || seq ≠ 3
          || alg = 0 && (mode = .openSystem || mode = .ieee8021x || mode = .auto) then none
      else some sta

/-- the challenge behind the fixed fields at `off`; `len` bytes of it are read, unless `skip` says no -/
def challengeAt (d : List UInt8) (off : Nat) (skip : Nat → Bool) (len : Nat → Nat) : Option RxReads := do
  let r ← getIeAt d off 16
  match r with
  | none => some { lookups := [off] }
  | some (i, n) =>
    if skip n then some { lookups := [off] }
    else do
      let _ ← readBytes d (off + i + 2) (len n)
      some { lookups := [off] }

/-- not an empty challenge; it is compared with the whole of `chg_txt` -/
def readChallenge (d : List UInt8) : Option RxReads :=
  challengeAt d (wlanHdrA3Len + 4 + 6) (fun n => n = 0) fun _ => 128

def onAuthParse (conf : ApConf) (k : WepKeys) (attack : Bool) (s : StaPriv) (b : MgtFrame) : Option RxReads :=
  if !conf.asoc then some {}
  else do
    let d ← authBytes k b
    let alg ← Rsn.le16At d (wlanHdrA3Len + ivOffset (b.recv []))
    let seq ← Rsn.le16At d (wlanHdrA3Len + ivOffset (b.recv []) + 2)
    match challengedSta conf (authOracle k attack) s (getAddr2 (b.recv [])) alg seq with
    | none => some {}
    | some _ => readChallenge d

/-! ## `OnAuthClient` -/

/-- not more than `chg_txt` holds; it is copied as long as it says -/
def copyChallenge (d : List UInt8) : Option RxReads :=
  challengeAt d (wlanHdrA3Len + 6) (fun n => 128 < n) fun n => n

/-- the frame is for this join, and not for user space -/
def hearsAuth (conf : JoinConf) (s : Join) (f : RecvFrame) : Bool :=
  !(conf.reportAuth && s.externalSae conf) && getDa f = conf.adapter.macAddr && s.state.authState
    && !s.joinAbort

def onAuthClientParse (conf : JoinConf) (s : Join) (b : MgtFrame) : Option RxReads :=
  if !hearsAuth conf s (b.recv []) then some {}
  else do
    let off := wlanHdrA3Len + ivOffset (b.recv [])
    let _ ← Rsn.le16At b.bytes off
    let seq ← Rsn.le16At b.bytes (off + 2)
    let status ← Rsn.le16At b.bytes (off + 4)
    if status = 0 ∧ seq = 2 ∧ s.authAlgo = .shared then copyChallenge b.bytes else some {}

/-! ## `OnAssocRsp` -/

/-- `WMM_PARA_OUI` -/
def wmmParaOui : List UInt8 := [0x00, 0x50, 0xf2, 0x02, 0x01, 0x01]

/-- `_HT_CAPABILITY_IE_`, `_HT_EXTRA_INFO_IE_` and `_ERPINFO_IE_` -/
def hasHandler (id : UInt8) : Bool := id == 45 || id == 61 || id == 42

/-- the loop over the elements: those that are handed to a handler -/
def rspLoop (b : List UInt8) : Nat → Nat → Option (List (Nat × Nat))
  | 0, _ => none
  | n + 1, i =>
    if i < b.length then do
      let id ← b[i]?
      -- six bytes are compared, for a vendor element
      let wmm ← foundAt b i eidVendorSpecific id (some wmmParaOui)
      let len ← b[i + 1]?
      let rest ← rspLoop b n (i + (len.toNat + 2))
      some (if wmm || hasHandler id then (i, len.toNat) :: rest else rest)
    else some []

/-- the frame is for this join -/
def hearsAssoc (conf : JoinConf) (s : Join) (f : RecvFrame) : Bool :=
  getDa f = conf.adapter.macAddr && (s.state.authSuccess || s.state.assocState) && !s.joinAbort
    && !s.state.assocSuccess

/-- `res` is an association id -/
def aidOk (word : Nat) : Bool := 1 ≤ word &&& 0x3fff && word &&& 0x3fff ≤ 2007

def onAssocRspParse (conf : JoinConf) (s : Join) (b : MgtFrame) : Option RxReads :=
  if !hearsAssoc conf s (b.recv []) then some {}
  else do
    let status ← Rsn.le16At b.bytes (wlanHdrA3Len + 2)
    if 0 < status then some {}
    else do
      let _ ← Rsn.le16At b.bytes wlanHdrA3Len
      let aid ← Rsn.le16At b.bytes (wlanHdrA3Len + 4)
      if aidOk aid then
        (rspLoop b.bytes (b.bytes.length + 1) (wlanHdrA3Len + 6)).map fun handed => { handed := handed }
      else some {}

/-! ## the handlers, and the frames they can be given -/

/-- the two sides: an access point, and a station that joins -/
structure RxState where
  ap : ApConf
  keys : WepKeys
  /-- the answer of `rtw_defs_attack_chk` -/
  attack : Bool
  priv : StaPriv
  join : JoinConf
  sta : Join

inductive RxHandler where
  | onAuth | onAuthClient | onAssocRsp
  deriving DecidableEq, Repr

def RxHandler.parse (h : RxHandler) (r : RxState) (b : MgtFrame) : Option RxReads :=
  match h with
  | .onAuth => onAuthParse r.ap r.keys r.attack r.priv b
  | .onAuthClient => onAuthClientParse r.join r.sta b
  | .onAssocRsp => onAssocRspParse r.join r.sta b

/-- the bytes of a challenge that is compared: 128 of them follow the header -/
def ChallengeOk (rs : List Elem) (t : List UInt8) : Prop :=
  match first elems (Elem.hasIndex 16) rs with
  | some (o, e) => e.body = [] ∨ o + 130 ≤ (all elems rs ++ t).length
  | none => t = [] ∨ 2 ≤ t.length ∧ (t.head? = some 16 → 130 ≤ t.length)

/-- the bytes of a challenge that is copied: the element is complete, or too long -/
def CopyOk (rs : List Elem) (t : List UInt8) : Prop :=
  (∃ e ∈ rs, e.hasIndex 16 = true) ∨ t = [] ∨ 2 ≤ t.length ∧ (t.head? = some 16 → 128 < (t.getD 1 0).toNat)

/-- the elements of a response: the OUI can be compared in each of them, and an incomplete one at the end has no
handler -/
def RspOk : List Elem → List UInt8 → Prop
  | [], t => t = [] ∨ 2 ≤ t.length ∧ Legible eidVendorSpecific (some wmmParaOui) t
      ∧ ¬ Hit eidVendorSpecific (some wmmParaOui) t ∧ ∀ id ∈ t.head?, hasHandler id = false
  | e :: rs, t => Legible eidVendorSpecific (some wmmParaOui) (all elems (e :: rs) ++ t) ∧ RspOk rs t

/-- the elements from `off` on, with the rest -/
def elemsFrom (b : List UInt8) (off : Nat) : List Elem × List UInt8 := pieces elems (b.drop off)

/-- the decrypted frame -/
def authData (k : WepKeys) (b : MgtFrame) : List UInt8 :=
  if getPrivacy (b.recv []) then (authDecrypt k (b.recv [])).data else b.bytes

def wordOf (d : List UInt8) (i : Nat) : Nat := getLe16 (d.drop i)

def RxHandler.Ok (h : RxHandler) (r : RxState) (b : MgtFrame) : Prop :=
  let n := b.bytes.length
  let iv := ivOffset (b.recv [])
  match h with
  | .onAuth => r.ap.asoc = true → 28 + iv ≤ n
      ∧ ((challengedSta r.ap (authOracle r.keys r.attack) r.priv (getAddr2 (b.recv []))
          (wordOf (authData r.keys b) (24 + iv)) (wordOf (authData r.keys b) (26 + iv))).isSome = true →
        34 ≤ n ∧ ChallengeOk (elemsFrom (authData r.keys b) 34).1 (elemsFrom (authData r.keys b) 34).2)
  | .onAuthClient => hearsAuth r.join r.sta (b.recv []) = true → 30 + iv ≤ n
      ∧ (wordOf b.bytes (28 + iv) = 0 → wordOf b.bytes (26 + iv) = 2 → r.sta.authAlgo = .shared →
        CopyOk (elemsFrom b.bytes 30).1 (elemsFrom b.bytes 30).2)
  | .onAssocRsp => hearsAssoc r.join r.sta (b.recv []) = true → 28 ≤ n
      ∧ (wordOf b.bytes 26 = 0 → 30 ≤ n
        ∧ (aidOk (wordOf b.bytes 28) = true → RspOk (elemsFrom b.bytes 30).1 (elemsFrom b.bytes 30).2))

/-! ## reads -/

section
variable {n i : Nat} {d : List UInt8} {p : RxReads} {f : Nat → Option RxReads}

theorem le16At_of_lt (h : d.length < i + 2) : Rsn.le16At d i = none := by
  have h1 : d[i + 1]? = none := List.getElem?_eq_none (by omega)
  unfold Rsn.le16At
  rw [h1]
  cases d[i]? <;> rfl

theorem not_contained_none : ¬ Contained n none := by
  rintro ⟨p, h, -⟩
  cases h

theorem contained_nothing : Contained n (some {}) := ⟨{}, rfl, nofun, nofun⟩

/-- a word is inside, and what follows it -/
theorem contained_le16At :
    Contained n (Rsn.le16At d i >>= f) ↔ i + 2 ≤ d.length ∧ Contained n (f (wordOf d i)) := by
  by_cases h : i + 2 ≤ d.length
  · rw [Rsn.le16At_eq h]
    exact (and_iff_right h).symm
  · rw [le16At_of_lt (Nat.lt_of_not_le h)]
    exact iff_of_false not_contained_none fun hc => h hc.1

theorem contained_lookup {r : Option RxReads} {k : Nat}
    (h : ∀ p, r = some p → p = { lookups := [k] }) : Contained n r ↔ k ≤ n ∧ r.isSome = true := by
  constructor
  · rintro ⟨p, rfl, hk, -⟩
    rw [h p rfl] at hk
    exact ⟨hk k List.mem_cons_self, rfl⟩
  · rintro ⟨hk, hs⟩
    obtain ⟨p, hp⟩ := Option.isSome_iff_exists.mp hs
    refine ⟨p, hp, ?_, ?_⟩
    · rw [h p hp]
      intro x hx
      rw [List.mem_singleton.mp hx]
      exact hk
    · rw [h p hp]
      exact nofun

theorem readBytes_none {m : Nat} (h : d.length < i + m) : readBytes d i m = none := if_neg (Nat.not_le_of_lt h)

/-- the length that is passed on is the one of the bytes that are left -/
theorem getIeAt_of_le {off : Nat} (h : off ≤ d.length) (hd : d.length < 2 ^ 31) (index : Int) :
    getIeAt d off index = Walk.rtwGetIe (d.drop off) index (d.drop off).length := by
  have hlen : (d.drop off).length = d.length - off := List.length_drop
  have hmod : (d.length + 2 ^ 32 - off) % 2 ^ 32 = d.length - off := by omega
  have hint : sintOfUint (d.length - off) = ((d.drop off).length : Int) := by
    unfold sintOfUint
    rw [if_pos (by omega), hlen]
  unfold getIeAt
  rw [hmod, hint]

theorem getIeAt_found {off : Nat} (h : off ≤ d.length) (hd : d.length < 2 ^ 31) (index : Int) :
    getIeAt d off index = found index (elemsFrom d off).1 (elemsFrom d off).2 :=
  (getIeAt_of_le h hd index).trans (rtwGetIe_found (all_pieces ..) (cut_pieces ..) index)

end

/-! ## the challenge -/

section
variable {d : List UInt8} {p : RxReads}

theorem length_elemsFrom (d : List UInt8) (off : Nat) :
    (all elems (elemsFrom d off).1 ++ (elemsFrom d off).2).length = d.length - off := by
  unfold elemsFrom
  rw [all_pieces, List.length_drop]

theorem challengeAt_eq {off : Nat} {skip : Nat → Bool} {len : Nat → Nat}
    (h : challengeAt d off skip len = some p) : p = { lookups := [off] } := by
  unfold challengeAt at h
  cases hg : getIeAt d off 16 with
  | none =>
    rw [hg] at h
    cases h
  | some r =>
    rw [hg] at h
    cases r with
    | none => exact (Option.some.inj h).symm
    | some x =>
      dsimp only [Option.bind_eq_bind, Option.bind_some] at h
      by_cases h0 : skip x.2 = true
      · rw [if_pos h0] at h
        exact (Option.some.inj h).symm
      · rw [if_neg h0] at h
        obtain ⟨l, -, hl⟩ := Option.bind_eq_some_iff.mp h
        exact (Option.some.inj hl).symm

/-- the bytes that are read are there -/
theorem isSome_challengeAt {off : Nat} {skip : Nat → Bool} {len : Nat → Nat} :
    (challengeAt d off skip len).isSome = true
      ↔ ∃ r, getIeAt d off 16 = some r ∧ ∀ x ∈ r, skip x.2 = true ∨ off + x.1 + 2 + len x.2 ≤ d.length := by
  unfold challengeAt
  cases hg : getIeAt d off 16 with
  | none => simp
  | some r =>
    cases r with
    | none => simp
    | some x =>
      obtain ⟨i, k⟩ := x
      by_cases h0 : skip k = true
      · simp [h0]
      · by_cases hb : off + i + 2 + len k ≤ d.length
        · simp [h0, readBytes_some hb, hb]
        · simp [h0, readBytes_none (Nat.lt_of_not_le hb), hb]

end

section
variable {d t : List UInt8} {rs : List Elem}

theorem cut_elemsFrom (d : List UInt8) (off : Nat) : elems.cut (elemsFrom d off).2 = none := cut_pieces elems _

/-- the rest declares more than there is -/
theorem lt_declared (hcut : elems.cut t = none) (h2 : 2 ≤ t.length) : t.length < (t.getD 1 0).toNat + 2 := by
  have hne : t ≠ [] := List.ne_nil_of_length_pos (by omega)
  rcases cut_eq_none hcut hne with ⟨x, rfl⟩ | ⟨id, elen, rest, rfl, hlt⟩
  · exact absurd h2 (by simp)
  · exact Nat.add_lt_add_right hlt 2

/-- the condition on the element that is found, at the complete elements and the rest -/
theorem found_all_iff (k : UInt8) (P : Nat × Nat → Prop) :
    (∃ r, found k.toNat rs t = some r ∧ ∀ x ∈ r, P x) ↔
      match first elems (Elem.hasIndex k.toNat) rs with
      | some (o, e) => P (o, e.body.length)
      | none => t = [] ∨ 2 ≤ t.length
          ∧ (t.head? = some k → P ((all elems rs).length, (t.getD 1 0).toNat)) := by
  unfold found
  cases hf : first elems (Elem.hasIndex k.toNat) rs with
  | some x => simp
  | none =>
    match t with
    | [] => simp [tailFound]
    | [_] => simp [tailFound]
    | id :: elen :: _ =>
      by_cases hid : id = k
      · simp [tailFound, hid]
      · have hne : ¬ (id.toNat : Int) = k.toNat := fun h => hid (UInt8.toNat_inj.mp (Int.ofNat_inj.mp h))
        simp [tailFound, hid, hne]

theorem isSome_readChallenge_iff : (readChallenge d).isSome = true ↔
    ∃ r, getIeAt d 34 16 = some r ∧ ∀ x ∈ r, x.2 = 0 ∨ x.1 + 164 ≤ d.length := by
  refine isSome_challengeAt.trans (exists_congr fun r => and_congr_right fun _ => forall₂_congr fun x _ => ?_)
  rw [decide_eq_true_eq, show wlanHdrA3Len + 4 + 6 = 34 from rfl]
  exact or_congr Iff.rfl (by omega)

theorem isSome_copyChallenge_iff : (copyChallenge d).isSome = true ↔
    ∃ r, getIeAt d 30 16 = some r ∧ ∀ x ∈ r, 128 < x.2 ∨ x.1 + x.2 + 32 ≤ d.length := by
  refine isSome_challengeAt.trans (exists_congr fun r => and_congr_right fun _ => forall₂_congr fun x _ => ?_)
  rw [decide_eq_true_eq, show wlanHdrA3Len + 6 = 30 from rfl]
  exact or_congr Iff.rfl (by omega)

theorem isSome_readChallenge (h : 34 ≤ d.length) (hd : d.length < 2 ^ 31) :
    (readChallenge d).isSome = true ↔ ChallengeOk (elemsFrom d 34).1 (elemsFrom d 34).2 := by
  have hlen := length_elemsFrom d 34
  have hcut := cut_elemsFrom d 34
  rw [isSome_readChallenge_iff, getIeAt_found h hd]
  generalize (elemsFrom d 34).1 = rs at hlen hcut ⊢
  generalize (elemsFrom d 34).2 = t at hlen hcut ⊢
  refine (found_all_iff 16 _).trans ?_
  unfold ChallengeOk
  show (match first elems (Elem.hasIndex 16) rs with
    | some (o, e) => _
    | none => _) ↔ _
  cases hf : first elems (Elem.hasIndex 16) rs with
  | some x =>
    dsimp only
    rw [hlen, List.length_eq_zero_iff]
    exact or_congr Iff.rfl (by omega)
  | none =>
    dsimp only
    rw [List.length_append] at hlen
    refine or_congr Iff.rfl (and_congr_right fun h2 => imp_congr_right fun _ => ?_)
    have hlt := lt_declared hcut h2
    constructor
    · rintro (h0 | h164)
      · omega
      · omega
    · intro h130
      exact Or.inr (by omega)

theorem isSome_copyChallenge (h : 30 ≤ d.length) (hd : d.length < 2 ^ 31) :
    (copyChallenge d).isSome = true ↔ CopyOk (elemsFrom d 30).1 (elemsFrom d 30).2 := by
  have hlen := length_elemsFrom d 30
  have hcut := cut_elemsFrom d 30
  rw [isSome_copyChallenge_iff, getIeAt_found h hd]
  generalize (elemsFrom d 30).1 = rs at hlen hcut ⊢
  generalize (elemsFrom d 30).2 = t at hlen hcut ⊢
  refine (found_all_iff 16 _).trans ?_
  unfold CopyOk
  show (match first elems (Elem.hasIndex 16) rs with
    | some (o, e) => _
    | none => _) ↔ _
  cases hf : first elems (Elem.hasIndex 16) rs with
  | some x =>
    obtain ⟨pre, post, rfl, hx, -, ho⟩ := first_eq_some hf
    refine iff_of_true (Or.inr ?_) (Or.inl ⟨x.2, by simp, hx⟩)
    rw [all_append, List.append_assoc, List.length_append, List.length_append, length_all_cons] at hlen
    dsimp only
    omega
  | none =>
    dsimp only
    have hno : ¬ ∃ e ∈ rs, e.hasIndex 16 = true := by
      rintro ⟨e, he, h16⟩
      rw [first_eq_none.mp hf e he] at h16
      cases h16
    rw [List.length_append] at hlen
    rw [or_iff_right hno]
    refine or_congr Iff.rfl (and_congr_right fun h2 => imp_congr_right fun _ => ?_)
    have hlt := lt_declared hcut h2
    exact or_iff_left (by omega)

end

/-! ## the loop over a response -/

section
variable {b pre t rest : List UInt8} {rs : List Elem} {e : Elem} {id elen eid : UInt8} {n i : Nat}
  {oui : Option (List UInt8)}

theorem foundAt_illegible (pre : List UInt8) (h : ¬ Legible eid oui (id :: elen :: rest)) :
    foundAt (pre ++ id :: elen :: rest) pre.length eid id oui = none := by
  obtain ⟨hid, hm⟩ := ouiMatches_illegible pre h
  unfold foundAt
  rw [if_pos hid, hm]

theorem foundAt_legible (pre : List UInt8) (h : Legible eid oui (id :: elen :: rest)) :
    ∃ found, foundAt (pre ++ id :: elen :: rest) pre.length eid id oui = some found
      ∧ (found = true ↔ Hit eid oui (id :: elen :: rest)) := by
  unfold foundAt
  by_cases hid : eid = id
  · subst hid
    rw [if_pos rfl]
    exact ouiMatches_legible pre h
  · rw [if_neg hid]
    exact ⟨false, rfl, iff_of_false Bool.false_ne_true fun hh => hid (Option.some.inj hh.1).symm⟩

/-- the elements that are handed on are complete -/
def Complete (n : Nat) (x : Option (List (Nat × Nat))) : Prop := ∃ l, x = some l ∧ ∀ x ∈ l, x.1 + 2 + x.2 ≤ n

theorem not_complete_none : ¬ Complete n none := by
  rintro ⟨l, h, -⟩
  cases h

/-- an element in front of the others -/
theorem complete_map {x : Option (List (Nat × Nat))} {c : Bool} {a : Nat × Nat} :
    Complete n (x.map fun l => if c then a :: l else l) ↔ (c = true → a.1 + 2 + a.2 ≤ n) ∧ Complete n x := by
  cases x with
  | none => exact iff_of_false not_complete_none fun h => not_complete_none h.2
  | some l =>
    cases c with
    | false => simp [Complete]
    | true =>
      unfold Complete
      simp only [Option.map_some, if_true, Option.some.injEq, exists_eq_left', List.forall_mem_cons,
        true_imp_iff]

theorem rspLoop_end (h : b.length ≤ i) : rspLoop b (n + 1) i = some [] := by
  unfold rspLoop
  exact if_neg (Nat.not_lt_of_le h)

/-- a length that cannot be read -/
theorem rspLoop_one (x : UInt8) : rspLoop (pre ++ [x]) (n + 1) pre.length = none := by
  have h0 : (pre ++ [x])[pre.length]? = some x := getElem?_pre pre [x] 0
  have h1 : (pre ++ [x])[pre.length + 1]? = none := getElem?_pre pre [x] 1
  unfold rspLoop
  rw [if_pos (by simp), h0, h1]
  dsimp only [Option.bind_eq_bind, Option.bind_some]
  cases foundAt (pre ++ [x]) pre.length eidVendorSpecific x (some wmmParaOui) with
  | none => rfl
  | some _ => rfl

theorem rspLoop_illegible (h : ¬ Legible eidVendorSpecific (some wmmParaOui) (id :: elen :: rest)) :
    rspLoop (pre ++ id :: elen :: rest) (n + 1) pre.length = none := by
  unfold rspLoop
  rw [if_pos (by simp), getElem?_id]
  dsimp only [Option.bind_eq_bind, Option.bind_some]
  rw [foundAt_illegible pre h]
  rfl

/-- one round -/
theorem rspLoop_step (n : Nat) (pre : List UInt8)
    (h : Legible eidVendorSpecific (some wmmParaOui) (id :: elen :: rest)) :
    ∃ wmm, (wmm = true ↔ Hit eidVendorSpecific (some wmmParaOui) (id :: elen :: rest))
      ∧ rspLoop (pre ++ id :: elen :: rest) (n + 1) pre.length
        = (rspLoop (pre ++ id :: elen :: rest) n (pre.length + (elen.toNat + 2))).map fun l =>
          if wmm || hasHandler id then (pre.length, elen.toNat) :: l else l := by
  obtain ⟨wmm, hw, hit⟩ := foundAt_legible pre h
  refine ⟨wmm, hit, ?_⟩
  rw [rspLoop, if_pos (by simp), getElem?_id, getElem?_elen]
  dsimp only [Option.bind_eq_bind, Option.bind_some]
  rw [hw, Option.bind_some]
  cases rspLoop (pre ++ id :: elen :: rest) n (pre.length + (elen.toNat + 2)) with
  | none => rfl
  | some l => rfl

/-- an element whose bytes do not fit comes last, and no handler may take it -/
theorem rspLoop_short (n : Nat) (pre : List UInt8) (hlt : rest.length < elen.toNat) :
    Complete (pre ++ id :: elen :: rest).length (rspLoop (pre ++ id :: elen :: rest) (n + 1 + 1) pre.length)
      ↔ RspOk [] (id :: elen :: rest) := by
  have hok : RspOk [] (id :: elen :: rest)
      ↔ Legible eidVendorSpecific (some wmmParaOui) (id :: elen :: rest)
      ∧ ¬ Hit eidVendorSpecific (some wmmParaOui) (id :: elen :: rest) ∧ hasHandler id = false := by
    simp [RspOk]
  by_cases hl : Legible eidVendorSpecific (some wmmParaOui) (id :: elen :: rest)
  · obtain ⟨wmm, hit, hstep⟩ := rspLoop_step (n + 1) pre hl
    have hout : ¬ pre.length + 2 + elen.toNat ≤ (pre ++ id :: elen :: rest).length := by
      rw [List.length_append, List.length_cons, List.length_cons]
      omega
    rw [hstep, rspLoop_end (by rw [List.length_append, List.length_cons, List.length_cons]; omega),
      complete_map, hok, ← hit]
    constructor
    · rintro ⟨hc, -⟩
      refine ⟨hl, fun hw => hout (hc ?_), Bool.eq_false_iff.mpr fun hh => hout (hc ?_)⟩
      · rw [hw, Bool.true_or]
      · rw [hh, Bool.or_true]
    · rintro ⟨-, hw, hh⟩
      refine ⟨fun hc => ?_, [], rfl, nofun⟩
      rw [Bool.eq_false_iff.mpr hw, hh] at hc
      cases hc
  · rw [rspLoop_illegible hl]
    exact iff_of_false not_complete_none fun h => hl (hok.mp h).1

/-- **The loop.** -/
theorem rspLoop_complete (n : Nat) (pre : List UInt8) (rs : List Elem) (ht : elems.cut t = none)
    (hn : (all elems rs ++ t).length < n) :
    Complete (pre ++ (all elems rs ++ t)).length (rspLoop (pre ++ (all elems rs ++ t)) n pre.length)
      ↔ RspOk rs t := by
  induction rs generalizing pre n with
  | nil =>
    obtain ⟨n, rfl⟩ := Nat.exists_eq_add_one.mpr (Nat.lt_of_le_of_lt (Nat.zero_le _) hn)
    rw [all_nil, List.nil_append] at hn ⊢
    by_cases hnil : t = []
    · rw [hnil, rspLoop_end (by simp)]
      exact iff_of_true ⟨[], rfl, nofun⟩ (Or.inl rfl)
    · rcases cut_eq_none ht hnil with ⟨x, rfl⟩ | ⟨id, elen, rest, rfl, hlt⟩
      · rw [rspLoop_one]
        refine iff_of_false not_complete_none ?_
        simp [RspOk]
      · obtain ⟨n, rfl⟩ : ∃ m, n = m + 1 := Nat.exists_eq_add_one.mpr (by simp at hn; omega)
        exact rspLoop_short n pre hlt
  | cons e rs ih =>
    obtain ⟨n, rfl⟩ := Nat.exists_eq_add_one.mpr (Nat.lt_of_le_of_lt (Nat.zero_le _) hn)
    have hall := all_cons_append e rs t
    have hih := ih n (pre ++ e.bytes) (by
      rw [hall] at hn
      simp only [List.length_cons, List.length_append] at hn ⊢
      omega)
    rw [← split_all_append, length_pre] at hih
    have hok : RspOk (e :: rs) t
        ↔ Legible eidVendorSpecific (some wmmParaOui) (all elems (e :: rs) ++ t) ∧ RspOk rs t := Iff.rfl
    rw [hok, ← hih]
    have hin : pre.length + 2 + e.body.length ≤ (pre ++ (all elems (e :: rs) ++ t)).length := by
      rw [List.length_append, List.length_append, length_all_cons]
      omega
    rw [hall] at hin ⊢
    by_cases hl : Legible eidVendorSpecific (some wmmParaOui)
        (e.id :: UInt8.ofNat e.body.length :: (e.body ++ (all elems rs ++ t)))
    · obtain ⟨wmm, -, hstep⟩ := rspLoop_step n pre hl
      rw [hstep, complete_map, Elem.toNat_elen]
      exact and_congr (iff_of_true (fun _ => hin) hl) Iff.rfl
    · rw [rspLoop_illegible hl]
      exact iff_of_false not_complete_none fun h => hl h.1

end

/-! ## the handlers -/

section
variable {n : Nat} {d : List UInt8}

theorem contained_handed {x : Option (List (Nat × Nat))} :
    Contained n (x.map fun handed => { handed := handed }) ↔ Complete n x := by
  cases x with
  | none => exact iff_of_false not_contained_none not_complete_none
  | some l => simp [Contained, Complete]

theorem contained_readChallenge (hd : d.length < 2 ^ 31) : Contained d.length (readChallenge d)
    ↔ 34 ≤ d.length ∧ ChallengeOk (elemsFrom d 34).1 (elemsFrom d 34).2 :=
  (contained_lookup fun _ => challengeAt_eq).trans (and_congr_right fun h => isSome_readChallenge h hd)

theorem contained_copyChallenge (hd : d.length < 2 ^ 31) : Contained d.length (copyChallenge d)
    ↔ 30 ≤ d.length ∧ CopyOk (elemsFrom d 30).1 (elemsFrom d 30).2 :=
  (contained_lookup fun _ => challengeAt_eq).trans (and_congr_right fun h => isSome_copyChallenge h hd)

/-- the loop, from a place in the frame on -/
theorem rspLoop_from {off : Nat} (h : off ≤ d.length) : Complete d.length (rspLoop d (d.length + 1) off)
    ↔ RspOk (elemsFrom d off).1 (elemsFrom d off).2 := by
  have hlen : (d.take off).length = off := List.length_take_of_le h
  have hall : all elems (elemsFrom d off).1 ++ (elemsFrom d off).2 = d.drop off := all_pieces elems _
  have hd : d.take off ++ (all elems (elemsFrom d off).1 ++ (elemsFrom d off).2) = d := by
    rw [hall, List.take_append_drop]
  have hloop := rspLoop_complete (d.length + 1) (d.take off) (elemsFrom d off).1 (cut_elemsFrom d off)
    (by rw [hall, List.length_drop]; omega)
  rw [hd, hlen] at hloop
  exact hloop

theorem length_authData (k : WepKeys) (b : MgtFrame) : (authData k b).length = b.bytes.length := by
  unfold authData
  by_cases hp : getPrivacy (b.recv []) = true
  · rw [if_pos hp]
    have he : (authAttrib (b.recv [])).attrib.encrypt = .wep40
        ∨ (authAttrib (b.recv [])).attrib.encrypt = .wep104 := Or.inl rfl
    unfold authDecrypt rtwWepDecrypt
    rw [if_pos he]
    show (List.take _ _ ++ arcfourEncrypt _ (List.drop _ _)).length = _
    rw [List.length_append, length_arcfourEncrypt, ← List.length_append, List.take_append_drop]
    rfl
  · rw [if_neg hp]

/-- the IV is read before the frame is decrypted -/
theorem authBytes_eq (k : WepKeys) (b : MgtFrame) :
    authBytes k b = if 24 + ivOffset (b.recv []) ≤ b.bytes.length then some (authData k b) else none := by
  have hdr := b.hdr
  unfold authBytes authData ivOffset
  by_cases hp : getPrivacy (b.recv []) = true
  · rw [if_pos hp, if_pos hp, if_pos hp]
    unfold readBytes
    rw [show wlanHdrA3Len = 24 from rfl]
    split
    · rfl
    · rfl
  · rw [if_neg hp, if_neg hp, if_neg hp, if_pos hdr]

end

section
variable (r : RxState) (b : MgtFrame)

theorem onAuthParse_iff : Contained b.bytes.length (onAuthParse r.ap r.keys r.attack r.priv b)
    ↔ RxHandler.onAuth.Ok r b := by
  have hlen := length_authData r.keys b
  unfold onAuthParse RxHandler.Ok
  by_cases hasoc : r.ap.asoc = true
  · simp only [hasoc, Bool.not_true, Bool.false_eq_true, if_false, true_imp_iff, authBytes_eq]
    by_cases hiv : 24 + ivOffset (b.recv []) ≤ b.bytes.length
    · rw [if_pos hiv, Option.bind_eq_bind, Option.bind_some]
      rw [contained_le16At, contained_le16At, hlen, show wlanHdrA3Len = 24 from rfl]
      rw [show 24 + ivOffset (b.recv []) + 2 = 26 + ivOffset (b.recv []) by omega]
      have hchg := contained_readChallenge (d := authData r.keys b) (hlen ▸ b.fits)
      rw [hlen] at hchg
      cases hs : challengedSta r.ap (authOracle r.keys r.attack) r.priv (getAddr2 (b.recv []))
          (wordOf (authData r.keys b) (24 + ivOffset (b.recv [])))
          (wordOf (authData r.keys b) (26 + ivOffset (b.recv []))) with
      | none =>
        have hno : Contained b.bytes.length (some {}) := contained_nothing
        simp only [hno, Option.isSome_none, Bool.false_eq_true, false_imp_iff, and_true]
        omega
      | some sta =>
        simp only [hchg, Option.isSome_some, true_imp_iff]
        rw [← and_assoc]
        exact and_congr (by omega) Iff.rfl
    · rw [if_neg hiv]
      exact iff_of_false not_contained_none fun h => hiv (by omega)
  · simp only [hasoc]
    exact iff_of_true contained_nothing fun h => absurd h Bool.false_ne_true

theorem onAuthClientParse_iff : Contained b.bytes.length (onAuthClientParse r.join r.sta b)
    ↔ RxHandler.onAuthClient.Ok r b := by
  unfold onAuthClientParse RxHandler.Ok
  by_cases hh : hearsAuth r.join r.sta (b.recv []) = true
  · simp only [hh, Bool.not_true, Bool.false_eq_true, if_false, true_imp_iff]
    rw [contained_le16At, contained_le16At, contained_le16At, show wlanHdrA3Len = 24 from rfl]
    rw [show 24 + ivOffset (b.recv []) + 2 = 26 + ivOffset (b.recv []) by omega,
      show 24 + ivOffset (b.recv []) + 4 = 28 + ivOffset (b.recv []) by omega, ← and_assoc, ← and_assoc]
    have hn : ((26 + ivOffset (b.recv []) ≤ b.bytes.length ∧ 26 + ivOffset (b.recv []) + 2 ≤ b.bytes.length)
        ∧ 28 + ivOffset (b.recv []) + 2 ≤ b.bytes.length) ↔ 30 + ivOffset (b.recv []) ≤ b.bytes.length := by
      omega
    rw [hn]
    refine and_congr_right fun h30 => ?_
    by_cases hs : wordOf b.bytes (28 + ivOffset (b.recv [])) = 0
        ∧ wordOf b.bytes (26 + ivOffset (b.recv [])) = 2 ∧ r.sta.authAlgo = .shared
    · rw [if_pos hs, contained_copyChallenge b.fits]
      constructor
      · intro hc _ _ _
        exact hc.2
      · intro hc
        exact ⟨Nat.le_trans (Nat.le_add_right ..) h30, hc hs.1 hs.2.1 hs.2.2⟩
    · rw [if_neg hs]
      exact iff_of_true contained_nothing fun h0 h2 ha => absurd ⟨h0, h2, ha⟩ hs
  · simp only [hh]
    exact iff_of_true contained_nothing fun h => absurd h Bool.false_ne_true

theorem onAssocRspParse_iff : Contained b.bytes.length (onAssocRspParse r.join r.sta b)
    ↔ RxHandler.onAssocRsp.Ok r b := by
  unfold onAssocRspParse RxHandler.Ok
  by_cases hh : hearsAssoc r.join r.sta (b.recv []) = true
  · simp only [hh, Bool.not_true, Bool.false_eq_true, if_false, true_imp_iff]
    rw [contained_le16At, show wlanHdrA3Len = 24 from rfl, show 24 + 2 = 26 from rfl]
    refine and_congr Iff.rfl ?_
    by_cases h0 : 0 < wordOf b.bytes 26
    · rw [if_pos h0]
      exact iff_of_true contained_nothing fun h => absurd h (Nat.pos_iff_ne_zero.mp h0)
    · have hz : wordOf b.bytes 26 = 0 := Nat.eq_zero_of_not_pos h0
      rw [if_neg h0, contained_le16At, contained_le16At, ← and_assoc, show 24 + 4 = 28 from rfl,
        show 24 + 6 = 30 from rfl]
      have hn : (24 + 2 ≤ b.bytes.length ∧ 28 + 2 ≤ b.bytes.length) ↔ 30 ≤ b.bytes.length := by
        omega
      rw [hn]
      refine Iff.trans ?_ (forall_prop_of_true hz).symm
      refine and_congr_right fun h30 => ?_
      by_cases ha : aidOk (wordOf b.bytes 28) = true
      · rw [if_pos ha, contained_handed, rspLoop_from h30]
        exact ⟨fun h _ => h, fun h => h ha⟩
      · rw [if_neg ha]
        exact iff_of_true contained_nothing fun h => absurd h ha
  · simp only [hh]
    exact iff_of_true contained_nothing fun h => absurd h Bool.false_ne_true

/-- **The reads of a handler** stay in the frame if the frame is one of these, and only then. -/
theorem rxParse_iff (h : RxHandler) : Contained b.bytes.length (h.parse r b) ↔ h.Ok r b := by
  cases h with
  | onAuth => exact onAuthParse_iff r b
  | onAuthClient => exact onAuthClientParse_iff r b
  | onAssocRsp => exact onAssocRspParse_iff r b

end

/-- a frame for the station `02:..:02`, from the address of the peer -/
def rxFrameOf (fc : List UInt8) (body : List UInt8) : List UInt8 :=
  fc ++ [0, 0] ++ [2, 0, 0, 0, 0, 2] ++ [2, 0, 0, 0, 0, 1] ++ [2, 0, 0, 0, 0, 1] ++ [0, 0] ++ body

/-- a third frame of shared key without elements, for an access point that has sent its challenge -/
def thirdFrame : MgtFrame := ⟨rxFrameOf [0xb0, 0] [1, 0, 3, 0, 0, 0], by decide, by decide⟩

/-- an authentication frame that ends before its status -/
def noStatus : MgtFrame := ⟨rxFrameOf [0xb0, 0] [0, 0, 2, 0], by decide, by decide⟩

/-- a response that ends in the header of an HT capability element -/
def cutResponse : MgtFrame := ⟨rxFrameOf [0x10, 0] [1, 0, 0, 0, 1, 0, 45, 26], by decide, by decide⟩

def rxExample : RxState where
  ap := { dot11AuthAlgrthm := .shared, dot11PrivacyAlgrthm := .wep40 }
  keys := {}
  attack := false
  priv :=
    { pool := fun _ => { macAddr := [2, 0, 0, 0, 0, 1], authSeq := 2, state := { authState := true } }
      table := [0]
      freeStaQueue := (List.range numSta).drop 1 }
  join := { adapter := { macAddr := [2, 0, 0, 0, 0, 2] }, isSta := rfl }
  sta := { bssid := [2, 0, 0, 0, 0, 1], state := { hw := .station, authState := true, authSuccess := true } }

theorem rxParse_leaves :
    ¬ Contained thirdFrame.bytes.length (RxHandler.onAuth.parse rxExample thirdFrame)
    ∧ ¬ Contained noStatus.bytes.length (RxHandler.onAuthClient.parse rxExample noStatus)
    ∧ ¬ Contained cutResponse.bytes.length (RxHandler.onAssocRsp.parse rxExample cutResponse) := by
  refine ⟨?_, ?_, ?_⟩
  · have hp : RxHandler.onAuth.parse rxExample thirdFrame = some { lookups := [34] } := by decide +kernel
    rw [hp]
    rintro ⟨p, h, hl, -⟩
    cases h
    exact absurd (hl 34 List.mem_cons_self) (by decide)
  · have hp : RxHandler.onAuthClient.parse rxExample noStatus = none := by decide +kernel
    rw [hp]
    exact not_contained_none
  · have hp : RxHandler.onAssocRsp.parse rxExample cutResponse = some { handed := [(30, 26)] } := by
      decide +kernel
    rw [hp]
    rintro ⟨p, h, -, hh⟩
    cases h
    exact absurd (hh (30, 26) List.mem_cons_self) (by decide)

end Rtl8192eu
