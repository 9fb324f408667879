import Rtl8192eu.Lib.HashChain
import Rtl8192eu.Lib.Run
import Rtl8192eu.Recv.Frame

/-!
# NAT2.5: which client of the bridge has an address

`rtw_br_client_tx` notes the source address of the frames a client of the bridge sends, and
`nat25_handle_frame` writes the address of the client into the frames received for it.  The
database is the table `nethash`; `scdb_mac`, `scdb_ip` and `scdb_entry` are a cache of one entry.

* `rtwBrClientTx`, `nat25HandleFrame`, `nat25DbExpire`   what is done with a frame and by the timer;
* `Bridge.step`   a bridge, with who sent last from each address;
* `AnswerCond`    the cache and the entry found are those of the address;
* `nat25_refines`   then every received frame gets the address that the last sender has.

Frames are IPv4 and ARP for IPv4; `jiffies` has not wrapped.
-/

namespace Rtl8192eu

open Run HashChain

namespace BrExt

@[ext] structure Ip where
  a : UInt8
  b : UInt8
  c : UInt8
  d : UInt8
  deriving DecidableEq, Repr

def zeroIp : Ip := ⟨0, 0, 0, 0⟩
def zeroAddr : Mac := List.replicate 6 0
def bcastAddr : Mac := List.replicate 6 0xff

def nat25HashSize : Nat := 16
/-- seconds -/
def nat25AgeingTime : Nat := 300

/-- `__nat25_network_hash` of an IPv4 address -/
def networkHash (ip : Ip) : Fin nat25HashSize :=
  ⟨(ip.a ^^^ ip.b ^^^ ip.c ^^^ ip.d).toNat % nat25HashSize, Nat.mod_lt _ (by decide)⟩

/-- `struct nat25_network_db_entry` -/
structure Entry where
  macAddr : Mac
  useCount : BitVec 32
  ageingTimer : Nat
  deriving DecidableEq, Repr

/-- an IPv4 header, in a frame that holds it -/
structure IpHdr where
  saddr : Ip
  daddr : Ip
  /-- in words -/
  ihl : Nat
  /-- `skb->len` -/
  len : Nat
  whole : 14 + 4 * ihl ≤ len
  deriving DecidableEq, Repr

inductive Body where
  | ip (iph : IpHdr)
  | arp (senderHw : Mac) (sender : Ip) (targetHw : Mac) (target : Ip)
  deriving DecidableEq, Repr

/-- `vlan`: there is an 802.1Q tag, which is taken away and put back -/
structure Skb where
  da : Mac
  sa : Mac
  vlan : Bool := false
  body : Body
  deriving DecidableEq, Repr

inductive Method where
  | check
  | insert
  | lookup

/-- what the driver is on -/
structure Host where
  hz : Nat
  myHwaddr : Mac
  /-- the device of the bridge, if it is found by its name -/
  brNetdev : Option Mac

/-- `_adapter`; an entry of the table is named by its address -/
structure Adapter (H : Host) where
  nethash : Table networkHash Entry := .empty
  scdbMac : Mac := zeroAddr
  scdbIp : Ip := zeroIp
  scdbEntry : Option Ip := none
  brMac : Mac := zeroAddr
  jiffies : Nat

variable {H : Host}

namespace Adapter

/-- `__nat25_has_expired` -/
def hasExpired (p : Adapter H) (e : Entry) : Bool :=
  decide (e.ageingTimer + nat25AgeingTime * H.hz ≤ p.jiffies)

/-- `ageing_timer = jiffies` -/
def refresh (p : Adapter H) (ip : Ip) : Adapter H :=
  { p with nethash := p.nethash.modify ip fun e => { e with ageingTimer := p.jiffies } }

def dbNetworkInsert (p : Adapter H) (mac : Mac) (ip : Ip) : Adapter H :=
  { p with
    nethash := p.nethash.upsert ip
      (fun e => { e with macAddr := mac, ageingTimer := p.jiffies }) ⟨mac, 1, p.jiffies⟩ }

/-- `__nat25_db_network_lookup_and_replace`: an entry is found, also one that has expired -/
def dbNetworkLookupAndReplace (p : Adapter H) (skb : Skb) (ip : Ip) : Adapter H × Skb × Bool :=
  match p.nethash.get ip with
  | none => (p, skb, false)
  | some e =>
    if p.hasExpired e then (p, skb, true)
    else
      ({ p with nethash := p.nethash.modify ip fun e => { e with useCount := e.useCount + 1 } },
        { skb with da := e.macAddr }, true)

/-- `netdev_br_init`; `br_port` is there -/
def netdevBrInit (p : Adapter H) : Adapter H := { p with brMac := H.brNetdev.getD p.brMac }

/-- the end of the lookup of an unknown address -/
def replaceUnknown (p : Adapter H) (skb : Skb) (ip : Ip) : Adapter H × Skb :=
  if ip.d = 0xff then (p, { skb with da := bcastAddr })
  else
    let p := if p.brMac = zeroAddr then p.netdevBrInit else p
    (p, { skb with da := p.brMac })

def dbHandle (p : Adapter H) (skb : Skb) (method : Method) : Adapter H × Skb × Int :=
  match skb.body with
  | .ip iph =>
    if 4 * iph.ihl ≥ iph.len then (p, skb, -1)
    else
      match method with
      | .check => (p, skb, -1)
      | .insert =>
        if iph.saddr = zeroIp then (p, skb, 0) else (p.dbNetworkInsert skb.sa iph.saddr, skb, 0)
      | .lookup =>
        match p.dbNetworkLookupAndReplace skb iph.daddr with
        | (p, skb, true) => (p, skb, 0)
        | (p, skb, false) =>
          let r := p.replaceUnknown skb iph.daddr
          (r.1, r.2, 0)
  | .arp hw sender thw target =>
    match method with
    | .check => (p, skb, 0)
    | .insert =>
      (p.dbNetworkInsert skb.sa sender, { skb with body := .arp H.myHwaddr sender thw target }, 0)
    | .lookup =>
      let r := p.dbNetworkLookupAndReplace skb target
      (r.1, { r.2.1 with body := .arp hw sender r.2.1.da target }, 0)

/-- `scdb_findEntry`: the MAC address is not looked at -/
def scdbFindEntry (p : Adapter H) (_mac : Mac) (ip : Ip) : Option Ip :=
  (p.nethash.get ip).map fun _ => ip

/-- the cache, before the database; whether the database is to be asked -/
def scdbCheck (p : Adapter H) (skb : Skb) : Adapter H × Bool :=
  match skb.body with
  | .arp .. => (p, true)
  | .ip iph =>
    if p.scdbMac ≠ skb.sa then
      match p.scdbFindEntry skb.sa iph.saddr with
      | some k =>
        ({ p with scdbEntry := some k, scdbMac := skb.sa, scdbIp := iph.saddr }.refresh k, false)
      | none => ({ p with scdbEntry := none }, true)
    else
      match p.scdbEntry with
      | some k => (p.refresh k, false)
      | none => ({ p with scdbMac := zeroAddr, scdbIp := zeroIp }, true)

/-- `rtw_skb_copy` and `skb_linearize` succeed -/
structure SkbOk where
  copy : Bool := true
  linearize : Bool := true

/-- `if (do_nat25)` of `rtw_br_client_tx` and what follows it; the frame that goes on, `none` for -1.
The last test of the source address comes after it has been written. -/
def doNat25 (p : Adapter H) (skb : Skb) (ok : SkbOk) : Adapter H × Option Skb :=
  if (p.dbHandle skb .check).2.2 = 0 ∧ ok.copy = false then (p, none)
  else if ok.linearize = false then (p, none)
  else
    let r := p.dbHandle skb .insert
    if r.2.2 = -2 then (r.1, none)
    else if r.2.2 < 0 then (r.1, some r.2.1)
    else (r.1, some { r.2.1 with sa := H.myHwaddr })

def Skb.isIp (skb : Skb) : Bool :=
  match skb.body with
  | .ip _ => true
  | .arp .. => false

/-- the test for the cached client; there is a `br_port` -/
def isCached (p : Adapter H) (skb : Skb) : Bool :=
  !isMcast skb.da && skb.sa != p.brMac && !skb.vlan && Skb.isIp skb && p.scdbMac == skb.sa &&
    p.scdbEntry.isSome

def rtwBrClientTx (p : Adapter H) (skb : Skb) (ok : SkbOk) : Adapter H × Option Skb :=
  if p.isCached skb then (p.scdbEntry.elim p p.refresh, some { skb with sa := H.myHwaddr })
  else
    let r := p.scdbCheck skb
    if r.2 then r.1.doNat25 skb ok else (r.1, some { skb with sa := H.myHwaddr })

/-- `nat25_handle_frame` -/
def nat25HandleFrame (p : Adapter H) (skb : Skb) : Adapter H × Skb :=
  if isMcast skb.da then (p, skb)
  else
    match skb.body with
    | .ip iph =>
      if p.scdbIp = iph.daddr then (p, { skb with da := p.scdbMac })
      else
        let r := p.dbHandle skb .lookup
        (r.1, r.2.1)
    | .arp .. =>
      let r := p.dbHandle skb .lookup
      (r.1, r.2.1)

/-- what the timer leaves of an entry -/
def expireEntry (p : Adapter H) (e : Entry) : Option Entry :=
  if p.hasExpired e then
    if e.useCount - 1 = 0 then none else some { e with useCount := e.useCount - 1 }
  else some e

/-- the entry of the cache is freed by the timer -/
def scdbFreed (p : Adapter H) : Bool :=
  p.scdbEntry.any fun k => ((p.nethash.get k).bind p.expireEntry).isNone

/-- `nat25_db_expire` -/
def nat25DbExpire (p : Adapter H) : Adapter H :=
  let p' := { p with nethash := p.nethash.sweep p.expireEntry }
  if p.scdbFreed then { p' with scdbMac := zeroAddr, scdbIp := zeroIp, scdbEntry := none } else p'

end Adapter

/-! ## the map -/

/-- who sent last from an address, and when -/
structure Bridge (H : Host) where
  priv : Adapter H
  last : Ip → Option (Mac × Nat) := fun _ => none
  /-- the address written into a received frame, and the one wanted -/
  answers : List (Mac × Mac) := []

inductive Event where
  | tx (skb : Skb) (ok : Adapter.SkbOk)
  | rx (skb : Skb)
  | clock
  | expire

def Body.sender : Body → Ip
  | .ip iph => iph.saddr
  | .arp _ sender _ _ => sender

/-- what the empty database gives -/
def Adapter.unknownDst (p : Adapter H) (ip : Ip) : Mac :=
  if ip.d = 0xff then bcastAddr
  else if p.brMac = zeroAddr then H.brNetdev.getD zeroAddr
  else p.brMac

namespace Bridge

/-- the last sender, if it sent less than `NAT25_AGEING_TIME` ago -/
def wanted (b : Bridge H) (ip : Ip) : Mac :=
  match b.last ip with
  | none => b.priv.unknownDst ip
  | some (mac, t) =>
    if b.priv.jiffies < t + nat25AgeingTime * H.hz then mac else b.priv.unknownDst ip

def step (b : Bridge H) : Event → Bridge H
  | .tx skb ok =>
    let r := b.priv.rtwBrClientTx skb ok
    { b with
      priv := r.1
      last := if r.2.isSome then Function.update b.last skb.body.sender (some (skb.sa, b.priv.jiffies))
        else b.last }
  | .rx skb =>
    let r := b.priv.nat25HandleFrame skb
    { b with
      priv := r.1
      answers := match skb.body with
        | .ip iph =>
          if isMcast skb.da then b.answers else b.answers ++ [(r.2.da, b.wanted iph.daddr)]
        | .arp .. => b.answers }
  | .clock => { b with priv := { b.priv with jiffies := b.priv.jiffies + 1 } }
  | .expire => { b with priv := b.priv.nat25DbExpire }

/-- every received frame got the address wanted -/
def Plain (b : Bridge H) : Prop := ∀ a ∈ b.answers, a.1 = a.2

instance (b : Bridge H) : Decidable b.Plain := inferInstanceAs (Decidable (∀ a ∈ b.answers, a.1 = a.2))

end Bridge

/-! ## the condition -/

namespace Adapter

/-- the entry of `ip` is there, with the address `mac` -/
def Holds (p : Adapter H) (ip : Ip) (mac : Mac) : Prop :=
  ((p.nethash.get ip).map (·.macAddr)) = some mac

instance (p : Adapter H) (ip : Ip) (mac : Mac) : Decidable (p.Holds ip mac) :=
  inferInstanceAs (Decidable (_ = _))

/-- the sender of an IPv4 frame is refreshed, if there is something to refresh, under its own name,
and otherwise not the address 0.0.0.0, unless the frame is dropped -/
def TxCond (p : Adapter H) (skb : Skb) (ok : SkbOk) : Prop :=
  match skb.body with
  | .arp .. => True
  | .ip iph =>
    if p.scdbMac = skb.sa then
      (∀ k ∈ p.scdbEntry, k = iph.saddr ∧ p.Holds k skb.sa) ∧
        (p.scdbEntry = none → iph.saddr ≠ zeroIp ∨ ok.linearize = false)
    else
      p.Holds iph.saddr skb.sa ∨
        p.nethash.get iph.saddr = none ∧ (iph.saddr ≠ zeroIp ∨ ok.linearize = false)

/-- the entry of the destination has not expired, and is what the cache says if the cache is asked -/
def RxCond (p : Adapter H) (skb : Skb) : Prop :=
  match skb.body with
  | .arp .. => True
  | .ip iph =>
    isMcast skb.da ∨
      (∀ e ∈ p.nethash.get iph.daddr, p.hasExpired e = false) ∧
        (p.scdbIp = iph.daddr → p.Holds iph.daddr p.scdbMac)

instance (p : Adapter H) (skb : Skb) (ok : SkbOk) : Decidable (p.TxCond skb ok) :=
  match skb with
  | ⟨_, _, _, .arp ..⟩ => isTrue trivial
  | ⟨_, sa, _, .ip iph⟩ => inferInstanceAs (Decidable (if p.scdbMac = sa then
      (∀ k ∈ p.scdbEntry, k = iph.saddr ∧ p.Holds k sa) ∧
        (p.scdbEntry = none → iph.saddr ≠ zeroIp ∨ ok.linearize = false)
    else
      p.Holds iph.saddr sa ∨
        p.nethash.get iph.saddr = none ∧ (iph.saddr ≠ zeroIp ∨ ok.linearize = false)))

instance (p : Adapter H) (skb : Skb) : Decidable (p.RxCond skb) :=
  match skb with
  | ⟨_, _, _, .arp ..⟩ => isTrue trivial
  | ⟨da, _, _, .ip iph⟩ => inferInstanceAs (Decidable (isMcast da ∨
      (∀ e ∈ p.nethash.get iph.daddr, p.hasExpired e = false) ∧
        (p.scdbIp = iph.daddr → p.Holds iph.daddr p.scdbMac)))

end Adapter

def AnswerCond (b : Bridge H) : Event → Prop
  | .tx skb ok => b.priv.TxCond skb ok
  | .rx skb => b.priv.RxCond skb
  | .clock => True
  | .expire => True

instance (b : Bridge H) : (ev : Event) → Decidable (AnswerCond b ev)
  | .tx skb ok => inferInstanceAs (Decidable (b.priv.TxCond skb ok))
  | .rx skb => inferInstanceAs (Decidable (b.priv.RxCond skb))
  | .clock => isTrue trivial
  | .expire => isTrue trivial

/-! ## what a call does to the database -/

namespace Adapter

variable {p p' : Adapter H} {ip k : Ip} {mac : Mac} {skb : Skb} {ok : SkbOk}

/-- `p'` is `p` with the entry of `ip` made new, with the address `mac` -/
structure Learned (p p' : Adapter H) (ip : Ip) (mac : Mac) : Prop where
  self : ∃ n, p'.nethash.get ip = some ⟨mac, n, p.jiffies⟩
  other : ∀ k, k ≠ ip → p'.nethash.get k = p.nethash.get k
  jiffies : p'.jiffies = p.jiffies
  cached : ∀ k, p'.scdbEntry = some k → k = ip ∨ p.scdbEntry = some k

/-- `p'` is `p` but for use counts and the cache -/
structure Kept (p p' : Adapter H) : Prop where
  get : ∀ k, (p'.nethash.get k).map (fun e => (e.macAddr, e.ageingTimer)) =
    (p.nethash.get k).map fun e => (e.macAddr, e.ageingTimer)
  jiffies : p'.jiffies = p.jiffies
  cached : ∀ k, p'.scdbEntry = some k → p.scdbEntry = some k

theorem learned_insert : Learned p (p.dbNetworkInsert mac ip) ip mac := by
  refine ⟨?_, fun k hk => ?_, rfl, fun k hk => Or.inr hk⟩
  · show ∃ n, (p.nethash.upsert ip _ _).get ip = _
    rw [Table.get_upsert, if_pos rfl]
    cases p.nethash.get ip with
    | none => exact ⟨_, rfl⟩
    | some e => exact ⟨e.useCount, rfl⟩
  · show (p.nethash.upsert ip _ _).get k = _
    rw [Table.get_upsert, if_neg hk]

theorem learned_refresh (h : p.Holds ip mac) : Learned p (p.refresh ip) ip mac := by
  obtain ⟨e, he, rfl⟩ := Option.map_eq_some_iff.mp h
  refine ⟨⟨e.useCount, ?_⟩, fun k hk => ?_, rfl, fun k hk => Or.inr hk⟩
  · show (p.nethash.modify ip _).get ip = _
    rw [Table.get_modify, if_pos rfl, he]
    rfl
  · show (p.nethash.modify ip _).get k = _
    rw [Table.get_modify, if_neg hk]

/-- the cache may have been set before, to nothing or to `ip` -/
theorem Learned.of_cache (h : Learned p p' ip mac) {q : Adapter H} (hn : q.nethash = p.nethash)
    (hj : q.jiffies = p.jiffies)
    (hc : ∀ k, p.scdbEntry = some k → k = ip ∨ q.scdbEntry = some k) : Learned q p' ip mac := by
  refine ⟨by rw [hj]; exact h.self, by rw [hn]; exact h.other, by rw [hj]; exact h.jiffies, ?_⟩
  intro k hk
  rcases h.cached k hk with h' | h'
  · exact Or.inl h'
  · exact hc k h'

theorem IpHdr.not_malformed (iph : IpHdr) : ¬4 * iph.ihl ≥ iph.len := by
  have h := iph.whole
  omega

theorem dbHandle_check_ip {iph : IpHdr} (hb : skb.body = .ip iph) :
    p.dbHandle skb .check = (p, skb, -1) := by
  unfold dbHandle
  rw [hb]
  exact ite_self _

theorem dbHandle_insert_ip {iph : IpHdr} (hb : skb.body = .ip iph) :
    p.dbHandle skb .insert =
      if iph.saddr = zeroIp then (p, skb, 0) else (p.dbNetworkInsert skb.sa iph.saddr, skb, 0) := by
  unfold dbHandle
  rw [hb]
  exact if_neg (IpHdr.not_malformed iph)

theorem doNat25_ip {iph : IpHdr} (hb : skb.body = .ip iph)
    (h : iph.saddr ≠ zeroIp ∨ ok.linearize = false) :
    p.doNat25 skb ok = (p, none) ∨
      ∃ skb', p.doNat25 skb ok = (p.dbNetworkInsert skb.sa iph.saddr, some skb') := by
  unfold doNat25
  rw [dbHandle_check_ip hb, if_neg (by simp)]
  by_cases hl : ok.linearize = false
  · exact Or.inl (if_pos hl)
  · rw [if_neg hl, dbHandle_insert_ip hb, if_neg (h.resolve_right hl)]
    exact Or.inr ⟨_, rfl⟩

theorem doNat25_arp {hw thw : Mac} {sender target : Ip} (hb : skb.body = .arp hw sender thw target) :
    p.doNat25 skb ok = (p, none) ∨
      ∃ skb', p.doNat25 skb ok = (p.dbNetworkInsert skb.sa sender, some skb') := by
  have hi : p.dbHandle skb .insert =
      (p.dbNetworkInsert skb.sa sender, { skb with body := .arp H.myHwaddr sender thw target }, 0) := by
    unfold dbHandle
    rw [hb]
  unfold doNat25
  split
  · exact Or.inl rfl
  split
  · exact Or.inl rfl
  · rw [hi]
    exact Or.inr ⟨_, rfl⟩

/-- a frame that is dropped teaches nothing, and one that goes on its sender -/
def TxSpec (p : Adapter H) (ip : Ip) (mac : Mac) (r : Adapter H × Option Skb) : Prop :=
  r.2 = none ∧ Kept p r.1 ∨ r.2.isSome ∧ Learned p r.1 ip mac

theorem txSpec_of_doNat25 {q : Adapter H} {r : Adapter H × Option Skb} (hn : q.nethash = p.nethash)
    (hj : q.jiffies = p.jiffies) (hc : ∀ k, q.scdbEntry = some k → p.scdbEntry = some k)
    (h : r = (q, none) ∨ ∃ skb', r = (q.dbNetworkInsert mac ip, some skb')) :
    TxSpec p ip mac r := by
  rcases h with rfl | ⟨skb', rfl⟩
  · exact Or.inl ⟨rfl, fun k => by rw [hn], hj, hc⟩
  · exact Or.inr ⟨rfl, learned_insert.of_cache hn.symm hj.symm fun k hk => Or.inr (hc k hk)⟩

theorem rtwBrClientTx_ask (hc : p.isCached skb ≠ true) (hs : p.scdbCheck skb = (p', true)) :
    p.rtwBrClientTx skb ok = p'.doNat25 skb ok := by
  unfold rtwBrClientTx
  rw [if_neg hc, hs]
  rfl

theorem rtwBrClientTx_done (hc : p.isCached skb ≠ true) (hs : p.scdbCheck skb = (p', false)) :
    p.rtwBrClientTx skb ok = (p', some { skb with sa := H.myHwaddr }) := by
  unfold rtwBrClientTx
  rw [if_neg hc, hs]
  rfl

section
variable {iph : IpHdr} (hb : skb.body = .ip iph)
include hb

theorem scdbCheck_hit (hm : p.scdbMac = skb.sa) (he : p.scdbEntry = some k) :
    p.scdbCheck skb = (p.refresh k, false) := by
  unfold scdbCheck
  rw [hb]
  simp only [hm, he, ne_eq, not_true_eq_false, if_false]

theorem scdbCheck_stale (hm : p.scdbMac = skb.sa) (he : p.scdbEntry = none) :
    p.scdbCheck skb = ({ p with scdbMac := zeroAddr, scdbIp := zeroIp }, true) := by
  unfold scdbCheck
  rw [hb]
  simp only [hm, he, ne_eq, not_true_eq_false, if_false]

theorem scdbCheck_found {e : Entry} (hm : p.scdbMac ≠ skb.sa)
    (he : p.nethash.get iph.saddr = some e) :
    p.scdbCheck skb = ({ p with
      scdbEntry := some iph.saddr, scdbMac := skb.sa, scdbIp := iph.saddr }.refresh iph.saddr,
      false) := by
  unfold scdbCheck scdbFindEntry
  rw [hb]
  simp only [hm, he, ne_eq, not_false_eq_true, if_true, Option.map_some]

theorem scdbCheck_unknown (hm : p.scdbMac ≠ skb.sa) (he : p.nethash.get iph.saddr = none) :
    p.scdbCheck skb = ({ p with scdbEntry := none }, true) := by
  unfold scdbCheck scdbFindEntry
  rw [hb]
  simp only [hm, he, ne_eq, not_false_eq_true, if_true, Option.map_none]

theorem txSpec_ip (h : p.TxCond skb ok) :
    TxSpec p iph.saddr skb.sa (p.rtwBrClientTx skb ok) := by
  unfold TxCond at h
  rw [hb] at h
  dsimp only at h
  have hcached : p.isCached skb = true → p.scdbMac = skb.sa ∧ p.scdbEntry.isSome := by
    intro hc
    simp only [isCached, Bool.and_eq_true, beq_iff_eq] at hc
    exact ⟨hc.1.2, hc.2⟩
  by_cases hm : p.scdbMac = skb.sa
  · rw [if_pos hm] at h
    cases he : p.scdbEntry with
    | none =>
      have h0 := h.2 he
      have hc : p.isCached skb ≠ true := fun hc => by simpa [he] using hcached hc
      rw [rtwBrClientTx_ask hc (scdbCheck_stale hb hm he)]
      exact txSpec_of_doNat25 (q := { p with scdbMac := zeroAddr, scdbIp := zeroIp }) rfl rfl
        (fun _ hk => hk) (doNat25_ip hb h0)
    | some k =>
      obtain ⟨rfl, hh⟩ := h.1 k he
      by_cases hc : p.isCached skb = true
      · unfold rtwBrClientTx
        rw [if_pos hc, he]
        exact Or.inr ⟨rfl, learned_refresh hh⟩
      · rw [rtwBrClientTx_done hc (scdbCheck_hit hb hm he)]
        exact Or.inr ⟨rfl, learned_refresh hh⟩
  · rw [if_neg hm] at h
    have hc : p.isCached skb ≠ true := fun hc => hm (hcached hc).1
    rcases h with hh | ⟨hn, h0⟩
    · obtain ⟨e, he, -⟩ := Option.map_eq_some_iff.mp hh
      rw [rtwBrClientTx_done hc (scdbCheck_found hb hm he)]
      have hl := learned_refresh (p := ({ p with
        scdbEntry := some iph.saddr, scdbMac := skb.sa, scdbIp := iph.saddr } : Adapter H)) hh
      exact Or.inr ⟨rfl, hl.of_cache rfl rfl fun k hk => Or.inl (Option.some.inj hk).symm⟩
    · rw [rtwBrClientTx_ask hc (scdbCheck_unknown hb hm hn)]
      exact txSpec_of_doNat25 (q := { p with scdbEntry := none }) rfl rfl
        (fun _ hk => nomatch hk) (doNat25_ip hb h0)

end

theorem txSpec (h : p.TxCond skb ok) :
    TxSpec p skb.body.sender skb.sa (p.rtwBrClientTx skb ok) := by
  cases hb : skb.body with
  | ip iph => exact txSpec_ip hb h
  | arp hw sender thw target =>
    have hc : p.isCached skb = false := by simp [isCached, Skb.isIp, hb]
    have hs : p.scdbCheck skb = (p, true) := by
      unfold scdbCheck
      rw [hb]
    rw [rtwBrClientTx_ask (by rw [hc]; exact Bool.false_ne_true) hs]
    exact txSpec_of_doNat25 rfl rfl (fun _ hk => hk) (doNat25_arp hb)

/-! ### receiving and the timer -/

theorem hasExpired_iff {e : Entry} :
    p.hasExpired e = true ↔ e.ageingTimer + nat25AgeingTime * H.hz ≤ p.jiffies := decide_eq_true_iff

theorem kept_useCount {f : Entry → BitVec 32} :
    Kept p { p with nethash := p.nethash.modify ip fun e => { e with useCount := f e } } := by
  refine ⟨fun k => ?_, rfl, fun k hk => hk⟩
  show ((p.nethash.modify ip _).get k).map _ = _
  rw [Table.get_modify]
  split
  · rename_i hk
    subst hk
    rw [Option.map_map]
    rfl
  · rfl

theorem kept_replaceUnknown : Kept p (p.replaceUnknown skb ip).1 := by
  unfold replaceUnknown
  split
  · exact ⟨fun _ => rfl, rfl, fun _ hk => hk⟩
  · dsimp only
    split <;> exact ⟨fun _ => rfl, rfl, fun _ hk => hk⟩

theorem replaceUnknown_da : (p.replaceUnknown skb ip).2.da = p.unknownDst ip := by
  unfold replaceUnknown unknownDst
  split
  · rfl
  · split
    · rename_i h
      show H.brNetdev.getD p.brMac = _
      rw [h]
    · rfl

theorem kept_lookup (p : Adapter H) (skb : Skb) (ip : Ip) :
    Kept p (p.dbNetworkLookupAndReplace skb ip).1 := by
  unfold dbNetworkLookupAndReplace
  split
  · exact ⟨fun _ => rfl, rfl, fun _ hk => hk⟩
  · split
    · exact ⟨fun _ => rfl, rfl, fun _ hk => hk⟩
    · exact kept_useCount

theorem lookup_none (h : p.nethash.get ip = none) :
    p.dbNetworkLookupAndReplace skb ip = (p, skb, false) := by
  unfold dbNetworkLookupAndReplace
  rw [h]

theorem lookup_fresh (skb : Skb) {e : Entry} (h : p.nethash.get ip = some e) (hx : p.hasExpired e = false) :
    (p.dbNetworkLookupAndReplace skb ip).2 = ({ skb with da := e.macAddr }, true) := by
  unfold dbNetworkLookupAndReplace
  simp only [h, hx, if_neg Bool.false_ne_true]

theorem Kept.trans {q : Adapter H} (h : Kept p p') (h' : Kept p' q) : Kept p q :=
  ⟨fun k => (h'.get k).trans (h.get k), h'.jiffies.trans h.jiffies,
    fun k hk => h.cached k (h'.cached k hk)⟩

theorem kept_refl : Kept p p := ⟨fun _ => rfl, rfl, fun _ hk => hk⟩

theorem kept_dbHandle_lookup : Kept p (p.dbHandle skb .lookup).1 := by
  unfold dbHandle
  split
  · rename_i iph hb
    rw [if_neg (IpHdr.not_malformed iph)]
    have hl := kept_lookup p skb iph.daddr
    dsimp only
    split
    · rename_i q skb' hr
      rw [hr] at hl
      exact hl
    · rename_i q skb' hr
      rw [hr] at hl
      exact hl.trans kept_replaceUnknown
  · exact kept_lookup _ _ _

theorem kept_nat25HandleFrame : Kept p (p.nat25HandleFrame skb).1 := by
  unfold nat25HandleFrame
  split
  · exact kept_refl
  · split
    · split
      · exact kept_refl
      · exact kept_dbHandle_lookup
    · exact kept_dbHandle_lookup

/-- the address written, if the condition holds -/
theorem nat25HandleFrame_da {iph : IpHdr} (hb : skb.body = .ip iph) (hu : isMcast skb.da = false)
    (h : p.RxCond skb) : (p.nat25HandleFrame skb).2.da =
      ((p.nethash.get iph.daddr).map (·.macAddr)).getD (p.unknownDst iph.daddr) := by
  unfold RxCond at h
  rw [hb] at h
  dsimp only at h
  obtain ⟨hx, hc⟩ := h.resolve_left (by rw [hu]; exact Bool.false_ne_true)
  unfold nat25HandleFrame
  rw [hu, if_neg Bool.false_ne_true, hb]
  dsimp only
  cases he : p.nethash.get iph.daddr with
  | none =>
    have hs : p.scdbIp ≠ iph.daddr := by
      intro hs
      have hh := hc hs
      unfold Holds at hh
      rw [he] at hh
      cases hh
    rw [if_neg hs]
    unfold dbHandle
    rw [hb]
    dsimp only
    rw [if_neg (IpHdr.not_malformed iph), lookup_none he]
    exact replaceUnknown_da
  | some e =>
    by_cases hs : p.scdbIp = iph.daddr
    · have hh := hc hs
      unfold Holds at hh
      rw [he] at hh
      rw [if_pos hs]
      exact (Option.some.inj hh).symm
    · rw [if_neg hs]
      have hl := lookup_fresh skb he (hx e he)
      unfold dbHandle
      rw [hb]
      dsimp only
      rw [if_neg (IpHdr.not_malformed iph)]
      split
      · rename_i q skb' hr
        rw [hr] at hl
        rw [(Prod.mk.inj hl).1]
        rfl
      · rename_i q skb' hr
        rw [hr] at hl
        exact nomatch (Prod.mk.inj hl).2

theorem expireEntry_none {e : Entry} (h : p.expireEntry e = none) : p.hasExpired e = true := by
  unfold expireEntry at h
  split at h
  · assumption
  · cases h

theorem expireEntry_some {e e' : Entry} (h : p.expireEntry e = some e') :
    e'.macAddr = e.macAddr ∧ e'.ageingTimer = e.ageingTimer := by
  unfold expireEntry at h
  split at h
  · split at h
    · cases h
    · cases h
      exact ⟨rfl, rfl⟩
  · cases h
    exact ⟨rfl, rfl⟩

theorem get_nat25DbExpire :
    p.nat25DbExpire.nethash.get ip = (p.nethash.get ip).bind p.expireEntry := by
  have h := Table.get_sweep p.nethash ip p.expireEntry
  unfold nat25DbExpire
  dsimp only
  split <;> exact h

theorem jiffies_nat25DbExpire : p.nat25DbExpire.jiffies = p.jiffies := by
  unfold nat25DbExpire
  dsimp only
  split <;> rfl

/-- the timer does not leave a freed entry in the cache -/
theorem cached_nat25DbExpire (h : p.nat25DbExpire.scdbEntry = some k) :
    p.scdbEntry = some k ∧ (p.nethash.get k).bind p.expireEntry ≠ none := by
  unfold nat25DbExpire at h
  dsimp only at h
  split at h
  · cases h
  · rename_i hf
    have hk : p.scdbEntry = some k := h
    unfold scdbFreed at hf
    rw [hk, Option.any_some] at hf
    exact ⟨hk, fun hn => hf (by rw [hn]; rfl)⟩

end Adapter

/-! ## runs -/

namespace Bridge

variable {b : Bridge H}

/-- an entry is what was last sent from its address; what has no entry has expired -/
structure Inv (b : Bridge H) : Prop where
  entry : ∀ ip e, b.priv.nethash.get ip = some e → b.last ip = some (e.macAddr, e.ageingTimer)
  gone : ∀ ip mac t, b.priv.nethash.get ip = none → b.last ip = some (mac, t) →
    t + nat25AgeingTime * H.hz ≤ b.priv.jiffies
  cached : ∀ k, b.priv.scdbEntry = some k → b.priv.nethash.get k ≠ none
  plain : b.Plain

theorem inv_of_kept {p' : Adapter H} (hi : b.Inv) (hk : Adapter.Kept b.priv p')
    {as : List (Mac × Mac)} (has : ∀ a ∈ as, a.1 = a.2) :
    Inv { b with priv := p', answers := as } := by
  have hnone : ∀ k, p'.nethash.get k = none ↔ b.priv.nethash.get k = none := by
    intro k
    have h := hk.get k
    rw [← Option.map_eq_none_iff (f := fun e : Entry => (e.macAddr, e.ageingTimer)), h,
      Option.map_eq_none_iff]
  refine ⟨fun ip e he => ?_, fun ip mac t hn hl => ?_, fun k hc => ?_, has⟩
  · have h := hk.get ip
    rw [show p'.nethash.get ip = some e from he, Option.map_some] at h
    obtain ⟨e₀, he₀, heq⟩ := Option.map_eq_some_iff.mp h.symm
    rw [show b.last ip = _ from hi.entry ip e₀ he₀, heq]
  · show _ ≤ p'.jiffies
    rw [hk.jiffies]
    exact hi.gone ip mac t ((hnone ip).mp hn) hl
  · exact fun hn => hi.cached k (hk.cached k hc) ((hnone k).mp hn)

theorem inv_of_learned {p' : Adapter H} {ip : Ip} {mac : Mac} (hi : b.Inv)
    (hl : Adapter.Learned b.priv p' ip mac) :
    Inv { b with priv := p', last := Function.update b.last ip (some (mac, b.priv.jiffies)) } := by
  obtain ⟨n, hself⟩ := hl.self
  refine ⟨fun k e he => ?_, fun k mac' t hn ht => ?_, fun k hc hn => ?_, hi.plain⟩
  · dsimp only at he ⊢
    by_cases hk : k = ip
    · subst hk
      rw [hself] at he
      cases he
      exact Function.update_self ..
    · rw [hl.other k hk] at he
      rw [Function.update_of_ne hk]
      exact hi.entry k e he
  · dsimp only at hn ht ⊢
    have hk : k ≠ ip := by
      rintro rfl
      rw [hself] at hn
      cases hn
    rw [Function.update_of_ne hk] at ht
    rw [hl.other k hk] at hn
    rw [hl.jiffies]
    exact hi.gone k mac' t hn ht
  · dsimp only at hn hc
    by_cases hk : k = ip
    · rw [hk, hself] at hn
      cases hn
    · rw [hl.other k hk] at hn
      exact hi.cached k ((hl.cached k hc).resolve_left hk) hn

theorem inv_clock (hi : b.Inv) : (b.step .clock).Inv :=
  ⟨hi.entry, fun ip mac t hn hl => Nat.le_succ_of_le (hi.gone ip mac t hn hl), hi.cached, hi.plain⟩

theorem inv_expire (hi : b.Inv) : (b.step .expire).Inv := by
  refine ⟨fun ip e he => ?_, fun ip mac t hn hl => ?_, fun k hc => ?_, hi.plain⟩
  · have he : b.priv.nat25DbExpire.nethash.get ip = some e := he
    rw [Adapter.get_nat25DbExpire] at he
    obtain ⟨e₀, he₀, hx⟩ := Option.bind_eq_some_iff.mp he
    obtain ⟨hm, ha⟩ := Adapter.expireEntry_some hx
    rw [hm, ha]
    exact hi.entry ip e₀ he₀
  · have hn : b.priv.nat25DbExpire.nethash.get ip = none := hn
    show _ ≤ b.priv.nat25DbExpire.jiffies
    rw [Adapter.get_nat25DbExpire] at hn
    rw [Adapter.jiffies_nat25DbExpire]
    cases he : b.priv.nethash.get ip with
    | none => exact hi.gone ip mac t he hl
    | some e =>
      rw [he] at hn
      have hx := Adapter.hasExpired_iff.mp (Adapter.expireEntry_none hn)
      have hl : b.last ip = some (mac, t) := hl
      rw [hi.entry ip e he] at hl
      cases hl
      exact hx
  · show b.priv.nat25DbExpire.nethash.get k ≠ none
    rw [Adapter.get_nat25DbExpire]
    exact (Adapter.cached_nat25DbExpire hc).2

/-- what the table says is what is wanted, if its entry has not expired -/
theorem wanted_eq (hi : b.Inv) {ip : Ip}
    (hx : ∀ e, b.priv.nethash.get ip = some e → b.priv.hasExpired e = false) :
    b.wanted ip =
      ((b.priv.nethash.get ip).map (·.macAddr)).getD (b.priv.unknownDst ip) := by
  unfold wanted
  cases he : b.priv.nethash.get ip with
  | none =>
    cases hl : b.last ip with
    | none => rfl
    | some l => exact if_neg (Nat.not_lt.mpr (hi.gone ip l.1 l.2 he hl))
  | some e =>
    have hnx : ¬e.ageingTimer + nat25AgeingTime * H.hz ≤ b.priv.jiffies := by
      rw [← Adapter.hasExpired_iff, hx e he]
      exact Bool.false_ne_true
    rw [hi.entry ip e he]
    exact if_pos (Nat.lt_of_not_le hnx)

theorem inv_rx {skb : Skb} (hi : b.Inv) (h : b.priv.RxCond skb) : (b.step (.rx skb)).Inv := by
  apply inv_of_kept hi Adapter.kept_nat25HandleFrame
  split
  · rename_i iph hb
    split
    · exact hi.plain
    · rename_i hu
      intro a ha
      rcases List.mem_append.mp ha with ha | ha
      · exact hi.plain a ha
      · rw [List.mem_singleton.mp ha]
        have hu : isMcast skb.da = false := Bool.eq_false_iff.mpr hu
        show (b.priv.nat25HandleFrame skb).2.da = b.wanted iph.daddr
        rw [Adapter.nat25HandleFrame_da hb hu h]
        refine (wanted_eq hi fun e he => ?_).symm
        unfold Adapter.RxCond at h
        rw [hb] at h
        exact (h.resolve_left (by rw [hu]; exact Bool.false_ne_true)).1 e he
  · exact hi.plain

theorem inv_tx {skb : Skb} {ok : Adapter.SkbOk} (hi : b.Inv) (h : b.priv.TxCond skb ok) :
    (b.step (.tx skb ok)).Inv := by
  rcases Adapter.txSpec h with ⟨hr, hk⟩ | ⟨hr, hl⟩
  · show Inv { b with priv := _, last := _ }
    rw [hr]
    exact inv_of_kept hi hk hi.plain
  · show Inv { b with priv := _, last := _ }
    rw [if_pos hr]
    exact inv_of_learned hi hl

theorem inv_step (b : Bridge H) (ev : Event) (hi : b.Inv) (h : AnswerCond b ev) :
    (b.step ev).Inv := by
  cases ev with
  | tx skb ok => exact inv_tx hi h
  | rx skb => exact inv_rx hi h
  | clock => exact inv_clock hi
  | expire => exact inv_expire hi

/-- the database is empty -/
def init (brMac : Mac) (jiffies : Nat) : Bridge H := { priv := { brMac, jiffies } }

theorem inv_init (brMac : Mac) (jiffies : Nat) : (init brMac jiffies : Bridge H).Inv :=
  ⟨fun _ _ he => (nomatch he), fun _ _ _ _ hl => (nomatch hl), fun _ hk => (nomatch hk),
    fun _ ha => (nomatch ha)⟩

end Bridge

end BrExt

open BrExt

variable {H : Host}

/-- **the address written into a received frame is that of the last sender**, in the runs in which
the cache and the entries found are those of the address they are used for -/
theorem nat25_refines (brMac : Mac) (jiffies : Nat) (es : List Event)
    (h : Along Bridge.step AnswerCond (Bridge.init brMac jiffies : Bridge H) es) :
    (run Bridge.step (Bridge.init brMac jiffies : Bridge H) es).Plain :=
  (run_inv Bridge.inv_step _ _ (Bridge.inv_init brMac jiffies) h).plain

namespace BrExt

def host : Host := ⟨100, [2, 0, 0, 0, 0, 9], none⟩
def brAddr : Mac := [2, 0, 0, 0, 0, 8]
def client (n : UInt8) : Mac := [2, 0, 0, 0, 0, n]
def lan (n : UInt8) : Ip := ⟨192, 168, 1, n⟩

def ipFrame (da sa : Mac) (saddr daddr : Ip) : Skb :=
  ⟨da, sa, false, .ip ⟨saddr, daddr, 5, 60, by decide⟩⟩

def sends (n ip : UInt8) : Event := .tx (ipFrame (client 7) (client n) (lan ip) (lan 7)) {}
def receives (ip : UInt8) : Event := .rx (ipFrame host.myHwaddr (client 7) (lan 7) (lan ip))

end BrExt

/-- one client that uses its address, and another that does after it -/
theorem nat25_refines_twoClients :
    (run Bridge.step (Bridge.init brAddr 30000 : Bridge host)
      [sends 1 11, receives 11, sends 1 11, receives 11, sends 2 12, .clock, .expire, receives 12,
        receives 255]).Plain :=
  nat25_refines brAddr 30000 _ (by decide)

/-- a client that is in the cache uses a second address, which nobody learns -/
theorem nat25_secondAddress : ¬(run Bridge.step (Bridge.init brAddr 30000 : Bridge host)
    [sends 1 11, sends 1 11, sends 1 12, receives 12]).Plain := by
  decide

end Rtl8192eu
