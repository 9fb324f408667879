import Rtl8192eu.BrExt.DbHandle

/-!
# What `nat25_db_handle` does to a packet

* `copied`, `check_eq`   the frames that `NAT25_CHECK` wants copied;
* `Refused`, `insert_spec` the frames that `NAT25_INSERT` has no use for; it leaves the Ethernet header
                           alone, and the length too but for the relay tag of PPPoE;
* `lookupFields`, `lookupCut`, `lookup_kept`   what `NAT25_LOOKUP` writes besides the destination
                           address, and what it takes out.
-/

namespace Rtl8192eu

open Mem HashChain

namespace Nat25

open Pppoe hiding BrExt
open BrExt (Method)

variable {H : Host} {p : Adapter H} {env : Env} {s : Skb}

/-! ## `NAT25_CHECK` -/

/-- the IPX and AppleTalk frames with the address of the source inside -/
def ipxCopied (s : Skb) : Bool :=
  match findIpxPtr s with
  | some (.ipx a) => decide (srcAddr s = .readAt s.mem (ipxSourceNode a))
  | some (.ea a) => decide (aarpSane s a)
  | some (.ddp _) => false
  | none => false

def copied (H : Host) (s : Skb) : Bool :=
  match protocol H s with
  | .arp => decide (Arp.arPro s = ethPIp)
  | .ipx => ipxCopied s
  | .pppoe => decide (s.sid = 0)
  | .ipv6 => decide (¬Ipv6.malformed s ∧ s.mem 0 &&& 1 ≠ 0)
  | .ip => false
  | .passed => false
  | .other => false

theorem checkIpx_eq (p : Adapter H) (env : Env) (s : Skb) :
    ∃ n, p.handleIpx env s .check = ⟨p, s, n⟩ ∧ (n = 0 ↔ ipxCopied s = true) := by
  unfold Adapter.handleIpx ipxCopied
  cases hx : findIpxPtr s with
  | none => exact ⟨-1, rfl, by simp⟩
  | some x =>
    cases x with
    | ipx a =>
      by_cases h : srcAddr s = .readAt s.mem (ipxSourceNode a)
      · exact ⟨0, if_pos h, by simp [h]⟩
      · exact ⟨-1, if_neg h, by simp [h]⟩
    | ea a =>
      by_cases h : aarpSane s a
      · exact ⟨0, if_pos h, by simp [h]⟩
      · exact ⟨-1, if_neg h, by simp [h]⟩
    | ddp a => exact ⟨-1, rfl, by simp⟩

/-- the check leaves everything alone -/
theorem check_eq (p : Adapter H) (env : Env) (s : Skb) :
    ∃ n, p.nat25DbHandle env s .check = some ⟨p, s, n⟩ ∧ (n = 0 ↔ copied H s = true) := by
  unfold Adapter.nat25DbHandle copied
  cases protocol H s with
  | ip =>
    refine ⟨-1, ?_, by simp⟩
    unfold Adapter.handleIp
    by_cases h : Ip.malformed s
    · simp [h]
    · simp [h]
  | arp =>
    unfold Adapter.handleArp
    by_cases h : Arp.arPro s = ethPIp
    · exact ⟨0, by simp [h], by simp [h]⟩
    · exact ⟨-1, by simp [h], by simp [h]⟩
  | ipx =>
    obtain ⟨n, hn, hiff⟩ := checkIpx_eq p env s
    exact ⟨n, congrArg some hn, hiff⟩
  | pppoe =>
    by_cases h : s.sid = 0
    · exact ⟨0, by simp [Adapter.handlePppoe, h], by simp [h]⟩
    · exact ⟨1, by simp [Adapter.handlePppoe, h], by simp [h]⟩
  | passed => exact ⟨-1, rfl, by simp⟩
  | ipv6 =>
    unfold Adapter.handleIpv6
    by_cases h : Ipv6.malformed s
    · exact ⟨-1, by simp [h], by simp [h]⟩
    · by_cases hm : s.mem 0 &&& 1 = 0
      · exact ⟨-1, by simp [h, hm], by simp [hm]⟩
      · exact ⟨0, by simp [h, hm], by simp [h, hm]⟩
  | other => exact ⟨-1, rfl, by simp⟩

/-! ## the relay tag -/

/-- the client's relay tag is too long or not whole, or there is no room for the new one -/
def RelayRefused (e : Endian) (s : Skb) : Prop :=
  match s.findPppoeTag pttRelaySid with
  | none => s.tailroom < dataLen e 0
  | some old =>
    let n := get16 s.mem (old + 2)
    n + tagHdrLen + magicCodeLen + rtlRelayTagLen > tagBufLen ∨ s.len < old + (tagHdrLen + n) ∨
      s.tailroom + (tagHdrLen + n) < dataLen e n

/-- the size of the client's tag, which goes, and of the new one -/
def relaySizes (e : Endian) (s : Skb) : Nat × Nat :=
  match s.findPppoeTag pttRelaySid with
  | none => (0, dataLen e 0)
  | some old => (tagHdrLen + get16 s.mem (old + 2), dataLen e (get16 s.mem (old + 2)))

theorem addPppoeTag_low {e : Endian} {tb : Nat → UInt8} {i : Nat} (hi : i < ethHlen) :
    (s.addPppoeTag e tb).1.mem i = s.mem i := by
  have h18 : i < ethHlen + 4 := Nat.lt_add_right 4 hi
  have htag : i < Skb.tag := Nat.lt_add_right 6 hi
  unfold Skb.addPppoeTag
  dsimp only
  split
  · rfl
  · show write (put16 (write s.mem _ _) _ _) _ _ i = _
    unfold put16
    rw [write_of_lt htag, write_of_lt h18, write_of_lt (Nat.lt_add_right _ htag)]

theorem addRelay_low {e : Endian} {buf : Nat → UInt8} {n i : Nat} (hi : i < ethHlen) :
    (s.addRelay e buf n).1.mem i = s.mem i := by
  unfold Skb.addRelay
  dsimp only
  split
  · exact addPppoeTag_low hi
  · exact addPppoeTag_low hi

theorem addRelay_room {e : Endian} {buf : Nat → UInt8} {n : Nat} (hn : n ≤ 28)
    (hroom : ¬s.tailroom < dataLen e n) :
    (s.addRelay e buf n).2 = 0 ∧ (s.addRelay e buf n).1.len = s.len + dataLen e n := by
  have hd : ∃ s' : Skb, s.addPppoeTag e (Skb.tagBuf buf (read s.mem ethAlen ethAlen) n)
      = (s', (dataLen e n : Int)) ∧ s'.len = s.len + dataLen e n := by
    unfold Skb.addPppoeTag
    rw [Skb.load16_tagBuf hn, if_neg hroom]
    exact ⟨_, rfl, rfl⟩
  obtain ⟨s', hs, hlen⟩ := hd
  unfold Skb.addRelay
  rw [hs, if_neg (Int.not_lt.mpr (Int.natCast_nonneg _))]
  exact ⟨rfl, hlen⟩

theorem skbPullAndMerge_cases {s' : Skb} {src len : Nat} (h : s.skbPullAndMerge src len = some s') :
    src + len ≤ s.len ∧ s'.len + len = s.len ∧ s'.tailroom = s.tailroom + len ∧
      s'.mem = write s.mem src (read s.mem (src + len) (s.len - (src + len))) := by
  unfold Skb.skbPullAndMerge at h
  split at h
  · cases h
  · rename_i hno
    cases h
    refine ⟨by omega, ?_, rfl, rfl⟩
    show s.len - len + len = s.len
    omega

theorem lt_of_skbPullAndMerge {src len : Nat} (h : s.skbPullAndMerge src len = none) :
    s.len < src + len := by
  unfold Skb.skbPullAndMerge at h
  split at h
  · omega
  · cases h

theorem le_findFrom {type fuel cur a : Nat} (h : s.findFrom type fuel cur = some a) : Skb.tag ≤ a := by
  induction fuel generalizing cur with
  | zero => cases h
  | succ fuel ih =>
    unfold Skb.findFrom at h
    split at h
    · split at h
      · cases h
        exact Nat.le_add_right ..
      · exact ih h
    · cases h

theorem relayInsert_low (e : Endian) (stack : Nat → UInt8) {i : Nat} (hi : i < ethHlen) :
    (s.relayInsert e stack).1.mem i = s.mem i := by
  unfold Skb.relayInsert
  cases hf : s.findPppoeTag pttRelaySid with
  | none => exact addRelay_low hi
  | some old =>
    have hold : Skb.tag ≤ old := le_findFrom hf
    dsimp only
    split
    · rfl
    · split
      · rfl
      · rename_i s' hs
        obtain ⟨-, -, -, hm⟩ := skbPullAndMerge_cases hs
        have hlt : i < old := Nat.lt_of_lt_of_le (Nat.lt_add_right 6 hi) hold
        rw [addRelay_low hi]
        show put16 s'.mem _ _ i = _
        unfold put16
        rw [write_of_lt (Nat.lt_add_right 4 hi), hm, write_of_lt hlt]

/-- the tag is put in, or refused -/
theorem relayInsert_ret (e : Endian) (stack : Nat → UInt8) :
    (RelayRefused e s ∧ (s.relayInsert e stack).2 = -1) ∨
      (¬RelayRefused e s ∧ (s.relayInsert e stack).2 = 0 ∧
        (s.relayInsert e stack).1.len + (relaySizes e s).1 = s.len + (relaySizes e s).2) := by
  unfold RelayRefused relaySizes Skb.relayInsert
  cases hf : s.findPppoeTag pttRelaySid with
  | none =>
    by_cases hroom : s.tailroom < dataLen e 0
    · exact Or.inl ⟨hroom, Skb.addRelay_noRoom (Nat.zero_le _) hroom⟩
    · exact Or.inr ⟨hroom, addRelay_room (Nat.zero_le _) hroom⟩
  | some old =>
    dsimp only
    have hbuf : tagBufLen = 28 + 12 := rfl
    have hsum : ∀ n, n + tagHdrLen + magicCodeLen + rtlRelayTagLen = n + 12 := fun _ => rfl
    by_cases hlong : get16 s.mem (old + 2) + tagHdrLen + magicCodeLen + rtlRelayTagLen > tagBufLen
    · rw [if_pos hlong]
      exact Or.inl ⟨Or.inl hlong, rfl⟩
    rw [if_neg hlong]
    have hn : get16 s.mem (old + 2) ≤ 28 := by
      rw [hsum, hbuf] at hlong
      omega
    cases hp : s.skbPullAndMerge old (tagHdrLen + get16 s.mem (old + 2)) with
    | none => exact Or.inl ⟨Or.inr (Or.inl (lt_of_skbPullAndMerge hp)), rfl⟩
    | some s' =>
      obtain ⟨hfit, hlen, htail, -⟩ := skbPullAndMerge_cases hp
      dsimp only
      by_cases hroom : s'.tailroom < dataLen e (get16 s.mem (old + 2))
      · refine Or.inl ⟨Or.inr (Or.inr (by rw [← htail]; exact hroom)), ?_⟩
        exact Skb.addRelay_noRoom hn hroom
      · have hok : ∀ l buf, ((s'.setPhLength l).addRelay e buf (get16 s.mem (old + 2))).2 = 0 ∧
            ((s'.setPhLength l).addRelay e buf (get16 s.mem (old + 2))).1.len =
              s'.len + dataLen e (get16 s.mem (old + 2)) :=
          fun l buf => addRelay_room hn hroom
        refine Or.inr ⟨?_, (hok _ _).1, ?_⟩
        · rintro (h | h | h)
          · exact hlong h
          · omega
          · rw [← htail] at h
            exact hroom h
        · rw [(hok _ _).2]
          omega

/-! ## `NAT25_INSERT` -/

/-- a frame of IPX or AppleTalk has no header that is known, or not that of AARP for Ethernet -/
def IpxRefused (s : Skb) : Prop :=
  match findIpxPtr s with
  | none => True
  | some (.ipx _) => False
  | some (.ea a) => ¬aarpSane s a
  | some (.ddp _) => False

def Refused (p : Adapter H) (s : Skb) : Prop :=
  match protocol H s with
  | .ip => Ip.malformed s
  | .arp => Arp.arPro s ≠ ethPIp
  | .ipx => IpxRefused s
  | .pppoe => s.sid = 0 ∧
      (s.code = padiCode ∨ s.code = padrCode → p.addPPPoETag = true ∧ RelayRefused H.endian s)
  | .passed => False
  | .ipv6 => Ipv6.malformed s
  | .other => True

/-- a relay tag is for the frame -/
def Relays (p : Adapter H) (s : Skb) : Prop :=
  protocol H s = .pppoe ∧ s.sid = 0 ∧ (s.code = padiCode ∨ s.code = padrCode) ∧ p.addPPPoETag = true

instance (p : Adapter H) (s : Skb) : Decidable (Relays p s) :=
  inferInstanceAs (Decidable (_ ∧ _ ∧ (_ ∨ _) ∧ _))

/-- the bytes of PPPoE relay tags that go and that come -/
def tagSizes (p : Adapter H) (s : Skb) : Nat × Nat :=
  if Relays p s then relaySizes H.endian s else (0, 0)

/-- a frame is refused if `ref`, and otherwise written to behind the Ethernet header only -/
structure Inserted (ref : Prop) (s : Skb) (r : Out H) : Prop where
  low : ∀ i, i < ethHlen → r.skb.mem i = s.mem i
  len : r.skb.len = s.len
  ret : ref ∧ r.ret = -1 ∨ ¬ref ∧ r.ret = 0

namespace Inserted

variable {ref : Prop}

theorem refuse (h : ref) : Inserted ref s ⟨p, s, -1⟩ := ⟨fun _ _ => rfl, rfl, Or.inl ⟨h, rfl⟩⟩

theorem keep (h : ¬ref) : Inserted ref s ⟨p, s, 0⟩ := ⟨fun _ _ => rfl, rfl, Or.inr ⟨h, rfl⟩⟩

theorem write (h : ¬ref) {a : Nat} (ha : ethHlen ≤ a) (bs : List UInt8) :
    Inserted ref s ⟨p, { s with mem := Mem.write s.mem a bs }, 0⟩ :=
  ⟨fun _ hi => write_of_lt (Nat.lt_of_lt_of_le hi ha), rfl, Or.inr ⟨h, rfl⟩⟩

end Inserted

theorem insertIp : Inserted (Ip.malformed s) s (p.handleIp env s .insert) := by
  unfold Adapter.handleIp
  by_cases h : Ip.malformed s
  · rw [if_pos h]
    exact .refuse h
  · rw [if_neg h]
    dsimp only
    split
    · exact .keep h
    · exact .keep h

theorem insertArp : Inserted (Arp.arPro s ≠ ethPIp) s (p.handleArp env s .insert) := by
  unfold Adapter.handleArp
  by_cases h : Arp.arPro s ≠ ethPIp
  · rw [if_pos h]
    exact .refuse h
  · rw [if_neg h]
    exact .write h (by decide) _

def IpxPtr.addr : IpxPtr → Nat
  | .ipx a => a
  | .ea a => a
  | .ddp a => a

theorem le_findIpxPtr {x : IpxPtr} (h : findIpxPtr s = some x) : ethHlen ≤ x.addr := by
  unfold findIpxPtr at h
  dsimp only at h
  repeat' split at h
  all_goals first
    | cases h
      decide
    | cases h

theorem insertIpx : Inserted (IpxRefused s) s (p.handleIpx env s .insert) := by
  unfold Adapter.handleIpx IpxRefused
  cases hx : findIpxPtr s with
  | none => exact .refuse trivial
  | some x =>
    have ha := le_findIpxPtr hx
    cases x with
    | ipx a =>
      unfold Adapter.handleIpxHdr
      dsimp only
      split
      · exact .write id (Nat.le_add_right_of_le ha) _
      · exact .keep id
    | ea a =>
      unfold Adapter.handleAarp
      dsimp only
      by_cases h : aarpSane s a
      · rw [if_pos h]
        exact .write (not_not_intro h) (Nat.le_add_right_of_le ha) _
      · rw [if_neg h]
        exact .refuse h
    | ddp a => exact .keep id

/-! ### neighbour discovery -/

namespace Ipv6

variable {m : Nat → UInt8} {a i : Nat}

theorem le_scanTlv {tag len8b : UInt8} {n len : Nat} (h : scanTlv m tag len8b n a len = some (some i)) :
    a ≤ i := by
  induction n generalizing a len with
  | zero => cases h
  | succ n ih =>
    unfold scanTlv at h
    split at h
    · cases h
    · split at h
      · cases h
        exact Nat.le_add_right ..
      · split at h
        · cases h
        · exact Nat.le_of_add_right_le (ih h)

theorem updateNd_low {len : Nat} {mac : EthAddr} {r : (Nat → UInt8) × Bool}
    (h : updateNdLinkLayerAddr m a len mac = some r) (hi : i < a) : r.1 i = m i := by
  unfold updateNdLinkLayerAddr at h
  split at h
  · cases h
    rfl
  · rename_i n tag _
    split at h
    · obtain ⟨x, hx, rfl⟩ := Option.map_eq_some_iff.mp h
      cases x with
      | none => rfl
      | some j =>
        have hj := le_scanTlv hx
        exact write_of_lt (by omega)
    · cases h
      rfl

theorem setCksum_low (hi : i < ethHlen) : setCksum H m i = m i := by
  have h : i < icmp + 2 := Nat.lt_of_lt_of_le hi (by decide)
  unfold setCksum
  rw [write_of_lt h, write_of_lt h]

theorem update_low {s' : Skb} (h : update H s = some s') (hi : i < ethHlen) :
    s'.mem i = s.mem i := by
  unfold update at h
  split at h
  · obtain ⟨r, hr, rfl⟩ := Option.map_eq_some_iff.mp h
    have hlow := updateNd_low hr (Nat.lt_of_lt_of_le hi (by decide))
    split
    · show setCksum H r.1 i = _
      rw [setCksum_low hi, hlow]
    · exact hlow
  · cases h
    rfl

theorem update_len {s' : Skb} (h : update H s = some s') : s'.len = s.len := by
  unfold update at h
  split at h
  · obtain ⟨r, -, rfl⟩ := Option.map_eq_some_iff.mp h
    split
    · rfl
    · rfl
  · cases h
    rfl

end Ipv6

theorem insertIpv6 {r : Out H} (h : p.handleIpv6 env s .insert = some r) :
    Inserted (Ipv6.malformed s) s r := by
  unfold Adapter.handleIpv6 at h
  by_cases hm : Ipv6.malformed s
  · rw [if_pos hm] at h
    cases h
    exact .refuse hm
  · simp only [if_neg hm] at h
    split at h
    · cases h
      exact .keep hm
    · obtain ⟨s', hs, rfl⟩ := Option.map_eq_some_iff.mp h
      exact ⟨fun _ hi => Ipv6.update_low hs hi, Ipv6.update_len hs, Or.inr ⟨hm, rfl⟩⟩

/-! ### PPPoE -/

theorem refused_pppoe (hpr : protocol H s = .pppoe) : Refused p s ↔ s.sid = 0 ∧
    (s.code = padiCode ∨ s.code = padrCode → p.addPPPoETag = true ∧ RelayRefused H.endian s) := by
  unfold Refused
  rw [hpr]

/-- what an insert leaves of a packet -/
structure InsertSpec (p : Adapter H) (s : Skb) (r : Out H) : Prop where
  low : ∀ i, i < ethHlen → r.skb.mem i = s.mem i
  ret : (Refused p s ∧ r.ret = -1) ∨ (¬Refused p s ∧ (r.ret = -2 ∨
    r.ret = 0 ∧ r.skb.len + (tagSizes p s).1 = s.len + (tagSizes p s).2))

theorem refused_congr {p' : Adapter H} (h : p'.addPPPoETag = p.addPPPoETag) :
    Refused p' s ↔ Refused p s := by
  unfold Refused
  rw [h]

theorem tagSizes_congr {p' : Adapter H} (h : p'.addPPPoETag = p.addPPPoETag) :
    tagSizes p' s = tagSizes p s := by
  unfold tagSizes
  have hr : Relays p' s ↔ Relays p s := by
    unfold Relays
    rw [h]
  by_cases hp : Relays p s
  · rw [if_pos hp, if_pos (hr.mpr hp)]
  · rw [if_neg hp, if_neg fun h' => hp (hr.mp h')]

theorem tagSizes_of_ne (h : protocol H s ≠ .pppoe) : tagSizes p s = (0, 0) := if_neg fun hr => h hr.1

theorem InsertSpec.of_inserted {r : Out H} {ref : Prop} (h : Inserted ref s r)
    (hpr : protocol H s ≠ .pppoe) (href : Refused p s ↔ ref) : InsertSpec p s r := by
  refine ⟨h.low, ?_⟩
  rw [tagSizes_of_ne hpr, href]
  rcases h.ret with ⟨hr, hret⟩ | ⟨hr, hret⟩
  · exact Or.inl ⟨hr, hret⟩
  · exact Or.inr ⟨hr, Or.inr ⟨hret, h.len⟩⟩

theorem InsertSpec.of_skb {r : Out H} (hs : r.skb = s) (hsizes : tagSizes p s = (0, 0))
    (hret : Refused p s ∧ r.ret = -1 ∨ ¬Refused p s ∧ (r.ret = -2 ∨ r.ret = 0)) : InsertSpec p s r := by
  refine ⟨fun i _ => by rw [hs], hret.imp id fun h => ⟨h.1, h.2.imp id fun h0 => ⟨h0, ?_⟩⟩⟩
  rw [hs, hsizes]

/-- the value is -2 for a client while another one is being connected -/
theorem insertPppoe (hpr : protocol H s = .pppoe) : InsertSpec p s (p.handlePppoe env s .insert) := by
  have href := refused_pppoe (p := p) hpr
  unfold Adapter.handlePppoe
  dsimp only
  by_cases hd : s.sid = 0
  · rw [if_pos hd]
    unfold dbHandleInsert
    by_cases hc : s.code = padiCode ∨ s.code = padrCode
    · by_cases hadd : p.addPPPoETag = true
      · have hext : p.ext.addPPPoETag = true := hadd
        have hsizes : tagSizes p s = relaySizes H.endian s := if_pos ⟨hpr, hd, hc, hadd⟩
        simp only [if_pos hc, if_pos hext]
        refine ⟨fun i hi => relayInsert_low _ _ hi, ?_⟩
        rw [href, hsizes]
        rcases relayInsert_ret (s := s) H.endian env.stack with ⟨hr, hret⟩ | ⟨hok, hret, hlen⟩
        · exact Or.inl ⟨⟨hd, fun _ => ⟨hadd, hr⟩⟩, hret⟩
        · exact Or.inr ⟨fun h => hok (h.2 hc).2, Or.inr ⟨hret, hlen⟩⟩
      · have hext : ¬p.ext.addPPPoETag = true := hadd
        have hok : ¬Refused p s := fun h => hadd ((href.mp h).2 hc).1
        have hsizes : tagSizes p s = (0, 0) := if_neg fun h => hadd h.2.2.2
        simp only [if_pos hc, if_neg hext]
        by_cases hother : p.ext.connectionInProgress ≠ 0 ∧ read s.mem ethAlen ethAlen ≠ p.ext.pppoeAddr
        · simp only [if_pos hother]
          exact .of_skb rfl hsizes (Or.inr ⟨hok, Or.inl rfl⟩)
        · simp only [if_neg hother]
          exact .of_skb rfl hsizes (Or.inr ⟨hok, Or.inr rfl⟩)
    · have hr : Refused p s := href.mpr ⟨hd, fun h => absurd h hc⟩
      simp only [if_neg hc]
      exact .of_skb rfl (if_neg fun h => hc h.2.2.1) (Or.inl ⟨hr, rfl⟩)
  · rw [if_neg hd]
    exact .of_skb rfl (if_neg fun h => hd h.2.1)
      (Or.inr ⟨fun h => hd (href.mp h).1, Or.inr rfl⟩)

theorem insert_spec {r : Out H} (h : p.nat25DbHandle env s .insert = some r) : InsertSpec p s r := by
  unfold Adapter.nat25DbHandle at h
  cases hpr : protocol H s with
  | ip =>
    rw [hpr] at h
    cases h
    exact .of_inserted insertIp (by rw [hpr]; decide) (by unfold Refused; rw [hpr])
  | arp =>
    rw [hpr] at h
    cases h
    exact .of_inserted insertArp (by rw [hpr]; decide) (by unfold Refused; rw [hpr])
  | ipx =>
    rw [hpr] at h
    cases h
    exact .of_inserted insertIpx (by rw [hpr]; decide) (by unfold Refused; rw [hpr])
  | pppoe =>
    rw [hpr] at h
    cases h
    exact insertPppoe hpr
  | passed =>
    rw [hpr] at h
    cases h
    exact .of_inserted (.keep id) (by rw [hpr]; decide) (by unfold Refused; rw [hpr])
  | ipv6 =>
    rw [hpr] at h
    exact .of_inserted (insertIpv6 h) (by rw [hpr]; decide) (by unfold Refused; rw [hpr])
  | other =>
    rw [hpr] at h
    cases h
    exact .of_inserted (.refuse trivial) (by rw [hpr]; decide) (by unfold Refused; rw [hpr])

/-- a frame that is refused gets its answer -/
theorem insert_isSome (env : Env) (h : Refused p s) : (p.nat25DbHandle env s .insert).isSome = true := by
  unfold Adapter.nat25DbHandle
  unfold Refused at h
  cases hpr : protocol H s with
  | ipv6 =>
    rw [hpr] at h
    have hm : Ipv6.malformed s := h
    unfold Adapter.handleIpv6
    rw [if_pos hm]
    rfl
  | _ => rfl

/-! ## `NAT25_LOOKUP` -/

/-- no field, given by offset and size, is at `i` -/
def Outside (fields : List (Nat × Nat)) (i : Nat) : Prop := ∀ f ∈ fields, ¬(f.1 ≤ i ∧ i < f.1 + f.2)

/-- the packet `s` behind its destination address, but for the fields `fields`, and the `cut.2` bytes
that were at `cut.1` -/
structure Kept (fields : List (Nat × Nat)) (cut : Nat × Nat) (s s' : Skb) : Prop where
  len : s'.len + cut.2 = s.len
  below : ∀ i, ethAlen ≤ i → i < cut.1 → Outside fields i → s'.mem i = s.mem i
  above : ∀ i, ethAlen ≤ i → cut.1 ≤ i → i < s'.len → Outside fields i →
    s'.mem i = s.mem (i + cut.2)

/-- the relay tag that is taken out: where it is, and the size of its value -/
def relayFound (p : Adapter H) (s : Skb) : Option (Nat × Nat) :=
  if (s.code = padoCode ∨ s.code = padsCode) ∧ p.addPPPoETag = true then
    match s.findPppoeTag pttRelaySid with
    | none => none
    | some ptr =>
      let tagLen := get16 s.mem (ptr + 2)
      if magicCodeLen + rtlRelayTagLen ≤ tagLen ∧ get16 s.mem (ptr + tagHdrLen) = magicCode ∧
          ptr + (tagHdrLen + magicCodeLen + rtlRelayTagLen) ≤ s.len then some (ptr, tagLen)
      else none
  else none

/-- the header of the tag stays, for the client's own value -/
def relayOffset (tagLen : Nat) : Nat := if tagLen > magicCodeLen + rtlRelayTagLen then tagHdrLen else 0

def relayFields (x : Nat × Nat) : List (Nat × Nat) :=
  (ethHlen + 4, 2) :: if x.2 > magicCodeLen + rtlRelayTagLen then [(x.1 + 2, 2)] else []

def relayCut (x : Nat × Nat) : Nat × Nat :=
  (x.1 + relayOffset x.2, tagHdrLen + magicCodeLen + rtlRelayTagLen - relayOffset x.2)

/-- the hardware address of the target -/
def arpFields (s : Skb) : List (Nat × Nat) :=
  if Arp.arPro s = ethPIp then [(Arp.ptr + (Arp.arHln s + Arp.arPln s), ethAlen)] else []

def ipxFields (H : Host) (s : Skb) : List (Nat × Nat) :=
  match findIpxPtr s with
  | some (.ipx a) =>
    if H.myHwaddr = .readAt s.mem (ipxDestNode a) then [(ipxDestNode a, ethAlen)] else []
  | some (.ea a) => if aarpSane s a then [(aarpHwDst a, ethAlen)] else []
  | some (.ddp _) => []
  | none => []

/-- the fields of the inner protocol that are rewritten -/
def lookupFields (p : Adapter H) (s : Skb) : List (Nat × Nat) :=
  match protocol H s with
  | .arp => arpFields s
  | .ipx => ipxFields H s
  | .pppoe => (relayFound p s).elim [] relayFields
  | .ip => []
  | .passed => []
  | .ipv6 => []
  | .other => []

/-- the part of the relay tag that is taken out -/
def lookupCut (p : Adapter H) (s : Skb) : Nat × Nat :=
  match protocol H s with
  | .pppoe => (relayFound p s).elim (ethHlen, 0) relayCut
  | _ => (ethHlen, 0)

/-- only the destination address is new -/
structure DaOnly (s s' : Skb) : Prop where
  len : s'.len = s.len
  mem : ∀ i, ethAlen ≤ i → s'.mem i = s.mem i

namespace DaOnly

variable {s' : Skb}

theorem refl : DaOnly s s := ⟨rfl, fun _ _ => rfl⟩

theorem write {bs : List UInt8} (h : bs.length = ethAlen) :
    DaOnly s { s with mem := Mem.write s.mem 0 bs } := by
  refine ⟨rfl, fun i hi => ?_⟩
  show Mem.write s.mem 0 bs i = s.mem i
  apply write_of_ge
  rw [Nat.zero_add, h]
  exact hi

theorem trans {s'' : Skb} (h : DaOnly s s') (h' : DaOnly s' s'') : DaOnly s s'' :=
  ⟨h'.len.trans h.len, fun i hi => (h'.mem i hi).trans (h.mem i hi)⟩

theorem kept {c : Nat} (h : DaOnly s s') : Kept [] (c, 0) s s' :=
  ⟨h.len, fun i hi _ _ => h.mem i hi, fun i hi _ _ _ => h.mem i hi⟩

/-- and the address is put into a field too -/
theorem field (h : DaOnly s s') (a : Nat) : Kept [(a, ethAlen)] (ethHlen, 0) s
    { s' with mem := Mem.write s'.mem a (read s'.mem 0 ethAlen) } := by
  have hmem : ∀ i, ethAlen ≤ i → Outside [(a, ethAlen)] i →
      Mem.write s'.mem a (read s'.mem 0 ethAlen) i = s.mem i := by
    intro i hi hf
    rw [← h.mem i hi]
    apply write_of_out
    rw [length_read]
    exact hf (a, ethAlen) List.mem_cons_self
  exact ⟨h.len, fun i hi _ hf => hmem i hi hf, fun i hi _ _ hf => hmem i hi hf⟩

end DaOnly

theorem lookupAndReplace_daOnly (p : Adapter H) (s : Skb) (k : List UInt8) :
    DaOnly s (p.dbNetworkLookupAndReplace s k).skb := by
  unfold Adapter.dbNetworkLookupAndReplace
  split
  · exact .refl
  · split
    · exact .refl
    · exact .write (EthAddr.length_eq _)

theorem replaceUnknown_daOnly (p : Adapter H) (s : Skb) : DaOnly s (p.replaceUnknown s).skb := by
  unfold Adapter.replaceUnknown
  split
  · exact .write (EthAddr.length_eq _)
  · exact .write (EthAddr.length_eq _)

theorem lookupIp : DaOnly s (p.handleIp env s .lookup).skb := by
  have hr := lookupAndReplace_daOnly p s (generateIpv4NetworkAddr (Ip.daddr s))
  unfold Adapter.handleIp
  split
  · exact .refl
  · dsimp only
    split
    · exact hr.trans (replaceUnknown_daOnly _ _)
    · exact hr

theorem lookupArp : Kept (arpFields s) (ethHlen, 0) s (p.handleArp env s .lookup).skb := by
  unfold Adapter.handleArp arpFields
  by_cases h : Arp.arPro s = ethPIp
  · rw [if_pos h, if_neg (not_not_intro h)]
    exact (lookupAndReplace_daOnly _ _ _).field _
  · rw [if_neg h, if_pos h]
    exact DaOnly.refl.kept

theorem lookupIpx : Kept (ipxFields H s) (ethHlen, 0) s (p.handleIpx env s .lookup).skb := by
  unfold ipxFields Adapter.handleIpx
  cases hx : findIpxPtr s with
  | none => exact DaOnly.refl.kept
  | some x =>
    cases x with
    | ipx a =>
      show Kept (if H.myHwaddr = .readAt s.mem (ipxDestNode a) then _ else _) _ _
        (p.handleIpxHdr env s a .lookup).skb
      unfold Adapter.handleIpxHdr
      dsimp only
      by_cases h : H.myHwaddr = .readAt s.mem (ipxDestNode a)
      · have h' : H.myHwaddr = (ipxHdr s a).destNode := h
        rw [if_pos h, if_pos h']
        exact (lookupAndReplace_daOnly _ _ _).field _
      · have h' : ¬H.myHwaddr = (ipxHdr s a).destNode := h
        rw [if_neg h, if_neg h']
        exact (lookupAndReplace_daOnly _ _ _).kept
    | ea a =>
      show Kept (if aarpSane s a then _ else _) _ _ (p.handleAarp env s a .lookup).skb
      unfold Adapter.handleAarp
      by_cases h : aarpSane s a
      · rw [if_pos h, if_pos h]
        exact (lookupAndReplace_daOnly _ _ _).field _
      · rw [if_neg h, if_neg h]
        exact DaOnly.refl.kept
    | ddp a => exact (lookupAndReplace_daOnly _ _ _).kept

/-! ### the relay tag of the server's answer -/

theorem put16_of_out {m : Nat → UInt8} {a n i : Nat} (h : ¬(a ≤ i ∧ i < a + 2)) :
    put16 m a n i = m i := write_of_out h

theorem relayOffset_le (tagLen : Nat) : relayOffset tagLen ≤ tagHdrLen := by
  unfold relayOffset
  split
  · exact Nat.le_refl _
  · exact Nat.zero_le _

/-- a piece is taken out -/
theorem pull_kept {s₀ s₁ : Skb} {src n : Nat} (h : DaOnly s s₀)
    (hp : s₀.skbPullAndMerge src n = some s₁) : Kept [] (src, n) s s₁ := by
  obtain ⟨hfit, hlen, -, hm⟩ := skbPullAndMerge_cases hp
  refine ⟨by rw [hlen, h.len], fun i hi hlt _ => ?_, fun i hi hge hlt _ => ?_⟩
  · rw [hm, write_of_lt hlt, h.mem i hi]
  · obtain ⟨k, rfl⟩ := Nat.exists_eq_add_of_le hge
    have hk : k < (read s₀.mem (src + n) (s₀.len - (src + n))).length := by
      rw [length_read]
      omega
    rw [hm, write_add hk, getElem_read, h.mem _ (by omega)]
    congr 1
    omega

/-- a field is written besides -/
theorem Kept.put16 {fields : List (Nat × Nat)} {cut : Nat × Nat} {s' : Skb} (h : Kept fields cut s s')
    (a n : Nat) : Kept ((a, 2) :: fields) cut s { s' with mem := Pppoe.put16 s'.mem a n } := by
  have hold : ∀ i, Outside ((a, 2) :: fields) i → Pppoe.put16 s'.mem a n i = s'.mem i :=
    fun i hf => put16_of_out (hf (a, 2) List.mem_cons_self)
  have hrest : ∀ i, Outside ((a, 2) :: fields) i → Outside fields i :=
    fun i hf f hin => hf f (List.mem_cons_of_mem _ hin)
  refine ⟨h.len, fun i hi hlt hf => ?_, fun i hi hge hlt hf => ?_⟩
  · rw [← h.below i hi hlt (hrest i hf)]
    exact hold i hf
  · rw [← h.above i hi hge hlt (hrest i hf)]
    exact hold i hf

theorem Kept.swap {f g : Nat × Nat} {cut : Nat × Nat} {s' : Skb} (h : Kept [f, g] cut s s') :
    Kept [g, f] cut s s' := by
  have hswap : ∀ i, Outside [g, f] i → Outside [f, g] i :=
    fun i hf x hx => hf x (List.mem_pair.mpr (List.mem_pair.mp hx).symm)
  exact ⟨h.len, fun i hi hlt hf => h.below i hi hlt (hswap i hf),
    fun i hi hge hlt hf => h.above i hi hge hlt (hswap i hf)⟩

theorem stripRelay_eq (s : Skb) (ptr tagLen : Nat) : s.stripRelay ptr tagLen =
    match s.skbPullAndMerge (relayCut (ptr, tagLen)).1 (relayCut (ptr, tagLen)).2 with
    | none => (s, -1)
    | some s =>
      let s := s.setPhLength (s.phLength + 0x10000 - (relayCut (ptr, tagLen)).2)
      if relayOffset tagLen > 0 then
        ({ s with mem := Pppoe.put16 s.mem (ptr + 2) (tagLen - magicCodeLen - rtlRelayTagLen) }, 0)
      else (s, 0) := rfl

theorem relayCut_end (ptr tagLen : Nat) : (relayCut (ptr, tagLen)).1 + (relayCut (ptr, tagLen)).2 =
    ptr + (tagHdrLen + magicCodeLen + rtlRelayTagLen) := by
  have hle := relayOffset_le tagLen
  show ptr + relayOffset tagLen + (tagHdrLen + 8 - relayOffset tagLen) = ptr + (tagHdrLen + 8)
  omega

/-- a frame that is too short has another destination address only -/
theorem stripRelay_kept {s₀ : Skb} {ptr tagLen : Nat} (h : DaOnly s s₀) :
    ptr + (tagHdrLen + magicCodeLen + rtlRelayTagLen) ≤ s.len ∧
        Kept (relayFields (ptr, tagLen)) (relayCut (ptr, tagLen)) s (s₀.stripRelay ptr tagLen).1 ∨
      ¬ptr + (tagHdrLen + magicCodeLen + rtlRelayTagLen) ≤ s.len ∧
        DaOnly s (s₀.stripRelay ptr tagLen).1 := by
  rw [stripRelay_eq, ← relayCut_end]
  cases hp : s₀.skbPullAndMerge (relayCut (ptr, tagLen)).1 (relayCut (ptr, tagLen)).2 with
  | none =>
    have hshort := lt_of_skbPullAndMerge hp
    rw [h.len] at hshort
    exact Or.inr ⟨Nat.not_le.mpr hshort, h⟩
  | some s₁ =>
    have hfit := (skbPullAndMerge_cases hp).1
    rw [h.len] at hfit
    refine Or.inl ⟨hfit, ?_⟩
    have hkept := (pull_kept h hp).put16 (ethHlen + 4) (s₁.phLength + 0x10000 - (relayCut (ptr, tagLen)).2)
    unfold relayFields
    by_cases hbig : tagLen > magicCodeLen + rtlRelayTagLen
    · have ho : relayOffset tagLen > 0 := by
        unfold relayOffset
        rw [if_pos hbig]
        decide
      simp only [if_pos hbig, if_pos ho]
      exact (hkept.put16 (ptr + 2) (tagLen - magicCodeLen - rtlRelayTagLen)).swap
    · have ho : ¬relayOffset tagLen > 0 := by
        unfold relayOffset
        rw [if_neg hbig]
        decide
      simp only [if_neg hbig, if_neg ho]
      exact hkept

/-- the tag that is found begins with its type -/
theorem findFrom_type {type fuel cur a : Nat} (h : s.findFrom type fuel cur = some a) :
    get16 s.mem a = type := by
  induction fuel generalizing cur with
  | zero => cases h
  | succ fuel ih =>
    unfold Skb.findFrom at h
    split at h
    · split at h
      · rename_i htype
        cases h
        exact htype
      · exact ih h
    · cases h

theorem relayLookup_kept (hadd : p.addPPPoETag = true) (hc : s.code = padoCode ∨ s.code = padsCode) :
    Kept ((relayFound p s).elim [] relayFields) ((relayFound p s).elim (ethHlen, 0) relayCut) s
      s.relayLookup.1 := by
  unfold relayFound Skb.relayLookup
  rw [if_pos ⟨hc, hadd⟩]
  cases hf : s.findPppoeTag pttRelaySid with
  | none => exact DaOnly.refl.kept
  | some ptr =>
    have htype : get16 s.mem ptr = pttRelaySid := findFrom_type hf
    dsimp only
    by_cases hlen : magicCodeLen + rtlRelayTagLen ≤ get16 s.mem (ptr + 2)
    · have hok : ¬(get16 s.mem ptr ≠ pttRelaySid ∨
          get16 s.mem (ptr + 2) < magicCodeLen + rtlRelayTagLen) :=
        not_or.mpr ⟨not_not_intro htype, Nat.not_lt.mpr hlen⟩
      rw [if_neg hok]
      by_cases hmagic : get16 s.mem (ptr + tagHdrLen) = magicCode
      · rw [if_neg (not_not_intro hmagic)]
        have hmove : DaOnly s (s.memmove 0 (ptr + tagHdrLen + magicCodeLen) ethAlen) :=
          .write length_read
        rcases stripRelay_kept hmove with ⟨hfit, hkept⟩ | ⟨hshort, hda⟩
        · rw [if_pos ⟨hlen, hmagic, hfit⟩]
          exact hkept
        · rw [if_neg fun h => hshort h.2.2]
          exact hda.kept
      · rw [if_pos hmagic, if_neg fun h => hmagic h.2.1]
        exact DaOnly.refl.kept
    · rw [if_pos (Or.inr (Nat.not_le.mp hlen)), if_neg fun h => hlen h.1]
      exact DaOnly.refl.kept

theorem lookupPppoe : Kept ((relayFound p s).elim [] relayFields)
    ((relayFound p s).elim (ethHlen, 0) relayCut) s (p.handlePppoe env s .lookup).skb := by
  unfold Adapter.handlePppoe
  dsimp only
  by_cases hc : s.code = padoCode ∨ s.code = padsCode
  · rw [if_pos hc]
    unfold dbHandleLookup
    by_cases hadd : p.addPPPoETag = true
    · have hext : p.ext.addPPPoETag = true := hadd
      simp only [if_pos hc, if_pos hext]
      exact relayLookup_kept hadd hc
    · have hext : ¬p.ext.addPPPoETag = true := hadd
      have hno : relayFound p s = none := if_neg fun h => hadd h.2
      rw [hno]
      simp only [if_pos hc, if_neg hext]
      by_cases hidle : p.ext.connectionInProgress = 0
      · simp only [if_pos hidle]
        exact DaOnly.refl.kept
      · simp only [if_neg hidle]
        exact (DaOnly.write p.pppoeAddr.length_eq).kept
  · have hno : relayFound p s = none := if_neg fun h => hc h.1
    rw [hno, if_neg hc]
    split
    · exact (lookupAndReplace_daOnly _ _ _).kept
    · exact DaOnly.refl.kept

theorem lookupIpv6 {r : Out H} (h : p.handleIpv6 env s .lookup = some r) : DaOnly s r.skb := by
  unfold Adapter.handleIpv6 at h
  by_cases hm : Ipv6.malformed s
  · rw [if_pos hm] at h
    cases h
    exact .refl
  · rw [if_neg hm] at h
    cases h
    exact lookupAndReplace_daOnly _ _ _

theorem lookup_kept {r : Out H} (h : p.nat25DbHandle env s .lookup = some r) :
    Kept (lookupFields p s) (lookupCut p s) s r.skb := by
  unfold Adapter.nat25DbHandle at h
  unfold lookupFields lookupCut
  cases hpr : protocol H s with
  | ip =>
    rw [hpr] at h
    cases h
    exact lookupIp.kept
  | arp =>
    rw [hpr] at h
    cases h
    exact lookupArp
  | ipx =>
    rw [hpr] at h
    cases h
    exact lookupIpx
  | pppoe =>
    rw [hpr] at h
    cases h
    exact lookupPppoe
  | passed =>
    rw [hpr] at h
    cases h
    exact DaOnly.refl.kept
  | ipv6 =>
    rw [hpr] at h
    exact (lookupIpv6 h).kept
  | other =>
    rw [hpr] at h
    cases h
    exact DaOnly.refl.kept

/-- the lookup always comes back -/
theorem lookup_isSome (p : Adapter H) (env : Env) (s : Skb) :
    (p.nat25DbHandle env s .lookup).isSome = true := by
  unfold Adapter.nat25DbHandle Adapter.handleIpv6
  cases protocol H s with
  | ipv6 =>
    dsimp only
    split
    · rfl
    · rfl
  | _ => rfl

/-! ### where the fields are -/

theorem le_relayFound {x : Nat × Nat} (h : relayFound p s = some x) : ethHlen ≤ x.1 := by
  unfold relayFound at h
  split at h
  · split at h
    · cases h
    · rename_i ptr hf
      have hptr : Skb.tag ≤ ptr := le_findFrom hf
      dsimp only at h
      split at h
      · cases h
        exact Nat.le_trans (by decide) hptr
      · cases h
  · cases h

theorem le_lookupCut (p : Adapter H) (s : Skb) : ethHlen ≤ (lookupCut p s).1 := by
  unfold lookupCut
  split
  · cases hf : relayFound p s with
    | none => exact Nat.le_refl _
    | some x => exact Nat.le_add_right_of_le (le_relayFound hf)
  · exact Nat.le_refl _

variable {f : Nat × Nat}

theorem le_of_mem_ite {c : Prop} [Decidable c] {a n : Nat} (ha : ethHlen ≤ a)
    (h : f ∈ if c then [(a, n)] else []) : ethHlen ≤ f.1 := by
  split at h
  · rw [List.mem_singleton.mp h]
    exact ha
  · cases h

theorem le_ipxFields (h : f ∈ ipxFields H s) : ethHlen ≤ f.1 := by
  unfold ipxFields at h
  cases hx : findIpxPtr s with
  | none =>
    rw [hx] at h
    cases h
  | some x =>
    have ha := le_findIpxPtr hx
    rw [hx] at h
    cases x with
    | ipx a => exact le_of_mem_ite (Nat.le_add_right_of_le ha) h
    | ea a => exact le_of_mem_ite (Nat.le_add_right_of_le ha) h
    | ddp a => cases h

theorem le_relayFields {x : Nat × Nat} (hx : ethHlen ≤ x.1) (h : f ∈ relayFields x) : ethHlen ≤ f.1 := by
  rcases List.mem_cons.mp h with rfl | h
  · decide
  · exact le_of_mem_ite (Nat.le_add_right_of_le hx) h

theorem le_lookupFields (h : f ∈ lookupFields p s) : ethHlen ≤ f.1 := by
  unfold lookupFields at h
  split at h
  · exact le_of_mem_ite (Nat.le_add_right_of_le (by decide)) h
  · exact le_ipxFields h
  · cases hf : relayFound p s with
    | none =>
      rw [hf] at h
      cases h
    | some x =>
      rw [hf] at h
      exact le_relayFields (le_relayFound hf) h
  all_goals cases h

end Nat25

end Rtl8192eu
