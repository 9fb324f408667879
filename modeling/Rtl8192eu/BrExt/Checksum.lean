import Rtl8192eu.BrExt.Vlan
import Rtl8192eu.Lib.OnesSum

/-!
# The checksums of the packets that are rewritten

* `Dhcp.Request`   a DHCP request with a correct UDP checksum, or without one;
* `Dhcp.Request.kept_iff`   when `dhcp_flag_bcast` leaves it correct, or absent;
* `icmp6Csum`      what `nat25_db_handle` asks of the kernel for an ICMPv6 message;
* `NdPacket`       a message of neighbour discovery with an address that is replaced;
* `NdPacket.kept_iff`   when its checksum is correct afterwards;
* `bridgeCsum_iff`   both, on a little-endian host.
-/

namespace Rtl8192eu

open Mem OnesSum

namespace Nat25

open Pppoe hiding BrExt

variable {H : Host}

/-! ## words in memory -/

section
variable {m : Nat → UInt8} {a k n : Nat} {x y : UInt8}

/-- the word at an even offset is one of those that are added up -/
theorem words_read (hk : k % 2 = 0) (hn : k + 2 ≤ n) :
    words (read m a n) =
      words (read m a k) + (get16 m (a + k) + words (read m (a + k + 2) (n - k - 2))) := by
  obtain ⟨j, rfl⟩ := Nat.exists_eq_add_of_le hn
  have hj : k + 2 + j - k - 2 = j := by omega
  have heven : (read m a k).length % 2 = 0 := by rwa [length_read]
  rw [hj, Nat.add_assoc k 2 j, read_add, words_append heven, read_add (n := 2)]
  rfl

theorem words_read_write (hk : k % 2 = 0) (hn : k + 2 ≤ n) :
    words (read (write m (a + k) [x, y]) a n) + get16 m (a + k) = words (read m a n) + of16 x y := by
  have hlow : read (write m (a + k) [x, y]) a k = read m a k :=
    read_write_of_disjoint (Or.inl (Nat.le_refl _))
  have hhigh : read (write m (a + k) [x, y]) (a + k + 2) (n - k - 2) = read m (a + k + 2) (n - k - 2) :=
    read_write_of_disjoint (Or.inr (Nat.le_refl _))
  have hpair : read (write m (a + k) [x, y]) (a + k) 2 = [x, y] := read_write_self rfl
  have hword : get16 (write m (a + k) [x, y]) (a + k) = of16 x y := by
    have h0 : write m (a + k) [x, y] (a + k) = x := List.head_eq_of_cons_eq hpair
    have h1 : write m (a + k) [x, y] (a + k + 1) = y := List.head_eq_of_cons_eq (List.cons.inj hpair).2
    show of16 (write m (a + k) [x, y] (a + k)) (write m (a + k) [x, y] (a + k + 1)) = _
    rw [h0, h1]
  rw [words_read hk hn, words_read hk hn, hlow, hhigh, hword]
  omega

theorem write_one_pair (x : UInt8) : write m a [x] = write m a [x, m (a + 1)] := by
  funext i
  by_cases h0 : i = a
  · subst h0
    have hlen : 0 < [x, m (i + 1)].length := Nat.zero_lt_succ _
    rw [write_one_self]
    exact (write_add hlen).symm
  · by_cases h1 : i = a + 1
    · subst h1
      have hlen : 1 < [x, m (a + 1)].length := Nat.lt_succ_self 1
      rw [write_one_of_ne _ h0]
      exact (write_add hlen).symm
    · rw [write_one_of_ne _ h0, write_of_out]
      simp only [List.length_cons, List.length_nil]
      omega

end

theorem load16_little (m : Nat → UInt8) (a : Nat) :
    load16 .little m a = (m a).toNat + 256 * (m (a + 1)).toNat := rfl

/-! ## UDP -/

namespace Dhcp

theorem fold_eq (n : Nat) : fold n = norm n := by
  induction n using fold.induct with
  | case1 n h =>
    rw [fold, dif_pos h, norm_of_le (by omega)]
  | case2 n h ih =>
    rw [fold, dif_neg h, ih]
    exact norm_carry n

/-- the length in the UDP header -/
def udpLen (s : Skb) : Nat := get16 s.mem (udph s + 4)

/-- the words of the datagram and of its pseudo header -/
def udpSum (s : Skb) : Nat :=
  words (Ip.saddr s ++ Ip.daddr s) + 17 + udpLen s + words (read s.mem (udph s) (udpLen s))

def Correct (s : Skb) : Prop := get16 s.mem (check s) ≠ 0 ∧ norm (udpSum s) = 0xffff

def Absent (s : Skb) : Prop := get16 s.mem (check s) = 0

/-- a DHCP request over IPv4 and UDP -/
structure Request where
  skb : Skb
  ip : etherType skb = ethPIp
  header : 5 ≤ Ip.ihl skb
  udp : skb.mem (ethHlen + 9) = 17
  source : get16 skb.mem (udph skb) = clientPort
  dest : get16 skb.mem (udph skb + 2) = serverPort
  magic : read skb.mem (cookie skb) 4 = dhcpMagic
  holds : cookie skb + 4 ≤ udph skb + udpLen skb
  whole : udph skb + udpLen skb ≤ skb.len
  valid : Correct skb ∨ Absent skb

namespace Request

variable (q : Request)

/-- the flags of the message -/
def flags : Nat := get16 q.skb.mem (Dhcp.flags q.skb)
/-- the checksum of the datagram -/
def check : Nat := get16 q.skb.mem (Dhcp.check q.skb)

/-- the broadcast flag is wanted, and is not there -/
def Changed (p : Adapter H) : Prop :=
  p.dhcpBcstDisable = false ∧ q.skb.mem (Dhcp.flags q.skb) &&& 0x80 = 0

/-- a correct checksum is correct afterwards, and an absent one absent -/
def Kept (p : Adapter H) : Prop :=
  (Correct q.skb → Correct (p.dhcpFlagBcast q.skb)) ∧ (Absent q.skb → Absent (p.dhcpFlagBcast q.skb))

end Request

theorem low_byte : ∀ n < 256, n &&& 128 = 0 → n ||| 128 = n + 128 ∧ n < 128 := by
  decide +kernel

theorem set_flag {x : UInt8} (h : x &&& 0x80 = 0) : (x ||| 0x80).toNat = x.toNat + 128 ∧ x.toNat < 128 := by
  have h0 : x.toNat &&& 128 = 0 := congrArg UInt8.toNat h
  exact low_byte x.toNat x.toNat_lt h0

/-- the new field for an old one `c`, if `f` is added to the sum, on a little-endian host -/
def newCheck (c f : Nat) : Nat :=
  let n := OnesSum.check (65535 - c + f)
  256 * (n % 256) + n / 256

section
variable {c0 c1 f g : Nat}

/-- on the network's side the new sum is the old one with the whole field taken away -/
theorem newCheck_add (hc0 : c0 < 256) (hc1 : c1 < 256) :
    (newCheck (c0 + 256 * c1) (f + 256 * g) + (256 * f + g)) % 65535 = (256 * c0 + c1) % 65535 := by
  have hadd := check_add (65535 - (c0 + 256 * c1) + (f + 256 * g))
  unfold newCheck
  dsimp only
  omega

theorem newCheck_eq_zero (hc0 : c0 < 256) (hc1 : c1 < 256) (hf : 0 < f) :
    newCheck (c0 + 256 * c1) (f + 256 * g) = 0 ↔ (256 * f + g) % 65535 = (256 * c0 + c1) % 65535 := by
  have hpos : 0 < 65535 - (c0 + 256 * c1) + (f + 256 * g) := by omega
  have hmax := norm_eq_max hpos
  have hle := norm_le (65535 - (c0 + 256 * c1) + (f + 256 * g))
  have hz : newCheck (c0 + 256 * c1) (f + 256 * g) = 0 ↔
      norm (65535 - (c0 + 256 * c1) + (f + 256 * g)) = 65535 := by
    unfold newCheck OnesSum.check
    dsimp only
    omega
  rw [hz, hmax]
  omega

end

namespace Request

variable (q : Request)

theorem isRequest_iff : isRequest q.skb ↔ q.skb.mem (Dhcp.flags q.skb) &&& 0x80 = 0 :=
  ⟨fun h => h.2.2.2.2.2, fun h => ⟨q.ip, q.udp, q.source, q.dest, q.magic, h⟩⟩

theorem flag_clear {p : Adapter H} (h : q.Changed p) :
    (q.skb.mem (Dhcp.flags q.skb) ||| 0x80).toNat = (q.skb.mem (Dhcp.flags q.skb)).toNat + 128 ∧
      (q.skb.mem (Dhcp.flags q.skb)).toNat < 128 := set_flag h.2

/-- the new checksum -/
def next : Nat :=
  newCheck (load16 .little q.skb.mem (Dhcp.check q.skb))
    (((q.skb.mem (Dhcp.flags q.skb)).toNat + 128) + 256 * (q.skb.mem (Dhcp.flags q.skb + 1)).toNat)

/-- the packet that is sent -/
theorem sent {p : Adapter H} (he : H.endian = .little) (h : q.Changed p) :
    ∃ x y, of16 x y = q.next ∧
      p.dhcpFlagBcast q.skb =
        { q.skb with
          mem := write (write q.skb.mem (Dhcp.flags q.skb)
            [q.skb.mem (Dhcp.flags q.skb) ||| 0x80, q.skb.mem (Dhcp.flags q.skb + 1)])
            (Dhcp.check q.skb) [x, y] } := by
  have hreq : p.dhcpBcstDisable = false ∧ isRequest q.skb := ⟨h.1, q.isRequest_iff.mpr h.2⟩
  have hbelow : Dhcp.check q.skb + 2 ≤ Dhcp.flags q.skb := by
    unfold Dhcp.check Dhcp.flags Dhcp.dhcph
    omega
  have hcell : ∀ i, i < Dhcp.flags q.skb → write q.skb.mem (Dhcp.flags q.skb)
      [q.skb.mem (Dhcp.flags q.skb) ||| 0x80] i = q.skb.mem i := fun i hi => write_of_lt hi
  have hnext : write q.skb.mem (Dhcp.flags q.skb) [q.skb.mem (Dhcp.flags q.skb) ||| 0x80]
      (Dhcp.flags q.skb + 1) = q.skb.mem (Dhcp.flags q.skb + 1) :=
    write_one_of_ne _ (Nat.succ_ne_self _)
  unfold Adapter.dhcpFlagBcast
  rw [if_pos hreq, he]
  dsimp only
  rw [load16_little, load16_little, hcell _ (by omega), hcell _ (by omega), write_one_self, hnext,
    (q.flag_clear h).1, fold_eq, ← write_one_pair]
  refine ⟨_, _, ?_, rfl⟩
  have hlt := check_lt (65535 - load16 .little q.skb.mem (Dhcp.check q.skb) +
    (((q.skb.mem (Dhcp.flags q.skb)).toNat + 128) + 256 * (q.skb.mem (Dhcp.flags q.skb + 1)).toNat))
  unfold next newCheck of16
  rw [UInt8.toNat_ofNat', UInt8.toNat_ofNat']
  unfold OnesSum.check at hlt ⊢
  rw [load16_little] at hlt ⊢
  dsimp only
  omega

theorem udph_ge : 34 ≤ udph q.skb := by
  have h := q.header
  unfold udph ethHlen
  omega

theorem udpLen_ge : 248 ≤ udpLen q.skb := by
  have h := q.holds
  unfold cookie dhcph at h
  omega

/-- a packet with other words for the flags and the checksum -/
def with' (m : Nat → UInt8) : Skb := { q.skb with mem := m }

/-- what lies in front of the checksum is what it was -/
theorem sum_of_low {m : Nat → UInt8} (h : ∀ i, i < Dhcp.check q.skb → m i = q.skb.mem i) :
    Dhcp.check (q.with' m) = Dhcp.check q.skb ∧
      udpSum (q.with' m) + words (read q.skb.mem (udph q.skb) (udpLen q.skb)) =
        udpSum q.skb + words (read m (udph q.skb) (udpLen q.skb)) := by
  have hge := q.udph_ge
  have hcheck : Dhcp.check q.skb = udph q.skb + 6 := rfl
  have hihl : udph (q.with' m) = udph q.skb := by
    unfold udph Ip.ihl
    rw [show (q.with' m).mem ethHlen = q.skb.mem ethHlen from h _ (by rw [hcheck]; unfold ethHlen; omega)]
  have hlen : udpLen (q.with' m) = udpLen q.skb := by
    unfold udpLen
    rw [hihl]
    exact get16_congr (read_congr fun i _ hi => h i (by omega))
  have hsaddr : Ip.saddr (q.with' m) = Ip.saddr q.skb :=
    read_congr fun i _ hi => h i (by unfold ethHlen at hi; omega)
  have hdaddr : Ip.daddr (q.with' m) = Ip.daddr q.skb :=
    read_congr fun i _ hi => h i (by unfold ethHlen at hi; omega)
  refine ⟨by unfold Dhcp.check; rw [hihl], ?_⟩
  unfold udpSum
  rw [hihl, hlen, hsaddr, hdaddr]
  show _ + words (read m _ _) + _ = _
  omega

/-- the sum of the packet that is sent -/
theorem udpSum_sent {p : Adapter H} (he : H.endian = .little) (h : q.Changed p) :
    udpSum (p.dhcpFlagBcast q.skb) + q.check = udpSum q.skb + q.next + 0x8000 ∧
      get16 (p.dhcpFlagBcast q.skb).mem (Dhcp.check (p.dhcpFlagBcast q.skb)) = q.next := by
  obtain ⟨x, y, hxy, hsent⟩ := q.sent he h
  rw [hsent]
  let m₁ := write q.skb.mem (Dhcp.flags q.skb)
    [q.skb.mem (Dhcp.flags q.skb) ||| 0x80, q.skb.mem (Dhcp.flags q.skb + 1)]
  have hflags : Dhcp.flags q.skb = udph q.skb + 18 := rfl
  have hcheck : Dhcp.check q.skb = udph q.skb + 6 := rfl
  have hL := q.udpLen_ge
  have hlow₁ : ∀ i, i < Dhcp.flags q.skb → m₁ i = q.skb.mem i := fun i hi => write_of_lt hi
  have hlow : ∀ i, i < Dhcp.check q.skb → write m₁ (Dhcp.check q.skb) [x, y] i = q.skb.mem i := by
    intro i hi
    rw [write_of_lt hi, hlow₁ i (by omega)]
  obtain ⟨hc, hsum⟩ := q.sum_of_low hlow
  have hw₂ : words (read (write m₁ (Dhcp.check q.skb) [x, y]) (udph q.skb) (udpLen q.skb)) +
      get16 m₁ (Dhcp.check q.skb) = _ := words_read_write (k := 6) (by decide) (by omega)
  have hw₁ : words (read m₁ (udph q.skb) (udpLen q.skb)) + get16 q.skb.mem (udph q.skb + 18) = _ :=
    words_read_write (k := 18) (by decide) (by omega)
  have hold : get16 m₁ (Dhcp.check q.skb) = q.check :=
    get16_congr (read_congr fun i _ hi => hlow₁ i (by omega))
  have hflag : of16 (q.skb.mem (Dhcp.flags q.skb) ||| 0x80) (q.skb.mem (Dhcp.flags q.skb + 1)) =
      get16 q.skb.mem (udph q.skb + 18) + 0x8000 := by
    unfold of16 get16
    rw [(q.flag_clear h).1, hflags]
    omega
  rw [hold, hxy] at hw₂
  rw [hflag] at hw₁
  refine ⟨?_, ?_⟩
  · show udpSum (q.with' (write m₁ (Dhcp.check q.skb) [x, y])) + _ = _
    have hf : get16 q.skb.mem (udph q.skb + 18) = q.flags := rfl
    omega
  · show get16 (write m₁ (Dhcp.check q.skb) [x, y]) (Dhcp.check (q.with' _)) = _
    rw [hc, ← hxy]
    have hpair : read (write m₁ (Dhcp.check q.skb) [x, y]) (Dhcp.check q.skb) 2 = [x, y] :=
      read_write_self rfl
    have h0 := List.head_eq_of_cons_eq hpair
    have h1 := List.head_eq_of_cons_eq (List.cons.inj hpair).2
    exact congrArg₂ of16 h0 h1

/-- the flags with the broadcast bit -/
theorem flags_set : 256 * ((q.skb.mem (Dhcp.flags q.skb)).toNat + 128)
    + (q.skb.mem (Dhcp.flags q.skb + 1)).toNat = q.flags + 0x8000 := by
  unfold flags get16
  omega

theorem next_add : (q.next + (q.flags + 0x8000)) % 65535 = q.check % 65535 := by
  have hadd := newCheck_add (f := (q.skb.mem (Dhcp.flags q.skb)).toNat + 128)
    (g := (q.skb.mem (Dhcp.flags q.skb + 1)).toNat)
    (q.skb.mem (Dhcp.check q.skb)).toNat_lt (q.skb.mem (Dhcp.check q.skb + 1)).toNat_lt
  rw [q.flags_set] at hadd
  exact hadd

theorem next_eq_zero : q.next = 0 ↔ (q.flags + 0x8000) % 65535 = q.check % 65535 := by
  have hz := newCheck_eq_zero (f := (q.skb.mem (Dhcp.flags q.skb)).toNat + 128)
    (g := (q.skb.mem (Dhcp.flags q.skb + 1)).toNat)
    (q.skb.mem (Dhcp.check q.skb)).toNat_lt (q.skb.mem (Dhcp.check q.skb + 1)).toNat_lt (Nat.succ_pos _)
  rw [q.flags_set] at hz
  exact hz

theorem correct_iff (s : Skb) : Correct s ↔ get16 s.mem (Dhcp.check s) ≠ 0 ∧ udpSum s % 65535 = 0 := by
  have hpos : 0 < udpSum s := by
    unfold udpSum
    omega
  unfold Correct
  rw [norm_eq_max hpos]

/-- **DHCP**: a correct checksum is kept if the flags were 0, but for the one that becomes 0; an absent
one if all the other flags were set -/
theorem kept_iff {p : Adapter H} (he : H.endian = .little) : q.Kept p ↔
    ¬q.Changed p ∨ q.check ≠ 0 ∧ q.flags = 0 ∧ q.check ≠ 0x8000 ∨ q.check = 0 ∧ q.flags = 0x7fff := by
  by_cases h : q.Changed p
  · obtain ⟨hsum, hfield⟩ := q.udpSum_sent he h
    have hadd := q.next_add
    have hzero := q.next_eq_zero
    have hflag := (q.flag_clear h).2
    have hlow := (q.skb.mem (Dhcp.flags q.skb + 1)).toNat_lt
    have hf : q.flags < 0x8000 := by
      unfold flags get16
      omega
    have hc : q.check < 0x10000 := by
      have h0 := (q.skb.mem (Dhcp.check q.skb)).toNat_lt
      have h1 := (q.skb.mem (Dhcp.check q.skb + 1)).toNat_lt
      unfold check get16
      omega
    have hchk : get16 q.skb.mem (Dhcp.check q.skb) = q.check := rfl
    unfold Kept Absent
    rw [correct_iff, correct_iff, hfield, hchk]
    rcases q.valid with hv | hv
    · obtain ⟨hne, hok⟩ := (correct_iff _).mp hv
      rw [hchk] at hne
      constructor
      · rintro ⟨hcor, -⟩
        obtain ⟨hn, hs⟩ := hcor ⟨hne, hok⟩
        have hflags : q.flags = 0 := by omega
        exact Or.inr (Or.inl ⟨hne, hflags, by omega⟩)
      · rintro (hno | ⟨-, h0, hne'⟩ | ⟨h0, -⟩)
        · exact absurd h hno
        · refine ⟨fun _ => ⟨?_, ?_⟩, fun h0' => absurd h0' hne⟩
          · omega
          · omega
        · exact absurd h0 hne
    · have h0 : q.check = 0 := hv
      constructor
      · rintro ⟨-, habs⟩
        have hn := habs h0
        exact Or.inr (Or.inr ⟨h0, by omega⟩)
      · rintro (hno | ⟨hne, -⟩ | ⟨-, h7⟩)
        · exact absurd h hno
        · exact absurd h0 hne
        · refine ⟨fun hcor => absurd h0 hcor.1, fun _ => ?_⟩
          omega
  · have hsame : p.dhcpFlagBcast q.skb = q.skb := by
      unfold Adapter.dhcpFlagBcast
      rw [if_neg]
      exact fun hr => h ⟨hr.1, q.isRequest_iff.mp hr.2⟩
    unfold Kept
    rw [hsame]
    exact iff_of_true ⟨id, id⟩ (Or.inl h)

end Request

end Dhcp

/-! ## ICMPv6 -/

/-- `csum_partial` of the `n` bytes at `a` -/
def csumPartial (m : Nat → UInt8) (a n : Nat) : Nat := words (read m a n)

/-- `csum_ipv6_magic` -/
def csumIpv6Magic (saddr daddr : List UInt8) (len proto sum : Nat) : Nat :=
  OnesSum.check (words (saddr ++ daddr) + (len / 2 ^ 16 + len % 2 ^ 16) + proto + sum)

namespace Ipv6

/-- `iph->payload_len`, which is not converted -/
def rawPayloadLen (e : Endian) (m : Nat → UInt8) : Nat := load16 e m (ethHlen + 4)

end Ipv6

open Ipv6

/-- the checksum that is put into the message -/
def icmp6Csum (e : Endian) (m : Nat → UInt8) : UInt8 × UInt8 :=
  let n := rawPayloadLen e m
  let c := csumIpv6Magic (read m (ethHlen + 8) 16) (read m (ethHlen + 24) 16) n ipprotoIcmpv6.toNat
    (csumPartial m icmp n)
  (UInt8.ofNat (c / 256), UInt8.ofNat c)

/-- the host with a little-endian processor, and the checksums of the kernel -/
def Host.little (H : Host) : Host := { H with endian := .little, icmp6Cksum := icmp6Csum .little }

namespace Ipv6

def payloadLen (s : Skb) : Nat := get16 s.mem (ethHlen + 4)

/-- the words of the message and of its pseudo header -/
def icmpSum (s : Skb) : Nat :=
  words (saddr s ++ daddr s) + payloadLen s + 58 + words (read s.mem icmp (payloadLen s))

def Correct (s : Skb) : Prop := norm (icmpSum s) = 0xffff

end Ipv6

/-- a message of neighbour discovery with a correct checksum, and the place of an address in it -/
structure NdPacket where
  skb : Skb
  ipv6 : etherType skb = ethPIpv6
  source : saddr skb ≠ List.replicate 16 0
  icmpv6 : nexthdr skb = ipprotoIcmpv6
  whole : icmp + payloadLen skb = skb.len
  correct : Ipv6.Correct skb
  opt : Nat
  found : ∃ x ∈ ndOption (skb.mem icmp), x.1 ≤ payloadLen skb ∧
    scanTlv skb.mem x.2 1 (payloadLen skb - x.1) (icmp + x.1) (payloadLen skb - x.1) = some (some opt)

namespace NdPacket

variable (q : NdPacket)

/-- the checksum is correct afterwards, and what was summed is in the packet -/
def Kept (p : Adapter H) (env : Env) : Prop :=
  ∃ r, p.nat25DbHandle env q.skb .insert = some r ∧ Ipv6.Correct r.skb ∧
    icmp + rawPayloadLen H.endian r.skb.mem ≤ r.skb.len

/-- the message with the address of the adapter, and no checksum -/
def rewritten (H : Host) : Nat → UInt8 :=
  write (write q.skb.mem q.opt H.myHwaddr.bytes) (icmp + 2) [0, 0]

/-- what the checksum covers, of `n` bytes -/
def covered (H : Host) (n : Nat) : Nat := n + words (read (q.rewritten H) icmp n)

theorem ndOption_ge {type : UInt8} {x : Nat × UInt8} (h : x ∈ ndOption type) : 8 ≤ x.1 := by
  unfold ndOption at h
  repeat' split at h
  all_goals cases h
  all_goals decide

theorem payloadLen_ge : 8 ≤ payloadLen q.skb := by
  obtain ⟨x, hx, hle, -⟩ := q.found
  exact Nat.le_trans (ndOption_ge hx) hle

theorem icmp_le_opt : icmp + 8 ≤ q.opt := by
  obtain ⟨x, hx, -, hscan⟩ := q.found
  exact Nat.le_trans (Nat.add_le_add_left (ndOption_ge hx) _) (le_scanTlv hscan)

theorem payloadLen_lt : payloadLen q.skb < 2 ^ 16 := of16_lt _ _

theorem update_eq : Ipv6.update H q.skb =
    some { q.skb with mem := setCksum H (write q.skb.mem q.opt H.myHwaddr.bytes) } := by
  obtain ⟨x, hx, hle, hscan⟩ := q.found
  have hw : 54 + payloadLen q.skb = q.skb.len := q.whole
  have hge := q.payloadLen_ge
  have hlen : q.skb.len - ethHlen - hlen = payloadLen q.skb := by
    unfold ethHlen hlen
    omega
  have hlong : q.skb.len > ethHlen + Ipv6.hlen + 4 := by
    unfold ethHlen Ipv6.hlen
    omega
  have hupd : updateNdLinkLayerAddr q.skb.mem icmp (payloadLen q.skb) H.myHwaddr =
      some (write q.skb.mem q.opt H.myHwaddr.bytes, true) := by
    unfold updateNdLinkLayerAddr
    rw [Option.mem_def.mp hx]
    dsimp only
    rw [if_pos hle, hscan]
    rfl
  unfold Ipv6.update
  rw [if_pos ⟨q.icmpv6, hlong⟩, hlen, hupd]
  rfl

theorem sent (p : Adapter H) (env : Env) : ∃ r, p.nat25DbHandle env q.skb .insert = some r ∧
    r.skb = { q.skb with mem := setCksum H (write q.skb.mem q.opt H.myHwaddr.bytes) } := by
  have hproto : protocol H q.skb = .ipv6 := by
    unfold protocol
    dsimp only
    rw [q.ipv6, if_neg (by decide), if_neg (by decide), if_neg fun h => absurd h.2 (by decide)]
    rfl
  have hw : 54 + payloadLen q.skb = q.skb.len := q.whole
  have hge := q.payloadLen_ge
  have hlt := q.payloadLen_lt
  have hm : ¬Ipv6.malformed q.skb := by
    unfold Ipv6.malformed ethHlen hlen
    omega
  refine ⟨⟨p.dbNetworkInsert env (srcAddr q.skb) (generateIpv6NetworkAddr (saddr q.skb)),
    { q.skb with mem := setCksum H (write q.skb.mem q.opt H.myHwaddr.bytes) }, 0⟩, ?_, rfl⟩
  unfold Adapter.nat25DbHandle Adapter.handleIpv6
  rw [hproto]
  dsimp only
  rw [if_neg hm, if_neg q.source, q.update_eq]
  rfl

/-- the header is not changed -/
theorem sent_low {i : Nat} (hi : i < icmp) :
    setCksum H (write q.skb.mem q.opt H.myHwaddr.bytes) i = q.skb.mem i := by
  have hopt := q.icmp_le_opt
  unfold setCksum
  rw [write_of_lt (by omega), write_of_lt (by omega), write_of_lt (by omega)]

theorem rewritten_low {i : Nat} (hi : i < icmp) : q.rewritten H i = q.skb.mem i := by
  have hopt := q.icmp_le_opt
  unfold rewritten
  rw [write_of_lt (by omega), write_of_lt (by omega)]

theorem icmpSum_congr {s : Skb} (h : ∀ i, i < icmp → s.mem i = q.skb.mem i) :
    icmpSum s = words (saddr q.skb ++ daddr q.skb) + payloadLen q.skb + 58 +
      words (read s.mem icmp (payloadLen q.skb)) := by
  have hsaddr : saddr s = saddr q.skb := read_congr fun i _ hi => h i (Nat.lt_of_lt_of_le hi (by decide))
  have hdaddr : daddr s = daddr q.skb := read_congr fun i _ hi => h i (Nat.lt_of_lt_of_le hi (by decide))
  have hlen : payloadLen s = payloadLen q.skb :=
    get16_congr (read_congr fun i _ hi => h i (Nat.lt_of_lt_of_le hi (by decide)))
  unfold icmpSum
  rw [hsaddr, hdaddr, hlen]

theorem rawPayloadLen_congr {m : Nat → UInt8} (h : ∀ i, i < icmp → m i = q.skb.mem i) :
    rawPayloadLen .little m = rawPayloadLen .little q.skb.mem := by
  unfold rawPayloadLen
  rw [load16_little, load16_little, h _ (by decide), h _ (by decide)]

theorem rawPayloadLen_lt : rawPayloadLen .little q.skb.mem < 2 ^ 16 := by
  have h0 := (q.skb.mem (ethHlen + 4)).toNat_lt
  have h1 := (q.skb.mem (ethHlen + 4 + 1)).toNat_lt
  show (q.skb.mem (ethHlen + 4)).toNat + 256 * (q.skb.mem (ethHlen + 4 + 1)).toNat < _
  omega

/-- the checksum field is 0 while the sum is taken -/
theorem rewritten_check : get16 (q.rewritten H) (icmp + 2) = 0 := by
  have hpair : read (q.rewritten H) (icmp + 2) 2 = [0, 0] := read_write_self rfl
  exact congrArg₂ of16 (List.head_eq_of_cons_eq hpair) (List.head_eq_of_cons_eq (List.cons.inj hpair).2)

/-- the sum that the checksum is taken of -/
def taken (H : Host) : Nat :=
  let n := rawPayloadLen .little q.skb.mem
  words (saddr q.skb ++ daddr q.skb) + (n / 2 ^ 16 + n % 2 ^ 16) + 58 + words (read (q.rewritten H) icmp n)

/-- the checksum is put into the packet -/
theorem sent_mem : setCksum H.little (write q.skb.mem q.opt H.myHwaddr.bytes)
    = write (q.rewritten H) (icmp + 2)
      [UInt8.ofNat (OnesSum.check (q.taken H) / 256), UInt8.ofNat (OnesSum.check (q.taken H))] := by
  have h1 : read (q.rewritten H) (ethHlen + 8) 16 = saddr q.skb :=
    read_congr fun i _ hi => q.rewritten_low (Nat.lt_of_lt_of_le hi (by decide))
  have h2 : read (q.rewritten H) (ethHlen + 24) 16 = daddr q.skb :=
    read_congr fun i _ hi => q.rewritten_low (Nat.lt_of_lt_of_le hi (by decide))
  have hn : rawPayloadLen .little (q.rewritten H) = rawPayloadLen .little q.skb.mem :=
    q.rawPayloadLen_congr fun i hi => q.rewritten_low hi
  show write (q.rewritten H) (icmp + 2)
    [(icmp6Csum .little (q.rewritten H)).1, (icmp6Csum .little (q.rewritten H)).2] = _
  unfold icmp6Csum csumIpv6Magic csumPartial taken
  rw [hn, h1, h2]
  rfl

/-- the payload with its checksum -/
theorem sent_words :
    words (read (setCksum H.little (write q.skb.mem q.opt H.myHwaddr.bytes)) icmp (payloadLen q.skb))
    = words (read (q.rewritten H) icmp (payloadLen q.skb)) + OnesSum.check (q.taken H) := by
  have hw := words_read_write (m := q.rewritten H) (a := icmp) (k := 2)
    (x := UInt8.ofNat (OnesSum.check (q.taken H) / 256)) (y := UInt8.ofNat (OnesSum.check (q.taken H)))
    (by decide) (Nat.le_trans (by decide) q.payloadLen_ge)
  have hmod : OnesSum.check (q.taken H) % 2 ^ 16 = OnesSum.check (q.taken H) := Nat.mod_eq_of_lt (check_lt _)
  rw [q.rewritten_check, of16_bytes, hmod] at hw
  rw [q.sent_mem]
  exact hw

/-- the checksum is correct when as much was covered as there is -/
theorem correct_sent {s : Skb} (hs : s.mem = setCksum H.little (write q.skb.mem q.opt H.myHwaddr.bytes))
    (hlow : ∀ i, i < icmp → s.mem i = q.skb.mem i) :
    Ipv6.Correct s ↔ q.covered H (payloadLen q.skb) % 65535
      = q.covered H (rawPayloadLen .little q.skb.mem) % 65535 := by
  have hadd := check_add (q.taken H)
  have hn := q.rawPayloadLen_lt
  unfold Ipv6.Correct covered
  rw [q.icmpSum_congr hlow, hs, q.sent_words, norm_eq_max (by omega)]
  unfold taken at hadd ⊢
  dsimp only at hadd ⊢
  omega

/-- **neighbour discovery**: the length with its bytes the other way round must not be larger, and
cover as much -/
theorem kept_iff (p : Adapter H.little) (env : Env) : q.Kept p env ↔
    rawPayloadLen .little q.skb.mem ≤ payloadLen q.skb ∧
      q.covered H (payloadLen q.skb) % 65535 = q.covered H (rawPayloadLen .little q.skb.mem) % 65535 := by
  obtain ⟨r, hr, hskb⟩ := q.sent p env
  have hmem : r.skb.mem = setCksum H.little (write q.skb.mem q.opt H.myHwaddr.bytes) := by
    rw [hskb]
    rfl
  have hlow : ∀ i, i < icmp → r.skb.mem i = q.skb.mem i := by
    intro i hi
    rw [hskb]
    exact q.sent_low hi
  have hcount : rawPayloadLen H.little.endian r.skb.mem = rawPayloadLen .little q.skb.mem :=
    q.rawPayloadLen_congr hlow
  have hlen : r.skb.len = q.skb.len := by rw [hskb]
  have hok := q.correct_sent hmem hlow
  have hfit : icmp + rawPayloadLen H.little.endian r.skb.mem ≤ r.skb.len
      ↔ rawPayloadLen .little q.skb.mem ≤ payloadLen q.skb := by
    rw [hcount, hlen, ← q.whole]
    exact Nat.add_le_add_iff_left
  constructor
  · rintro ⟨r', hr', hcor, hle⟩
    cases hr.symm.trans hr'
    exact ⟨hfit.mp hle, hok.mp hcor⟩
  · rintro ⟨hle, hcov⟩
    exact ⟨r, hr, hok.mpr hcov, hfit.mpr hle⟩

end NdPacket

end Nat25

open Pppoe Nat25

/-- **the checksums of a rewritten packet** on a little-endian host -/
theorem bridgeCsum_iff (H : Host) (p : Adapter H.little) (env : Env) (q : Dhcp.Request) (d : NdPacket) :
    (q.Kept p ↔
      ¬q.Changed p ∨ q.check ≠ 0 ∧ q.flags = 0 ∧ q.check ≠ 0x8000 ∨ q.check = 0 ∧ q.flags = 0x7fff) ∧
    (d.Kept p env ↔
      Ipv6.rawPayloadLen .little d.skb.mem ≤ Ipv6.payloadLen d.skb ∧
        d.covered H (Ipv6.payloadLen d.skb) % 65535 =
          d.covered H (Ipv6.rawPayloadLen .little d.skb.mem) % 65535) :=
  ⟨q.kept_iff rfl, d.kept_iff p env⟩

namespace Nat25

/-- a discover message of 249 bytes without flags and without a checksum -/
def discover : Dhcp.Request where
  skb := ⟨write (write emptyMem 12 ([0x08, 0, 0x45] ++ List.replicate 8 0 ++ [17] ++ List.replicate 10 0
    ++ [0, 68, 0, 67, 0, 249])) 278 [0x63, 0x82, 0x53, 0x63, 0xff], 283, 0⟩
  ip := by decide
  header := by decide
  udp := by decide
  source := by decide
  dest := by decide
  magic := by decide
  holds := by decide
  whole := by decide
  valid := Or.inr (by unfold Dhcp.Absent; decide)

/-- a neighbour solicitation of 32 bytes -/
def ask : NdPacket where
  skb := ⟨write emptyMem 12 ([0x86, 0xdd, 0x60, 0, 0, 0, 0, 32, 58, 255]
    ++ ([0xfe, 0x80] ++ List.replicate 13 0 ++ [1]) ++ ([0xfe, 0x80] ++ List.replicate 13 0 ++ [2])
    ++ ([135, 0, 0x7a, 0x1b, 0, 0, 0, 0] ++ ([0xfe, 0x80] ++ List.replicate 13 0 ++ [2])
    ++ [1, 1, 2, 0, 0, 0, 0, 1])), 86, 0⟩
  ipv6 := by decide
  source := by decide
  icmpv6 := by decide
  whole := by decide
  correct := by unfold Ipv6.Correct; decide
  opt := 80
  found := ⟨(24, 1), by decide⟩

def bridging : Adapter station.little where
  jiffies := 0

end Nat25

/-- an absent checksum becomes one that is wrong, and 8192 bytes are summed for a message of 32 -/
theorem bridgeCsum_bad : ¬discover.Kept bridging ∧ ¬ask.Kept bridging {} := by
  constructor
  · intro h
    exact absurd ((discover.kept_iff rfl).mp h) (by unfold Dhcp.Request.Changed; decide)
  · intro h
    exact absurd ((ask.kept_iff (H := station) _ _).mp h).1 (by decide)

end Rtl8192eu
