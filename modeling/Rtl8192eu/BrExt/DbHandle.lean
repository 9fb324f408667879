import Rtl8192eu.Lib.HashChain
import Rtl8192eu.Lib.Mem
import Rtl8192eu.BrExt.Nat25
import Rtl8192eu.BrExt.Pppoe

/-!
# `nat25_db_handle` on the bytes of a packet

The handler looks into the packet behind `skb->data`, an Ethernet frame without a VLAN tag.

* `Adapter`, `dbNetworkInsert`, `dbNetworkLookupAndReplace`   the database for all network addresses;
* `handleIp`, `handleArp`, `handleIpx`, `handlePppoe`, `handleIpv6`   one function for each protocol;
* `nat25DbHandle`   the choice of the protocol.
-/

namespace Rtl8192eu

open Mem HashChain

namespace Nat25

open Pppoe hiding BrExt
open BrExt (nat25HashSize nat25AgeingTime Method)

/-! ## network addresses -/

/-- an address of `ETH_ALEN` bytes -/
structure EthAddr where
  bytes : List UInt8
  length_eq : bytes.length = ethAlen
  deriving DecidableEq

namespace EthAddr

/-- the address at `a` -/
def readAt (m : Nat → UInt8) (a : Nat) : EthAddr := ⟨read m a ethAlen, length_read⟩

def zero : EthAddr := ⟨List.replicate 6 0, rfl⟩
def bcast : EthAddr := ⟨List.replicate 6 0xff, rfl⟩

end EthAddr

def maxNetworkAddrLen : Nat := 17

def nat25Ipv4 : UInt8 := 1
def nat25Ipv6 : UInt8 := 2
def nat25Ipx : UInt8 := 3
def nat25Apple : UInt8 := 4
def nat25Pppoe : UInt8 := 5

/-- `networkAddr`: the bytes `l`, and zeros behind them -/
def networkAddr (l : List UInt8) : List UInt8 :=
  (l ++ List.replicate maxNetworkAddrLen 0).take maxNetworkAddrLen

def generateIpv4NetworkAddr (ip : List UInt8) : List UInt8 :=
  networkAddr ([nat25Ipv4] ++ List.replicate 6 0 ++ ip)

def generateIpxNetworkAddrWithNode (net node : List UInt8) : List UInt8 :=
  networkAddr ([nat25Ipx] ++ net ++ node)

def generateIpxNetworkAddrWithSocket (net sock : List UInt8) : List UInt8 :=
  networkAddr ([nat25Ipx] ++ net ++ sock)

def generateAppleNetworkAddr (network node : List UInt8) : List UInt8 :=
  networkAddr ([nat25Apple] ++ network ++ node)

def generatePppoeNetworkAddr (acMac sid : List UInt8) : List UInt8 :=
  networkAddr ([nat25Pppoe] ++ sid ++ acMac)

def generateIpv6NetworkAddr (ip : List UInt8) : List UInt8 := networkAddr ([nat25Ipv6] ++ ip)

/-- the bytes that `__nat25_network_hash` looks at; `ipx`: the kernel has IPX -/
def hashBytes (ipx : Bool) (k : List UInt8) : List UInt8 :=
  let type := k.headD 0
  if type = nat25Ipv4 then (k.drop 7).take 4
  else if ipx ∧ type = nat25Ipx then (k.drop 1).take 10
  else if ipx ∧ type = nat25Apple then (k.drop 1).take 3
  else if type = nat25Pppoe then k.take 9
  else if type = nat25Ipv6 then (k.drop 1).take 16
  else k

/-- `__nat25_network_hash` -/
def networkHash (ipx : Bool) (k : List UInt8) : Fin nat25HashSize :=
  ⟨((hashBytes ipx k).foldl (· ^^^ ·) 0).toNat % nat25HashSize, Nat.mod_lt _ (by decide)⟩

/-! ## the adapter -/

/-- what the driver is on -/
structure Host where
  hz : Nat
  /-- the bits of an `unsigned long` -/
  longBits : Nat
  endian : Endian
  /-- the kernel is older than 5.15 and has `net/ipx.h` -/
  ipx : Bool
  myHwaddr : EthAddr
  /-- the device of the bridge, if it is found by its name -/
  brNetdev : Option EthAddr
  /-- `csum_ipv6_magic` of the ICMPv6 message in a packet -/
  icmp6Cksum : (Nat → UInt8) → UInt8 × UInt8

/-- what the kernel answers during a call, and what is on the stack -/
structure Env where
  /-- `rtw_malloc` gives memory -/
  malloc : Bool := true
  /-- what is in `tag_buf` and behind it -/
  stack : Nat → UInt8 := emptyMem

/-- `struct nat25_network_db_entry` -/
structure Entry (H : Host) where
  macAddr : EthAddr
  useCount : BitVec 32
  ageingTimer : BitVec H.longBits

/-- `_adapter`; an entry of the table is named by its network address -/
structure Adapter (H : Host) where
  nethash : Table (networkHash H.ipx) (Entry H) := .empty
  scdbMac : EthAddr := .zero
  scdbIp : List UInt8 := List.replicate 4 0
  scdbEntry : Option (List UInt8) := none
  brMac : EthAddr := .zero
  brIp : List UInt8 := List.replicate 4 0
  addPPPoETag : Bool := true
  pppoeConnectionInProgress : Nat := 0
  pppoeAddr : EthAddr := .zero
  nat25Disable : Bool := false
  nat25scDisable : Bool := false
  dhcpBcstDisable : Bool := false
  jiffies : BitVec H.longBits

/-- a packet and a result, with the adapter -/
structure Out (H : Host) where
  priv : Adapter H
  skb : Skb
  ret : Int

variable {H : Host}

namespace Adapter

/-- `__nat25_timeout` -/
def timeout (p : Adapter H) : BitVec H.longBits :=
  p.jiffies - BitVec.ofNat H.longBits (nat25AgeingTime * H.hz)

/-- `__nat25_has_expired`: `time_before_eq` -/
def hasExpired (p : Adapter H) (e : Entry H) : Bool := decide (0 ≤ (p.timeout - e.ageingTimer).toInt)

/-- `ageing_timer = jiffies` -/
def refresh (p : Adapter H) (k : List UInt8) : Adapter H :=
  { p with nethash := p.nethash.modify k fun e => { e with ageingTimer := p.jiffies } }

/-- `__nat25_db_network_insert` -/
def dbNetworkInsert (p : Adapter H) (env : Env) (mac : EthAddr) (k : List UInt8) : Adapter H :=
  if (p.nethash.get k).isNone ∧ env.malloc = false then p
  else
    { p with
      nethash := p.nethash.upsert k
        (fun e => { e with macAddr := mac, ageingTimer := p.jiffies }) ⟨mac, 1, p.jiffies⟩ }

/-- `__nat25_db_network_lookup_and_replace`: the result is 1 also for an entry that has expired -/
def dbNetworkLookupAndReplace (p : Adapter H) (s : Skb) (k : List UInt8) : Out H :=
  match p.nethash.get k with
  | none => ⟨p, s, 0⟩
  | some e =>
    if p.hasExpired e then ⟨p, s, 1⟩
    else
      ⟨{ p with nethash := p.nethash.modify k fun e => { e with useCount := e.useCount + 1 } },
        { s with mem := write s.mem 0 e.macAddr.bytes }, 1⟩

/-- `netdev_br_init` -/
def netdevBrInit (p : Adapter H) : Adapter H := { p with brMac := H.brNetdev.getD p.brMac }

end Adapter

/-! ## IPv4 and ARP -/

def ethPIp : Nat := 0x0800
def ethPArp : Nat := 0x0806
def ethP8021Q : Nat := 0x8100
def ethPAtalk : Nat := 0x809B
def ethPAarp : Nat := 0x80F3
def ethPIpx : Nat := 0x8137
def ethPIpv6 : Nat := 0x86DD
def ethPPppDisc : Nat := 0x8863
def ethPPppSes : Nat := 0x8864

/-- the type field, without a tag in front of it -/
def etherType (s : Skb) : Nat := get16 s.mem (2 * ethAlen)

/-- the source address -/
def srcAddr (s : Skb) : EthAddr := .readAt s.mem ethAlen

def setDa (s : Skb) (a : EthAddr) : Skb := { s with mem := write s.mem 0 a.bytes }

namespace Ip

/-- the length of the header, in words -/
def ihl (s : Skb) : Nat := (s.mem ethHlen).toNat % 16
def saddr (s : Skb) : List UInt8 := read s.mem (ethHlen + 12) 4
def daddr (s : Skb) : List UInt8 := read s.mem (ethHlen + 16) 4

/-- `malformed IP packet` -/
def malformed (s : Skb) : Prop := s.len ≤ 4 * ihl s

instance (s : Skb) : Decidable (malformed s) := inferInstanceAs (Decidable (_ ≤ _))

end Ip

/-- the lookup has not found the address -/
def Adapter.replaceUnknown (p : Adapter H) (s : Skb) : Out H :=
  if (Ip.daddr s).getLast? = some 0xff then ⟨p, setDa s .bcast, 0⟩
  else
    let p := if p.brMac = .zero then p.netdevBrInit else p
    ⟨p, setDa s p.brMac, 0⟩

def Adapter.handleIp (p : Adapter H) (env : Env) (s : Skb) (method : Method) : Out H :=
  if Ip.malformed s then ⟨p, s, -1⟩
  else
    match method with
    | .check => ⟨p, s, -1⟩
    | .insert =>
      if Ip.saddr s = List.replicate 4 0 then ⟨p, s, 0⟩
      else ⟨p.dbNetworkInsert env (srcAddr s) (generateIpv4NetworkAddr (Ip.saddr s)), s, 0⟩
    | .lookup =>
      let r := p.dbNetworkLookupAndReplace s (generateIpv4NetworkAddr (Ip.daddr s))
      if r.ret = 0 then r.priv.replaceUnknown r.skb else { r with ret := 0 }

namespace Arp

def arPro (s : Skb) : Nat := get16 s.mem (ethHlen + 2)
def arHln (s : Skb) : Nat := (s.mem (ethHlen + 4)).toNat
def arPln (s : Skb) : Nat := (s.mem (ethHlen + 5)).toNat
/-- `arp_ptr` -/
def ptr : Nat := ethHlen + 8

end Arp

def Adapter.handleArp (p : Adapter H) (env : Env) (s : Skb) (method : Method) : Out H :=
  if Arp.arPro s ≠ ethPIp then ⟨p, s, -1⟩
  else
    match method with
    | .check => ⟨p, s, 0⟩
    | .insert =>
      let m := write s.mem Arp.ptr H.myHwaddr.bytes
      let sender := read m (Arp.ptr + Arp.arHln s) 4
      ⟨p.dbNetworkInsert env (srcAddr s) (generateIpv4NetworkAddr sender), { s with mem := m }, 0⟩
    | .lookup =>
      let hw := Arp.ptr + (Arp.arHln s + Arp.arPln s)
      let target := read s.mem (Arp.ptr + Arp.arHln s + (Arp.arHln s + Arp.arPln s)) 4
      let r := p.dbNetworkLookupAndReplace s (generateIpv4NetworkAddr target)
      ⟨r.priv, { r.skb with mem := write r.skb.mem hw (read r.skb.mem 0 ethAlen) }, 0⟩

/-! ## IPX and AppleTalk -/

/-- the header that was found, and where it is -/
inductive IpxPtr where
  | ipx (a : Nat)
  | ea (a : Nat)
  | ddp (a : Nat)
  deriving DecidableEq

def ipxHeader : List UInt8 := [0xFF, 0xFF]
def ipx8022Type : UInt8 := 0xE0
def snap8022Type : UInt8 := 0xAA
def ipxSnapId : List UInt8 := [0x00, 0x00, 0x00, 0x81, 0x37]
def aarpSnapId : List UInt8 := [0x00, 0x00, 0x00, 0x80, 0xF3]
def ddpSnapId : List UInt8 := [0x08, 0x00, 0x07, 0x80, 0x9B]

/-- `none` for the frames that get -1 -/
def findIpxPtr (s : Skb) : Option IpxPtr :=
  let framePtr := ethHlen
  if etherType s = ethPIpx then some (.ipx framePtr)
  else if read s.mem framePtr 2 = ipxHeader then some (.ipx framePtr)
  else if s.mem framePtr = snap8022Type then
    let framePtr := framePtr + 3
    if read s.mem framePtr 5 = ipxSnapId then some (.ipx (framePtr + 5))
    else if read s.mem framePtr 5 = aarpSnapId then some (.ea (framePtr + 5))
    else if read s.mem framePtr 5 = ddpSnapId then some (.ddp (framePtr + 5))
    else none
  else if s.mem framePtr = ipx8022Type then
    let framePtr := framePtr + 3
    if read s.mem framePtr 2 = ipxHeader then some (.ipx framePtr) else none
  else none

/-- `struct ipxhdr` at `a` -/
structure IpxHdr where
  destNet : List UInt8
  destNode : EthAddr
  destSock : List UInt8
  sourceNet : List UInt8
  sourceNode : EthAddr
  sourceSock : List UInt8

def ipxDestNode (a : Nat) : Nat := a + 10
def ipxSourceNode (a : Nat) : Nat := a + 22

def ipxHdr (s : Skb) (a : Nat) : IpxHdr where
  destNet := read s.mem (a + 6) 4
  destNode := .readAt s.mem (ipxDestNode a)
  destSock := read s.mem (a + 16) 2
  sourceNet := read s.mem (a + 18) 4
  sourceNode := .readAt s.mem (ipxSourceNode a)
  sourceSock := read s.mem (a + 28) 2

def Adapter.handleIpxHdr (p : Adapter H) (env : Env) (s : Skb) (a : Nat) (method : Method) : Out H :=
  let ipx := ipxHdr s a
  match method with
  | .check => if srcAddr s = ipx.sourceNode then ⟨p, s, 0⟩ else ⟨p, s, -1⟩
  | .insert =>
    if srcAddr s = ipx.sourceNode then
      ⟨p.dbNetworkInsert env (srcAddr s) (generateIpxNetworkAddrWithSocket ipx.sourceNet ipx.sourceSock),
        { s with mem := write s.mem (ipxSourceNode a) H.myHwaddr.bytes }, 0⟩
    else
      ⟨p.dbNetworkInsert env (srcAddr s)
        (generateIpxNetworkAddrWithNode ipx.sourceNet ipx.sourceNode.bytes), s, 0⟩
  | .lookup =>
    if H.myHwaddr = ipx.destNode then
      let r := p.dbNetworkLookupAndReplace s
        (generateIpxNetworkAddrWithSocket ipx.destNet ipx.destSock)
      ⟨r.priv, { r.skb with mem := write r.skb.mem (ipxDestNode a) (read r.skb.mem 0 ethAlen) }, 0⟩
    else
      { p.dbNetworkLookupAndReplace s
          (generateIpxNetworkAddrWithNode ipx.destNet ipx.destNode.bytes) with ret := 0 }

def aarpPaAlen : Nat := 4

/-- `hw_len` and `pa_len` are those of `struct elapaarp` -/
def aarpSane (s : Skb) (a : Nat) : Prop :=
  (s.mem (a + 4)).toNat = ethAlen ∧ (s.mem (a + 5)).toNat = aarpPaAlen

instance (s : Skb) (a : Nat) : Decidable (aarpSane s a) := inferInstanceAs (Decidable (_ ∧ _))

def aarpHwSrc (a : Nat) : Nat := a + 8
def aarpHwDst (a : Nat) : Nat := a + 18

def Adapter.handleAarp (p : Adapter H) (env : Env) (s : Skb) (a : Nat) (method : Method) : Out H :=
  if aarpSane s a then
    match method with
    | .check => ⟨p, s, 0⟩
    | .insert =>
      let k := generateAppleNetworkAddr (read s.mem (a + 15) 2) (read s.mem (a + 17) 1)
      ⟨p.dbNetworkInsert env (srcAddr s) k,
        { s with mem := write s.mem (aarpHwSrc a) H.myHwaddr.bytes }, 0⟩
    | .lookup =>
      let r := p.dbNetworkLookupAndReplace s
        (generateAppleNetworkAddr (read s.mem (a + 25) 2) (read s.mem (a + 27) 1))
      ⟨r.priv, { r.skb with mem := write r.skb.mem (aarpHwDst a) (read r.skb.mem 0 ethAlen) }, 0⟩
  else ⟨p, s, -1⟩

/-- `struct ddpehdr` at `a` -/
def Adapter.handleDdp (p : Adapter H) (env : Env) (s : Skb) (a : Nat) (method : Method) : Out H :=
  match method with
  | .check => ⟨p, s, -1⟩
  | .insert =>
    ⟨p.dbNetworkInsert env (srcAddr s)
      (generateAppleNetworkAddr (read s.mem (a + 6) 2) (read s.mem (a + 9) 1)), s, 0⟩
  | .lookup =>
    { p.dbNetworkLookupAndReplace s
        (generateAppleNetworkAddr (read s.mem (a + 4) 2) (read s.mem (a + 8) 1)) with ret := 0 }

def Adapter.handleIpx (p : Adapter H) (env : Env) (s : Skb) (method : Method) : Out H :=
  match findIpxPtr s with
  | none => ⟨p, s, -1⟩
  | some (.ipx a) => p.handleIpxHdr env s a method
  | some (.ea a) => p.handleAarp env s a method
  | some (.ddp a) => p.handleDdp env s a method

/-! ## PPPoE -/

/-- the part of the adapter for discovery -/
def Adapter.ext (p : Adapter H) : Pppoe.BrExt :=
  ⟨p.addPPPoETag, p.pppoeConnectionInProgress, p.pppoeAddr.bytes⟩

theorem length_dbHandleInsert (e : Endian) (stack : Nat → UInt8) (x : Pppoe.BrExt) (s : Skb)
    (h : x.pppoeAddr.length = ethAlen) :
    (dbHandleInsert e stack x s).1.pppoeAddr.length = ethAlen := by
  unfold dbHandleInsert
  split
  · split
    · exact h
    · dsimp only
      split
      · exact h
      · dsimp only
        split
        · exact length_read
        · exact h
  · exact h

theorem length_dbHandleLookup (x : Pppoe.BrExt) (s : Skb) (h : x.pppoeAddr.length = ethAlen) :
    (dbHandleLookup x s).1.pppoeAddr.length = ethAlen := by
  unfold dbHandleLookup
  split
  · split
    · exact h
    · split
      · exact h
      · exact h
  · exact h

def Adapter.setExt (p : Adapter H) (x : Pppoe.BrExt) (h : x.pppoeAddr.length = ethAlen) : Adapter H :=
  { p with
    addPPPoETag := x.addPPPoETag
    pppoeConnectionInProgress := x.connectionInProgress
    pppoeAddr := ⟨x.pppoeAddr, h⟩ }

/-- the session phase -/
def Adapter.insertSession (p : Adapter H) (env : Env) (s : Skb) : Adapter H :=
  let k := generatePppoeNetworkAddr (read s.mem 0 ethAlen) (read s.mem (ethHlen + 2) 2)
  let p := p.dbNetworkInsert env (srcAddr s) k
  if p.addPPPoETag = false ∧ p.pppoeConnectionInProgress ≠ 0 ∧ srcAddr s = p.pppoeAddr then
    { p with pppoeConnectionInProgress := 0 }
  else p

def Adapter.handlePppoe (p : Adapter H) (env : Env) (s : Skb) (method : Method) : Out H :=
  match method with
  | .check => if s.sid = 0 then ⟨p, s, 0⟩ else ⟨p, s, 1⟩
  | .insert =>
    if s.sid = 0 then
      let r := dbHandleInsert H.endian env.stack p.ext s
      ⟨p.setExt r.1 (length_dbHandleInsert _ _ _ _ p.pppoeAddr.length_eq), r.2.1, r.2.2⟩
    else ⟨p.insertSession env s, s, 0⟩
  | .lookup =>
    if s.code = padoCode ∨ s.code = padsCode then
      let r := dbHandleLookup p.ext s
      ⟨p.setExt r.1 (length_dbHandleLookup _ _ p.pppoeAddr.length_eq), r.2.1, r.2.2⟩
    else if s.sid ≠ 0 then
      { p.dbNetworkLookupAndReplace s
          (generatePppoeNetworkAddr (srcAddr s).bytes (read s.mem (ethHlen + 2) 2)) with ret := 0 }
    else ⟨p, s, -1⟩

/-! ## IPv6 -/

namespace Ipv6

/-- `sizeof(struct ipv6hdr)` -/
def hlen : Nat := 40
def nexthdr (s : Skb) : UInt8 := s.mem (ethHlen + 6)
def saddr (s : Skb) : List UInt8 := read s.mem (ethHlen + 8) 16
def daddr (s : Skb) : List UInt8 := read s.mem (ethHlen + 24) 16

/-- `malformed IPv6 packet`; the difference is taken modulo 2^32 -/
def malformed (s : Skb) : Prop := (s.len + 2 ^ 32 - ethHlen) % 2 ^ 32 ≤ hlen

instance (s : Skb) : Decidable (malformed s) := inferInstanceAs (Decidable (_ ≤ _))

def ipprotoIcmpv6 : UInt8 := 58

/-- `scan_tlv` of the `len` bytes at `a`: where the value begins.  An option of no length is looked
at again and again, which is `none`; each other one takes eight bytes at least. -/
def scanTlv (m : Nat → UInt8) (tag len8b : UInt8) : Nat → Nat → Nat → Option (Option Nat)
  | 0, _, _ => some none
  | n + 1, a, len =>
    if len = 0 then some none
    else if m a = tag ∧ m (a + 1) = len8b ∧ len8b.toNat * 8 ≤ len then some (some (a + 2))
    else if m (a + 1) = 0 then none
    else scanTlv m tag len8b n (a + (m (a + 1)).toNat * 8) (len - (m (a + 1)).toNat * 8)

/-- the size of the header of a neighbour discovery message, and the option with the address -/
def ndOption (type : UInt8) : Option (Nat × UInt8) :=
  if type = 133 then some (8, 1)
  else if type = 134 then some (16, 1)
  else if type = 135 then some (24, 1)
  else if type = 136 then some (24, 2)
  else if type = 137 then some (40, 2)
  else none

/-- `update_nd_link_layer_addr` of the `len` bytes at `a`; whether there was an address -/
def updateNdLinkLayerAddr (m : Nat → UInt8) (a len : Nat) (mac : EthAddr) :
    Option ((Nat → UInt8) × Bool) :=
  match ndOption (m a) with
  | none => some (m, false)
  | some (n, tag) =>
    if n ≤ len then
      (scanTlv m tag 1 (len - n) (a + n) (len - n)).map fun x =>
        match x with
        | none => (m, false)
        | some i => (write m i mac.bytes, true)
    else some (m, false)

/-- where the message begins -/
def icmp : Nat := ethHlen + hlen

/-- the checksum of the message -/
def setCksum (H : Host) (m : Nat → UInt8) : Nat → UInt8 :=
  let m := write m (icmp + 2) [0, 0]
  let c := H.icmp6Cksum m
  write m (icmp + 2) [c.1, c.2]

/-- the source address is noted, and replaced in a message of neighbour discovery -/
def update (H : Host) (s : Skb) : Option Skb :=
  if nexthdr s = ipprotoIcmpv6 ∧ s.len > ethHlen + hlen + 4 then
    (updateNdLinkLayerAddr s.mem icmp (s.len - ethHlen - hlen) H.myHwaddr).map fun r =>
      if r.2 then { s with mem := setCksum H r.1 } else { s with mem := r.1 }
  else some s

end Ipv6

def Adapter.handleIpv6 (p : Adapter H) (env : Env) (s : Skb) (method : Method) : Option (Out H) :=
  if Ipv6.malformed s then some ⟨p, s, -1⟩
  else
    match method with
    | .check => some ⟨p, s, if s.mem 0 &&& 1 ≠ 0 then 0 else -1⟩
    | .insert =>
      if Ipv6.saddr s = List.replicate 16 0 then some ⟨p, s, 0⟩
      else
        (Ipv6.update H s).map fun s' =>
          ⟨p.dbNetworkInsert env (srcAddr s) (generateIpv6NetworkAddr (Ipv6.saddr s)), s', 0⟩
    | .lookup =>
      some { p.dbNetworkLookupAndReplace s (generateIpv6NetworkAddr (Ipv6.daddr s)) with ret := 0 }

/-! ## the handler -/

/-- EAP and C-Media frames -/
def Adapter.handlePassed (p : Adapter H) (s : Skb) (method : Method) : Out H :=
  match method with
  | .check => ⟨p, s, -1⟩
  | .insert => ⟨p, s, 0⟩
  | .lookup => ⟨p, s, 0⟩

/-- the branches of the handler -/
inductive Protocol where
  | ip
  | arp
  | ipx
  | pppoe
  | passed
  | ipv6
  | other
  deriving DecidableEq

def protocol (H : Host) (s : Skb) : Protocol :=
  let protocol := etherType s
  if protocol = ethPIp then .ip
  else if protocol = ethPArp then .arp
  else if H.ipx ∧ (protocol = ethPIpx ∨ protocol = ethPAtalk ∨ protocol = ethPAarp) then .ipx
  else if protocol = ethPPppDisc ∨ protocol = ethPPppSes then .pppoe
  else if protocol = 0x888e then .passed
  else if protocol = 0xe2ae ∨ protocol = 0xe2af then .passed
  else if protocol = ethPIpv6 then .ipv6
  else .other

/-- `nat25_db_handle`; `none` for a call that does not come back -/
def Adapter.nat25DbHandle (p : Adapter H) (env : Env) (s : Skb) (method : Method) : Option (Out H) :=
  match protocol H s with
  | .ip => some (p.handleIp env s method)
  | .arp => some (p.handleArp env s method)
  | .ipx => some (p.handleIpx env s method)
  | .pppoe => some (p.handlePppoe env s method)
  | .passed => some (p.handlePassed s method)
  | .ipv6 => p.handleIpv6 env s method
  | .other => some ⟨p, s, -1⟩

end Nat25

end Rtl8192eu
