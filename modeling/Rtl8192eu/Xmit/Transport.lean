import Mathlib.Data.UInt
import Rtl8192eu.Cmd.SessionTracker
import Rtl8192eu.Xmit.Attrib
import Rtl8192eu.Xmit.PktFile

/-!
# The transport header of a frame to send

`update_attrib` of `core/rtw_xmit.c` reads the IP header of a frame, moves its cursor over the
options, and reads the UDP or the TCP header.  The three headers are arrays on the stack, with
whatever was there before.

* `updateAttribIp`   the flags of the attributes, and what the session tracker is told;
* `headers_plain`   without options, the headers that are read are those of the packet;
* `headers_options`   with options the cursor stands at the end: nothing is read;
* `classified_iff`   when the flags and the TCP header are right.
-/

namespace Rtl8192eu

open Mem

/-- the bytes of an Ethernet frame -/
def EthFrame.bytes (eth : EthFrame) : List UInt8 :=
  eth.dst ++ eth.src ++ be16Bytes eth.etherType ++ eth.payload

/-- `ip`, `udp` and `tcp`, before they are read -/
structure TxStack where
  ip : Nat → UInt8
  udp : Nat → UInt8
  tcp : Nat → UInt8

def getUdpSrc (udp : Nat → UInt8) : Nat := 256 * (udp 0).toNat + (udp 1).toNat
def getUdpDst (udp : Nat → UInt8) : Nat := 256 * (udp 2).toNat + (udp 3).toNat
def getUdpSig1 (udp : Nat → UInt8) : Nat := (udp 8).toNat
def getUdpSig2 (udp : Nat → UInt8) : Nat := (udp 23).toNat

def minimumDhcpPacketSize : Nat := 282

/-- from or to a BOOTP client -/
def dhcpPorts (udp : Nat → UInt8) : Prop :=
  (getUdpSrc udp = 68 ∧ getUdpDst udp = 67) ∨ (getUdpSrc udp = 67 ∧ getUdpDst udp = 68)

instance (udp : Nat → UInt8) : Decidable (dhcpPorts udp) :=
  inferInstanceAs (Decidable ((_ ∧ _) ∨ (_ ∧ _)))

structure IpAttrib where
  icmpPkt : Bool := false
  dhcpPkt : Bool := false
  hipriorityPkt : Bool := false
  /-- `tcp`, when the tracker looks at it -/
  tcp : Option (Nat → UInt8) := none
  cmds : List StCmd := []

/-- the IP header, and the cursor behind the options -/
def readIpHeader (ip : Nat → UInt8) (f : PktFile) : (Nat → UInt8) × PktFile :=
  let hdr := rtwPktfileRead f 20
  let ip := write ip 0 hdr.1
  (ip, if getIpv4Ihl ip * 4 > 20 then rtwPktfileSkip hdr.2 (toUint ((getIpv4Ihl ip : Int) - 20)) else hdr.2)

/-- by the protocol; `f` stands behind the IP header -/
def transportAttrib (c : StCtl) (stk : TxStack) (pktlen : Nat) (ip : Nat → UInt8) (f : PktFile) :
    IpAttrib :=
  if getIpv4Protocol ip = 0x01 then { icmpPkt := true }
  else if getIpv4Protocol ip = 0x11 then
    let udp := write stk.udp 0 (rtwPktfileRead f 24).1
    { dhcpPkt := decide (dhcpPorts udp ∧ pktlen > minimumDhcpPacketSize)
      hipriorityPkt := (getUdpSig1 udp == 0xcc || getUdpSig1 udp == 0xdd) && getUdpSig2 udp == 0xe2 }
  else if getIpv4Protocol ip = 0x06 ∧ c.chkRegSProto 0x06 = true then
    let tcp := write stk.tcp 0 (rtwPktfileRead f 20).1
    { tcp := some tcp
      -- the remote address of the commands is the source address
      cmds := c.trackCmds (sentConn ip tcp) ⟨ipv4Src ip, tcpSrc tcp, ipv4Src ip, tcpDst tcp⟩ tcp }
  else {}

/-- the part of `update_attrib` for `ETH_P_IP` -/
def updateAttribIp (c : StCtl) (stk : TxStack) (pkt : List UInt8) : IpAttrib :=
  let hdr := rtwPktfileRead (rtwOpenPktfile pkt) 14
  if ethProto (fun i => hdr.1.getD i 0) = ethPIp then
    let ip := readIpHeader stk.ip hdr.2
    transportAttrib c stk hdr.2.pktLen ip.1 ip.2
  else {}

theorem transportAttrib_dhcp {c : StCtl} {stk : TxStack} {pktlen : Nat} {ip : Nat → UInt8} {f : PktFile} :
    (transportAttrib c stk pktlen ip f).dhcpPkt = true ↔ getIpv4Protocol ip = 0x11
      ∧ dhcpPorts (write stk.udp 0 (rtwPktfileRead f 24).1) ∧ minimumDhcpPacketSize < pktlen := by
  unfold transportAttrib
  by_cases h1 : getIpv4Protocol ip = 0x01
  · rw [if_pos h1, h1]
    exact iff_of_false Bool.false_ne_true fun hc => absurd hc.1 (by decide)
  · rw [if_neg h1]
    by_cases h2 : getIpv4Protocol ip = 0x11
    · rw [if_pos h2, and_iff_right h2]
      exact decide_eq_true_iff
    · rw [if_neg h2]
      refine iff_of_false ?_ fun hc => h2 hc.1
      split <;> exact Bool.false_ne_true

/-! ## frames with an IPv4 packet -/

namespace EthFrame

/-- the payload, byte by byte -/
def ip (eth : EthFrame) : Nat → UInt8 := fun i => eth.payload.getD i 0

theorem length_header (eth : EthFrame) :
    (eth.dst ++ eth.src ++ be16Bytes eth.etherType).length = 14 := by
  rw [List.length_append, List.length_append, eth.dst_length, eth.src_length]
  rfl

theorem length_bytes (eth : EthFrame) : eth.bytes.length = 14 + eth.payload.length := by
  unfold bytes
  rw [List.length_append, length_header]

theorem getElem_payload (eth : EthFrame) (i : Nat) : eth.bytes[14 + i]? = eth.payload[i]? := by
  have hle := eth.length_header.trans_le (Nat.le_add_right 14 i)
  unfold bytes
  rw [List.getElem?_append_right hle, length_header, Nat.add_sub_cancel_left]

theorem ethProto_bytes (eth : EthFrame) (m : Nat → UInt8)
    (h : ∀ i < 14, m i = eth.bytes.getD i 0) : ethProto m = eth.etherType := by
  have hlen : (eth.dst ++ eth.src).length = 12 := by
    rw [List.length_append, eth.dst_length, eth.src_length]
  have hget : ∀ i < 2, eth.bytes[12 + i]? = (be16Bytes eth.etherType)[i]? := by
    intro i hi
    unfold bytes
    rw [List.append_assoc, List.getElem?_append_right (by omega), hlen, Nat.add_sub_cancel_left,
      List.getElem?_append_left hi]
  have h0 : m 12 = UInt8.ofNat (eth.etherType / 256) := by
    rw [h 12 (by decide), List.getD_eq_getElem?_getD, hget 0 (by decide)]
    rfl
  have h1 : m 13 = UInt8.ofNat eth.etherType := by
    rw [h 13 (by decide), List.getD_eq_getElem?_getD, hget 1 (by decide)]
    rfl
  have hlt := eth.etherType_lt
  unfold ethProto
  rw [h0, h1, UInt8.toNat_ofNat', UInt8.toNat_ofNat']
  omega

end EthFrame

/-- an IPv4 packet, with its options -/
structure Ipv4Frame extends EthFrame where
  ip_type : etherType = ethPIp
  ihl_ge : 5 ≤ getIpv4Ihl toEthFrame.ip
  header_le : getIpv4Ihl toEthFrame.ip * 4 ≤ payload.length
  /-- `len` of the skb is an `unsigned int` -/
  len_lt : 14 + payload.length < 4294967296

namespace Ipv4Frame

variable {e : Ipv4Frame} {m : Nat → UInt8} {i n : Nat}

def ihl (e : Ipv4Frame) : Nat := getIpv4Ihl e.ip

/-- the cursor behind the Ethernet header -/
def ipFile (e : Ipv4Frame) : PktFile := (rtwPktfileRead (rtwOpenPktfile e.bytes) 14).2

theorem curAddr_ipFile (e : Ipv4Frame) : e.ipFile.curAddr = 14 := by
  have h := e.length_bytes
  unfold ipFile
  rw [PktFile.curAddr_read, PktFile.curAddr_open, PktFile.pkt_open]
  omega

theorem pktLen_ipFile (e : Ipv4Frame) : e.ipFile.pktLen = e.payload.length := by
  have h := e.ipFile.cursor
  have h1 := e.length_bytes
  rw [curAddr_ipFile] at h
  have h2 : e.ipFile.pkt = e.bytes := rfl
  rw [h2] at h
  omega

theorem twenty_le (e : Ipv4Frame) : 20 ≤ e.payload.length := by
  have h1 := e.ihl_ge
  have h2 := e.header_le
  omega

/-- the IP header that is read is that of the packet -/
theorem ip_read (h : i < 20) : (readIpHeader m e.ipFile).1 i = e.ip i := by
  have h20 := e.twenty_le
  have hi : i < e.payload.length := by omega
  show write m 0 (rtwPktfileRead e.ipFile 20).1 i = _
  rw [PktFile.write_read, if_pos h, curAddr_ipFile]
  show (e.bytes[14 + i]?).getD _ = _
  rw [e.getElem_payload, List.getElem?_eq_getElem hi]
  show _ = e.payload.getD i 0
  rw [List.getD_eq_getElem?_getD, List.getElem?_eq_getElem hi]
  rfl

theorem ihl_read : getIpv4Ihl (readIpHeader m e.ipFile).1 = e.ihl := by
  unfold getIpv4Ihl
  rw [ip_read (by decide)]
  rfl

theorem ihl_lt (e : Ipv4Frame) : e.ihl < 16 := Nat.mod_lt _ (by decide)

/-- behind 20 bytes, or at the end of the packet -/
theorem curAddr_readIp :
    (readIpHeader m e.ipFile).2.curAddr = if e.ihl = 5 then 34 else e.bytes.length := by
  have hge : 5 ≤ e.ihl := e.ihl_ge
  have hlt := e.ihl_lt
  have hlen := e.length_bytes
  have h20 := e.twenty_le
  have hmax := e.len_lt
  have hcur : (rtwPktfileRead e.ipFile 20).2.curAddr = 34 := by
    rw [PktFile.curAddr_read, curAddr_ipFile]
    show min (14 + 20) e.bytes.length = 34
    omega
  have hihl := @ihl_read e m
  unfold readIpHeader at hihl ⊢
  dsimp only at hihl ⊢
  rw [hihl]
  by_cases h : e.ihl = 5
  · rw [if_neg (by omega), if_pos h, hcur]
  · rw [if_pos (by omega), if_neg h, PktFile.curAddr_skip, hcur]
    show min (34 + toUint ((e.ihl : Int) - 20)) e.bytes.length = e.bytes.length
    -- the length of the options minus 20 wraps around
    have hwrap : toUint ((e.ihl : Int) - 20) = 4294967276 + e.ihl := by
      unfold toUint
      omega
    rw [hwrap]
    omega

theorem pkt_readIp : (readIpHeader m e.ipFile).2.pkt = e.bytes := by
  unfold readIpHeader
  dsimp only
  split <;> rfl

/-- **The header behind the IP header**: without options it is the one of the packet, with options
nothing is read. -/
theorem header_read {stk : Nat → UInt8} : write m 0 (rtwPktfileRead (readIpHeader stk e.ipFile).2 n).1 i
    = if e.ihl = 5 ∧ i < n then (e.payload[20 + i]?).getD (m i) else m i := by
  rw [PktFile.write_read, curAddr_readIp, pkt_readIp]
  by_cases hi : i < n
  · rw [if_pos hi]
    by_cases h : e.ihl = 5
    · rw [if_pos h, if_pos ⟨h, hi⟩]
      have hat : 34 + i = 14 + (20 + i) := by omega
      rw [hat, e.getElem_payload]
    · rw [if_neg h, if_neg (fun hc => h hc.1), List.getElem?_eq_none (Nat.le_add_right _ _),
        Option.getD_none]
  · rw [if_neg hi, if_neg (fun hc => hi hc.2)]

/-! ## what `update_attrib` makes of them -/

def protocol (e : Ipv4Frame) : Nat := getIpv4Protocol e.ip

/-- the transport header of the packet -/
def transport (e : Ipv4Frame) : Nat → UInt8 := shift e.ip (e.ihl * 4)

/-- `udp` or `tcp`, after the read -/
def headerRead (e : Ipv4Frame) (ip0 m : Nat → UInt8) (n : Nat) : Nat → UInt8 :=
  write m 0 (rtwPktfileRead (readIpHeader ip0 e.ipFile).2 n).1

theorem updateAttribIp_eq (c : StCtl) (stk : TxStack) (e : Ipv4Frame) :
    updateAttribIp c stk e.bytes = transportAttrib c stk e.payload.length
      (readIpHeader stk.ip e.ipFile).1 (readIpHeader stk.ip e.ipFile).2 := by
  have htype : ethProto (fun i => (rtwPktfileRead (rtwOpenPktfile e.bytes) 14).1.getD i 0) = ethPIp := by
    rw [← e.ip_type]
    apply e.ethProto_bytes
    intro i hi
    rw [PktFile.bytes_read, List.getD_eq_getElem?_getD, List.getElem?_take_of_lt hi]
    rfl
  unfold updateAttribIp
  dsimp only
  rw [if_pos htype, ← e.pktLen_ipFile]
  rfl

theorem protocol_read : getIpv4Protocol (readIpHeader m e.ipFile).1 = e.protocol := by
  unfold getIpv4Protocol
  rw [ip_read (by decide)]
  rfl

theorem dhcpPkt_iff {c : StCtl} {stk : TxStack} : (updateAttribIp c stk e.bytes).dhcpPkt = true
    ↔ e.protocol = 0x11 ∧ dhcpPorts (e.headerRead stk.ip stk.udp 24)
      ∧ minimumDhcpPacketSize < e.payload.length := by
  rw [updateAttribIp_eq, transportAttrib_dhcp, protocol_read]
  rfl

/-- a TCP segment that the tracker looks at -/
theorem updateAttribIp_tcp {c : StCtl} {stk : TxStack}
    (h : e.protocol = 0x06 ∧ c.chkRegSProto 0x06 = true) :
    updateAttribIp c stk e.bytes =
      let ip := (readIpHeader stk.ip e.ipFile).1
      let tcp := e.headerRead stk.ip stk.tcp 20
      { tcp := some tcp
        cmds := c.trackCmds (sentConn ip tcp) ⟨ipv4Src ip, tcpSrc tcp, ipv4Src ip, tcpDst tcp⟩ tcp } := by
  have h1 : e.protocol ≠ 0x01 := by omega
  have h2 : e.protocol ≠ 0x11 := by omega
  rw [updateAttribIp_eq, transportAttrib, protocol_read, if_neg h1, if_neg h2, if_pos h]
  rfl

theorem updateAttribIp_not_tcp {c : StCtl} {stk : TxStack}
    (h : ¬(e.protocol = 0x06 ∧ c.chkRegSProto 0x06 = true)) :
    (updateAttribIp c stk e.bytes).tcp = none ∧ (updateAttribIp c stk e.bytes).cmds = [] := by
  rw [updateAttribIp_eq, transportAttrib, protocol_read, if_neg h]
  split
  · exact ⟨rfl, rfl⟩
  · split <;> exact ⟨rfl, rfl⟩

/-! ## classification -/

/-- the UDP ports and the TCP header are those behind the IP header -/
structure Classified (c : StCtl) (stk : TxStack) (e : Ipv4Frame) : Prop where
  dhcp : (updateAttribIp c stk e.bytes).dhcpPkt = true
    ↔ e.protocol = 0x11 ∧ dhcpPorts e.transport ∧ minimumDhcpPacketSize < e.payload.length
  tcp : ∀ t, (updateAttribIp c stk e.bytes).tcp = some t →
    ∀ i < 20, e.ihl * 4 + i < e.payload.length → t i = e.transport i

theorem headerRead_plain {ip0 : Nat → UInt8} (h : e.ihl = 5) (hi : i < n)
    (hlen : e.ihl * 4 + i < e.payload.length) : e.headerRead ip0 m n i = e.transport i := by
  unfold headerRead
  rw [header_read, if_pos ⟨h, hi⟩]
  show _ = e.payload.getD (e.ihl * 4 + i) 0
  rw [h] at hlen ⊢
  rw [List.getD_eq_getElem?_getD, List.getElem?_eq_getElem hlen]
  rfl

theorem headerRead_options {ip0 : Nat → UInt8} (h : e.ihl ≠ 5) : e.headerRead ip0 m n = m := by
  funext i
  unfold headerRead
  rw [header_read, if_neg fun hc => h hc.1]

theorem dhcpPorts_congr {udp udp' : Nat → UInt8} (h : ∀ i < 4, udp i = udp' i) :
    dhcpPorts udp ↔ dhcpPorts udp' := by
  unfold dhcpPorts getUdpSrc getUdpDst
  rw [h 0 (by decide), h 1 (by decide), h 2 (by decide), h 3 (by decide)]

/-- **The transport header is found** when there are no IP options, or when it does not matter: the
packet is too short for DHCP, and there is no TCP header for the tracker. -/
theorem classified_iff (c : StCtl) (e : Ipv4Frame) : (∀ stk, Classified c stk e)
    ↔ e.ihl = 5 ∨ ¬(e.protocol = 0x11 ∧ minimumDhcpPacketSize < e.payload.length)
      ∧ ¬(e.protocol = 0x06 ∧ c.chkRegSProto 0x06 = true ∧ e.ihl * 4 < e.payload.length) := by
  constructor
  · intro hall
    by_contra hno
    rw [not_or] at hno
    obtain ⟨hopt, hno⟩ := hno
    rcases Classical.not_and_iff_not_or_not.mp hno with hudp | htcp
    · obtain ⟨hp, hlen⟩ := not_not.mp hudp
      -- the array holds the ports of a client, or none
      by_cases hports : dhcpPorts e.transport
      · have h := (hall ⟨fun _ => 0, fun _ => 0, fun _ => 0⟩).dhcp.mpr ⟨hp, hports, hlen⟩
        obtain ⟨-, hread, -⟩ := dhcpPkt_iff.mp h
        rw [headerRead_options hopt] at hread
        exact absurd hread (by decide)
      · let stk : TxStack := ⟨fun _ => 0, fun i => [0, 68, 0, 67].getD i 0, fun _ => 0⟩
        have hread : dhcpPorts (e.headerRead stk.ip stk.udp 24) := by
          rw [headerRead_options hopt]
          decide
        have h := (hall stk).dhcp.mp (dhcpPkt_iff.mpr ⟨hp, hread, hlen⟩)
        exact hports h.2.1
    · obtain ⟨hp, hreg, hlen⟩ := not_not.mp htcp
      let stk : TxStack := ⟨fun _ => 0, fun _ => 0, fun _ => e.transport 0 + 1⟩
      have hread : (updateAttribIp c stk e.bytes).tcp = some stk.tcp := by
        rw [updateAttribIp_tcp ⟨hp, hreg⟩]
        exact congrArg some (headerRead_options hopt)
      have h := (hall stk).tcp stk.tcp hread 0 (by decide) hlen
      exact absurd h (by simp [stk])
  · intro h stk
    constructor
    · rw [dhcpPkt_iff]
      refine and_congr_right fun hp => and_congr_left fun hlen => ?_
      have h5 := h.resolve_right fun hc => hc.1 ⟨hp, hlen⟩
      unfold minimumDhcpPacketSize at hlen
      exact dhcpPorts_congr fun i hi => headerRead_plain h5 (by omega) (by omega)
    · intro t ht i hi hlen
      by_cases hp : e.protocol = 0x06 ∧ c.chkRegSProto 0x06 = true
      · have h5 := h.resolve_right fun hc => hc.2 ⟨hp.1, hp.2, by omega⟩
        rw [updateAttribIp_tcp hp] at ht
        have htcp : e.headerRead stk.ip stk.tcp 20 = t := Option.some.inj ht
        rw [← htcp]
        exact headerRead_plain h5 hi hlen
      · rw [(updateAttribIp_not_tcp hp).1] at ht
        cases ht

theorem length_broadcast : ([255, 255, 255, 255, 255, 255] : Mac).length = 6 := rfl

theorem length_stationMac : ([2, 0, 0, 0, 0, 1] : Mac).length = 6 := rfl

theorem ethPIp_lt : 0x0800 < 65536 := by decide

/-- a DHCP request with one word of IP options -/
def dhcpFrame : Ipv4Frame where
  dst := [255, 255, 255, 255, 255, 255]
  src := [2, 0, 0, 0, 0, 1]
  dst_length := length_broadcast
  src_length := length_stationMac
  etherType := 0x0800
  etherType_lt := ethPIp_lt
  payload := [0x46, 0, 1, 40, 0, 0, 0, 0, 64, 0x11, 0, 0, 0, 0, 0, 0, 255, 255, 255, 255, 0x94, 4, 0, 0,
    0, 68, 0, 67] ++ List.replicate 268 0
  ip_type := rfl
  ihl_ge := by decide
  header_le := by decide +kernel
  len_lt := by decide +kernel

theorem dhcp_with_options_missed : ¬∀ stk, Classified ⟨[]⟩ stk dhcpFrame := by
  intro hall
  have h := (hall ⟨fun _ => 0, fun _ => 0, fun _ => 0⟩).dhcp
  have hmissed :
      (updateAttribIp ⟨[]⟩ ⟨fun _ => 0, fun _ => 0, fun _ => 0⟩ dhcpFrame.bytes).dhcpPkt = false := by
    decide +kernel
  have hports : dhcpPorts dhcpFrame.transport := by decide +kernel
  rw [hmissed] at h
  exact Bool.false_ne_true (h.mpr ⟨by decide +kernel, hports, by decide +kernel⟩)

end Ipv4Frame

end Rtl8192eu
