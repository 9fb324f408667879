import Mathlib.Data.List.Induction
import Rtl8192eu.Lib.Run
import Rtl8192eu.Xmit.Transport

/-!
# The key of a TCP session

A SYN-ACK adds a session and a FIN deletes it, on the transmit path as on the receive path.
`update_attrib` gives the source address for the remote address.

* `TcpSegment`, `mirror`   a segment, and the one of the same connection that comes the other way;
* `cmds_tx`, `cmds_rx`   the commands of either path;
* `stStep`    segments and checks of the tracker, in any order;
* `Tracked`   the sessions in the queue are those that are open;
* `session_key_iff`   when both paths use one key, and what follows for runs.
-/

namespace Rtl8192eu

open Mem Run

structure TcpSegment extends Ipv4Frame where
  tcp_type : toIpv4Frame.protocol = 0x06
  tcp_le : toIpv4Frame.ihl * 4 + 20 ≤ payload.length

namespace TcpSegment

/-- the connection, when the local end sends the segment -/
def sent (s : TcpSegment) : StTuple := sentConn s.ip s.transport

/-- the connection, when it receives it -/
def recvd (s : TcpSegment) : StTuple := recvConn s.ip s.transport

def synAck (s : TcpSegment) : Bool := getTcpSyn s.transport && getTcpAck s.transport

def fin (s : TcpSegment) : Bool := getTcpFin s.transport

/-! ## the other direction -/

/-- source and destination change places, of the addresses and of the ports at `o` -/
def mirrorAt (o i : Nat) : Nat :=
  if 12 ≤ i ∧ i < 16 then i + 4
  else if 16 ≤ i ∧ i < 20 then i - 4
  else if o ≤ i ∧ i < o + 2 then i + 2
  else if o + 2 ≤ i ∧ i < o + 4 then i - 2
  else i

def mirrorPayload (s : TcpSegment) : List UInt8 :=
  (List.range s.payload.length).map fun i => s.ip (mirrorAt (s.ihl * 4) i)

variable {s : TcpSegment} {i : Nat}

theorem length_mirrorPayload : s.mirrorPayload.length = s.payload.length := by
  unfold mirrorPayload
  rw [List.length_map, List.length_range]

theorem getD_mirrorPayload (h : i < s.payload.length) :
    s.mirrorPayload.getD i 0 = s.ip (mirrorAt (s.ihl * 4) i) := by
  unfold mirrorPayload
  rw [List.getD_eq_getElem?_getD, List.getElem?_map, List.getElem?_range h]
  rfl

theorem twenty_le_ihl (s : TcpSegment) : 20 ≤ s.ihl * 4 := by
  have h : 5 ≤ s.ihl := s.ihl_ge
  omega

theorem mirrorAt_low (h : i < 12) : mirrorAt (s.ihl * 4) i = i := by
  have h20 := s.twenty_le_ihl
  unfold mirrorAt
  rw [if_neg (by omega), if_neg (by omega), if_neg (by omega), if_neg (by omega)]

/-- the frame that carries it -/
def mirrorEth (s : TcpSegment) : EthFrame where
  dst := s.src
  src := s.dst
  dst_length := s.src_length
  src_length := s.dst_length
  etherType := s.etherType
  etherType_lt := s.etherType_lt
  payload := s.mirrorPayload

theorem ip_mirrorEth (h : i < s.payload.length) : s.mirrorEth.ip i = s.ip (mirrorAt (s.ihl * 4) i) :=
  getD_mirrorPayload h

theorem ip_mirrorEth_low (h : i < 12) : s.mirrorEth.ip i = s.ip i := by
  have h20 := s.twenty_le
  rw [ip_mirrorEth (by omega), mirrorAt_low h]

theorem ihl_mirrorEth : getIpv4Ihl s.mirrorEth.ip = s.ihl := by
  unfold getIpv4Ihl
  rw [ip_mirrorEth_low (by decide)]
  rfl

/-- **The segment of the same connection** that comes the other way -/
def mirror (s : TcpSegment) : TcpSegment where
  toEthFrame := s.mirrorEth
  ip_type := s.ip_type
  ihl_ge := by
    rw [ihl_mirrorEth]
    exact s.ihl_ge
  header_le := by
    rw [ihl_mirrorEth]
    exact s.header_le.trans_eq length_mirrorPayload.symm
  len_lt := by
    have h := s.len_lt
    show 14 + s.mirrorPayload.length < _
    rw [length_mirrorPayload]
    exact h
  tcp_type := by
    refine Eq.trans ?_ s.tcp_type
    show getIpv4Protocol s.mirrorEth.ip = getIpv4Protocol s.ip
    unfold getIpv4Protocol
    rw [ip_mirrorEth_low (by decide)]
  tcp_le := by
    have h := s.tcp_le
    show getIpv4Ihl s.mirrorEth.ip * 4 + 20 ≤ s.mirrorPayload.length
    rw [ihl_mirrorEth, length_mirrorPayload]
    exact h

theorem ihl_mirror : s.mirror.ihl = s.ihl := ihl_mirrorEth

theorem transport_mirror (h : i < 20) :
    s.mirror.transport i = s.ip (mirrorAt (s.ihl * 4) (s.ihl * 4 + i)) := by
  have hle := s.tcp_le
  show s.mirrorEth.ip (s.mirror.ihl * 4 + i) = _
  rw [ihl_mirror, ip_mirrorEth (by omega)]

theorem recvd_mirror : s.mirror.recvd = s.sent := by
  have h20 := s.twenty_le
  have hihl := s.twenty_le_ihl
  have hsrc : ipv4Dst s.mirror.ip = ipv4Src s.ip := by
    apply read_congr_at
    intro i hi
    show s.mirrorEth.ip (16 + i) = _
    rw [ip_mirrorEth (by omega), mirrorAt, if_neg (by omega), if_pos (by omega)]
    congr 1
    omega
  have hdst : ipv4Src s.mirror.ip = ipv4Dst s.ip := by
    apply read_congr_at
    intro i hi
    show s.mirrorEth.ip (12 + i) = _
    rw [ip_mirrorEth (by omega), mirrorAt, if_pos (by omega)]
    congr 1
    omega
  have hsport : tcpDst s.mirror.transport = tcpSrc s.transport := by
    apply read_congr_at
    intro i hi
    rw [transport_mirror (by omega), mirrorAt, if_neg (by omega), if_neg (by omega), if_neg (by omega),
      if_pos (by omega)]
    show s.ip _ = s.ip _
    congr 1
    omega
  have hdport : tcpSrc s.mirror.transport = tcpDst s.transport := by
    apply read_congr_at
    intro i hi
    rw [transport_mirror (by omega), mirrorAt, if_neg (by omega), if_neg (by omega), if_pos (by omega)]
    show s.ip _ = s.ip _
    congr 1
    omega
  unfold recvd sent recvConn sentConn
  rw [hsrc, hdst, hsport, hdport]

theorem flags_mirror : s.mirror.transport 13 = s.transport 13 := by
  have hihl := s.twenty_le_ihl
  rw [transport_mirror (by decide), mirrorAt, if_neg (by omega), if_neg (by omega), if_neg (by omega),
    if_neg (by omega)]
  rfl

/-! ## the commands -/

variable {c : StCtl}

/-- the segment as it comes in, with any memory behind it -/
def rxMemory (s : TcpSegment) (rest : Nat → UInt8) : Nat → UInt8 := ahead s.bytes rest

theorem shift_rxMemory (rest : Nat → UInt8) (h : i < s.payload.length) :
    shift (s.rxMemory rest) 14 i = s.ip i := by
  have hlen := s.length_bytes
  show ahead s.bytes rest (14 + i) = _
  unfold ahead
  rw [s.getElem_payload, List.getElem?_eq_getElem h]
  show s.payload[i] = s.payload.getD i 0
  rw [List.getD_eq_getElem?_getD, List.getElem?_eq_getElem h]
  rfl

/-- the two headers -/
theorem sentConn_congr {ip tcp ip' tcp' : Nat → UInt8} (h : ∀ i < 20, ip i = ip' i)
    (h' : ∀ i < 20, tcp i = tcp' i) : sentConn ip tcp = sentConn ip' tcp' := by
  have hsrc : ipv4Src ip = ipv4Src ip' := read_congr_at fun i hi => h _ (by omega)
  have hdst : ipv4Dst ip = ipv4Dst ip' := read_congr_at fun i hi => h _ (by omega)
  have hsport : tcpSrc tcp = tcpSrc tcp' := read_congr_at fun i hi => h' _ (by omega)
  have hdport : tcpDst tcp = tcpDst tcp' := read_congr_at fun i hi => h' _ (by omega)
  unfold sentConn
  rw [hsrc, hdst, hsport, hdport]

/-- `sentConn` says both -/
def StTuple.swap (t : StTuple) : StTuple := ⟨t.remoteNaddr, t.remotePort, t.localNaddr, t.localPort⟩

theorem trackCmds_congr {t key : StTuple} {tcp tcp' : Nat → UInt8} (h : tcp 13 = tcp' 13) :
    c.trackCmds t key tcp = c.trackCmds t key tcp' := by
  unfold StCtl.trackCmds getTcpSyn getTcpAck getTcpFin
  rw [h]

/-- **The receive path** uses the connection of the segment. -/
theorem cmds_rx (rest : Nat → UInt8) (hreg : c.chkRegSProto 6 = true) :
    rtwStCtlRx c (s.rxMemory rest) = c.trackCmds s.recvd s.recvd s.transport := by
  have h20 := s.twenty_le
  have htcp := s.tcp_le
  have hip : ∀ i < 20, shift (s.rxMemory rest) 14 i = s.ip i := fun i hi => shift_rxMemory rest (by omega)
  have htype : ethProto (s.rxMemory rest) = ethPIp := by
    rw [← s.ip_type]
    apply s.ethProto_bytes
    intro i hi
    have hlen := s.length_bytes
    have hlt : i < s.bytes.length := by omega
    show ahead s.bytes rest i = _
    rw [ahead_of_lt hlt, List.getD_eq_getElem?_getD, List.getElem?_eq_getElem hlt]
    rfl
  have hproto : getIpv4Protocol (shift (s.rxMemory rest) 14) = 6 := by
    refine Eq.trans ?_ s.tcp_type
    unfold getIpv4Protocol
    rw [hip 9 (by decide)]
    rfl
  have hihl : getIpv4Ihl (shift (s.rxMemory rest) 14) = s.ihl := by
    unfold getIpv4Ihl
    rw [hip 0 (by decide)]
    rfl
  have htcpAt : ∀ i < 20, shift (shift (s.rxMemory rest) 14) (s.ihl * 4) i = s.transport i :=
    fun i hi => shift_rxMemory rest (by omega)
  have hconn : recvConn (shift (s.rxMemory rest) 14) (shift (shift (s.rxMemory rest) 14) (s.ihl * 4))
      = s.recvd := congrArg StTuple.swap (sentConn_congr hip htcpAt)
  unfold rtwStCtlRx
  rw [if_pos htype]
  dsimp only
  rw [if_pos ⟨hproto, hreg⟩, hihl, hconn]
  exact trackCmds_congr (htcpAt 13 (by decide))

/-- what `update_attrib` gives for a connection -/
def sourceKey (t : StTuple) : StTuple := { t with remoteNaddr := t.localNaddr }

theorem trackCmds_sent_congr {ip tcp ip' tcp' : Nat → UInt8} (h : ∀ i < 20, ip i = ip' i)
    (h' : ∀ i < 20, tcp i = tcp' i) :
    c.trackCmds (sentConn ip tcp) ⟨ipv4Src ip, tcpSrc tcp, ipv4Src ip, tcpDst tcp⟩ tcp
      = c.trackCmds (sentConn ip' tcp') (sourceKey (sentConn ip' tcp')) tcp' := by
  have hkey : (⟨ipv4Src ip, tcpSrc tcp, ipv4Src ip, tcpDst tcp⟩ : StTuple) = sourceKey (sentConn ip tcp) := rfl
  rw [hkey, sentConn_congr h h']
  exact trackCmds_congr (h' 13 (by decide))

/-- **The transmit path**, without IP options: another key. -/
theorem cmds_tx (stk : TxStack) (hreg : c.chkRegSProto 6 = true) (h5 : s.ihl = 5) :
    (updateAttribIp c stk s.bytes).cmds = c.trackCmds s.sent (sourceKey s.sent) s.transport := by
  have htcp := s.tcp_le
  rw [Ipv4Frame.updateAttribIp_tcp ⟨s.tcp_type, hreg⟩]
  apply trackCmds_sent_congr
  · intro i hi
    exact Ipv4Frame.ip_read hi
  · intro i hi
    exact Ipv4Frame.headerRead_plain h5 hi (by omega)

/-- with options, the header is the one that was on the stack -/
theorem cmds_tx_options (stk : TxStack) (hreg : c.chkRegSProto 6 = true) (h5 : s.ihl ≠ 5) :
    (updateAttribIp c stk s.bytes).cmds
      = c.trackCmds (sentConn s.ip stk.tcp) (sourceKey (sentConn s.ip stk.tcp)) stk.tcp := by
  rw [Ipv4Frame.updateAttribIp_tcp ⟨s.tcp_type, hreg⟩]
  apply trackCmds_sent_congr
  · intro i hi
    exact Ipv4Frame.ip_read hi
  · intro i _
    exact congrFun (Ipv4Frame.headerRead_options h5) i

end TcpSegment

/-! ## one key -/

open TcpSegment

namespace StCtl

/-- a session that is tracked -/
def Matched (c : StCtl) (t : StTuple) : Prop := c.chkRegSProto 6 = true ∧ c.chkRegRule t = true

instance (c : StCtl) (t : StTuple) : Decidable (c.Matched t) := inferInstanceAs (Decidable (_ ∧ _))

end StCtl

/-- the commands for a connection -/
def flagCmds (key : StTuple) (synAck fin : Bool) : List StCmd :=
  (if synAck then [.add key] else []) ++ (if fin then [.del key] else [])

variable {c : StCtl} {s : TcpSegment} {k : StTuple} {q : List SessionTracker}

theorem flagCmds_key_inj {key key' : StTuple} {synAck fin : Bool} :
    flagCmds key synAck fin = flagCmds key' synAck fin ↔ (synAck = true ∨ fin = true → key = key') := by
  cases synAck <;> cases fin <;> simp [flagCmds]

theorem flagCmds_eq_nil {key : StTuple} {synAck fin : Bool} :
    flagCmds key synAck fin = [] ↔ ¬(synAck = true ∨ fin = true) := by
  cases synAck <;> cases fin <;> simp [flagCmds]

theorem trackCmds_matched {t key : StTuple} {tcp : Nat → UInt8} (h : c.chkRegRule t = true) :
    c.trackCmds t key tcp = flagCmds key (getTcpSyn tcp && getTcpAck tcp) (getTcpFin tcp) := if_pos h

theorem sourceKey_eq_iff {t : StTuple} : sourceKey t = t ↔ t.localNaddr = t.remoteNaddr := by
  constructor
  · exact congrArg StTuple.remoteNaddr
  · intro h
    cases t
    simp only [sourceKey] at h ⊢
    rw [h]

/-- **The two paths use one key** for a segment without IP options, when there is no command, or when
both ends have one address. -/
theorem same_cmds_iff (hm : c.Matched s.sent) :
    (∀ stk rest, (updateAttribIp c stk s.bytes).cmds = rtwStCtlRx c (s.mirror.rxMemory rest))
      ↔ s.ihl = 5 ∧ (s.synAck = true ∨ s.fin = true → s.sent.localNaddr = s.sent.remoteNaddr) := by
  have hrx : ∀ rest, rtwStCtlRx c (s.mirror.rxMemory rest) = flagCmds s.sent s.synAck s.fin := by
    intro rest
    rw [cmds_rx rest hm.1, recvd_mirror, trackCmds_congr flags_mirror, trackCmds_matched hm.2]
    rfl
  constructor
  · intro hall
    have h5 : s.ihl = 5 := by
      by_contra h5
      -- the ports of the segment were on the stack, with other flags
      let flags : UInt8 := if s.synAck = true ∨ s.fin = true then 0 else 0x12
      let stk : TxStack := ⟨fun _ => 0, fun _ => 0, Function.update s.transport 13 flags⟩
      have hconn : sentConn s.ip stk.tcp = s.sent := by
        have hport : ∀ i, i < 13 → stk.tcp i = s.transport i :=
          fun i hi => Function.update_of_ne (Nat.ne_of_lt hi) _ _
        have hsport : tcpSrc stk.tcp = tcpSrc s.transport := read_congr_at fun i hi => hport _ (by omega)
        have hdport : tcpDst stk.tcp = tcpDst s.transport := read_congr_at fun i hi => hport _ (by omega)
        unfold sentConn
        rw [hsport, hdport]
        rfl
      have hflags : stk.tcp 13 = flags := by
        show Function.update s.transport 13 flags 13 = flags
        exact Function.update_self ..
      have h := hall stk (fun _ => 0)
      rw [hrx, cmds_tx_options stk hm.1 h5, hconn, trackCmds_matched hm.2, getTcpSyn, getTcpAck, getTcpFin,
        hflags] at h
      by_cases hf : s.synAck = true ∨ s.fin = true
      · have hzero : flags = 0 := if_pos hf
        rw [hzero] at h
        exact flagCmds_eq_nil.mp h.symm hf
      · have hset : flags = 0x12 := if_neg hf
        rw [hset, flagCmds_eq_nil.mpr hf] at h
        exact flagCmds_eq_nil.mp h (Or.inl (by decide))
    refine ⟨h5, fun hf => ?_⟩
    have h := hall ⟨fun _ => 0, fun _ => 0, fun _ => 0⟩ fun _ => 0
    rw [hrx, cmds_tx _ hm.1 h5, trackCmds_matched hm.2] at h
    exact sourceKey_eq_iff.mp (flagCmds_key_inj.mp h hf)
  · rintro ⟨h5, hf⟩ stk rest
    rw [hrx, cmds_tx stk hm.1 h5, trackCmds_matched hm.2]
    exact flagCmds_key_inj.mpr fun h => sourceKey_eq_iff.mpr (hf h)

/-! ## runs -/

inductive StEvent where
  /-- `update_attrib` of a segment -/
  | tx (s : TcpSegment) (stk : TxStack) (now : Nat)
  /-- `rtw_st_ctl_rx` of one -/
  | rx (s : TcpSegment) (rest : Nat → UInt8) (now : Nat)
  /-- `session_tracker_chk_cmd` -/
  | chk (now : Nat)

namespace StEvent

/-- the commands, in their order in the queue of the command thread -/
def cmds (c : StCtl) : StEvent → List StCmd
  | tx s stk _ => (updateAttribIp c stk s.bytes).cmds
  | rx s rest _ => rtwStCtlRx c (s.rxMemory rest)
  | chk _ => [.chk]

def now : StEvent → Nat
  | tx _ _ now | rx _ _ now | chk now => now

/-- the connection, and whether the segment is a SYN-ACK and a FIN -/
def seen : StEvent → Option (StTuple × Bool × Bool)
  | tx s _ _ => some (s.sent, s.synAck, s.fin)
  | rx s _ _ => some (s.recvd, s.synAck, s.fin)
  | chk _ => none

/-- a SYN-ACK of the connection `k`, in either direction -/
def Opens (c : StCtl) (e : StEvent) (k : StTuple) : Prop := c.Matched k ∧ e.seen = some (k, true, false)

/-- a FIN of it -/
def Closes (c : StCtl) (e : StEvent) (k : StTuple) : Prop := c.Matched k ∧ ∃ b, e.seen = some (k, b, true)

/-- the condition on a segment that is sent: the tracker does not look at it, or it has no options, and
no command, or both ends have one address -/
def KeyOk (c : StCtl) : StEvent → Prop
  | tx s _ _ => c.chkRegSProto 6 = true → s.ihl = 5 ∧
      (c.chkRegRule s.sent = true → s.synAck = true ∨ s.fin = true →
        s.sent.localNaddr = s.sent.remoteNaddr)
  | _ => True

end StEvent

def stStep (c : StCtl) (q : List SessionTracker) (e : StEvent) : List SessionTracker :=
  (e.cmds c).foldl (sessionTrackerCmdHdl c true e.now) q

/-- a session is in the queue only while it is open, and from the SYN-ACK on -/
structure Tracked (c : StCtl) (es : List StEvent) : Prop where
  opened : ∀ k ∈ sessionKeys (run (stStep c) [] es), ∃ before e after,
    es = before ++ e :: after ∧ e.Opens c k ∧ ∀ e' ∈ after, ¬e'.Closes c k
  added : ∀ before e k, es = before ++ [e] → e.Opens c k → k ∈ sessionKeys (run (stStep c) [] es)

/-- the commands that an event should have -/
def StEvent.connCmds (c : StCtl) (e : StEvent) : List StCmd :=
  match e.seen with
  | none => [.chk]
  | some (t, synAck, fin) => if c.Matched t then flagCmds t synAck fin else []

theorem cmds_of_keyOk {e : StEvent} (h : e.KeyOk c) : e.cmds c = e.connCmds c := by
  cases e with
  | chk now => rfl
  | rx s rest now =>
    show rtwStCtlRx c (s.rxMemory rest) = if c.Matched s.recvd then _ else []
    by_cases hreg : c.chkRegSProto 6 = true
    · rw [cmds_rx rest hreg]
      by_cases hrule : c.chkRegRule s.recvd = true
      · rw [if_pos ⟨hreg, hrule⟩, trackCmds_matched hrule]
        rfl
      · rw [if_neg fun hm => hrule hm.2]
        exact if_neg hrule
    · rw [if_neg fun hm => hreg hm.1]
      unfold rtwStCtlRx
      split
      · exact if_neg fun hc => hreg hc.2
      · rfl
  | tx s stk now =>
    show (updateAttribIp c stk s.bytes).cmds = if c.Matched s.sent then _ else []
    by_cases hreg : c.chkRegSProto 6 = true
    · obtain ⟨h5, hkey⟩ := h hreg
      rw [cmds_tx stk hreg h5]
      by_cases hrule : c.chkRegRule s.sent = true
      · rw [if_pos ⟨hreg, hrule⟩, trackCmds_matched hrule]
        exact flagCmds_key_inj.mpr fun hf => sourceKey_eq_iff.mpr (hkey hrule hf)
      · rw [if_neg fun hm => hrule hm.2]
        exact if_neg hrule
    · rw [if_neg fun hm => hreg hm.1]
      exact (Ipv4Frame.updateAttribIp_not_tcp fun hc => hreg hc.2).2

theorem nodup_stStep (h : (sessionKeys q).Nodup) (e : StEvent) : (sessionKeys (stStep c q e)).Nodup := by
  unfold stStep
  induction e.cmds c generalizing q with
  | nil => exact h
  | cons cmd cmds ih => exact ih (nodup_hdl h cmd)

/-- the commands of one segment -/
theorem mem_keys_flagCmds {t : StTuple} {synAck fin : Bool} {now : Nat} (h : (sessionKeys q).Nodup) :
    k ∈ sessionKeys ((flagCmds t synAck fin).foldl (sessionTrackerCmdHdl c true now) q)
      ↔ if t = k then fin = false ∧ (k ∈ sessionKeys q ∨ synAck = true) else k ∈ sessionKeys q := by
  cases synAck with
  | false =>
    cases fin with
    | false => simp [flagCmds]
    | true =>
      show k ∈ sessionKeys (sessionTrackerCmdHdl c true now q (.del t)) ↔ _
      rw [mem_keys_del h]
      rcases eq_or_ne k t with rfl | ht
      · simp
      · simp [ht, ht.symm]
  | true =>
    cases fin with
    | false =>
      show k ∈ sessionKeys (sessionTrackerCmdHdl c true now q (.add t)) ↔ _
      rw [mem_keys_add]
      rcases eq_or_ne k t with rfl | ht
      · simp
      · simp [ht, ht.symm]
    | true =>
      let q' := sessionTrackerCmdHdl c true now q (.add t)
      show k ∈ sessionKeys (sessionTrackerCmdHdl c true now q' (.del t)) ↔ _
      rw [mem_keys_del (nodup_hdl h _), mem_keys_add]
      rcases eq_or_ne k t with rfl | ht
      · simp
      · simp [ht, ht.symm]

/-- **One step**: what is in the queue afterwards was there or is opened, and is not closed. -/
theorem stStep_keys {e : StEvent} (hq : (sessionKeys q).Nodup) (h : e.KeyOk c) :
    (k ∈ sessionKeys (stStep c q e) → (k ∈ sessionKeys q ∨ e.Opens c k) ∧ ¬e.Closes c k)
      ∧ (e.Opens c k → k ∈ sessionKeys (stStep c q e)) := by
  have hstep : stStep c q e = (e.connCmds c).foldl (sessionTrackerCmdHdl c true e.now) q :=
    congrArg (List.foldl _ q) (cmds_of_keyOk h)
  rw [hstep]
  unfold StEvent.connCmds StEvent.Opens StEvent.Closes
  cases hseen : e.seen with
  | none =>
    refine ⟨fun hk => ⟨Or.inl (keys_chk.subset hk), ?_⟩, fun ho => absurd ho.2 nofun⟩
    rintro ⟨-, b, hb⟩
    cases hb
  | some p =>
    obtain ⟨t, synAck, fin⟩ := p
    dsimp only
    by_cases hm : c.Matched t
    · rw [if_pos hm, mem_keys_flagCmds hq]
      by_cases ht : t = k
      · subst ht
        rw [if_pos rfl]
        refine ⟨?_, ?_⟩
        · rintro ⟨rfl, hk⟩
          refine ⟨hk.imp_right fun hs => ⟨hm, by rw [hs]⟩, ?_⟩
          rintro ⟨-, b, hb⟩
          cases hb
        · rintro ⟨-, ho⟩
          cases ho
          exact ⟨rfl, Or.inr rfl⟩
      · rw [if_neg ht]
        refine ⟨fun hk => ⟨Or.inl hk, ?_⟩, ?_⟩
        · rintro ⟨-, b, hb⟩
          cases hb
          exact ht rfl
        · rintro ⟨-, ho⟩
          cases ho
          exact absurd rfl ht
    · rw [if_neg hm]
      refine ⟨fun hk => ⟨Or.inl hk, ?_⟩, ?_⟩
      · rintro ⟨hk, b, hb⟩
        cases hb
        exact hm hk
      · rintro ⟨hk, ho⟩
        cases ho
        exact absurd hk hm

/-- **Runs**: the sessions in the queue are open. -/
theorem tracked_run (es : List StEvent) (h : ∀ e ∈ es, e.KeyOk c) : Tracked c es := by
  induction es using List.reverseRecOn with
  | nil => exact ⟨fun k hk => absurd hk List.not_mem_nil, fun before e k he => absurd he (by simp)⟩
  | append_singleton es e ih =>
    have ih := ih fun x hx => h x (List.mem_append_left _ hx)
    have he := h e (List.mem_append_right _ List.mem_cons_self)
    have hnodup : (sessionKeys (run (stStep c) [] es)).Nodup :=
      run_inv_all (I := fun q => (sessionKeys q).Nodup) (fun q e hq => nodup_stStep hq e) [] es List.nodup_nil
    have hrun : run (stStep c) [] (es ++ [e]) = stStep c (run (stStep c) [] es) e := run_append [] es [e]
    constructor
    · intro k hk
      rw [hrun] at hk
      obtain ⟨hold | hopen, hno⟩ := (stStep_keys hnodup he).1 hk
      · obtain ⟨before, e', after, hsplit, hopen, hafter⟩ := ih.opened k hold
        refine ⟨before, e', after ++ [e], ?_, hopen, ?_⟩
        · rw [hsplit, List.append_assoc]
          rfl
        · intro x hx
          rcases List.mem_append.mp hx with hx | hx
          · exact hafter x hx
          · rw [List.mem_singleton.mp hx]
            exact hno
      · exact ⟨es, e, [], rfl, hopen, fun x hx => absurd hx List.not_mem_nil⟩
    · intro before e' k hsplit hopen
      obtain ⟨-, hlast⟩ := List.append_inj' hsplit rfl
      cases hlast
      rw [hrun]
      exact (stStep_keys hnodup he).2 hopen

/-- **The key of a session.** -/
theorem session_key_iff (c : StCtl) :
    (∀ s : TcpSegment, c.Matched s.sent →
      ((∀ stk rest, (updateAttribIp c stk s.bytes).cmds = rtwStCtlRx c (s.mirror.rxMemory rest))
        ↔ s.ihl = 5 ∧ (s.synAck = true ∨ s.fin = true → s.sent.localNaddr = s.sent.remoteNaddr)))
    ∧ ∀ es : List StEvent, (∀ e ∈ es, e.KeyOk c) → Tracked c es :=
  ⟨fun _ hm => same_cmds_iff hm, tracked_run⟩

/-- `test_st_reg` -/
def testStReg : StRegister where
  sProto := 0x06
  rule := some fun t => t.localPort == [0x13, 0x89] || t.remotePort == [0x13, 0x89]

theorem length_apMac : ([2, 0, 0, 0, 0, 2] : Mac).length = 6 := rfl

/-- from 10.0.0.1 to 10.0.0.2 or back, port 5001 on both sides -/
def segmentEth (src dst flags : UInt8) : EthFrame where
  dst := [2, 0, 0, 0, 0, 2]
  src := [2, 0, 0, 0, 0, 1]
  dst_length := length_apMac
  src_length := Ipv4Frame.length_stationMac
  etherType := 0x0800
  etherType_lt := Ipv4Frame.ethPIp_lt
  payload := [0x45, 0, 0, 40, 0, 0, 0, 0, 64, 6, 0, 0, 10, 0, 0, src, 10, 0, 0, dst,
    0x13, 0x89, 0x13, 0x89, 0, 0, 0, 0, 0, 0, 0, 0, 0x50, flags, 0, 0, 0, 0, 0, 0]

theorem ihl_segmentEth (src dst flags : UInt8) : getIpv4Ihl (segmentEth src dst flags).ip = 5 := by
  show (0x45 : UInt8).toNat % 16 = 5
  decide

def segment (src dst flags : UInt8) : TcpSegment where
  toEthFrame := segmentEth src dst flags
  ip_type := rfl
  ihl_ge := (ihl_segmentEth src dst flags).ge
  header_le := by
    rw [ihl_segmentEth]
    exact Nat.le_add_right 20 20
  len_lt := by
    show 54 < 4294967296
    decide
  tcp_type := by
    show (6 : UInt8).toNat = 6
    decide
  tcp_le := by
    show getIpv4Ihl (segmentEth src dst flags).ip * 4 + 20 ≤ _
    rw [ihl_segmentEth]
    exact Nat.le_refl 40

/-- a SYN-ACK that comes in, its ACK, a SYN-ACK of the station to itself, and the FIN -/
theorem session_key_received :
    (∀ stk rest, (updateAttribIp ⟨[testStReg]⟩ stk (segment 1 1 0x12).bytes).cmds
        = rtwStCtlRx ⟨[testStReg]⟩ ((segment 1 1 0x12).mirror.rxMemory rest))
      ∧ Tracked ⟨[testStReg]⟩
        [.rx (segment 2 1 0x12) (fun _ => 0) 0, .tx (segment 1 2 0x10) ⟨fun _ => 0, fun _ => 0, fun _ => 0⟩ 1,
          .tx (segment 1 1 0x12) ⟨fun _ => 0, fun _ => 0, fun _ => 0⟩ 2, .rx (segment 2 1 0x11) (fun _ => 0) 3] := by
  have h := session_key_iff ⟨[testStReg]⟩
  constructor
  · exact (h.1 (segment 1 1 0x12) (by decide +kernel)).mpr ⟨ihl_segmentEth 1 1 0x12, fun _ => by decide +kernel⟩
  · refine h.2 _ fun e he => ?_
    simp only [List.mem_cons, List.not_mem_nil, or_false] at he
    rcases he with rfl | rfl | rfl | rfl
    · exact trivial
    · exact fun _ => ⟨ihl_segmentEth 1 2 0x10, fun _ hflag => absurd hflag (by decide +kernel)⟩
    · exact fun _ => ⟨ihl_segmentEth 1 1 0x12, fun _ _ => by decide +kernel⟩
    · exact trivial

/-- 10.0.0.1 sends the SYN-ACK, and 10.0.0.2 the FIN -/
theorem session_stays_after_fin : ¬Tracked ⟨[testStReg]⟩
    [.tx (segment 1 2 0x12) ⟨fun _ => 0, fun _ => 0, fun _ => 0⟩ 0,
      .rx (segment 2 1 0x11) (fun _ => 0) 1] := by
  intro h
  let k : StTuple := ⟨[10, 0, 0, 1], [0x13, 0x89], [10, 0, 0, 1], [0x13, 0x89]⟩
  have hk : k ∈ sessionKeys (run (stStep ⟨[testStReg]⟩) []
      [.tx (segment 1 2 0x12) ⟨fun _ => 0, fun _ => 0, fun _ => 0⟩ 0,
        .rx (segment 2 1 0x11) (fun _ => 0) 1]) := by
    decide +kernel
  obtain ⟨before, e, after, hsplit, ⟨-, hopen⟩, -⟩ := h.opened k hk
  have he : e ∈ before ++ e :: after := List.mem_append_right _ List.mem_cons_self
  rw [← hsplit] at he
  rcases List.mem_pair.mp he with rfl | rfl
  · exact absurd hopen (by decide +kernel)
  · exact absurd hopen (by decide +kernel)

end Rtl8192eu
