import Rtl8192eu.Lib.Mem
import Rtl8192eu.Recv.Amsdu

/-!
# The session tracker

`rtw_st_ctl_*` of `core/rtw_sta_mgt.c` and `session_tracker_cmd_hdl` of `core/rtw_cmd.c`.  A station
keeps a queue of TCP sessions, each under the address and port of both ends; segments that a
registered rule picks add and delete them.

* `StTuple`      the key of a session;
* `StCtl.trackCmds`   the commands that a TCP header gives rise to;
* `rtwStCtlRx`   the receive path;
* `sessionTrackerCmdHdl` what the command thread does with a command;
* `keys_add`, `keys_del`, `keys_chk`   the keys that are in the queue afterwards.
-/

namespace Rtl8192eu

open Mem

/-! ## headers -/

def getIpv4Ihl (ip : Nat → UInt8) : Nat := (ip 0).toNat % 16
def getIpv4Protocol (ip : Nat → UInt8) : Nat := (ip 9).toNat
def ipv4Src (ip : Nat → UInt8) : List UInt8 := read ip 12 4
def ipv4Dst (ip : Nat → UInt8) : List UInt8 := read ip 16 4

def tcpSrc (tcp : Nat → UInt8) : List UInt8 := read tcp 0 2
def tcpDst (tcp : Nat → UInt8) : List UInt8 := read tcp 2 2
def getTcpFin (tcp : Nat → UInt8) : Bool := (tcp 13).toNat.testBit 0
def getTcpSyn (tcp : Nat → UInt8) : Bool := (tcp 13).toNat.testBit 1
def getTcpAck (tcp : Nat → UInt8) : Bool := (tcp 13).toNat.testBit 4

/-! ## rules and commands -/

/-- local address and port, remote address and port -/
structure StTuple where
  localNaddr : List UInt8
  localPort : List UInt8
  remoteNaddr : List UInt8
  remotePort : List UInt8
  deriving DecidableEq, Repr

/-- `struct st_register` -/
structure StRegister where
  sProto : Nat := 0
  rule : Option (StTuple → Bool) := none

/-- `reg` of `struct st_ctl_t` -/
structure StCtl where
  reg : List StRegister

inductive StCmd where
  | add (t : StTuple)
  | del (t : StTuple)
  | chk
  deriving DecidableEq, Repr

namespace StCtl

/-- `rtw_st_ctl_chk_reg_s_proto` -/
def chkRegSProto (c : StCtl) (sProto : Nat) : Bool := c.reg.any fun r => r.sProto == sProto

/-- `rtw_st_ctl_chk_reg_rule` -/
def chkRegRule (c : StCtl) (t : StTuple) : Bool := c.reg.any fun r => r.rule.any fun rule => rule t

/-- the rule is asked about `t`, and `key` is what the commands get -/
def trackCmds (c : StCtl) (t key : StTuple) (tcp : Nat → UInt8) : List StCmd :=
  if c.chkRegRule t then
    (if getTcpSyn tcp && getTcpAck tcp then [.add key] else [])
      ++ (if getTcpFin tcp then [.del key] else [])
  else []

end StCtl

/-- the connection of a segment that the local end has sent -/
def sentConn (ip tcp : Nat → UInt8) : StTuple := ⟨ipv4Src ip, tcpSrc tcp, ipv4Dst ip, tcpDst tcp⟩

/-- that of one that came in -/
def recvConn (ip tcp : Nat → UInt8) : StTuple := ⟨ipv4Dst ip, tcpDst tcp, ipv4Src ip, tcpSrc tcp⟩

/-- `ntohs(h_proto)` -/
def ethProto (ehdr : Nat → UInt8) : Nat := 256 * (ehdr 12).toNat + (ehdr 13).toNat

/-- `rtw_st_ctl_rx` -/
def rtwStCtlRx (c : StCtl) (ehdr : Nat → UInt8) : List StCmd :=
  if ethProto ehdr = ethPIp then
    let ip := shift ehdr 14
    if getIpv4Protocol ip = 6 ∧ c.chkRegSProto 6 = true then
      let tcp := shift ip (getIpv4Ihl ip * 4)
      c.trackCmds (recvConn ip tcp) (recvConn ip tcp) tcp
    else []
  else []

/-! ## the queue -/

inductive StStatus where
  | check | establish
  deriving DecidableEq, Repr

structure SessionTracker where
  key : StTuple
  setTime : Nat
  status : StStatus
  deriving DecidableEq, Repr

/-- `ST_EXPIRE_MS` -/
def stExpireMs : Nat := 10000

/-- what `session_tracker_chk_for_sta` takes from the queue -/
def SessionTracker.expired (now : Nat) (st : SessionTracker) : Bool :=
  st.status != .establish && decide (stExpireMs < now - st.setTime)

/-- `session_tracker_chk_for_sta`; the mode for Wi-Fi display is not modelled -/
def sessionTrackerChkForSta (c : StCtl) (now : Nat) (q : List SessionTracker) : List SessionTracker :=
  if c.reg.any fun r => r.sProto != 0 then
    (q.filter fun st => !st.expired now).map fun st => { st with status := .establish }
  else q

/-- `session_tracker_cmd_hdl`, at the time `now` -/
def sessionTrackerCmdHdl (c : StCtl) (asoc : Bool) (now : Nat) (q : List SessionTracker) (cmd : StCmd) :
    List SessionTracker :=
  if !asoc then q
  else
    match cmd with
    | .chk => sessionTrackerChkForSta c now q
    | .del t => q.eraseP fun st => st.key == t
    | .add t => if q.any fun st => st.key == t then q else q ++ [⟨t, now, .check⟩]

def sessionKeys (q : List SessionTracker) : List StTuple := q.map SessionTracker.key

section

variable {c : StCtl} {now : Nat} {q : List SessionTracker} {t k : StTuple}

theorem any_key : (q.any fun st => st.key == t) = true ↔ t ∈ sessionKeys q := by
  unfold sessionKeys
  rw [List.any_eq_true, List.mem_map]
  constructor
  · rintro ⟨st, hst, he⟩
    exact ⟨st, hst, beq_iff_eq.mp he⟩
  · rintro ⟨st, hst, he⟩
    exact ⟨st, hst, beq_iff_eq.mpr he⟩

theorem keys_add : sessionKeys (sessionTrackerCmdHdl c true now q (.add t))
    = if t ∈ sessionKeys q then sessionKeys q else sessionKeys q ++ [t] := by
  show sessionKeys (if q.any _ then q else _) = _
  by_cases h : t ∈ sessionKeys q
  · rw [if_pos (any_key.mpr h), if_pos h]
  · rw [if_neg (mt any_key.mp h), if_neg h]
    exact List.map_append

theorem keys_del : sessionKeys (sessionTrackerCmdHdl c true now q (.del t)) = (sessionKeys q).erase t := by
  show sessionKeys (q.eraseP fun st => st.key == t) = _
  induction q with
  | nil => rfl
  | cons st q ih =>
    by_cases h : st.key = t
    · have h1 : sessionKeys (st :: q) = t :: sessionKeys q := congrArg (· :: sessionKeys q) h
      have hpos : (st.key == t) = true := beq_iff_eq.mpr h
      rw [List.eraseP_cons, hpos, h1, List.erase_cons_head]
      rfl
    · have h1 : sessionKeys (st :: q) = st.key :: sessionKeys q := rfl
      have hneg : (st.key == t) = false := beq_eq_false_iff_ne.mpr h
      rw [List.eraseP_cons, hneg, h1, List.erase_cons_tail (Bool.eq_false_iff.mp hneg), ← ih]
      rfl

theorem keys_chk : (sessionKeys (sessionTrackerCmdHdl c true now q .chk)).Sublist (sessionKeys q) := by
  show (sessionKeys (if c.reg.any _ then _ else q)).Sublist _
  split
  · unfold sessionKeys
    rw [List.map_map]
    exact List.filter_sublist.map _
  · exact List.Sublist.refl _

/-- a key stands in the queue once -/
theorem nodup_hdl (h : (sessionKeys q).Nodup) (cmd : StCmd) :
    (sessionKeys (sessionTrackerCmdHdl c true now q cmd)).Nodup := by
  cases cmd with
  | chk => exact h.sublist keys_chk
  | del t =>
    rw [keys_del]
    exact h.sublist List.erase_sublist
  | add t =>
    rw [keys_add]
    by_cases ht : t ∈ sessionKeys q
    · rwa [if_pos ht]
    · rw [if_neg ht]
      rw [List.nodup_append]
      refine ⟨h, List.pairwise_singleton _ t, fun a ha b hb he => ?_⟩
      rw [List.mem_singleton.mp hb] at he
      exact ht (he ▸ ha)

theorem mem_keys_add :
    k ∈ sessionKeys (sessionTrackerCmdHdl c true now q (.add t)) ↔ k ∈ sessionKeys q ∨ k = t := by
  rw [keys_add]
  by_cases ht : t ∈ sessionKeys q
  · rw [if_pos ht]
    refine ⟨Or.inl, ?_⟩
    rintro (h | rfl)
    · exact h
    · exact ht
  · rw [if_neg ht, List.mem_append, List.mem_singleton]

theorem mem_keys_del (h : (sessionKeys q).Nodup) :
    k ∈ sessionKeys (sessionTrackerCmdHdl c true now q (.del t)) ↔ k ∈ sessionKeys q ∧ k ≠ t := by
  rw [keys_del, h.mem_erase_iff, and_comm]

end

end Rtl8192eu
