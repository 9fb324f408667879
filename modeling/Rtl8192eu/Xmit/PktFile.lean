import Rtl8192eu.Lib.Mem

/-!
# Reading a packet

`_rtw_open_pktfile`, `_rtw_pktfile_read` and `rtw_remainder_len` of `os_dep/linux/xmit_linux.c`: a
cursor in an skb.  A read of more than there is stops at the end.

* `PktFile`   the cursor; `curAddr` and `pktLen` say the same;
* `rtwPktfileRead`   the bytes that are copied, and the cursor behind them;
* `PktFile.bytes_read`   they are the next ones of the packet;
* `PktFile.write_read`   an array that is read to.
-/

namespace Rtl8192eu

/-- an `int` that is passed as a `uint` -/
def toUint (n : Int) : Nat := (n % 4294967296).toNat

/-- `struct pkt_file` -/
structure PktFile where
  pkt : List UInt8
  /-- `cur_addr - buf_start` -/
  curAddr : Nat
  pktLen : Nat
  cursor : curAddr + pktLen = pkt.length

def rtwOpenPktfile (pkt : List UInt8) : PktFile := ⟨pkt, 0, pkt.length, Nat.zero_add _⟩

def rtwRemainderLen (f : PktFile) : Nat := f.pkt.length - f.curAddr

/-- the length of the read -/
def readLen (f : PktFile) (rlen : Nat) : Nat :=
  if rlen > rtwRemainderLen f then rtwRemainderLen f else rlen

/-- the cursor alone: `rmem` is `NULL` -/
def rtwPktfileSkip (f : PktFile) (rlen : Nat) : PktFile where
  pkt := f.pkt
  curAddr := f.curAddr + readLen f rlen
  pktLen := f.pktLen - readLen f rlen
  cursor := by
    have h := f.cursor
    unfold readLen rtwRemainderLen
    split <;> omega

/-- what `skb_copy_bits` copies to `rmem` -/
def rtwPktfileRead (f : PktFile) (rlen : Nat) : List UInt8 × PktFile :=
  ((f.pkt.drop (f.pkt.length - f.pktLen)).take (readLen f rlen), rtwPktfileSkip f rlen)

namespace PktFile

variable {f : PktFile} {n : Nat}

theorem remainder_eq (f : PktFile) : rtwRemainderLen f = f.pktLen := by
  have h := f.cursor
  unfold rtwRemainderLen
  omega

theorem readLen_eq (f : PktFile) (n : Nat) : readLen f n = min n f.pktLen := by
  unfold readLen
  rw [remainder_eq]
  split <;> omega

@[simp] theorem pkt_skip : (rtwPktfileSkip f n).pkt = f.pkt := rfl

/-- the cursor moves on, and stays in the packet -/
theorem curAddr_skip : (rtwPktfileSkip f n).curAddr = min (f.curAddr + n) f.pkt.length := by
  have h := f.cursor
  show f.curAddr + readLen f n = _
  rw [readLen_eq]
  omega

/-- the bytes at the cursor -/
theorem bytes_read : (rtwPktfileRead f n).1 = (f.pkt.drop f.curAddr).take n := by
  have h := f.cursor
  have hoff : f.pkt.length - f.pktLen = f.curAddr := by omega
  show (f.pkt.drop (f.pkt.length - f.pktLen)).take (readLen f n) = _
  rw [hoff, readLen_eq]
  have hlen : (f.pkt.drop f.curAddr).length = f.pktLen := by
    rw [List.length_drop]
    omega
  rw [← hlen]
  exact List.take_eq_take_min.symm

theorem curAddr_read : (rtwPktfileRead f n).2.curAddr = min (f.curAddr + n) f.pkt.length := curAddr_skip

/-- an array that is read to: the bytes at the cursor, and what it held where there are none -/
theorem write_read (m : Nat → UInt8) (i : Nat) :
    Mem.write m 0 (rtwPktfileRead f n).1 i
      = if i < n then (f.pkt[f.curAddr + i]?).getD (m i) else m i := by
  rw [bytes_read, Mem.write, if_pos (Nat.zero_le i), Nat.sub_zero, List.getElem?_take]
  by_cases h : i < n
  · rw [if_pos h, if_pos h, List.getElem?_drop]
  · rw [if_neg h, if_neg h, Option.getD_none]

@[simp] theorem curAddr_open (pkt : List UInt8) : (rtwOpenPktfile pkt).curAddr = 0 := rfl

@[simp] theorem pkt_open (pkt : List UInt8) : (rtwOpenPktfile pkt).pkt = pkt := rfl

end PktFile

end Rtl8192eu
