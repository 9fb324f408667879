import Mathlib.Algebra.Group.Int.Defs
import Mathlib.Algebra.Group.Nat.Defs
import Mathlib.Data.List.TakeWhile
import Mathlib.Logic.Relation
import Rtl8192eu.Lib.Mem
import Rtl8192eu.Xmit.DataPath

/-!
# Unpacking an RX aggregate

`recvbuf2recvframe` of `hal/rtl8192e/usb/usb_ops_linux.c`: a bulk transfer holds records, each a
descriptor of 24 bytes, driver info, shift bytes and the packet, and each starts at a multiple of 8.

* `rtl8192eQueryRxDescStatus`   the fields of a descriptor;
* `recvOne`    one turn of the loop: what is handed on, and how far it goes;
* `recvbuf2recvframe`   the loop, with the descriptors it parsed and the bytes it copied;
* `RxRecord`, `transfer`   a transfer as the device lays it out;
* `RecordAt`   where the descriptors themselves say that the records start.

A record with an error ends the loop, and the loop goes on while any byte is left, also when a
descriptor does not fit.
-/

namespace Rtl8192eu

open Mem

/-! ## descriptor -/

/-- `RXDESC_SIZE` -/
def rxdescSize : Nat := 24

/-- `LE_BITS_TO_4BYTE` -/
def leBits (d : List UInt8) (p off len : Nat) : Nat :=
  ((d.getD p 0).toNat + 256 * (d.getD (p + 1) 0).toNat + 65536 * (d.getD (p + 2) 0).toNat
    + 16777216 * (d.getD (p + 3) 0).toNat) / 2 ^ off % 2 ^ len

def leBit (d : List UInt8) (p off : Nat) : Bool := leBits d p off 1 = 1

inductive PktRptType where
  | normalRx | c2hPacket
  deriving DecidableEq, Repr

/-- the part of `struct rx_pkt_attrib` that comes from the descriptor -/
structure RxDescAttrib where
  pktLen : Nat
  crcErr : Bool
  icvErr : Bool
  drvinfoSz : Nat
  encrypt : Nat
  qos : Bool
  shiftSz : Nat
  physt : Bool
  bdecrypted : Bool
  priority : Nat
  mdata : Bool
  mfrag : Bool
  seqNum : Nat
  fragNum : Nat
  pktRptType : PktRptType
  dataRate : Nat
  sgi : Bool
  ldpc : Bool
  stbc : Bool
  bw : Nat
  deriving DecidableEq, Repr

def rtl8192eQueryRxDescStatus (d : List UInt8) : RxDescAttrib where
  pktLen := leBits d 0 0 14
  crcErr := leBit d 0 14
  icvErr := leBit d 0 15
  drvinfoSz := leBits d 0 16 4 * 8
  encrypt := leBits d 0 20 3
  qos := leBit d 0 23
  shiftSz := leBits d 0 24 2
  physt := leBit d 0 26
  bdecrypted := !leBit d 0 27
  priority := leBits d 4 8 4
  mdata := leBit d 4 26
  mfrag := leBit d 4 27
  seqNum := leBits d 8 0 12
  fragNum := leBits d 8 12 4
  pktRptType := if leBit d 8 28 then .c2hPacket else .normalRx
  dataRate := leBits d 12 0 7
  sgi := leBit d 16 0
  ldpc := leBit d 16 1
  stbc := leBit d 16 2
  bw := leBits d 16 4 2

/-! ## one record -/

/-- what the allocators answer at the `i`-th record, and where they put an skb -/
structure RxAlloc where
  recvframe : Nat → Bool
  skb : Nat → Bool
  skbClone : Nat → Bool
  skbData : Nat → Nat

/-- `rx_end - rx_tail` of the frame, and whether the packet was copied -/
structure RxSkb where
  room : Nat
  copied : Bool
  deriving DecidableEq, Repr

def rtwOsAllocRecvframe (al : RxAlloc) (i : Nat) (att : RxDescAttrib) : Option RxSkb :=
  let allocSz := if att.mfrag && att.fragNum = 0 then
      if att.pktLen ≤ 1650 then 1664 else att.pktLen + 14
    else att.pktLen + 14
  if al.skb i then
    some ⟨allocSz - (8 - al.skbData i % 8) - (if att.qos then 6 else 0), true⟩
  else if att.mfrag && att.fragNum = 0 then none
  else if al.skbClone i then some ⟨allocSz, false⟩
  else none

/-- who gets a packet; a frame for `pre_recv_entry` comes with the driver info when the descriptor
says that it is the PHY status -/
inductive RxHanded where
  | preRecvEntry (att : RxDescAttrib) (physt : Option (List UInt8)) (pkt : List UInt8)
  | c2hPktPreHdl (pkt : List UInt8)
  deriving DecidableEq, Repr

inductive RxTurn where
  | noFrame
  | stop
  | next (h : RxHanded) (copy : Option (Nat × Nat)) (pktOffset : Nat)

/-- the conversions between `s32` and `u32` -/
def u32 (x : Int) : Nat := (x % 2 ^ 32).toNat

def s32 (n : Nat) : Int := if n % 2 ^ 32 < 2 ^ 31 then (n % 2 ^ 32 : Nat) else (n % 2 ^ 32 : Nat) - 2 ^ 32

def RxDescAttrib.pktOffset (att : RxDescAttrib) : Nat :=
  rxdescSize + att.drvinfoSz + att.shiftSz + att.pktLen

def RxDescAttrib.err (att : RxDescAttrib) : Bool := att.crcErr || att.icvErr

/-- `recvframe_put` leaves the frame empty when the packet does not fit -/
def putLen (room sz : Nat) : Nat := if room < sz then 0 else sz

/-- the body of the loop -/
def recvOne (mpMode : Bool) (al : RxAlloc) (m : Nat → UInt8) (i pbuf : Nat) (transferLen : Int) :
    RxTurn :=
  if !al.recvframe i then .noFrame
  else
    let att := rtl8192eQueryRxDescStatus (read m pbuf rxdescSize)
    if !mpMode && att.err then .stop
    else if att.pktLen = 0 ∨ u32 transferLen < att.pktOffset then .stop
    else
      match rtwOsAllocRecvframe al i att with
      | none => .stop
      | some skb =>
        let pdata := pbuf + att.shiftSz + att.drvinfoSz + rxdescSize
        let h := match att.pktRptType with
          | .normalRx => RxHanded.preRecvEntry att
              (if att.physt then some (read m (pbuf + rxdescSize) att.drvinfoSz) else none)
              (read m pdata (putLen skb.room att.pktLen))
          | .c2hPacket => .c2hPktPreHdl (read m pdata att.pktLen)
        .next h (if skb.copied then some (pdata, att.pktLen) else none)
          (rnd8 att.pktOffset % 65536)

/-! ## the loop -/

/-- what is handed on, where a descriptor was parsed, and which bytes were copied -/
structure RxOut where
  handed : List RxHanded := []
  parsed : List Nat := []
  copied : List (Nat × Nat) := []
  deriving DecidableEq, Repr

def RxOut.append (o o' : RxOut) : RxOut :=
  ⟨o.handed ++ o'.handed, o.parsed ++ o'.parsed, o.copied ++ o'.copied⟩

/-- `none` when the turns do not suffice -/
def recvLoop (mpMode : Bool) (al : RxAlloc) (m : Nat → UInt8) : Nat → Nat → Nat → Int → Option RxOut
  | 0, _, _, _ => none
  | n + 1, i, pbuf, transferLen =>
    match recvOne mpMode al m i pbuf transferLen with
    | .noFrame => some {}
    | .stop => some { parsed := [pbuf] }
    | .next h copy pktOffset =>
      let out : RxOut := ⟨[h], [pbuf], copy.toList⟩
      if 0 < transferLen - pktOffset then
        (recvLoop mpMode al m n (i + 1) (pbuf + pktOffset) (transferLen - pktOffset)).map out.append
      else some out

/-- `pbuf` and `len` are the data of the transfer -/
def recvbuf2recvframe (mpMode : Bool) (al : RxAlloc) (m : Nat → UInt8) (pbuf len : Nat) :
    Option RxOut :=
  recvLoop mpMode al m (len + 1) 0 pbuf (s32 len)

/-! ## transfers -/

/-- a record as the device writes it: the lengths are those of its descriptor -/
structure RxRecord where
  desc : List UInt8
  drvinfo : List UInt8
  shift : List UInt8
  pkt : List UInt8
  pad : List UInt8
  desc_length : desc.length = rxdescSize
  drvinfo_length : drvinfo.length = (rtl8192eQueryRxDescStatus desc).drvinfoSz
  shift_length : shift.length = (rtl8192eQueryRxDescStatus desc).shiftSz
  pkt_length : pkt.length = (rtl8192eQueryRxDescStatus desc).pktLen
  pkt_pos : 0 < pkt.length
  pad_length : pad.length = rnd8 (rtl8192eQueryRxDescStatus desc).pktOffset
    - (rtl8192eQueryRxDescStatus desc).pktOffset

namespace RxRecord

def att (r : RxRecord) : RxDescAttrib := rtl8192eQueryRxDescStatus r.desc

def bytes (r : RxRecord) : List UInt8 := r.desc ++ (r.drvinfo ++ (r.shift ++ r.pkt))

def good (r : RxRecord) : Bool := !r.att.err

/-- what becomes of the packet of a record without error -/
def handed (r : RxRecord) : RxHanded :=
  match r.att.pktRptType with
  | .normalRx => .preRecvEntry r.att (if r.att.physt then some r.drvinfo else none) r.pkt
  | .c2hPacket => .c2hPktPreHdl r.pkt

theorem length_bytes (r : RxRecord) : r.bytes.length = r.att.pktOffset := by
  unfold bytes att RxDescAttrib.pktOffset
  rw [List.length_append, List.length_append, List.length_append, r.desc_length, r.drvinfo_length,
    r.shift_length, r.pkt_length]
  omega

theorem length_bytes_pos (r : RxRecord) : 0 < r.bytes.length := by
  have hpos := r.pkt_pos
  unfold bytes
  simp only [List.length_append]
  omega

theorem length_padded (r : RxRecord) : (r.bytes ++ r.pad).length = rnd8 r.att.pktOffset := by
  have hge := rnd8_ge r.att.pktOffset
  rw [List.length_append, length_bytes, r.pad_length]
  show r.att.pktOffset + (rnd8 r.att.pktOffset - r.att.pktOffset) = _
  omega

end RxRecord

/-- each record is rounded up to 8 bytes, the last only when `padLast` says so -/
def transfer (padLast : Bool) : List RxRecord → List UInt8
  | [] => []
  | [r] => r.bytes ++ if padLast then r.pad else []
  | r :: r' :: rs => (r.bytes ++ r.pad) ++ transfer padLast (r' :: rs)

/-- enough free frames and memory -/
structure RxAlloc.Enough (al : RxAlloc) : Prop where
  recvframe : ∀ i, al.recvframe i = true
  skb : ∀ i, al.skb i = true

/-! ## one turn -/

theorem leBits_lt (d : List UInt8) (p off len : Nat) : leBits d p off len < 2 ^ len :=
  Nat.mod_lt _ (Nat.two_pow_pos len)

theorem pktOffset_bounds (d : List UInt8) :
    rxdescSize ≤ (rtl8192eQueryRxDescStatus d).pktOffset
      ∧ (rtl8192eQueryRxDescStatus d).pktOffset < 16531 := by
  have h1 := leBits_lt d 0 16 4
  have h2 := leBits_lt d 0 24 2
  have h3 := leBits_lt d 0 0 14
  unfold RxDescAttrib.pktOffset rtl8192eQueryRxDescStatus rxdescSize
  dsimp only
  omega

/-- the cast to `u16` cuts nothing off -/
theorem rnd8_pktOffset (d : List UInt8) :
    rnd8 (rtl8192eQueryRxDescStatus d).pktOffset % 65536
      = rnd8 (rtl8192eQueryRxDescStatus d).pktOffset := by
  have h := (pktOffset_bounds d).2
  apply Nat.mod_eq_of_lt
  unfold rnd8
  omega

/-- the copy has room for the whole packet -/
theorem rtwOsAllocRecvframe_room {al : RxAlloc} {i : Nat} {att : RxDescAttrib} {skb : RxSkb}
    (h : rtwOsAllocRecvframe al i att = some skb) : att.pktLen ≤ skb.room := by
  unfold rtwOsAllocRecvframe at h
  dsimp only at h
  split at h
  · cases h
    dsimp only
    split <;> split <;> (try split) <;> omega
  · split at h
    · cases h
    · split at h
      · cases h
        exact Nat.le_add_right _ _
      · cases h

theorem rtwOsAllocRecvframe_enough {al : RxAlloc} (hal : al.Enough) (i : Nat) (att : RxDescAttrib) :
    ∃ skb, rtwOsAllocRecvframe al i att = some skb := by
  unfold rtwOsAllocRecvframe
  rw [hal.skb i]
  exact ⟨_, rfl⟩

theorem u32_of_nonneg {n : Nat} (h : n < 2 ^ 32) : u32 n = n := by
  unfold u32
  omega

/-- where the record at `pbuf` may be taken: no error, not empty, and within the transfer -/
def Takes (mpMode : Bool) (m : Nat → UInt8) (pbuf len : Nat) : Prop :=
  let att := rtl8192eQueryRxDescStatus (read m pbuf rxdescSize)
  (mpMode || !att.err) = true ∧ att.pktLen ≠ 0 ∧ att.pktOffset ≤ len

def pktAt (m : Nat → UInt8) (pbuf : Nat) : Nat × Nat :=
  let att := rtl8192eQueryRxDescStatus (read m pbuf rxdescSize)
  (pbuf + att.shiftSz + att.drvinfoSz + rxdescSize, att.pktLen)

/-- what is handed on of the record at `pbuf` -/
def handedAt (m : Nat → UInt8) (pbuf : Nat) : RxHanded :=
  let att := rtl8192eQueryRxDescStatus (read m pbuf rxdescSize)
  let pkt := read m (pktAt m pbuf).1 (pktAt m pbuf).2
  match att.pktRptType with
  | .normalRx => .preRecvEntry att
      (if att.physt then some (read m (pbuf + rxdescSize) att.drvinfoSz) else none) pkt
  | .c2hPacket => .c2hPktPreHdl pkt

def recordSize (m : Nat → UInt8) (pbuf : Nat) : Nat :=
  rnd8 (rtl8192eQueryRxDescStatus (read m pbuf rxdescSize)).pktOffset

/-- **What one turn does.** -/
theorem recvOne_cases (mpMode : Bool) (al : RxAlloc) (m : Nat → UInt8) (i pbuf : Nat) {len : Nat}
    (hlen : len < 2 ^ 32) :
    (recvOne mpMode al m i pbuf len = .noFrame ∧ ¬ al.Enough)
      ∨ (recvOne mpMode al m i pbuf len = .stop ∧ (al.Enough → ¬ Takes mpMode m pbuf len))
      ∨ (Takes mpMode m pbuf len ∧ ∃ copy, (copy = none ∨ copy = some (pktAt m pbuf))
        ∧ recvOne mpMode al m i pbuf len = .next (handedAt m pbuf) copy (recordSize m pbuf)) := by
  have hsize := rnd8_pktOffset (read m pbuf rxdescSize)
  unfold recvOne Takes handedAt recordSize pktAt
  rw [u32_of_nonneg hlen]
  dsimp only
  generalize rtl8192eQueryRxDescStatus (read m pbuf rxdescSize) = att at hsize ⊢
  split
  · rename_i hf
    refine Or.inl ⟨rfl, ?_⟩
    intro hal
    rw [hal.recvframe i] at hf
    cases hf
  · split
    · rename_i he
      refine Or.inr (Or.inl ⟨rfl, ?_⟩)
      rintro - ⟨h, -⟩
      revert h he
      cases mpMode <;> cases att.err <;> decide
    · rename_i he
      split
      · rename_i hp
        refine Or.inr (Or.inl ⟨rfl, ?_⟩)
        rintro - ⟨-, h, h'⟩
        omega
      · rename_i hp
        have hok : (mpMode || !att.err) = true := by
          revert he
          cases mpMode <;> cases att.err <;> decide
        split
        · rename_i hs
          refine Or.inr (Or.inl ⟨rfl, ?_⟩)
          intro hal
          obtain ⟨skb, hskb⟩ := rtwOsAllocRecvframe_enough hal i att
          rw [hs] at hskb
          cases hskb
        · rename_i skb hs
          have hroom : putLen skb.room att.pktLen = att.pktLen :=
            if_neg (Nat.not_lt.mpr (rtwOsAllocRecvframe_room hs))
          rw [hroom, hsize]
          refine Or.inr (Or.inr ⟨⟨hok, by omega, by omega⟩, _, ?_, rfl⟩)
          split
          · exact Or.inr rfl
          · exact Or.inl rfl

/-! ## any transfer -/

/-- the record at offset `o` is taken, and another one follows at `o'` -/
def NextRecord (mpMode : Bool) (m : Nat → UInt8) (base len o o' : Nat) : Prop :=
  Takes mpMode m (base + o) (len - o) ∧ o' = o + recordSize m (base + o) ∧ o' < len

/-- the offsets at which the descriptors place a record, from the first on -/
def RecordAt (mpMode : Bool) (m : Nat → UInt8) (base len o : Nat) : Prop :=
  Relation.ReflTransGen (NextRecord mpMode m base len) 0 o

theorem recordSize_ge (m : Nat → UInt8) (pbuf : Nat) : rxdescSize ≤ recordSize m pbuf :=
  Nat.le_trans (pktOffset_bounds _).1 (rnd8_ge _)

theorem pktAt_le {mpMode : Bool} {m : Nat → UInt8} {base len o : Nat} (ho : o ≤ len)
    (ht : Takes mpMode m (base + o) (len - o)) :
    base ≤ (pktAt m (base + o)).1
      ∧ (pktAt m (base + o)).1 + (pktAt m (base + o)).2 ≤ base + len := by
  obtain ⟨-, -, h⟩ := ht
  unfold RxDescAttrib.pktOffset at h
  unfold pktAt
  dsimp only at h ⊢
  omega

/-- what holds of the loop that starts at offset `o` -/
structure RxOut.Walk (mpMode : Bool) (m : Nat → UInt8) (base len o : Nat) (enough : Prop)
    (out : RxOut) : Prop where
  parsed : ∀ p ∈ out.parsed, ∃ o', p = base + o'
    ∧ Relation.ReflTransGen (NextRecord mpMode m base len) o o'
  all : enough → ∀ o', Relation.ReflTransGen (NextRecord mpMode m base len) o o' →
    base + o' ∈ out.parsed
  copied : ∀ c ∈ out.copied, base ≤ c.1 ∧ c.1 + c.2 ≤ base + len

section walk

variable {mpMode : Bool} {m : Nat → UInt8} {base len o : Nat} {enough : Prop}

theorem RxOut.Walk.noFrame (h : ¬ enough) : RxOut.Walk mpMode m base len o enough {} where
  parsed := by simp
  all := fun he => absurd he h
  copied := by simp

/-- the last descriptor -/
theorem RxOut.Walk.last (copy : Option (Nat × Nat)) {h : List RxHanded}
    (hlast : enough → ∀ o', ¬ NextRecord mpMode m base len o o')
    (hcopy : ∀ c ∈ copy.toList, base ≤ c.1 ∧ c.1 + c.2 ≤ base + len) :
    RxOut.Walk mpMode m base len o enough ⟨h, [base + o], copy.toList⟩ where
  parsed := by
    intro p hp
    exact ⟨o, List.mem_singleton.mp hp, Relation.ReflTransGen.refl⟩
  all := by
    intro he o' ho'
    rcases Relation.ReflTransGen.cases_head ho' with rfl | ⟨b, hb, -⟩
    · exact List.mem_singleton_self _
    · exact absurd hb (hlast he b)
  copied := hcopy

theorem RxOut.Walk.cons {copy : Option (Nat × Nat)} {h : List RxHanded} {o₁ : Nat} {out : RxOut}
    (hnext : NextRecord mpMode m base len o o₁)
    (hcopy : ∀ c ∈ copy.toList, base ≤ c.1 ∧ c.1 + c.2 ≤ base + len)
    (hout : out.Walk mpMode m base len o₁ enough) :
    (RxOut.append ⟨h, [base + o], copy.toList⟩ out).Walk mpMode m base len o enough where
  parsed := by
    intro p hp
    rcases List.mem_append.mp hp with hp | hp
    · exact ⟨o, List.mem_singleton.mp hp, Relation.ReflTransGen.refl⟩
    · obtain ⟨o', rfl, ho'⟩ := hout.parsed p hp
      exact ⟨o', rfl, Relation.ReflTransGen.head hnext ho'⟩
  all := by
    intro he o' ho'
    rcases Relation.ReflTransGen.cases_head ho' with rfl | ⟨b, hb, hbo⟩
    · exact List.mem_append_left _ (List.mem_singleton_self _)
    · -- the next record is where its descriptor says
      have hb₁ : b = o₁ := hb.2.1.trans hnext.2.1.symm
      subst hb₁
      exact List.mem_append_right _ (hout.all he o' hbo)
  copied := by
    intro c hc
    rcases List.mem_append.mp hc with hc | hc
    · exact hcopy c hc
    · exact hout.copied c hc

end walk

/-- **The loop ends, and parses just the descriptors that the records place.** -/
theorem recvLoop_walk (mpMode : Bool) (al : RxAlloc) (m : Nat → UInt8) (base : Nat) {len : Nat}
    (hlen : len < 2 ^ 31) {n i o : Nat} (ho : o ≤ len) (hn : len - o < n) :
    ∃ out, recvLoop mpMode al m n i (base + o) ((len - o : Nat) : Int) = some out
      ∧ out.Walk mpMode m base len o al.Enough := by
  induction n generalizing i o with
  | zero => omega
  | succ n ih =>
    have hlt : len - o < 2 ^ 32 := by omega
    rw [recvLoop]
    rcases recvOne_cases mpMode al m i (base + o) hlt with ⟨h, hne⟩ | ⟨h, hne⟩ | ⟨ht, copy, hc, h⟩
    · rw [h]
      exact ⟨_, rfl, RxOut.Walk.noFrame hne⟩
    · rw [h]
      refine ⟨_, rfl, RxOut.Walk.last none ?_ (by simp)⟩
      intro hal o' ho'
      exact hne hal ho'.1
    · have hsz := recordSize_ge m (base + o)
      have hcopy : ∀ c ∈ copy.toList, base ≤ c.1 ∧ c.1 + c.2 ≤ base + len := by
        intro c hcm
        rcases hc with rfl | rfl
        · cases hcm
        · rw [List.mem_singleton.mp hcm]
          exact pktAt_le ho ht
      rw [h]
      dsimp only
      split
      · rename_i hpos
        have hnext : NextRecord mpMode m base len o (o + recordSize m (base + o)) :=
          ⟨ht, rfl, by omega⟩
        have hcast : ((len - o : Nat) : Int) - (recordSize m (base + o) : Nat)
            = ((len - (o + recordSize m (base + o)) : Nat) : Int) := by omega
        unfold rxdescSize at hsz
        obtain ⟨out, hout, hw⟩ := ih (i := i + 1) (o := o + recordSize m (base + o)) (by omega) (by omega)
        rw [hcast, Nat.add_assoc, hout]
        exact ⟨_, rfl, hw.cons hnext hcopy⟩
      · refine ⟨_, rfl, RxOut.Walk.last copy ?_ hcopy⟩
        rintro - o' ⟨-, rfl, hlt'⟩
        omega

/-! ## transfers of the device -/

namespace RxRecord

/-- the parts of a record in memory -/
theorem read_parts {m : Nat → UInt8} {base : Nat} {r : RxRecord}
    (h : read m base r.bytes.length = r.bytes) :
    rtl8192eQueryRxDescStatus (read m base rxdescSize) = r.att
      ∧ read m (base + rxdescSize) r.att.drvinfoSz = r.drvinfo
      ∧ read m (base + r.att.shiftSz + r.att.drvinfoSz + rxdescSize) r.att.pktLen = r.pkt := by
  unfold bytes at h
  obtain ⟨hdesc, h⟩ := read_eq_append.mp h
  obtain ⟨hdrv, h⟩ := read_eq_append.mp h
  obtain ⟨-, hpkt⟩ := read_eq_append.mp h
  rw [r.desc_length, r.drvinfo_length] at hdrv
  rw [r.desc_length, r.drvinfo_length, r.shift_length, r.pkt_length] at hpkt
  rw [r.desc_length] at hdesc
  refine ⟨by rw [hdesc]; rfl, hdrv, ?_⟩
  rw [← hpkt]
  congr 1
  show base + r.att.shiftSz + r.att.drvinfoSz + rxdescSize
    = base + rxdescSize + r.att.drvinfoSz + r.att.shiftSz
  omega

theorem handedAt_eq {m : Nat → UInt8} {base : Nat} {r : RxRecord}
    (h : read m base r.bytes.length = r.bytes) : handedAt m base = r.handed := by
  obtain ⟨hatt, hdrv, hpkt⟩ := read_parts h
  unfold handedAt pktAt handed
  rw [hatt]
  dsimp only
  rw [hdrv, hpkt]

theorem recordSize_eq {m : Nat → UInt8} {base : Nat} {r : RxRecord}
    (h : read m base r.bytes.length = r.bytes) : recordSize m base = (r.bytes ++ r.pad).length := by
  rw [length_padded, recordSize, (read_parts h).1]

theorem takes_iff {m : Nat → UInt8} {base len : Nat} {r : RxRecord}
    (h : read m base r.bytes.length = r.bytes) (hlen : r.bytes.length ≤ len) :
    Takes false m base len ↔ r.good = true := by
  have hpos := r.pkt_pos
  rw [r.pkt_length] at hpos
  rw [length_bytes] at hlen
  unfold Takes
  rw [(read_parts h).1]
  constructor
  · rintro ⟨he, -⟩
    exact he
  · intro he
    exact ⟨he, Nat.pos_iff_ne_zero.mp hpos, hlen⟩

end RxRecord

theorem length_transfer (padLast : Bool) (r : RxRecord) (rs : List RxRecord) :
    r.bytes.length + rs.length ≤ (transfer padLast (r :: rs)).length := by
  induction rs generalizing r with
  | nil =>
    rw [transfer, List.length_append]
    exact Nat.le_add_right _ _
  | cons r' rs ih =>
    have h := ih r'
    have hpos := r'.length_bytes_pos
    rw [transfer, List.length_append, List.length_append, List.length_cons]
    omega

/-- the loop at a record of the device -/
theorem recvLoop_record {al : RxAlloc} (hal : al.Enough) {m : Nat → UInt8} {r : RxRecord}
    {base len : Nat} (n i : Nat) (hr : read m base r.bytes.length = r.bytes)
    (hle : r.bytes.length ≤ len) (hlen : len < 2 ^ 31) :
    (r.good = false ∧ ∃ out, recvLoop false al m (n + 1) i base len = some out ∧ out.handed = [])
      ∨ (r.good = true ∧ ∃ out : RxOut, out.handed = [r.handed]
        ∧ recvLoop false al m (n + 1) i base len
          = if 0 < (len : Int) - ((r.bytes ++ r.pad).length : Nat) then
              (recvLoop false al m n (i + 1) (base + (r.bytes ++ r.pad).length)
                ((len : Int) - ((r.bytes ++ r.pad).length : Nat))).map out.append
            else some out) := by
  have htk := RxRecord.takes_iff hr hle
  have h32 : len < 2 ^ 32 := by omega
  rw [recvLoop]
  rcases recvOne_cases false al m i base h32 with ⟨-, hne⟩ | ⟨h, hne⟩ | ⟨ht, copy, -, h⟩
  · exact absurd hal hne
  · rw [h]
    refine Or.inl ⟨?_, _, rfl, rfl⟩
    rw [← Bool.not_eq_true]
    intro hg
    exact hne hal (htk.mpr hg)
  · rw [h, RxRecord.handedAt_eq hr, RxRecord.recordSize_eq hr]
    exact Or.inr ⟨htk.mp ht, ⟨[r.handed], [base], copy.toList⟩, rfl, rfl⟩

/-- **The loop over a transfer goes up to the first record with an error.** -/
theorem recvLoop_transfer {al : RxAlloc} (hal : al.Enough) (m : Nat → UInt8) (padLast : Bool)
    (r : RxRecord) (rs : List RxRecord) {base n i : Nat}
    (hread : read m base (transfer padLast (r :: rs)).length = transfer padLast (r :: rs))
    (hlen : (transfer padLast (r :: rs)).length < 2 ^ 31) (hn : rs.length < n) :
    ∃ out, recvLoop false al m n i base ((transfer padLast (r :: rs)).length : Nat) = some out
      ∧ out.handed = ((r :: rs).takeWhile RxRecord.good).map RxRecord.handed := by
  induction rs generalizing r base n i with
  | nil =>
    obtain ⟨k, rfl⟩ := Nat.exists_eq_succ_of_ne_zero (show n ≠ 0 by omega)
    have hge := Nat.le_trans (Nat.le_add_right _ _) (length_transfer padLast r [])
    have hr : read m base r.bytes.length = r.bytes := by
      rw [transfer] at hread
      exact (read_eq_append.mp hread).1
    rcases recvLoop_record hal k i hr hge hlen with ⟨hg, out, h, hout⟩ | ⟨hg, out, hout, h⟩
    · rw [List.takeWhile_cons_of_neg (by rw [hg]; exact Bool.false_ne_true)]
      exact ⟨out, h, hout⟩
    · have hle : (transfer padLast [r]).length ≤ (r.bytes ++ r.pad).length := by
        rw [transfer]
        cases padLast <;> simp
      rw [if_neg (by omega)] at h
      rw [List.takeWhile_cons_of_pos hg]
      exact ⟨out, h, hout⟩
  | cons r' rs ih =>
    obtain ⟨k, rfl⟩ := Nat.exists_eq_succ_of_ne_zero (show n ≠ 0 by omega)
    have hge := Nat.le_trans (Nat.le_add_right _ _) (length_transfer padLast r (r' :: rs))
    have hpos := Nat.lt_of_lt_of_le r'.length_bytes_pos
      (Nat.le_trans (Nat.le_add_right _ _) (length_transfer padLast r' rs))
    have hsum : (transfer padLast (r :: r' :: rs)).length
        = (r.bytes ++ r.pad).length + (transfer padLast (r' :: rs)).length := by
      rw [transfer, List.length_append]
    rw [transfer] at hread
    obtain ⟨hpad, hrest⟩ := read_eq_append.mp hread
    rcases recvLoop_record hal k i (read_eq_append.mp hpad).1 hge hlen with
      ⟨hg, out, h, hout⟩ | ⟨hg, out, hout, h⟩
    · rw [List.takeWhile_cons_of_neg (by rw [hg]; exact Bool.false_ne_true)]
      exact ⟨out, h, hout⟩
    · have hcast : ((transfer padLast (r :: r' :: rs)).length : Int)
          - ((r.bytes ++ r.pad).length : Nat) = ((transfer padLast (r' :: rs)).length : Nat) := by
        omega
      obtain ⟨out', h', hout'⟩ := ih r' (i := i + 1) hrest (by omega) (Nat.lt_of_succ_lt_succ hn)
      rw [hcast, if_pos (by omega), h'] at h
      refine ⟨_, h, ?_⟩
      rw [List.takeWhile_cons_of_pos hg, List.map_cons, ← hout']
      show out.handed ++ out'.handed = r.handed :: out'.handed
      rw [hout]
      rfl

/-! ## `recvbuf2recvframe` -/

theorem s32_of_lt {n : Nat} (h : n < 2 ^ 31) : s32 n = n := by
  unfold s32
  rw [Nat.mod_eq_of_lt (by omega), if_pos h]

/-- the transfer at `base` is read, and nothing behind it -/
def RxOut.InBounds (base len : Nat) (out : RxOut) : Prop :=
  (∀ p ∈ out.parsed, base ≤ p ∧ p + rxdescSize ≤ base + len)
    ∧ ∀ c ∈ out.copied, base ≤ c.1 ∧ c.1 + c.2 ≤ base + len

theorem takeWhile_sublist_filter {α : Type*} (p : α → Bool) (l : List α) :
    (l.takeWhile p).Sublist (l.filter p) := by
  have hself : (l.takeWhile p).filter p = l.takeWhile p :=
    List.filter_eq_self.mpr fun _ ha => List.mem_takeWhile_imp ha
  rw [← hself]
  exact (List.takeWhile_sublist p).filter p

theorem filter_eq_takeWhile_iff {α : Type*} {p : α → Bool} {l : List α} :
    l.filter p = l.takeWhile p ↔ l.Pairwise fun a b => p b = true → p a = true := by
  induction l with
  | nil => simp
  | cons a l ih =>
    rw [List.pairwise_cons]
    cases ha : p a with
    | true => simp [ha, ih]
    | false =>
      rw [List.filter_cons_of_neg (by simp [ha]), List.takeWhile_cons_of_neg (by simp [ha]),
        List.filter_eq_nil_iff]
      constructor
      · intro h
        refine ⟨fun b hb hpb => absurd hpb (h b hb), ?_⟩
        exact List.pairwise_of_forall_mem_list fun x hx y hy hpy => absurd hpy (h y hy)
      · rintro ⟨h, -⟩ b hb hpb
        exact absurd (h b hb hpb) Bool.false_ne_true

theorem recvbuf2recvframe_handed {al : RxAlloc} (hal : al.Enough) {m : Nat → UInt8} {base : Nat}
    {padLast : Bool} {rs : List RxRecord}
    (hread : read m base (transfer padLast rs).length = transfer padLast rs)
    (hlen : (transfer padLast rs).length < 2 ^ 31) :
    ∃ out, recvbuf2recvframe false al m base (transfer padLast rs).length = some out
      ∧ out.handed = (rs.takeWhile RxRecord.good).map RxRecord.handed := by
  unfold recvbuf2recvframe
  rw [s32_of_lt hlen]
  cases rs with
  | nil =>
    rw [transfer, List.length_nil, recvLoop]
    rcases recvOne_cases false al m 0 base (show 0 < 2 ^ 32 by decide) with
      ⟨-, hne⟩ | ⟨h, -⟩ | ⟨⟨-, -, ho⟩, -⟩
    · exact absurd hal hne
    · rw [h]
      exact ⟨_, rfl, rfl⟩
    · exact absurd (Nat.le_trans (pktOffset_bounds _).1 ho) (by decide)
  | cons r rs =>
    have hge := length_transfer padLast r rs
    exact recvLoop_transfer hal m padLast r rs hread hlen (by omega)

/-- no record with an error stands before one without -/
def ErrorsLast (rs : List RxRecord) : Prop :=
  rs.Pairwise fun r r' => r'.good = true → r.good = true

/-- **When unpacking is exact**: on a transfer of the device, just when its errors are last; and on
any bytes the loop ends, and it stays within the transfer just when every place for a record has
the 24 bytes of a descriptor. -/
theorem recvbuf2recvframe_exact_iff (al : RxAlloc) (m : Nat → UInt8) (base : Nat) :
    (∀ (padLast : Bool) (rs : List RxRecord), al.Enough →
      read m base (transfer padLast rs).length = transfer padLast rs →
      (transfer padLast rs).length < 2 ^ 31 →
      ∃ out, recvbuf2recvframe false al m base (transfer padLast rs).length = some out
        ∧ (out.handed = (rs.filter RxRecord.good).map RxRecord.handed ↔ ErrorsLast rs))
    ∧ (∀ (mpMode : Bool) (len : Nat), len < 2 ^ 31 →
      ∃ out, recvbuf2recvframe mpMode al m base len = some out
        ∧ ((∀ o, RecordAt mpMode m base len o → o + rxdescSize ≤ len) → out.InBounds base len)
        ∧ (al.Enough → out.InBounds base len →
          ∀ o, RecordAt mpMode m base len o → o + rxdescSize ≤ len)) := by
  constructor
  · intro padLast rs hal hread hlen
    obtain ⟨out, hout, hh⟩ := recvbuf2recvframe_handed hal hread hlen
    refine ⟨out, hout, ?_⟩
    rw [hh, ErrorsLast, ← filter_eq_takeWhile_iff]
    constructor
    · intro h
      have hl := congrArg List.length h
      rw [List.length_map, List.length_map] at hl
      exact (List.Sublist.eq_of_length (takeWhile_sublist_filter _ _) hl).symm
    · intro h
      rw [h]
  · intro mpMode len hlen
    obtain ⟨out, hout, hw⟩ := recvLoop_walk mpMode al m base hlen (n := len + 1) (i := 0)
      (Nat.zero_le len) (by omega)
    refine ⟨out, ?_, ?_, ?_⟩
    · rw [recvbuf2recvframe, s32_of_lt hlen]
      exact hout
    · intro h
      refine ⟨?_, hw.copied⟩
      intro p hp
      obtain ⟨o, rfl, ho⟩ := hw.parsed p hp
      have := h o ho
      omega
    · intro hal hb o ho
      have := hb.1 _ (hw.all hal o ho)
      omega

/-! ## descriptors of any packet -/

/-- the descriptor of a packet of `n` bytes behind `8 * k` bytes of driver info and `s` shift bytes -/
def rxDesc (n k s : Nat) (crc icv c2h : Bool) : List UInt8 :=
  let w := n + 16384 * crc.toNat + 32768 * icv.toNat + 65536 * k + 16777216 * s
  [UInt8.ofNat w, UInt8.ofNat (w / 256), UInt8.ofNat (w / 65536), UInt8.ofNat (w / 16777216),
    0, 0, 0, 0, 0, 0, 0, if c2h then 16 else 0] ++ List.replicate 12 0

/-- **There is a descriptor for every packet.** -/
theorem rtl8192eQueryRxDescStatus_rxDesc {n k s : Nat} (hn : n < 16384) (hk : k < 16) (hs : s < 4)
    (crc icv c2h : Bool) :
    let att := rtl8192eQueryRxDescStatus (rxDesc n k s crc icv c2h)
    att.pktLen = n ∧ att.drvinfoSz = 8 * k ∧ att.shiftSz = s ∧ att.crcErr = crc ∧ att.icvErr = icv
      ∧ att.pktRptType = if c2h then .c2hPacket else .normalRx := by
  have hw : ∀ off len, leBits (rxDesc n k s crc icv c2h) 0 off len
      = (n + 16384 * crc.toNat + 32768 * icv.toNat + 65536 * k + 16777216 * s) / 2 ^ off
        % 2 ^ len := by
    intro off len
    have hc := Bool.toNat_le crc
    have hi := Bool.toNat_le icv
    unfold leBits rxDesc
    simp only [List.cons_append, List.getD_cons_zero, List.getD_cons_succ, UInt8.toNat_ofNat']
    congr 2
    omega
  have hc := Bool.toNat_le crc
  have hi := Bool.toNat_le icv
  refine ⟨?_, ?_, ?_, ?_, ?_, ?_⟩
  · show leBits _ 0 0 14 = n
    rw [hw]
    omega
  · show leBits _ 0 16 4 * 8 = 8 * k
    rw [hw]
    omega
  · show leBits _ 0 24 2 = s
    rw [hw]
    omega
  · show leBit _ 0 14 = crc
    rw [leBit, hw]
    cases crc <;> simp only [Bool.toNat_true, Bool.toNat_false] <;> simp <;> omega
  · show leBit _ 0 15 = icv
    rw [leBit, hw]
    cases icv <;> simp only [Bool.toNat_true, Bool.toNat_false] <;> simp <;> omega
  · have hsel : leBit (rxDesc n k s crc icv c2h) 8 28 = c2h := by
      unfold leBit leBits rxDesc
      simp only [List.cons_append, List.getD_cons_zero, List.getD_cons_succ]
      cases c2h <;> decide
    show (if leBit (rxDesc n k s crc icv c2h) 8 28 then _ else _) = _
    rw [hsel]

def RxRecord.ofPacket (pkt drvinfo shift : List UInt8) (crc icv c2h : Bool)
    (hp : 0 < pkt.length ∧ pkt.length < 16384)
    (hd : drvinfo.length = 8 * (drvinfo.length / 8) ∧ drvinfo.length / 8 < 16)
    (hs : shift.length < 4) : RxRecord where
  desc := rxDesc pkt.length (drvinfo.length / 8) shift.length crc icv c2h
  drvinfo := drvinfo
  shift := shift
  pkt := pkt
  pad := List.replicate (rnd8 (rtl8192eQueryRxDescStatus (rxDesc pkt.length (drvinfo.length / 8)
    shift.length crc icv c2h)).pktOffset - (rtl8192eQueryRxDescStatus (rxDesc pkt.length
      (drvinfo.length / 8) shift.length crc icv c2h)).pktOffset) 0
  desc_length := rfl
  drvinfo_length := by
    rw [(rtl8192eQueryRxDescStatus_rxDesc hp.2 hd.2 hs crc icv c2h).2.1]
    exact hd.1
  shift_length := (rtl8192eQueryRxDescStatus_rxDesc hp.2 hd.2 hs crc icv c2h).2.2.1.symm
  pkt_length := (rtl8192eQueryRxDescStatus_rxDesc hp.2 hd.2 hs crc icv c2h).1.symm
  pkt_pos := hp.1
  pad_length := List.length_replicate

/-- a packet of two bytes -/
def shortRecord (crc c2h : Bool) : RxRecord :=
  .ofPacket [1, 2] [] [] crc false c2h (by decide) (by decide) (by decide)

def rxAlloc : RxAlloc := ⟨fun _ => true, fun _ => true, fun _ => true, fun _ => 0⟩

def bytesMem (l : List UInt8) (i : Nat) : UInt8 := l.getD i 0

theorem recvbuf2recvframe_exact_iff_two :
    ∃ out, recvbuf2recvframe false rxAlloc
        (bytesMem (transfer false [shortRecord false true, shortRecord false false])) 0
        (transfer false [shortRecord false true, shortRecord false false]).length = some out
      ∧ out.handed = [(shortRecord false true).handed, (shortRecord false false).handed] := by
  obtain ⟨out, hout, h⟩ := (recvbuf2recvframe_exact_iff rxAlloc
    (bytesMem (transfer false [shortRecord false true, shortRecord false false])) 0).1 false
    [shortRecord false true, shortRecord false false] ⟨fun _ => rfl, fun _ => rfl⟩
    (by decide +kernel) (by decide +kernel)
  exact ⟨out, hout, h.mpr (by unfold ErrorsLast; decide +kernel)⟩

/-- a packet with an error takes the good one behind it along; and behind the one record of a
transfer of 40 bytes a descriptor is parsed of which 8 bytes are there -/
theorem recvbuf2recvframe_not_exact :
    (∃ out, recvbuf2recvframe false rxAlloc
        (bytesMem (transfer false [shortRecord true false, shortRecord false false])) 0
        (transfer false [shortRecord true false, shortRecord false false]).length = some out
      ∧ out.handed ≠ ([shortRecord true false, shortRecord false false].filter RxRecord.good).map
        RxRecord.handed)
    ∧ ∃ out, recvbuf2recvframe false rxAlloc (bytesMem (transfer true [shortRecord false false])) 0
        40 = some out ∧ 32 ∈ out.parsed ∧ ¬ out.InBounds 0 40 := by
  have hp : (recvbuf2recvframe false rxAlloc (bytesMem (transfer true [shortRecord false false])) 0
      40).map RxOut.parsed = some [0, 32] := by decide +kernel
  constructor
  · exact ⟨{ parsed := [0] }, by decide +kernel, by decide +kernel⟩
  · obtain ⟨out, hout, hpar⟩ := Option.map_eq_some_iff.mp hp
    have hmem : 32 ∈ out.parsed := by
      rw [hpar]
      decide
    refine ⟨out, hout, hmem, ?_⟩
    intro hb
    exact absurd (hb.1 32 hmem).2 (by decide)

end Rtl8192eu
