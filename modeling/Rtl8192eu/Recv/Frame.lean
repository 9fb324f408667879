import Mathlib.Data.List.Basic

/-!
# Receive frames

`union recv_frame` of `include/rtw_recv.h`: the receive attributes and the bytes of the packet
buffer.  The buffer is cut at `rx_data` and at `rx_tail` into `data` (the frame, `len` is its
length) and `room` (from `rx_tail` to `rx_end`); a read past the end of a short frame sees the
bytes of `room`, as it does in the driver.

* `recvframePull`, `recvframePut`, `recvframePullTail`   the pointer moves, `none` where the
                        driver returns `NULL` and leaves the frame as it was;
* `getFrameType` ..     the header accessors of `include/wifi.h`.
-/

namespace Rtl8192eu

abbrev Mac := List UInt8

-- the sizes of the header fields, with the `Zero Nat` that `Fin.ofNat` asks for
instance neZero_four : @NeZero Nat Zero.ofOfNat0 4 := ⟨by decide⟩

instance neZero_sixteen : @NeZero Nat Zero.ofOfNat0 16 := ⟨by decide⟩

instance neZero_seqSpace : @NeZero Nat Zero.ofOfNat0 4096 := ⟨by decide⟩

/-- `enum security_type`, the values a data frame can carry -/
inductive SecurityType where
  | noPrivacy | wep40 | tkip | tkipWtmic | aes | wep104 | sms4 | gcmp | ccmp256 | gcmp256
  deriving DecidableEq, Repr

inductive AuthAlgrthm where
  | openSystem | shared | ieee8021x | auto | wapi
  deriving DecidableEq, Repr

/-- `struct rx_pkt_attrib`, the fields the receive path reads.  Sequence and fragment number
are the 12 and 4 bits of the sequence control field, `priority` the 4 bits of the TID. -/
structure RxPktAttrib where
  hdrlen : Nat := 0
  toFrDs : Fin 4 := 0
  amsdu : Bool := false
  qos : Bool := false
  priority : Fin 16 := 0
  seqNum : Fin 4096 := 0
  fragNum : Fin 16 := 0
  mfrag : Bool := false
  order : Bool := false
  privacy : Bool := false
  bdecrypted : Bool := false
  encrypt : SecurityType := .noPrivacy
  ivLen : Nat := 0
  icvLen : Nat := 0
  dst : Mac := []
  src : Mac := []
  ta : Mac := []
  ra : Mac := []
  bssid : Mac := []
  keyIndex : Nat := 0
  deriving DecidableEq, Repr

/-- `union recv_frame`; `id` is the identity of the frame object -/
structure RecvFrame where
  id : Nat
  attrib : RxPktAttrib := {}
  keytrack : Nat := 0
  data : List UInt8 := []
  room : List UInt8 := []
  deriving DecidableEq, Repr

namespace RecvFrame

def len (f : RecvFrame) : Nat := f.data.length

/-- byte `i` from `rx_data` on; the buffer ends at `rx_end` -/
def byte (f : RecvFrame) (i : Nat) : UInt8 := (f.data ++ f.room).getD i 0

def bytes (f : RecvFrame) (i n : Nat) : List UInt8 := (List.range n).map fun j => f.byte (i + j)

end RecvFrame

theorem byte_of_append {f : RecvFrame} {xs ys : List UInt8} (h : f.data = xs ++ ys) {i : Nat}
    (hi : i < xs.length) : f.byte i = xs.getD i 0 := by
  unfold RecvFrame.byte
  rw [h, List.append_assoc, List.getD_eq_getElem?_getD, List.getD_eq_getElem?_getD,
    List.getElem?_append_left hi]

theorem bytes_of_append {f : RecvFrame} {xs ys zs : List UInt8} (h : f.data = xs ++ ys ++ zs) {i n : Nat}
    (hi : xs.length = i) (hn : ys.length = n) : f.bytes i n = ys := by
  subst hi hn
  unfold RecvFrame.bytes
  apply List.ext_getElem
  · rw [List.length_map, List.length_range]
  · intro j h1 h2
    rw [List.getElem_map, List.getElem_range, byte_of_append h (by rw [List.length_append]; omega),
      List.getD_eq_getElem?_getD, List.getElem?_append_right (Nat.le_add_right _ _),
      Nat.add_sub_cancel_left, List.getElem?_eq_getElem h2, Option.getD_some]

/-- bytes that lie in the frame -/
theorem bytes_eq_take {f : RecvFrame} {i n : Nat} (h : i + n ≤ f.len) :
    f.bytes i n = (f.data.drop i).take n := by
  have hlen : f.len = f.data.length := rfl
  have hsplit : f.data = f.data.take i ++ (f.data.drop i).take n ++ (f.data.drop i).drop n := by
    rw [List.append_assoc, List.take_append_drop, List.take_append_drop]
  apply bytes_of_append hsplit
  · rw [List.length_take]
    omega
  · rw [List.length_take, List.length_drop]
    omega

/-! ## pointer moves -/

def recvframePull (f : RecvFrame) (sz : Nat) : Option RecvFrame :=
  if f.len < sz then none else some { f with data := f.data.drop sz }

/-- the bytes copied to `rx_tail` beforehand are `bs` -/
def recvframePut (f : RecvFrame) (bs : List UInt8) : Option RecvFrame :=
  if f.room.length < bs.length then none
  else some { f with data := f.data ++ bs, room := f.room.drop bs.length }

def recvframePullTail (f : RecvFrame) (sz : Nat) : Option RecvFrame :=
  if f.len < sz then none
  else some { f with data := f.data.take (f.len - sz), room := f.data.drop (f.len - sz) ++ f.room }

/-! ## header fields -/

def le16 (f : RecvFrame) (i : Nat) : Nat := (f.byte i).toNat + 256 * (f.byte (i + 1)).toNat

/-- a big-endian 16-bit word, `ntohs` of the two bytes -/
def be16 (f : RecvFrame) (i : Nat) : Nat := 256 * (f.byte i).toNat + (f.byte (i + 1)).toNat

def be16Bytes (n : Nat) : List UInt8 := [UInt8.ofNat (n / 256), UInt8.ofNat n]

theorem be16_of_append {f : RecvFrame} {xs zs : List UInt8} {t i : Nat}
    (h : f.data = xs ++ be16Bytes t ++ zs) (hi : xs.length = i) (ht : t < 65536) : be16 f i = t := by
  have hb := bytes_of_append h hi rfl
  have h0 : f.byte i = UInt8.ofNat (t / 256) := (List.cons.inj hb).1
  have h1 : f.byte (i + 1) = UInt8.ofNat t := (List.cons.inj (List.cons.inj hb).2).1
  unfold be16
  rw [h0, h1, UInt8.toNat_ofNat', UInt8.toNat_ofNat']
  omega

inductive FrameType where
  | mgt | ctrl | data | reserved
  deriving DecidableEq, Repr

def getFrameType (f : RecvFrame) : FrameType :=
  match (le16 f 0 / 4) % 4 with
  | 0 => .mgt
  | 1 => .ctrl
  | 2 => .data
  | _ => .reserved

/-- bit `n` of `get_frame_sub_type` and of the frame control word -/
def fcBit (f : RecvFrame) (n : Nat) : Bool := (le16 f 0).testBit n

def getToFrDs (f : RecvFrame) : Fin 4 :=
  match fcBit f 8, fcBit f 9 with
  | false, false => 0
  | false, true => 1
  | true, false => 2
  | true, true => 3

def getMFrag (f : RecvFrame) : Bool := fcBit f 10
def getPrivacy (f : RecvFrame) : Bool := fcBit f 14
def getOrder (f : RecvFrame) : Bool := fcBit f 15

def getSequence (f : RecvFrame) : Fin 4096 := Fin.ofNat 4096 (le16 f 22 / 16)
def getFragNum (f : RecvFrame) : Fin 16 := Fin.ofNat 16 (le16 f 22)

def getAddr1 (f : RecvFrame) : Mac := f.bytes 4 6
def getAddr2 (f : RecvFrame) : Mac := f.bytes 10 6
def getAddr3 (f : RecvFrame) : Mac := f.bytes 16 6
def getAddr4 (f : RecvFrame) : Mac := f.bytes 24 6

/-- `IS_MCAST`: the group bit of the first byte -/
def isMcast (a : Mac) : Bool := a.headD 0 &&& 1 != 0

/-- the QoS control field at offset `i` -/
def getPriority (f : RecvFrame) (i : Nat) : Fin 16 := Fin.ofNat 16 (le16 f i)
def getAMsdu (f : RecvFrame) (i : Nat) : Bool := (le16 f i).testBit 7

end Rtl8192eu
