import Rtl8192eu.Recv.Frame

/-!
# WEP

`arcfour_..`, `getcrc32` and `rtw_wep_decrypt` of `core/rtw_security.c`.  The integrity value of the
decrypted frame is computed there and not compared.

* `arcfourEncrypt_twice`   the cipher undoes itself;
* `wepIcvOk`   the comparison;
* `wepIcvOk_seal`   it accepts what a holder of the key has sealed.

The bytes of a 32-bit word lie in memory lowest first.  The driver decrypts a frame that ends before the
payload with a negative length and runs over its buffer; here such a frame stays as it is.
-/

namespace Rtl8192eu

/-! ## the cipher -/

/-- `struct arc4context` -/
structure Arc4context where
  x : UInt8 := 0
  y : UInt8 := 0
  state : List UInt8 := (List.range 256).map UInt8.ofNat
  deriving DecidableEq, Repr

/-- one turn of the second loop of `arcfour_init`: the state and `stateindex` -/
def arcfourTurn (key : List UInt8) (st : List UInt8 × UInt8) (counter : Nat) : List UInt8 × UInt8 :=
  let t := st.1.getD counter 0
  let stateindex := st.2 + key.getD (counter % key.length) 0 + t
  let u := st.1.getD stateindex.toNat 0
  ((st.1.set stateindex.toNat t).set counter u, stateindex)

def arcfourInit (key : List UInt8) : Arc4context :=
  let c : Arc4context := {}
  { c with state := ((List.range 256).foldl (arcfourTurn key) (c.state, 0)).1 }

/-- the next byte of the key stream -/
def arcfourByte (c : Arc4context) : UInt8 × Arc4context :=
  let x := c.x + 1
  let sx := c.state.getD x.toNat 0
  let y := sx + c.y
  let sy := c.state.getD y.toNat 0
  let state := (c.state.set y.toNat sx).set x.toNat sy
  (state.getD (sx + sy).toNat 0, ⟨x, y, state⟩)

def arcfourEncrypt : Arc4context → List UInt8 → List UInt8
  | _, [] => []
  | c, b :: src => (b ^^^ (arcfourByte c).1) :: arcfourEncrypt (arcfourByte c).2 src

theorem length_arcfourEncrypt (c : Arc4context) (src : List UInt8) :
    (arcfourEncrypt c src).length = src.length := by
  induction src generalizing c with
  | nil => rfl
  | cons b src ih => exact congrArg (· + 1) (ih (arcfourByte c).2)

/-- **The cipher undoes itself.** -/
theorem arcfourEncrypt_twice (c : Arc4context) (src : List UInt8) :
    arcfourEncrypt c (arcfourEncrypt c src) = src := by
  induction src generalizing c with
  | nil => rfl
  | cons b src ih =>
    show (b ^^^ (arcfourByte c).1 ^^^ (arcfourByte c).1)
      :: arcfourEncrypt (arcfourByte c).2 (arcfourEncrypt (arcfourByte c).2 src) = b :: src
    rw [ih, UInt8.xor_assoc, UInt8.xor_self, UInt8.xor_zero]

/-! ## the integrity value -/

def crc32ReverseBit (data : UInt8) : UInt8 :=
  (data <<< (7 : UInt8) &&& (0x80 : UInt8)) ||| (data <<< (5 : UInt8) &&& (0x40 : UInt8))
    ||| (data <<< (3 : UInt8) &&& (0x20 : UInt8)) ||| (data <<< (1 : UInt8) &&& (0x10 : UInt8))
    ||| (data >>> (1 : UInt8) &&& (0x08 : UInt8)) ||| (data >>> (3 : UInt8) &&& (0x04 : UInt8))
    ||| (data >>> (5 : UInt8) &&& (0x02 : UInt8)) ||| (data >>> (7 : UInt8) &&& (0x01 : UInt8))

/-- `CRC32_POLY` -/
def crc32Shift (c : UInt32) : UInt32 := if c &&& 0x80000000 ≠ 0 then (c <<< 1) ^^^ 0x04c11db7 else c <<< 1

/-- `crc32_table`, filled by `crc32_init` -/
def crc32Table (i : UInt8) : UInt32 :=
  let c := Nat.repeat crc32Shift 8 ((crc32ReverseBit i).toUInt32 <<< 24)
  (crc32ReverseBit (c >>> 24).toUInt8).toUInt32 ||| (crc32ReverseBit (c >>> 16).toUInt8).toUInt32 <<< 8
    ||| (crc32ReverseBit (c >>> 8).toUInt8).toUInt32 <<< 16 ||| (crc32ReverseBit c.toUInt8).toUInt32 <<< 24

def getcrc32 (buf : List UInt8) : UInt32 :=
  ~~~ buf.foldl (fun crc p => crc32Table (crc.toUInt8 ^^^ p) ^^^ (crc >>> 8)) 0xffffffff

-- the check value of this polynomial
example : getcrc32 [0x31, 0x32, 0x33, 0x34, 0x35, 0x36, 0x37, 0x38, 0x39] = 0xcbf43926 := by
  decide +kernel

/-- the four bytes of `crc` -/
def icvBytes (buf : List UInt8) : List UInt8 :=
  let crc := getcrc32 buf
  [crc.toUInt8, (crc >>> 8).toUInt8, (crc >>> 16).toUInt8, (crc >>> 24).toUInt8]

/-! ## frames -/

/-- `dot11DefKeylen` and `dot11DefKey` -/
structure WepKeys where
  dot11DefKeylen : Nat → Nat := fun _ => 0
  dot11DefKey : Nat → List UInt8 := fun _ => []

/-- the initialisation vector and the default key -/
def WepKeys.wepkey (k : WepKeys) (iv : List UInt8) (keyindex : Nat) : List UInt8 :=
  iv ++ (k.dot11DefKey keyindex).take (k.dot11DefKeylen keyindex)

/-- where the payload begins -/
def RecvFrame.payloadOff (f : RecvFrame) : Nat := f.attrib.hdrlen + f.attrib.ivLen

def rtwWepDecrypt (k : WepKeys) (f : RecvFrame) : RecvFrame :=
  if f.attrib.encrypt = .wep40 ∨ f.attrib.encrypt = .wep104 then
    let mycontext := arcfourInit (k.wepkey (f.bytes f.attrib.hdrlen 3) f.attrib.keyIndex)
    { f with data := f.data.take f.payloadOff ++ arcfourEncrypt mycontext (f.data.drop f.payloadOff) }
  else f

/-- `crc`, compared with the end of the decrypted payload -/
def wepIcvOk (f : RecvFrame) : Bool :=
  let payload := f.data.drop f.payloadOff
  4 ≤ payload.length && payload.drop (payload.length - 4) = icvBytes (payload.take (payload.length - 4))

/-- header, initialisation vector and body, as a holder of the key sends them -/
def wepSeal (k : WepKeys) (hdr iv : List UInt8) (keyindex : Nat) (body : List UInt8) : List UInt8 :=
  hdr ++ iv ++ arcfourEncrypt (arcfourInit (k.wepkey (iv.take 3) keyindex)) (body ++ icvBytes body)

section

variable {k : WepKeys} {f : RecvFrame} {hdr iv body : List UInt8}

theorem rtwWepDecrypt_seal (he : f.attrib.encrypt = .wep40 ∨ f.attrib.encrypt = .wep104)
    (hf : f.data = wepSeal k hdr iv f.attrib.keyIndex body) (hh : hdr.length = f.attrib.hdrlen)
    (hi : iv.length = f.attrib.ivLen) (h4 : iv.length = 4) :
    rtwWepDecrypt k f = { f with data := hdr ++ iv ++ (body ++ icvBytes body) } := by
  have hoff : f.payloadOff = (hdr ++ iv).length := by
    rw [List.length_append, RecvFrame.payloadOff, hh, hi]
  have hiv : f.bytes f.attrib.hdrlen 3 = iv.take 3 := by
    have hsplit : f.data = hdr ++ iv.take 3 ++ (iv.drop 3
        ++ arcfourEncrypt (arcfourInit (k.wepkey (iv.take 3) f.attrib.keyIndex)) (body ++ icvBytes body)) := by
      rw [hf, wepSeal, ← List.append_assoc (hdr ++ iv.take 3), List.append_assoc hdr (iv.take 3),
        List.take_append_drop]
    refine bytes_of_append hsplit hh ?_
    rw [List.length_take, h4]
    rfl
  have htake : f.data.take f.payloadOff = hdr ++ iv := by
    rw [hf, hoff, wepSeal]
    exact List.take_left' rfl
  have hdrop : f.data.drop f.payloadOff
      = arcfourEncrypt (arcfourInit (k.wepkey (iv.take 3) f.attrib.keyIndex)) (body ++ icvBytes body) := by
    rw [hf, hoff, wepSeal]
    exact List.drop_left' rfl
  unfold rtwWepDecrypt
  rw [if_pos he]
  simp only [hiv, htake, hdrop, arcfourEncrypt_twice]

/-- **A sealed frame has the right integrity value.** -/
theorem wepIcvOk_seal (he : f.attrib.encrypt = .wep40 ∨ f.attrib.encrypt = .wep104)
    (hf : f.data = wepSeal k hdr iv f.attrib.keyIndex body) (hh : hdr.length = f.attrib.hdrlen)
    (hi : iv.length = f.attrib.ivLen) (h4 : iv.length = 4) : wepIcvOk (rtwWepDecrypt k f) = true := by
  rw [rtwWepDecrypt_seal he hf hh hi h4]
  have hoff : f.attrib.hdrlen + f.attrib.ivLen = (hdr ++ iv).length := by
    rw [List.length_append, hh, hi]
  have hpayload : (hdr ++ iv ++ (body ++ icvBytes body)).drop (f.attrib.hdrlen + f.attrib.ivLen)
      = body ++ icvBytes body := by
    rw [hoff]
    exact List.drop_left' rfl
  have hlen : (body ++ icvBytes body).length = body.length + 4 := List.length_append
  unfold wepIcvOk RecvFrame.payloadOff
  simp only [hpayload, hlen, Nat.add_sub_cancel, List.drop_left, List.take_left, Bool.and_eq_true,
    decide_eq_true_eq, and_true]
  exact Nat.le_add_left 4 _

end

end Rtl8192eu
