import Rtl8192eu.Security.Wep

/-!
# TKIP

The key mixing of `core/rtw_security.c`, the MIC (`rtw_secmic..`) and the body of a frame under
`rtw_tkip_encrypt`.

* `phase1`, `phase2`   the key of a frame, from the temporal key, the transmitter and the IV;
* `secMic`        the MIC of a message;
* `rtwSeccalctkipmic`   the MIC of a frame;
* `arcfourSeal`   a body and its integrity value under one key stream.

The key stream goes on where the last call left it, so the two calls of the cipher are one over the
body with its integrity value (`arcfourSeal_eq`).
-/

namespace Rtl8192eu

/-! ## words -/

/-- `RotR1` -/
def rotR1 (v : UInt16) : UInt16 := (v >>> (1 : UInt16) &&& (0x7fff : UInt16)) ^^^ (v &&& (1 : UInt16)) <<< (15 : UInt16)

def lo8 (v : UInt16) : UInt8 := v.toUInt8
def hi8 (v : UInt16) : UInt8 := (v >>> 8).toUInt8
def lo16 (v : UInt32) : UInt16 := v.toUInt16
def hi16 (v : UInt32) : UInt16 := (v >>> 16).toUInt16
def mk16 (hi lo : UInt8) : UInt16 := lo.toUInt16 ^^^ (hi.toUInt16 <<< 8)

/-- `TK16` -/
def tk16 (tk : List UInt8) (n : Nat) : UInt16 := mk16 (tk.getD (2 * n + 1) 0) (tk.getD (2 * n) 0)

/-- `Sbox1[0]` -/
def sbox1 : List UInt16 := [
  0xc6a5, 0xf884, 0xee99, 0xf68d, 0xff0d, 0xd6bd, 0xdeb1, 0x9154, 0x6050, 0x0203,
  0xcea9, 0x567d, 0xe719, 0xb562, 0x4de6, 0xec9a, 0x8f45, 0x1f9d, 0x8940, 0xfa87,
  0xef15, 0xb2eb, 0x8ec9, 0xfb0b, 0x41ec, 0xb367, 0x5ffd, 0x45ea, 0x23bf, 0x53f7,
  0xe496, 0x9b5b, 0x75c2, 0xe11c, 0x3dae, 0x4c6a, 0x6c5a, 0x7e41, 0xf502, 0x834f,
  0x685c, 0x51f4, 0xd134, 0xf908, 0xe293, 0xab73, 0x6253, 0x2a3f, 0x080c, 0x9552,
  0x4665, 0x9d5e, 0x3028, 0x37a1, 0x0a0f, 0x2fb5, 0x0e09, 0x2436, 0x1b9b, 0xdf3d,
  0xcd26, 0x4e69, 0x7fcd, 0xea9f, 0x121b, 0x1d9e, 0x5874, 0x342e, 0x362d, 0xdcb2,
  0xb4ee, 0x5bfb, 0xa4f6, 0x764d, 0xb761, 0x7dce, 0x527b, 0xdd3e, 0x5e71, 0x1397,
  0xa6f5, 0xb968, 0x0000, 0xc12c, 0x4060, 0xe31f, 0x79c8, 0xb6ed, 0xd4be, 0x8d46,
  0x67d9, 0x724b, 0x94de, 0x98d4, 0xb0e8, 0x854a, 0xbb6b, 0xc52a, 0x4fe5, 0xed16,
  0x86c5, 0x9ad7, 0x6655, 0x1194, 0x8acf, 0xe910, 0x0406, 0xfe81, 0xa0f0, 0x7844,
  0x25ba, 0x4be3, 0xa2f3, 0x5dfe, 0x80c0, 0x058a, 0x3fad, 0x21bc, 0x7048, 0xf104,
  0x63df, 0x77c1, 0xaf75, 0x4263, 0x2030, 0xe51a, 0xfd0e, 0xbf6d, 0x814c, 0x1814,
  0x2635, 0xc32f, 0xbee1, 0x35a2, 0x88cc, 0x2e39, 0x9357, 0x55f2, 0xfc82, 0x7a47,
  0xc8ac, 0xbae7, 0x322b, 0xe695, 0xc0a0, 0x1998, 0x9ed1, 0xa37f, 0x4466, 0x547e,
  0x3bab, 0x0b83, 0x8cca, 0xc729, 0x6bd3, 0x283c, 0xa779, 0xbce2, 0x161d, 0xad76,
  0xdb3b, 0x6456, 0x744e, 0x141e, 0x92db, 0x0c0a, 0x486c, 0xb8e4, 0x9f5d, 0xbd6e,
  0x43ef, 0xc4a6, 0x39a8, 0x31a4, 0xd337, 0xf28b, 0xd532, 0x8b43, 0x6e59, 0xdab7,
  0x018c, 0xb164, 0x9cd2, 0x49e0, 0xd8b4, 0xacfa, 0xf307, 0xcf25, 0xcaaf, 0xf48e,
  0x47e9, 0x1018, 0x6fd5, 0xf088, 0x4a6f, 0x5c72, 0x3824, 0x57f1, 0x73c7, 0x9751,
  0xcb23, 0xa17c, 0xe89c, 0x3e21, 0x96dd, 0x61dc, 0x0d86, 0x0f85, 0xe090, 0x7c42,
  0x71c4, 0xccaa, 0x90d8, 0x0605, 0xf701, 0x1c12, 0xc2a3, 0x6a5f, 0xaef9, 0x69d0,
  0x1791, 0x9958, 0x3a27, 0x27b9, 0xd938, 0xeb13, 0x2bb3, 0x2233, 0xd2bb, 0xa970,
  0x0789, 0x33a7, 0x2db6, 0x3c22, 0x1592, 0xc920, 0x8749, 0xaaff, 0x5078, 0xa57a,
  0x038f, 0x59f8, 0x0980, 0x1a17, 0x65da, 0xd731, 0x84c6, 0xd0b8, 0x82c3, 0x29b0,
  0x5a77, 0x1e11, 0x7bcb, 0xa8fc, 0x6dd6, 0x2c3a]

/-- `_S_`; the words of `Sbox1[1]` are those of `Sbox1[0]` with their bytes exchanged -/
def sboxWord (v : UInt16) : UInt16 :=
  let s := sbox1.getD (hi8 v).toNat 0
  sbox1.getD (lo8 v).toNat 0 ^^^ mk16 (lo8 s) (hi8 s)

/-! ## key mixing -/

/-- `p1k`, and the first five words of `PPK` -/
structure P1k where
  k0 : UInt16
  k1 : UInt16
  k2 : UInt16
  k3 : UInt16
  k4 : UInt16
  deriving DecidableEq, Repr

/-- one turn of the loop -/
def phase1Turn (tk : List UInt8) (p : P1k) (i : Nat) : P1k :=
  let k0 := p.k0 + sboxWord (p.k4 ^^^ tk16 tk (i % 2))
  let k1 := p.k1 + sboxWord (k0 ^^^ tk16 tk (i % 2 + 2))
  let k2 := p.k2 + sboxWord (k1 ^^^ tk16 tk (i % 2 + 4))
  let k3 := p.k3 + sboxWord (k2 ^^^ tk16 tk (i % 2 + 6))
  let k4 := p.k4 + sboxWord (k3 ^^^ tk16 tk (i % 2)) + UInt16.ofNat i
  ⟨k0, k1, k2, k3, k4⟩

def phase1 (tk ta : List UInt8) (iv32 : UInt32) : P1k :=
  (List.range 8).foldl (phase1Turn tk)
    ⟨lo16 iv32, hi16 iv32, mk16 (ta.getD 1 0) (ta.getD 0 0), mk16 (ta.getD 3 0) (ta.getD 2 0),
      mk16 (ta.getD 5 0) (ta.getD 4 0)⟩

/-- `rc4key` -/
def phase2 (tk : List UInt8) (p : P1k) (iv16 : UInt16) : List UInt8 :=
  let k5 := p.k4 + iv16
  let k0 := p.k0 + sboxWord (k5 ^^^ tk16 tk 0)
  let k1 := p.k1 + sboxWord (k0 ^^^ tk16 tk 1)
  let k2 := p.k2 + sboxWord (k1 ^^^ tk16 tk 2)
  let k3 := p.k3 + sboxWord (k2 ^^^ tk16 tk 3)
  let k4 := p.k4 + sboxWord (k3 ^^^ tk16 tk 4)
  let k5 := k5 + sboxWord (k4 ^^^ tk16 tk 5)
  let k0 := k0 + rotR1 (k5 ^^^ tk16 tk 6)
  let k1 := k1 + rotR1 (k0 ^^^ tk16 tk 7)
  let k2 := k2 + rotR1 k1
  let k3 := k3 + rotR1 k2
  let k4 := k4 + rotR1 k3
  let k5 := k5 + rotR1 k4
  [hi8 iv16, (hi8 iv16 ||| 0x20) &&& 0x7f, lo8 iv16, lo8 ((k5 ^^^ tk16 tk 0) >>> 1)]
    ++ [k0, k1, k2, k3, k4, k5].flatMap fun k => [lo8 k, hi8 k]

/-- `pnl` and `pnh` of `GET_TKIP_PN` -/
def tkipPnl (iv : List UInt8) : UInt16 := mk16 (iv.getD 0 0) (iv.getD 2 0)

def tkipPnh (iv : List UInt8) : UInt32 :=
  (iv.getD 4 0).toUInt32 ||| (iv.getD 5 0).toUInt32 <<< 8 ||| (iv.getD 6 0).toUInt32 <<< 16
    ||| (iv.getD 7 0).toUInt32 <<< 24

/-- the key of a frame -/
def tkipRc4key (prwskey ta iv : List UInt8) : List UInt8 :=
  phase2 prwskey (phase1 prwskey ta (tkipPnh iv)) (tkipPnl iv)

-- the first counter under the key 00 01 02 ..
example : tkipRc4key ((List.range 16).map UInt8.ofNat) [0x10, 0x22, 0x33, 0x44, 0x55, 0x66]
    [0, 0x20, 0, 0x20, 0, 0, 0, 0]
    = [0x00, 0x20, 0x00, 0x33, 0xea, 0x8d, 0x2f, 0x60, 0xca, 0x6d, 0x13, 0x74, 0x23, 0x4a, 0x66, 0x0b] := by
  decide +kernel

/-! ## the MIC -/

/-- `struct mic_data` -/
structure MicData where
  K0 : UInt32
  K1 : UInt32
  L : UInt32
  R : UInt32
  M : UInt32
  nBytesInM : Nat
  deriving DecidableEq, Repr

def rol32 (a n : UInt32) : UInt32 := a <<< n ||| a >>> (32 - n)

def ror32 (a n : UInt32) : UInt32 := rol32 a (32 - n)

def secmicgetuint32 (p : List UInt8) : UInt32 :=
  (p.getD 0 0).toUInt32 ||| (p.getD 1 0).toUInt32 <<< 8 ||| (p.getD 2 0).toUInt32 <<< 16
    ||| (p.getD 3 0).toUInt32 <<< 24

def secmicputuint32 (val : UInt32) : List UInt8 :=
  [val.toUInt8, (val >>> 8).toUInt8, (val >>> 16).toUInt8, (val >>> 24).toUInt8]

def rtwSecmicsetkey (key : List UInt8) : MicData :=
  let K0 := secmicgetuint32 key
  let K1 := secmicgetuint32 (key.drop 4)
  ⟨K0, K1, K0, K1, 0, 0⟩

/-- a full word goes into the state -/
def secmicWord (d : MicData) : MicData :=
  let L := d.L ^^^ d.M
  let R := d.R ^^^ rol32 L 17
  let L := L + R
  let R := R ^^^ ((L &&& 0xff00ff00) >>> 8 ||| (L &&& 0x00ff00ff) <<< 8)
  let L := L + R
  let R := R ^^^ rol32 L 3
  let L := L + R
  let R := R ^^^ ror32 L 2
  let L := L + R
  { d with L := L, R := R, M := 0, nBytesInM := 0 }

def rtwSecmicappendbyte (d : MicData) (b : UInt8) : MicData :=
  let d := { d with
    M := d.M ||| b.toUInt32 <<< UInt32.ofNat (8 * d.nBytesInM)
    nBytesInM := d.nBytesInM + 1 }
  if 4 ≤ d.nBytesInM then secmicWord d else d

def rtwSecmicappend (d : MicData) (src : List UInt8) : MicData := src.foldl rtwSecmicappendbyte d

/-- the `while` loop that fills the last word -/
def secmicPad : Nat → MicData → MicData
  | 0, d => d
  | n + 1, d => if d.nBytesInM ≠ 0 then secmicPad n (rtwSecmicappendbyte d 0) else d

def rtwSecgetmic (d : MicData) : List UInt8 :=
  let d := secmicPad 4 (rtwSecmicappend d [0x5a, 0, 0, 0, 0])
  secmicputuint32 d.L ++ secmicputuint32 d.R

def rtwSeccalctkipmic (key header data : List UInt8) (pri : UInt8) : List UInt8 :=
  let d := rtwSecmicsetkey key
  let d :=
    if header.getD 1 0 &&& 1 ≠ 0 then
      let d := rtwSecmicappend d ((header.drop 16).take 6)
      if header.getD 1 0 &&& 2 ≠ 0 then rtwSecmicappend d ((header.drop 24).take 6)
      else rtwSecmicappend d ((header.drop 10).take 6)
    else
      let d := rtwSecmicappend d ((header.drop 4).take 6)
      if header.getD 1 0 &&& 2 ≠ 0 then rtwSecmicappend d ((header.drop 16).take 6)
      else rtwSecmicappend d ((header.drop 10).take 6)
  let d := rtwSecmicappend d [pri, 0, 0, 0]
  rtwSecgetmic (rtwSecmicappend d data)

/-- the MIC of a message -/
def secMic (key msg : List UInt8) : List UInt8 := rtwSecgetmic (rtwSecmicappend (rtwSecmicsetkey key) msg)

example : secMic [0x82, 0x92, 0x5c, 0x1c, 0xa1, 0xd1, 0x30, 0xb8] [0x4d]
    = [0x43, 0x47, 0x21, 0xca, 0x40, 0x63, 0x9b, 0x3f] := by
  decide +kernel

theorem length_secMic (key msg : List UInt8) : (secMic key msg).length = 8 := rfl

theorem rtwSecmicappend_append (d : MicData) (xs ys : List UInt8) :
    rtwSecmicappend d (xs ++ ys) = rtwSecmicappend (rtwSecmicappend d xs) ys :=
  List.foldl_append

/-! ## the body -/

/-- the context when `arcfour_encrypt` is done -/
def arcfourAfter (c : Arc4context) (src : List UInt8) : Arc4context :=
  src.foldl (fun c _ => (arcfourByte c).2) c

/-- payload and `crc`, one call each -/
def arcfourSeal (c : Arc4context) (payload : List UInt8) : List UInt8 :=
  arcfourEncrypt c payload ++ arcfourEncrypt (arcfourAfter c payload) (icvBytes payload)

theorem arcfourEncrypt_append (c : Arc4context) (xs ys : List UInt8) :
    arcfourEncrypt c (xs ++ ys) = arcfourEncrypt c xs ++ arcfourEncrypt (arcfourAfter c xs) ys := by
  induction xs generalizing c with
  | nil => rfl
  | cons x xs ih => exact congrArg (List.cons _) (ih _)

theorem arcfourSeal_eq (c : Arc4context) (payload : List UInt8) :
    arcfourSeal c payload = arcfourEncrypt c (payload ++ icvBytes payload) :=
  (arcfourEncrypt_append c payload _).symm

theorem length_arcfourSeal (c : Arc4context) (payload : List UInt8) :
    (arcfourSeal c payload).length = payload.length + 4 := by
  rw [arcfourSeal_eq, length_arcfourEncrypt, List.length_append]
  rfl

/-- **A sealed body comes back with its integrity value.** -/
theorem arcfourEncrypt_seal (c : Arc4context) (payload : List UInt8) :
    arcfourEncrypt c (arcfourSeal c payload) = payload ++ icvBytes payload := by
  rw [arcfourSeal_eq, arcfourEncrypt_twice]

end Rtl8192eu
