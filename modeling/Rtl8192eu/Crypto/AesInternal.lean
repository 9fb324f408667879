import Mathlib.Data.List.GetD
import Mathlib.Tactic.IntervalCases
import Rtl8192eu.Lib.Rijndael

/-!
# The block cipher

`core/crypto/aes-internal.c` and `aes-internal-enc.c`, with `AES_SMALL_TABLES`: a round is four looked up
words an output word, and a state is four words.

* `te0`, `TE0` .. `TE414`     the table and what is taken from it;
* `rijndaelKeySetupEnc`   the round keys;
* `rijndaelEncrypt`   the rounds, two in a turn of the loop;
* `aesEncrypt_cipher`   all of it is the cipher of `Rijndael`.
-/

namespace Rtl8192eu

open Rijndael

namespace Aes

/-! ## the table -/

/-- `Te0` -/
def te0 : List UInt32 := [
  0xc66363a5, 0xf87c7c84, 0xee777799, 0xf67b7b8d, 0xfff2f20d, 0xd66b6bbd, 0xde6f6fb1, 0x91c5c554,
  0x60303050, 0x02010103, 0xce6767a9, 0x562b2b7d, 0xe7fefe19, 0xb5d7d762, 0x4dababe6, 0xec76769a,
  0x8fcaca45, 0x1f82829d, 0x89c9c940, 0xfa7d7d87, 0xeffafa15, 0xb25959eb, 0x8e4747c9, 0xfbf0f00b,
  0x41adadec, 0xb3d4d467, 0x5fa2a2fd, 0x45afafea, 0x239c9cbf, 0x53a4a4f7, 0xe4727296, 0x9bc0c05b,
  0x75b7b7c2, 0xe1fdfd1c, 0x3d9393ae, 0x4c26266a, 0x6c36365a, 0x7e3f3f41, 0xf5f7f702, 0x83cccc4f,
  0x6834345c, 0x51a5a5f4, 0xd1e5e534, 0xf9f1f108, 0xe2717193, 0xabd8d873, 0x62313153, 0x2a15153f,
  0x0804040c, 0x95c7c752, 0x46232365, 0x9dc3c35e, 0x30181828, 0x379696a1, 0x0a05050f, 0x2f9a9ab5,
  0x0e070709, 0x24121236, 0x1b80809b, 0xdfe2e23d, 0xcdebeb26, 0x4e272769, 0x7fb2b2cd, 0xea75759f,
  0x1209091b, 0x1d83839e, 0x582c2c74, 0x341a1a2e, 0x361b1b2d, 0xdc6e6eb2, 0xb45a5aee, 0x5ba0a0fb,
  0xa45252f6, 0x763b3b4d, 0xb7d6d661, 0x7db3b3ce, 0x5229297b, 0xdde3e33e, 0x5e2f2f71, 0x13848497,
  0xa65353f5, 0xb9d1d168, 0x00000000, 0xc1eded2c, 0x40202060, 0xe3fcfc1f, 0x79b1b1c8, 0xb65b5bed,
  0xd46a6abe, 0x8dcbcb46, 0x67bebed9, 0x7239394b, 0x944a4ade, 0x984c4cd4, 0xb05858e8, 0x85cfcf4a,
  0xbbd0d06b, 0xc5efef2a, 0x4faaaae5, 0xedfbfb16, 0x864343c5, 0x9a4d4dd7, 0x66333355, 0x11858594,
  0x8a4545cf, 0xe9f9f910, 0x04020206, 0xfe7f7f81, 0xa05050f0, 0x783c3c44, 0x259f9fba, 0x4ba8a8e3,
  0xa25151f3, 0x5da3a3fe, 0x804040c0, 0x058f8f8a, 0x3f9292ad, 0x219d9dbc, 0x70383848, 0xf1f5f504,
  0x63bcbcdf, 0x77b6b6c1, 0xafdada75, 0x42212163, 0x20101030, 0xe5ffff1a, 0xfdf3f30e, 0xbfd2d26d,
  0x81cdcd4c, 0x180c0c14, 0x26131335, 0xc3ecec2f, 0xbe5f5fe1, 0x359797a2, 0x884444cc, 0x2e171739,
  0x93c4c457, 0x55a7a7f2, 0xfc7e7e82, 0x7a3d3d47, 0xc86464ac, 0xba5d5de7, 0x3219192b, 0xe6737395,
  0xc06060a0, 0x19818198, 0x9e4f4fd1, 0xa3dcdc7f, 0x44222266, 0x542a2a7e, 0x3b9090ab, 0x0b888883,
  0x8c4646ca, 0xc7eeee29, 0x6bb8b8d3, 0x2814143c, 0xa7dede79, 0xbc5e5ee2, 0x160b0b1d, 0xaddbdb76,
  0xdbe0e03b, 0x64323256, 0x743a3a4e, 0x140a0a1e, 0x924949db, 0x0c06060a, 0x4824246c, 0xb85c5ce4,
  0x9fc2c25d, 0xbdd3d36e, 0x43acacef, 0xc46262a6, 0x399191a8, 0x319595a4, 0xd3e4e437, 0xf279798b,
  0xd5e7e732, 0x8bc8c843, 0x6e373759, 0xda6d6db7, 0x018d8d8c, 0xb1d5d564, 0x9c4e4ed2, 0x49a9a9e0,
  0xd86c6cb4, 0xac5656fa, 0xf3f4f407, 0xcfeaea25, 0xca6565af, 0xf47a7a8e, 0x47aeaee9, 0x10080818,
  0x6fbabad5, 0xf0787888, 0x4a25256f, 0x5c2e2e72, 0x381c1c24, 0x57a6a6f1, 0x73b4b4c7, 0x97c6c651,
  0xcbe8e823, 0xa1dddd7c, 0xe874749c, 0x3e1f1f21, 0x964b4bdd, 0x61bdbddc, 0x0d8b8b86, 0x0f8a8a85,
  0xe0707090, 0x7c3e3e42, 0x71b5b5c4, 0xcc6666aa, 0x904848d8, 0x06030305, 0xf7f6f601, 0x1c0e0e12,
  0xc26161a3, 0x6a35355f, 0xae5757f9, 0x69b9b9d0, 0x17868691, 0x99c1c158, 0x3a1d1d27, 0x279e9eb9,
  0xd9e1e138, 0xebf8f813, 0x2b9898b3, 0x22111133, 0xd26969bb, 0xa9d9d970, 0x078e8e89, 0x339494a7,
  0x2d9b9bb6, 0x3c1e1e22, 0x15878792, 0xc9e9e920, 0x87cece49, 0xaa5555ff, 0x50282878, 0xa5dfdf7a,
  0x038c8c8f, 0x59a1a1f8, 0x09898980, 0x1a0d0d17, 0x65bfbfda, 0xd7e6e631, 0x844242c6, 0xd06868b8,
  0x824141c3, 0x299999b0, 0x5a2d2d77, 0x1e0f0f11, 0x7bb0b0cb, 0xa85454fc, 0x6dbbbbd6, 0x2c16163a]

def rcons : List UInt8 := [0x01, 0x02, 0x04, 0x08, 0x10, 0x20, 0x40, 0x80, 0x1b, 0x36]

def rotr (val bits : UInt32) : UInt32 := val >>> bits ||| val <<< (32 - bits)

/-- `Te0[(i >> s) & 0xff]` -/
def te0At (i s : UInt32) : UInt32 := te0.getD (i >>> s &&& 0xff).toNat 0

def TE0 (i : UInt32) : UInt32 := te0At i 24
def TE1 (i : UInt32) : UInt32 := rotr (te0At i 16) 8
def TE2 (i : UInt32) : UInt32 := rotr (te0At i 8) 16
def TE3 (i : UInt32) : UInt32 := rotr (te0At i 0) 24
def TE41 (i : UInt32) : UInt32 := te0At i 24 <<< 8 &&& 0xff000000
def TE42 (i : UInt32) : UInt32 := te0At i 16 &&& 0x00ff0000
def TE43 (i : UInt32) : UInt32 := te0At i 8 &&& 0x0000ff00
def TE44 (i : UInt32) : UInt32 := te0At i 0 >>> 8 &&& 0x000000ff
def TE421 (i : UInt32) : UInt32 := te0At i 16 <<< 8 &&& 0xff000000
def TE432 (i : UInt32) : UInt32 := te0At i 8 &&& 0x00ff0000
def TE443 (i : UInt32) : UInt32 := te0At i 0 &&& 0x0000ff00
def TE414 (i : UInt32) : UInt32 := te0At i 24 >>> 8 &&& 0x000000ff
def TE411 (i : UInt32) : UInt32 := te0At i 24 <<< 8 &&& 0xff000000
def TE422 (i : UInt32) : UInt32 := te0At i 16 &&& 0x00ff0000
def TE433 (i : UInt32) : UInt32 := te0At i 8 &&& 0x0000ff00
def TE444 (i : UInt32) : UInt32 := te0At i 0 >>> 8 &&& 0x000000ff

/-- `RCON` -/
def rconAt (i : Nat) : UInt32 := (rcons.getD i 0).toUInt32 <<< 24

/-- `GETU32` at byte `i` -/
def getu32 (pt : List UInt8) (i : Nat) : UInt32 :=
  (pt.getD i 0).toUInt32 <<< 24 ^^^ (pt.getD (i + 1) 0).toUInt32 <<< 16
    ^^^ (pt.getD (i + 2) 0).toUInt32 <<< 8 ^^^ (pt.getD (i + 3) 0).toUInt32

/-- `PUTU32` -/
def putu32 (st : UInt32) : List UInt8 :=
  [(st >>> 24).toUInt8, (st >>> 16).toUInt8, (st >>> 8).toUInt8, st.toUInt8]

/-! ## round keys -/

/-- the words of `cipherKey` -/
def keyWords (cipherKey : List UInt8) (n : Nat) : List UInt32 :=
  (List.range n).map fun i => getu32 cipherKey (4 * i)

/-- what is added to `rk[0]` for the first word of turn `i` -/
def rotTemp (temp : UInt32) (i : Nat) : UInt32 :=
  TE421 temp ^^^ TE432 temp ^^^ TE443 temp ^^^ TE414 temp ^^^ rconAt i

def keyTurn128 (rk : List UInt32) (i : Nat) : List UInt32 :=
  let p j := rk.getD (4 * i + j) 0
  let w4 := p 0 ^^^ rotTemp (p 3) i
  let w5 := p 1 ^^^ w4
  let w6 := p 2 ^^^ w5
  let w7 := p 3 ^^^ w6
  rk ++ [w4, w5, w6, w7]

def keyTurn192 (rk : List UInt32) (i : Nat) : List UInt32 :=
  let p j := rk.getD (6 * i + j) 0
  let w6 := p 0 ^^^ rotTemp (p 5) i
  let w7 := p 1 ^^^ w6
  let w8 := p 2 ^^^ w7
  let w9 := p 3 ^^^ w8
  let w10 := p 4 ^^^ w9
  let w11 := p 5 ^^^ w10
  rk ++ if i = 7 then [w6, w7, w8, w9] else [w6, w7, w8, w9, w10, w11]

def keyTurn256 (rk : List UInt32) (i : Nat) : List UInt32 :=
  let p j := rk.getD (8 * i + j) 0
  let w8 := p 0 ^^^ rotTemp (p 7) i
  let w9 := p 1 ^^^ w8
  let w10 := p 2 ^^^ w9
  let w11 := p 3 ^^^ w10
  let w12 := p 4 ^^^ (TE411 w11 ^^^ TE422 w11 ^^^ TE433 w11 ^^^ TE444 w11)
  let w13 := p 5 ^^^ w12
  let w14 := p 6 ^^^ w13
  let w15 := p 7 ^^^ w14
  rk ++ if i = 6 then [w8, w9, w10, w11] else [w8, w9, w10, w11, w12, w13, w14, w15]

/-- the round keys and their number; `none` is `-1` -/
def rijndaelKeySetupEnc (cipherKey : List UInt8) (keyBits : Nat) : Option (List UInt32 × Nat) :=
  if keyBits = 128 then some ((List.range 10).foldl keyTurn128 (keyWords cipherKey 4), 10)
  else if keyBits = 192 then some ((List.range 8).foldl keyTurn192 (keyWords cipherKey 6), 12)
  else if keyBits = 256 then some ((List.range 7).foldl keyTurn256 (keyWords cipherKey 8), 14)
  else none

/-! ## rounds -/

/-- `s0` .. `s3`, and `t0` .. `t3` -/
structure Quad where
  s0 : UInt32
  s1 : UInt32
  s2 : UInt32
  s3 : UInt32

/-- `ROUND(i, d, s)`, with `rk` moved up by `p` -/
def ROUND (rk : List UInt32) (p i : Nat) (s : Quad) : Quad where
  s0 := TE0 s.s0 ^^^ TE1 s.s1 ^^^ TE2 s.s2 ^^^ TE3 s.s3 ^^^ rk.getD (p + 4 * i) 0
  s1 := TE0 s.s1 ^^^ TE1 s.s2 ^^^ TE2 s.s3 ^^^ TE3 s.s0 ^^^ rk.getD (p + 4 * i + 1) 0
  s2 := TE0 s.s2 ^^^ TE1 s.s3 ^^^ TE2 s.s0 ^^^ TE3 s.s1 ^^^ rk.getD (p + 4 * i + 2) 0
  s3 := TE0 s.s3 ^^^ TE1 s.s0 ^^^ TE2 s.s1 ^^^ TE3 s.s2 ^^^ rk.getD (p + 4 * i + 3) 0

/-- the loop with `r` more turns after this one; the second component is how far `rk` was moved -/
def roundLoop (rk : List UInt32) : Nat → Nat → Quad → Quad × Nat
  | 0, p, s => (ROUND rk p 1 s, p + 8)
  | r + 1, p, s => roundLoop rk r (p + 8) (ROUND rk (p + 8) 0 (ROUND rk p 1 s))

/-- the last round -/
def lastRound (rk : List UInt32) (p : Nat) (t : Quad) : Quad where
  s0 := TE41 t.s0 ^^^ TE42 t.s1 ^^^ TE43 t.s2 ^^^ TE44 t.s3 ^^^ rk.getD p 0
  s1 := TE41 t.s1 ^^^ TE42 t.s2 ^^^ TE43 t.s3 ^^^ TE44 t.s0 ^^^ rk.getD (p + 1) 0
  s2 := TE41 t.s2 ^^^ TE42 t.s3 ^^^ TE43 t.s0 ^^^ TE44 t.s1 ^^^ rk.getD (p + 2) 0
  s3 := TE41 t.s3 ^^^ TE42 t.s0 ^^^ TE43 t.s1 ^^^ TE44 t.s2 ^^^ rk.getD (p + 3) 0

def rijndaelEncrypt (rk : List UInt32) (nr : Nat) (pt : List UInt8) : List UInt8 :=
  let s : Quad :=
    ⟨getu32 pt 0 ^^^ rk.getD 0 0, getu32 pt 4 ^^^ rk.getD 1 0, getu32 pt 8 ^^^ rk.getD 2 0,
      getu32 pt 12 ^^^ rk.getD 3 0⟩
  let t := roundLoop rk (nr / 2 - 1) 0 s
  let ct := lastRound rk t.2 t.1
  putu32 ct.s0 ++ putu32 ct.s1 ++ putu32 ct.s2 ++ putu32 ct.s3

end Aes

open Aes

/-- what `aes_encrypt_init` returns: the round keys, and at `AES_PRIV_NR_POS` their number -/
structure AesCtx where
  rk : List UInt32
  nr : Nat

/-- `len * 8` is passed as an `int` -/
def aesEncryptInit (key : List UInt8) (len : Nat) : Option AesCtx :=
  (rijndaelKeySetupEnc key (len * 8 % 2 ^ 32)).map fun res => ⟨res.1, res.2⟩

def AesCtx.aesEncrypt (ctx : AesCtx) (plain : List UInt8) : List UInt8 :=
  rijndaelEncrypt ctx.rk ctx.nr plain

namespace Aes

/-! ## words as columns -/

def toWord (w : UInt32) : Word :=
  ⟨(w >>> 24).toUInt8, (w >>> 16).toUInt8, (w >>> 8).toUInt8, w.toUInt8⟩

def Quad.toState (s : Quad) : State := ⟨toWord s.s0, toWord s.s1, toWord s.s2, toWord s.s3⟩

theorem toWord_eq {w : UInt32} {a b c d : UInt8}
    (h : ∀ i < 8, w.toBitVec.getLsbD (24 + i) = a.toBitVec.getLsbD i
      ∧ w.toBitVec.getLsbD (16 + i) = b.toBitVec.getLsbD i
      ∧ w.toBitVec.getLsbD (8 + i) = c.toBitVec.getLsbD i
      ∧ w.toBitVec.getLsbD i = d.toBitVec.getLsbD i) : toWord w = ⟨a, b, c, d⟩ := by
  unfold toWord
  congr 1
  all_goals
    apply UInt8.toBitVec_inj.mp
    apply BitVec.eq_of_getLsbD_eq
    intro i hi
    obtain ⟨ha, hb, hc, hd⟩ := h i hi
    simp_all

theorem toWord_xor (a b : UInt32) : toWord (a ^^^ b) = toWord a ^^^ toWord b := by
  simp [toWord, Word.xor_def, UInt32.shiftRight_xor]

section
variable (w : UInt32)

theorem toWord_rotr8 : toWord (rotr w 8)
    = ⟨(toWord w).b3, (toWord w).b0, (toWord w).b1, (toWord w).b2⟩ := by
  apply toWord_eq
  intro i hi
  interval_cases i <;> simp [rotr, toWord]

theorem toWord_rotr16 : toWord (rotr w 16)
    = ⟨(toWord w).b2, (toWord w).b3, (toWord w).b0, (toWord w).b1⟩ := by
  apply toWord_eq
  intro i hi
  interval_cases i <;> simp [rotr, toWord]

theorem toWord_rotr24 : toWord (rotr w 24)
    = ⟨(toWord w).b1, (toWord w).b2, (toWord w).b3, (toWord w).b0⟩ := by
  apply toWord_eq
  intro i hi
  interval_cases i <;> simp [rotr, toWord]

theorem toWord_shl8 : toWord (w <<< 8 &&& 0xff000000) = ⟨(toWord w).b1, 0, 0, 0⟩ := by
  apply toWord_eq
  intro i hi
  interval_cases i <;> simp [toWord]

theorem toWord_and1 : toWord (w &&& 0x00ff0000) = ⟨0, (toWord w).b1, 0, 0⟩ := by
  apply toWord_eq
  intro i hi
  interval_cases i <;> simp [toWord]

theorem toWord_and2 : toWord (w &&& 0x0000ff00) = ⟨0, 0, (toWord w).b2, 0⟩ := by
  apply toWord_eq
  intro i hi
  interval_cases i <;> simp [toWord]

theorem toWord_shr8 : toWord (w >>> 8 &&& 0x000000ff) = ⟨0, 0, 0, (toWord w).b2⟩ := by
  apply toWord_eq
  intro i hi
  interval_cases i <;> simp [toWord]

end

theorem toWord_getu32 (pt : List UInt8) (i : Nat) :
    toWord (getu32 pt i) = ⟨pt.getD i 0, pt.getD (i + 1) 0, pt.getD (i + 2) 0, pt.getD (i + 3) 0⟩ := by
  apply toWord_eq
  intro j hj
  interval_cases j <;> simp [getu32]

/-! ## what is looked up -/

def te0Word (n : Nat) : UInt32 :=
  let s := sbox (.ofNat n)
  (mul s 2).toUInt32 <<< 24 ||| s.toUInt32 <<< 16 ||| s.toUInt32 <<< 8 ||| (mul s 3).toUInt32

theorem te0_eq : te0 = (List.range 256).map te0Word := by decide +kernel

theorem toWord_te0 (b : UInt8) :
    toWord (te0.getD b.toNat 0) = ⟨mul (sbox b) 2, sbox b, sbox b, mul (sbox b) 3⟩ := by
  have hget : te0.getD b.toNat 0 = te0Word b.toNat := by
    rw [te0_eq, List.getD_eq_getElem?_getD, List.getElem?_map,
      List.getElem?_range (by exact b.toNat_lt), Option.map_some, Option.getD_some]
  rw [hget, te0Word, UInt8.ofNat_toNat]
  apply toWord_eq
  intro j hj
  interval_cases j <;> simp

theorem toNat_byte (i s : UInt32) : (i >>> s &&& 0xff).toNat = (i >>> s).toUInt8.toNat := by
  rw [UInt32.toNat_and, UInt32.toNat_toUInt8]
  exact Nat.and_two_pow_sub_one_eq_mod _ 8

section
variable (i : UInt32)

theorem toWord_te0At (s : UInt32) : toWord (te0At i s)
    = ⟨mul (sbox (i >>> s).toUInt8) 2, sbox (i >>> s).toUInt8, sbox (i >>> s).toUInt8,
      mul (sbox (i >>> s).toUInt8) 3⟩ := by
  unfold te0At
  rw [toNat_byte, toWord_te0]

theorem toUInt8_shiftRight_zero : (i >>> 0).toUInt8 = (toWord i).b3 := by
  simp [toWord]

/-- the four words of a round are a mixed column -/
theorem toWord_TE (s0 s1 s2 s3 : UInt32) : toWord (TE0 s0 ^^^ TE1 s1 ^^^ TE2 s2 ^^^ TE3 s3)
    = (⟨(toWord s0).b0, (toWord s1).b1, (toWord s2).b2, (toWord s3).b3⟩ : Word).sub.mix := by
  unfold TE0 TE1 TE2 TE3
  simp only [toWord_xor, toWord_rotr8, toWord_rotr16, toWord_rotr24, toWord_te0At,
    toUInt8_shiftRight_zero]
  simp only [Word.xor_def, Word.mix, Word.sub, toWord]

/-- those of the last round one that is not mixed -/
theorem toWord_TE4 (s0 s1 s2 s3 : UInt32) : toWord (TE41 s0 ^^^ TE42 s1 ^^^ TE43 s2 ^^^ TE44 s3)
    = (⟨(toWord s0).b0, (toWord s1).b1, (toWord s2).b2, (toWord s3).b3⟩ : Word).sub := by
  unfold TE41 TE42 TE43 TE44
  simp only [toWord_xor, toWord_shl8, toWord_and1, toWord_and2, toWord_shr8, toWord_te0At,
    toUInt8_shiftRight_zero]
  simp [Word.xor_def, Word.sub, toWord]

theorem toWord_sub : toWord (TE411 i ^^^ TE422 i ^^^ TE433 i ^^^ TE444 i) = (toWord i).sub :=
  toWord_TE4 i i i i

theorem toWord_rot_sub : toWord (TE421 i ^^^ TE432 i ^^^ TE443 i ^^^ TE414 i) = (toWord i).rot.sub := by
  unfold TE421 TE432 TE443 TE414
  simp only [toWord_xor, toWord_shl8, toWord_and1, toWord_and2, toWord_shr8, toWord_te0At,
    toUInt8_shiftRight_zero]
  simp [Word.xor_def, Word.sub, Word.rot, toWord]

end

theorem toWord_rconAt {i : Nat} (h : i < 10) : toWord (rconAt i) = rcon (i + 1) := by
  revert i
  decide +kernel

/-! ## the expanded key -/

/-- the words of the key as columns -/
def keyCols (cipherKey : List UInt8) (i : Nat) : Word := toWord (getu32 cipherKey (4 * i))

/-- every word that was written is that of the expanded key -/
def Expands (w : Nat → Word) (rk : List UInt32) : Prop := ∀ j < rk.length, toWord (rk.getD j 0) = w j

theorem length_keyWords (key : List UInt8) (n : Nat) : (keyWords key n).length = n := by
  unfold keyWords
  rw [List.length_map, List.length_range]

theorem expands_keyWords (key : List UInt8) (n : Nat) :
    Expands (keyWord n (keyCols key)) (keyWords key n) := by
  intro j hj
  rw [length_keyWords] at hj
  rw [keyWord_lt hj]
  unfold keyWords keyCols
  rw [List.getD_eq_getElem?_getD, List.getElem?_map, List.getElem?_range hj, Option.map_some, Option.getD_some]

section
variable {key : Nat → Word} {nk n : Nat}

/-- the first word of a turn -/
theorem keyWord_turn (h0 : 0 < nk) : keyWord nk key (nk * n + nk)
    = keyWord nk key (nk * n) ^^^ ((keyWord nk key (nk * n + (nk - 1))).rot.sub ^^^ rcon (n + 1)) := by
  rw [keyWord_add h0, Nat.add_sub_assoc h0]
  unfold keyTemp
  have hmul : nk * n + nk = nk * (n + 1) := (Nat.mul_succ nk n).symm
  rw [if_pos (by rw [hmul, Nat.mul_mod_right]), hmul, Nat.mul_div_cancel_left _ h0]

/-- the others -/
theorem keyWord_next {j : Nat} (hlt : j + 1 < nk) : keyWord nk key (nk * n + nk + (j + 1))
    = keyWord nk key (nk * n + (j + 1)) ^^^
      (if 6 < nk ∧ j + 1 = 4 then (keyWord nk key (nk * n + nk + j)).sub
        else keyWord nk key (nk * n + nk + j)) := by
  have hmod : (nk * n + (j + 1) + nk) % nk = j + 1 := by
    rw [Nat.add_mod_right, Nat.mul_add_mod, Nat.mod_eq_of_lt hlt]
  have hprev : nk * n + (j + 1) + nk - 1 = nk * n + nk + j := by omega
  rw [Nat.add_right_comm, keyWord_add (by omega), hprev]
  unfold keyTemp
  rw [hmod, if_neg (by omega)]

variable {rk l : List UInt32}

/-- a turn that writes `l`: every word is made of the one before it and that `nk` places back -/
theorem Expands.turn (h : Expands (keyWord nk key) rk) (h0 : 0 < nk) (hlen : rk.length = nk * n + nk)
    (hle : l.length ≤ nk)
    (hfirst : toWord (l.getD 0 0) = toWord (rk.getD (nk * n + 0) 0)
      ^^^ ((toWord (rk.getD (nk * n + (nk - 1)) 0)).rot.sub ^^^ rcon (n + 1)))
    (hnext : ∀ j, j + 1 < l.length → toWord (l.getD (j + 1) 0) = toWord (rk.getD (nk * n + (j + 1)) 0)
      ^^^ (if 6 < nk ∧ j + 1 = 4 then (toWord (l.getD j 0)).sub else toWord (l.getD j 0))) :
    Expands (keyWord nk key) (rk ++ l) := by
  have hnew : ∀ j < l.length, toWord (l.getD j 0) = keyWord nk key (nk * n + nk + j) := by
    intro j
    induction j with
    | zero =>
      intro _
      rw [hfirst, h _ (by omega), h _ (by omega)]
      exact (keyWord_turn h0).symm
    | succ j ih =>
      intro hj
      rw [hnext j hj, h _ (by omega), ih (by omega), keyWord_next (by omega)]
  intro j hj
  rw [List.length_append] at hj
  by_cases hlt : j < rk.length
  · rw [List.getD_append _ _ _ _ hlt]
    exact h j hlt
  · rw [List.getD_append_right _ _ _ _ (by omega), hnew _ (by omega)]
    congr 1
    omega

end

theorem toWord_rotTemp (temp : UInt32) {i : Nat} (h : i < 10) :
    toWord (rotTemp temp i) = (toWord temp).rot.sub ^^^ rcon (i + 1) := by
  unfold rotTemp
  rw [toWord_xor, toWord_rot_sub, toWord_rconAt h]

section
variable {key : Nat → Word} {rk : List UInt32} {i : Nat}

theorem keyTurn128_expands (hi : i < 10) (hlen : rk.length = 4 * i + 4)
    (h : Expands (keyWord 4 key) rk) :
    Expands (keyWord 4 key) (keyTurn128 rk i) ∧ (keyTurn128 rk i).length = 4 * (i + 1) + 4 := by
  unfold keyTurn128
  extract_lets p w4 w5 w6 w7
  refine ⟨h.turn (by omega) hlen (le_refl 4) ?_ ?_, by rw [List.length_append, hlen]; rfl⟩
  · show toWord (p 0 ^^^ rotTemp (p 3) i) = _
    rw [toWord_xor, toWord_rotTemp _ hi]
  · intro j hj
    have h3 : j < 3 := Nat.lt_of_succ_lt_succ hj
    rw [if_neg (by omega)]
    interval_cases j <;> exact toWord_xor _ _

theorem keyTurn192_expands (hi : i < 8) (hlen : rk.length = 6 * i + 6)
    (h : Expands (keyWord 6 key) rk) : Expands (keyWord 6 key) (keyTurn192 rk i)
      ∧ (keyTurn192 rk i).length = 6 * (i + 1) + if i = 7 then 4 else 6 := by
  unfold keyTurn192
  extract_lets p w6 w7 w8 w9 w10 w11
  have hfirst : toWord w6 = toWord (p 0) ^^^ ((toWord (p 5)).rot.sub ^^^ rcon (i + 1)) := by
    rw [← toWord_rotTemp _ (by omega : i < 10), ← toWord_xor]
  split
  · refine ⟨h.turn (by omega) hlen (by show 4 ≤ 6; omega) hfirst ?_, by rw [List.length_append, hlen]; rfl⟩
    intro j hj
    have h3 : j < 3 := Nat.lt_of_succ_lt_succ hj
    rw [if_neg (by omega)]
    interval_cases j <;> exact toWord_xor _ _
  · refine ⟨h.turn (by omega) hlen (le_refl 6) hfirst ?_, by rw [List.length_append, hlen]; rfl⟩
    intro j hj
    have h5 : j < 5 := Nat.lt_of_succ_lt_succ hj
    rw [if_neg (by omega)]
    interval_cases j <;> exact toWord_xor _ _

theorem keyTurn256_expands (hi : i < 7) (hlen : rk.length = 8 * i + 8)
    (h : Expands (keyWord 8 key) rk) : Expands (keyWord 8 key) (keyTurn256 rk i)
      ∧ (keyTurn256 rk i).length = 8 * (i + 1) + if i = 6 then 4 else 8 := by
  unfold keyTurn256
  extract_lets p w8 w9 w10 w11 w12 w13 w14 w15
  have hfirst : toWord w8 = toWord (p 0) ^^^ ((toWord (p 7)).rot.sub ^^^ rcon (i + 1)) := by
    rw [← toWord_rotTemp _ (by omega : i < 10), ← toWord_xor]
  have hfifth : toWord w12 = toWord (p 4) ^^^ (toWord w11).sub := by
    rw [← toWord_sub, ← toWord_xor]
  split
  · refine ⟨h.turn (by omega) hlen (by show 4 ≤ 8; omega) hfirst ?_, by rw [List.length_append, hlen]; rfl⟩
    intro j hj
    have h3 : j < 3 := Nat.lt_of_succ_lt_succ hj
    rw [if_neg (by omega)]
    interval_cases j <;> exact toWord_xor _ _
  · refine ⟨h.turn (by omega) hlen (le_refl 8) hfirst ?_, by rw [List.length_append, hlen]; rfl⟩
    intro j hj
    have h7 : j < 7 := Nat.lt_of_succ_lt_succ hj
    by_cases h4 : j + 1 = 4
    · obtain rfl : j = 3 := by omega
      rw [if_pos (by decide)]
      exact hfifth
    · rw [if_neg (by omega)]
      interval_cases j <;> first | exact toWord_xor _ _ | exact absurd rfl h4

end

/-- a loop over `turn` that begins with the words of the key -/
theorem foldl_expands {W : Nat → Word} {turn : List UInt32 → Nat → List UInt32} {L : Nat → Nat} {N : Nat}
    (hturn : ∀ rk i, i < N → rk.length = L i → Expands W rk →
      Expands W (turn rk i) ∧ (turn rk i).length = L (i + 1))
    {rk : List UInt32} (hlen : rk.length = L 0) (h : Expands W rk) :
    Expands W ((List.range N).foldl turn rk) ∧ ((List.range N).foldl turn rk).length = L N := by
  have hrun : ∀ n ≤ N, Expands W ((List.range n).foldl turn rk)
      ∧ ((List.range n).foldl turn rk).length = L n := by
    intro n
    induction n with
    | zero => exact fun _ => ⟨h, hlen⟩
    | succ n ih =>
      intro hn
      have hlast := ih (by omega)
      rw [List.range_succ, List.foldl_append]
      exact hturn _ n (by omega) hlast.2 hlast.1
  exact hrun N (le_refl N)

/-- a key of `nk` words is expanded to `4 * (numRounds nk + 1)` -/
theorem rijndaelKeySetupEnc_eq (key : List UInt8) {nk : Nat} (h : nk = 4 ∨ nk = 6 ∨ nk = 8) :
    ∃ rk, rijndaelKeySetupEnc key (32 * nk) = some (rk, numRounds nk)
      ∧ rk.length = 4 * (numRounds nk + 1) ∧ Expands (keyWord nk (keyCols key)) rk := by
  rcases h with rfl | rfl | rfl
  · have hall := foldl_expands (L := fun i => 4 * i + 4)
      (fun rk i hi hlen hrk => keyTurn128_expands hi hlen hrk)
      (length_keyWords key 4) (expands_keyWords key 4)
    exact ⟨_, rfl, hall.2, hall.1⟩
  · have hall := foldl_expands (L := fun i => if i = 8 then 52 else 6 * i + 6) (N := 8)
      (fun rk i hi hlen hrk => by
        rw [if_neg (by omega)] at hlen
        refine ⟨(keyTurn192_expands hi hlen hrk).1, (keyTurn192_expands hi hlen hrk).2.trans ?_⟩
        split <;> split <;> omega)
      (length_keyWords key 6) (expands_keyWords key 6)
    exact ⟨_, rfl, hall.2, hall.1⟩
  · have hall := foldl_expands (L := fun i => if i = 7 then 60 else 8 * i + 8) (N := 7)
      (fun rk i hi hlen hrk => by
        rw [if_neg (by omega)] at hlen
        refine ⟨(keyTurn256_expands hi hlen hrk).1, (keyTurn256_expands hi hlen hrk).2.trans ?_⟩
        split <;> split <;> omega)
      (length_keyWords key 8) (expands_keyWords key 8)
    exact ⟨_, rfl, hall.2, hall.1⟩

theorem rijndaelKeySetupEnc_none (key : List UInt8) {keyBits : Nat}
    (h : ¬(keyBits = 128 ∨ keyBits = 192 ∨ keyBits = 256)) : rijndaelKeySetupEnc key keyBits = none := by
  unfold rijndaelKeySetupEnc
  rw [if_neg (fun hk => h (Or.inl hk)), if_neg (fun hk => h (Or.inr (Or.inl hk))),
    if_neg (fun hk => h (Or.inr (Or.inr hk)))]

/-! ## the state -/

section
variable {w : Nat → Word} {rk : List UInt32} {p i r : Nat}

theorem ROUND_toState (hw : ∀ c < 4, toWord (rk.getD (p + 4 * i + c) 0) = w (4 * r + c)) (s : Quad) :
    (ROUND rk p i s).toState = s.toState.subBytes.shiftRows.mixColumns.addRoundKey w r := by
  have h0 := hw 0 (by omega)
  have h1 := hw 1 (by omega)
  have h2 := hw 2 (by omega)
  have h3 := hw 3 (by omega)
  unfold ROUND Quad.toState
  simp only [toWord_xor (TE0 _ ^^^ TE1 _ ^^^ TE2 _ ^^^ TE3 _), toWord_TE, h1, h2, h3]
  rw [← Nat.add_zero (p + 4 * i), h0]
  rfl

theorem lastRound_toState (hw : ∀ c < 4, toWord (rk.getD (p + c) 0) = w (4 * r + c)) (s : Quad) :
    (lastRound rk p s).toState = s.toState.subBytes.shiftRows.addRoundKey w r := by
  have h0 := hw 0 (by omega)
  have h1 := hw 1 (by omega)
  have h2 := hw 2 (by omega)
  have h3 := hw 3 (by omega)
  unfold lastRound Quad.toState
  simp only [toWord_xor (TE41 _ ^^^ TE42 _ ^^^ TE43 _ ^^^ TE44 _), toWord_TE4, h1, h2, h3]
  rw [← Nat.add_zero p, h0]
  rfl

/-- a turn is two rounds; `rk` has moved by the words of both -/
theorem roundLoop_toState {s0 : State} (n : Nat) : ∀ {k : Nat} {s : Quad},
    (∀ j < 8 * (k + n + 1), toWord (rk.getD j 0) = w j) → s.toState = rounds w s0 (2 * k) →
    (roundLoop rk n (8 * k) s).1.toState = rounds w s0 (2 * (k + n) + 1)
      ∧ (roundLoop rk n (8 * k) s).2 = 8 * (k + n + 1) := by
  induction n with
  | zero =>
    intro k s hw hs
    refine ⟨?_, rfl⟩
    have hround : (ROUND rk (8 * k) 1 s).toState
        = s.toState.subBytes.shiftRows.mixColumns.addRoundKey w (2 * k + 1) :=
      ROUND_toState (fun c hc => by rw [hw _ (by omega)]; congr 1; omega) s
    rw [hs] at hround
    exact hround
  | succ n ih =>
    intro k s hw hs
    have hodd : (ROUND rk (8 * k) 1 s).toState
        = s.toState.subBytes.shiftRows.mixColumns.addRoundKey w (2 * k + 1) :=
      ROUND_toState (fun c hc => by rw [hw _ (by omega)]; congr 1; omega) s
    have heven : (ROUND rk (8 * k + 8) 0 (ROUND rk (8 * k) 1 s)).toState
        = (ROUND rk (8 * k) 1 s).toState.subBytes.shiftRows.mixColumns.addRoundKey w (2 * k + 2) :=
      ROUND_toState (fun c hc => by rw [hw _ (by omega)]; congr 1; omega) _
    rw [hodd, hs] at heven
    have hrest := ih (k := k + 1) (fun j hj => hw j (by omega)) heven
    rw [show 2 * (k + 1 + n) + 1 = 2 * (k + (n + 1)) + 1 by omega,
      show 8 * (k + 1 + n + 1) = 8 * (k + (n + 1) + 1) by omega] at hrest
    exact hrest

end

theorem rijndaelEncrypt_eq {w : Nat → Word} {rk : List UInt32} {nr : Nat} (hnr : 2 ≤ nr) (heven : nr % 2 = 0)
    (hlen : rk.length = 4 * (nr + 1)) (h : Expands w rk) (pt : List UInt8) :
    rijndaelEncrypt rk nr pt = (cipher nr w (State.ofBytes pt)).bytes := by
  unfold rijndaelEncrypt
  extract_lets s t ct
  have hs : s.toState = rounds w (State.ofBytes pt) 0 := by
    have hrk : ∀ j < 4, toWord (rk.getD j 0) = w j := fun j hj => h j (by omega)
    unfold s Quad.toState
    simp only [toWord_xor, toWord_getu32, hrk 0 (by omega), hrk 1 (by omega), hrk 2 (by omega),
      hrk 3 (by omega)]
    rfl
  have ht := roundLoop_toState (k := 0) (nr / 2 - 1) (fun j hj => h j (by omega)) hs
  have hct : ct.toState = cipher nr w (State.ofBytes pt) := by
    have hp : t.2 = 4 * nr := ht.2.trans (by omega)
    have hlast : ct.toState = t.1.toState.subBytes.shiftRows.addRoundKey w nr :=
      lastRound_toState (fun c hc => by rw [hp, h _ (by omega)]) t.1
    rw [show t.1.toState = rounds w (State.ofBytes pt) (nr - 1) from
      ht.1.trans (congrArg _ (by omega))] at hlast
    exact hlast
  rw [← hct]
  rfl

/-- the lengths for which `aes_encrypt_init` returns a context -/
def KeyLen (len : Nat) : Prop := len % 2 ^ 29 = 16 ∨ len % 2 ^ 29 = 24 ∨ len % 2 ^ 29 = 32

instance (len : Nat) : Decidable (KeyLen len) := inferInstanceAs (Decidable (_ ∨ _))

end Aes

theorem aesEncryptInit_isSome (key : List UInt8) (len : Nat) :
    (aesEncryptInit key len).isSome = true ↔ KeyLen len := by
  unfold aesEncryptInit KeyLen
  by_cases h : len * 8 % 2 ^ 32 = 128 ∨ len * 8 % 2 ^ 32 = 192 ∨ len * 8 % 2 ^ 32 = 256
  · have hnk : ∃ nk, (nk = 4 ∨ nk = 6 ∨ nk = 8) ∧ len * 8 % 2 ^ 32 = 32 * nk := by
      rcases h with h | h | h
      exacts [⟨4, by omega, h⟩, ⟨6, by omega, h⟩, ⟨8, by omega, h⟩]
    obtain ⟨nk, hnk, hbits⟩ := hnk
    obtain ⟨rk, hrk, -⟩ := rijndaelKeySetupEnc_eq key hnk
    rw [hbits, hrk]
    exact ⟨fun _ => by omega, fun _ => rfl⟩
  · rw [rijndaelKeySetupEnc_none key h]
    exact ⟨fun hc => absurd hc Bool.false_ne_true, fun hk => by omega⟩

/-- the whole of it, for the three lengths of a key -/
theorem aesEncrypt_cipher (key : List UInt8) (len : Nat) :
    (aesEncryptInit key len).map AesCtx.aesEncrypt
      = if KeyLen len then
          let nk := len % 2 ^ 29 / 4
          some fun plain =>
            (cipher (numRounds nk) (keyWord nk (keyCols key)) (State.ofBytes plain)).bytes
        else none := by
  by_cases h : KeyLen len
  · rw [if_pos h]
    unfold KeyLen at h
    have hnk : len % 2 ^ 29 / 4 = 4 ∨ len % 2 ^ 29 / 4 = 6 ∨ len % 2 ^ 29 / 4 = 8 := by omega
    have hbits : len * 8 % 2 ^ 32 = 32 * (len % 2 ^ 29 / 4) := by omega
    obtain ⟨rk, hrk, hlen, hexp⟩ := rijndaelKeySetupEnc_eq key hnk
    unfold aesEncryptInit
    rw [hbits, hrk]
    refine congrArg some (funext fun plain => ?_)
    unfold numRounds at hlen ⊢
    exact rijndaelEncrypt_eq (by omega) (by omega) hlen hexp plain
  · rw [if_neg h]
    have hnone : aesEncryptInit key len = none := by
      have hs := (aesEncryptInit_isSome key len).not.mpr h
      simpa using hs
    rw [hnone]
    rfl

theorem AesCtx.length_aesEncrypt (ctx : AesCtx) (plain : List UInt8) :
    (ctx.aesEncrypt plain).length = 16 := rfl

end Rtl8192eu
