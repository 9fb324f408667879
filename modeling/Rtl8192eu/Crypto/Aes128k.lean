import Rtl8192eu.Crypto.AesInternal

/-!
# The block cipher, a byte at a time

`aes128k128d` of `core/rtw_security.c`, the cipher with a key of 128 bits that is there when `NEW_CRYPTO`
is not: the round key is made on the way, and a column is mixed with shifts of its bytes.

* `nextKey`, `byteSub`, `shiftRow`, `mixColumn`   the steps;
* `aes128k128d`   the eleven rounds;
* `aes128k128d_aesEncrypt`   it is `aes_encrypt` for that length of key.
-/

namespace Rtl8192eu

open Rijndael Aes

/-! ## the steps -/

namespace Aes128k

def sboxTable : List UInt8 := [
  0x63, 0x7c, 0x77, 0x7b, 0xf2, 0x6b, 0x6f, 0xc5, 0x30, 0x01, 0x67, 0x2b, 0xfe, 0xd7, 0xab, 0x76,
  0xca, 0x82, 0xc9, 0x7d, 0xfa, 0x59, 0x47, 0xf0, 0xad, 0xd4, 0xa2, 0xaf, 0x9c, 0xa4, 0x72, 0xc0,
  0xb7, 0xfd, 0x93, 0x26, 0x36, 0x3f, 0xf7, 0xcc, 0x34, 0xa5, 0xe5, 0xf1, 0x71, 0xd8, 0x31, 0x15,
  0x04, 0xc7, 0x23, 0xc3, 0x18, 0x96, 0x05, 0x9a, 0x07, 0x12, 0x80, 0xe2, 0xeb, 0x27, 0xb2, 0x75,
  0x09, 0x83, 0x2c, 0x1a, 0x1b, 0x6e, 0x5a, 0xa0, 0x52, 0x3b, 0xd6, 0xb3, 0x29, 0xe3, 0x2f, 0x84,
  0x53, 0xd1, 0x00, 0xed, 0x20, 0xfc, 0xb1, 0x5b, 0x6a, 0xcb, 0xbe, 0x39, 0x4a, 0x4c, 0x58, 0xcf,
  0xd0, 0xef, 0xaa, 0xfb, 0x43, 0x4d, 0x33, 0x85, 0x45, 0xf9, 0x02, 0x7f, 0x50, 0x3c, 0x9f, 0xa8,
  0x51, 0xa3, 0x40, 0x8f, 0x92, 0x9d, 0x38, 0xf5, 0xbc, 0xb6, 0xda, 0x21, 0x10, 0xff, 0xf3, 0xd2,
  0xcd, 0x0c, 0x13, 0xec, 0x5f, 0x97, 0x44, 0x17, 0xc4, 0xa7, 0x7e, 0x3d, 0x64, 0x5d, 0x19, 0x73,
  0x60, 0x81, 0x4f, 0xdc, 0x22, 0x2a, 0x90, 0x88, 0x46, 0xee, 0xb8, 0x14, 0xde, 0x5e, 0x0b, 0xdb,
  0xe0, 0x32, 0x3a, 0x0a, 0x49, 0x06, 0x24, 0x5c, 0xc2, 0xd3, 0xac, 0x62, 0x91, 0x95, 0xe4, 0x79,
  0xe7, 0xc8, 0x37, 0x6d, 0x8d, 0xd5, 0x4e, 0xa9, 0x6c, 0x56, 0xf4, 0xea, 0x65, 0x7a, 0xae, 0x08,
  0xba, 0x78, 0x25, 0x2e, 0x1c, 0xa6, 0xb4, 0xc6, 0xe8, 0xdd, 0x74, 0x1f, 0x4b, 0xbd, 0x8b, 0x8a,
  0x70, 0x3e, 0xb5, 0x66, 0x48, 0x03, 0xf6, 0x0e, 0x61, 0x35, 0x57, 0xb9, 0x86, 0xc1, 0x1d, 0x9e,
  0xe1, 0xf8, 0x98, 0x11, 0x69, 0xd9, 0x8e, 0x94, 0x9b, 0x1e, 0x87, 0xe9, 0xce, 0x55, 0x28, 0xdf,
  0x8c, 0xa1, 0x89, 0x0d, 0xbf, 0xe6, 0x42, 0x68, 0x41, 0x99, 0x2d, 0x0f, 0xb0, 0x54, 0xbb, 0x16]

def sbox (a : UInt8) : UInt8 := sboxTable.getD a.toNat 0

def xor128 (a b : List UInt8) : List UInt8 := (List.range 16).map fun i => a.getD i 0 ^^^ b.getD i 0

def xor32 (a b : List UInt8) : List UInt8 := (List.range 4).map fun i => a.getD i 0 ^^^ b.getD i 0

def rconTable : List UInt8 := [0x01, 0x02, 0x04, 0x08, 0x10, 0x20, 0x40, 0x80, 0x1b, 0x36, 0x36, 0x36]

def nextKey (key : List UInt8) (round : Nat) : List UInt8 :=
  let sboxKey := [sbox (key.getD 13 0), sbox (key.getD 14 0), sbox (key.getD 15 0), sbox (key.getD 12 0)]
  let k0 := xor32 key sboxKey
  let k0 := (k0.getD 0 0 ^^^ rconTable.getD round 0) :: k0.drop 1
  let k4 := xor32 (key.drop 4) k0
  let k8 := xor32 (key.drop 8) k4
  let k12 := xor32 (key.drop 12) k8
  k0 ++ k4 ++ k8 ++ k12

def byteSub (l : List UInt8) : List UInt8 := (List.range 16).map fun i => sbox (l.getD i 0)

def shiftRow (l : List UInt8) : List UInt8 :=
  [0, 5, 10, 15, 4, 9, 14, 3, 8, 13, 2, 7, 12, 1, 6, 11].map fun i => l.getD i 0

/-- the column that begins at byte `c` -/
def mixColumn (l : List UInt8) (c : Nat) : List UInt8 :=
  let x i := l.getD (c + i) 0
  let add1b := (List.range 4).map fun i => if x i &&& 0x80 = 0x80 then (0x1b : UInt8) else 0x00
  let swapHalfs := [x 2, x 3, x 0, x 1]
  let rotl := [x 3, x 0, x 1, x 2]
  let a0 := x 0 &&& 0x7f
  let a1 := x 1 &&& 0x7f
  let a2 := x 2 &&& 0x7f
  let a3 := x 3 &&& 0x7f
  -- the bit that a byte would get from the one before it was muted above
  let shl (a prev : UInt8) : UInt8 :=
    if prev &&& 0x80 = 0x80 then a <<< (1 : UInt8) ||| 0x01 else a <<< (1 : UInt8)
  let andf7 := [a0 <<< (1 : UInt8) &&& 0xfe, shl a1 a0, shl a2 a1, shl a3 a2]
  let add1bf7 := xor32 add1b andf7
  let rotr := xor32 [x 0, x 1, x 2, x 3] add1bf7
  let rotr := [rotr.getD 1 0, rotr.getD 2 0, rotr.getD 3 0, rotr.getD 0 0]
  xor32 (xor32 add1bf7 rotr) (xor32 swapHalfs rotl)

end Aes128k

open Aes128k

/-- rounds 1 to 9 -/
def aes128kRound (s : List UInt8 × List UInt8) (round : Nat) : List UInt8 × List UInt8 :=
  let b := shiftRow (byteSub s.1)
  let a := mixColumn b 0 ++ mixColumn b 4 ++ mixColumn b 8 ++ mixColumn b 12
  (xor128 a s.2, nextKey s.2 round)

/-- the cipher text and the round key are carried through the rounds -/
def aes128k128d (key data : List UInt8) : List UInt8 :=
  let roundKey := (List.range 16).map fun i => key.getD i 0
  let s := (List.range 9).foldl (fun s i => aes128kRound s (i + 1))
    (xor128 roundKey data, nextKey roundKey 0)
  xor128 (shiftRow (byteSub s.1)) s.2

namespace Aes128k

/-! ## the table -/

theorem sboxTable_eq : sboxTable = (List.range 256).map fun n => Rijndael.sbox (.ofNat n) := by
  decide +kernel

theorem sbox_eq (a : UInt8) : sbox a = Rijndael.sbox a := by
  unfold sbox
  rw [sboxTable_eq, List.getD_eq_getElem?_getD, List.getElem?_map, List.getElem?_range (by exact a.toNat_lt),
    Option.map_some, Option.getD_some, UInt8.ofNat_toNat]

theorem toWord_rconTable {i : Nat} (h : i < 10) : (⟨rconTable.getD i 0, 0, 0, 0⟩ : Word) = rcon (i + 1) := by
  revert i
  decide +kernel

theorem double_eq (x : UInt8) : (if x &&& 0x80 = 0x80 then (0x1b : UInt8) else 0x00) ^^^ (x &&& 0x7f) <<< (1 : UInt8)
    = mul x 2 :=
  forall_uint8
    (p := fun x => (if x &&& 0x80 = 0x80 then (0x1b : UInt8) else 0x00) ^^^ (x &&& 0x7f) <<< (1 : UInt8) = mul x 2)
    (by decide +kernel) x

theorem muted (x : UInt8) : ¬((x &&& 0x7f) &&& 0x80 = (0x80 : UInt8)) :=
  forall_uint8 (p := fun x => ¬((x &&& 0x7f) &&& 0x80 = (0x80 : UInt8))) (by decide +kernel) x

theorem shifted (x : UInt8) : ((x &&& 0x7f) <<< (1 : UInt8)) &&& 0xfe = (x &&& 0x7f) <<< (1 : UInt8) :=
  forall_uint8 (p := fun x => ((x &&& 0x7f) <<< (1 : UInt8)) &&& 0xfe = (x &&& 0x7f) <<< (1 : UInt8))
    (by decide +kernel) x

/-! ## the steps on the state -/

section
variable (l key data : List UInt8)

theorem ofBytes_xor128 (a b : List UInt8) : State.ofBytes (xor128 a b)
    = let s := State.ofBytes a
      let k := State.ofBytes b
      ⟨s.c0 ^^^ k.c0, s.c1 ^^^ k.c1, s.c2 ^^^ k.c2, s.c3 ^^^ k.c3⟩ := rfl

theorem ofBytes_byteSub : State.ofBytes (byteSub l) = (State.ofBytes l).subBytes := by
  unfold byteSub
  simp only [sbox_eq]
  rfl

theorem ofBytes_shiftRow : State.ofBytes (shiftRow l) = (State.ofBytes l).shiftRows := rfl

theorem mixColumn_eq (c : Nat) : mixColumn l c
    = (⟨l.getD c 0, l.getD (c + 1) 0, l.getD (c + 2) 0, l.getD (c + 3) 0⟩ : Word).mix.bytes := by
  unfold mixColumn
  extract_lets x add1b swapHalfs rotl a0 a1 a2 a3 shl andf7 add1bf7 rotr rotr'
  have hshl : ∀ i j, shl (x i &&& 0x7f) (x j &&& 0x7f) = (x i &&& 0x7f) <<< (1 : UInt8) :=
    fun i j => if_neg (muted (x j))
  have hadd : add1bf7 = [mul (x 0) 2, mul (x 1) 2, mul (x 2) 2, mul (x 3) 2] := by
    show xor32 add1b [a0 <<< (1 : UInt8) &&& 0xfe, shl a1 a0, shl a2 a1, shl a3 a2] = _
    rw [hshl 1 0, hshl 2 1, hshl 3 2, shifted (x 0), ← double_eq (x 0), ← double_eq (x 1),
      ← double_eq (x 2), ← double_eq (x 3)]
    rfl
  have hrotr : rotr = [mul (x 0) 3, mul (x 1) 3, mul (x 2) 3, mul (x 3) 3] := by
    have h3 : ∀ i, mul (x i) 3 = x i ^^^ mul (x i) 2 :=
      fun i => by rw [mul_three, mul_two, UInt8.xor_comm]
    rw [h3 0, h3 1, h3 2, h3 3]
    show xor32 [x 0, x 1, x 2, x 3] add1bf7 = _
    rw [hadd]
    rfl
  have hrotr' : rotr' = [mul (x 1) 3, mul (x 2) 3, mul (x 3) 3, mul (x 0) 3] := by
    show [rotr.getD 1 0, rotr.getD 2 0, rotr.getD 3 0, rotr.getD 0 0] = _
    rw [hrotr]
    rfl
  rw [hadd, hrotr']
  show [mul (x 0) 2 ^^^ mul (x 1) 3 ^^^ (x 2 ^^^ x 3), mul (x 1) 2 ^^^ mul (x 2) 3 ^^^ (x 3 ^^^ x 0),
    mul (x 2) 2 ^^^ mul (x 3) 3 ^^^ (x 0 ^^^ x 1), mul (x 3) 2 ^^^ mul (x 0) 3 ^^^ (x 1 ^^^ x 2)]
    = [mul (x 0) 2 ^^^ mul (x 1) 3 ^^^ x 2 ^^^ x 3, x 0 ^^^ mul (x 1) 2 ^^^ mul (x 2) 3 ^^^ x 3,
      x 0 ^^^ x 1 ^^^ mul (x 2) 2 ^^^ mul (x 3) 3, mul (x 0) 3 ^^^ x 1 ^^^ x 2 ^^^ mul (x 3) 2]
  congr 1
  · ac_rfl
  congr 1
  · ac_rfl
  congr 1
  · ac_rfl
  congr 1
  ac_rfl

/-- a round before the last -/
theorem ofBytes_aes128kRound (s : List UInt8 × List UInt8) (round : Nat) :
    State.ofBytes (aes128kRound s round).1
      = let k := State.ofBytes s.2
        let m := (State.ofBytes s.1).subBytes.shiftRows.mixColumns
        ⟨m.c0 ^^^ k.c0, m.c1 ^^^ k.c1, m.c2 ^^^ k.c2, m.c3 ^^^ k.c3⟩ := by
  rw [← ofBytes_byteSub, ← ofBytes_shiftRow]
  unfold aes128kRound
  dsimp only
  rw [ofBytes_xor128, mixColumn_eq, mixColumn_eq, mixColumn_eq, mixColumn_eq]
  rfl

end

/-! ## the round key -/

/-- the round key of round `r` -/
def IsRoundKey (w : Nat → Word) (r : Nat) (k : List UInt8) : Prop :=
  State.ofBytes k = ⟨w (4 * r), w (4 * r + 1), w (4 * r + 2), w (4 * r + 3)⟩

theorem ofBytes_nextKey (k : List UInt8) {r : Nat} (hr : r < 10) : State.ofBytes (nextKey k r)
    = let s := State.ofBytes k
      let d0 := s.c0 ^^^ (s.c3.rot.sub ^^^ rcon (r + 1))
      let d1 := s.c1 ^^^ d0
      let d2 := s.c2 ^^^ d1
      ⟨d0, d1, d2, s.c3 ^^^ d2⟩ := by
  have hd0 : (State.ofBytes (nextKey k r)).c0
      = (State.ofBytes k).c0 ^^^ ((State.ofBytes k).c3.rot.sub ^^^ rcon (r + 1)) := by
    rw [← toWord_rconTable hr]
    show (⟨(k.getD 0 0 ^^^ sbox (k.getD 13 0)) ^^^ rconTable.getD r 0, k.getD 1 0 ^^^ sbox (k.getD 14 0),
      k.getD 2 0 ^^^ sbox (k.getD 15 0), k.getD 3 0 ^^^ sbox (k.getD 12 0)⟩ : Word) = _
    simp only [sbox_eq, Word.xor_def, Word.sub, Word.rot, State.ofBytes, UInt8.xor_zero, UInt8.xor_assoc]
  have hnext : State.ofBytes (nextKey k r)
      = let s := State.ofBytes k
        let d0 := (State.ofBytes (nextKey k r)).c0
        ⟨d0, s.c1 ^^^ d0, s.c2 ^^^ (s.c1 ^^^ d0), s.c3 ^^^ (s.c2 ^^^ (s.c1 ^^^ d0))⟩ := by
    simp [State.ofBytes, nextKey, xor32, Word.xor_def, List.range_succ]
  rw [hnext, hd0]

theorem IsRoundKey.next {key : Nat → Word} {r : Nat} {k : List UInt8}
    (h : IsRoundKey (keyWord 4 key) r k) (hr : r < 10) :
    IsRoundKey (keyWord 4 key) (r + 1) (nextKey k r) := by
  unfold IsRoundKey at h ⊢
  have hfirst : keyWord 4 key (4 * r + 4)
      = keyWord 4 key (4 * r) ^^^ ((keyWord 4 key (4 * r + 3)).rot.sub ^^^ rcon (r + 1)) :=
    keyWord_turn (by omega)
  have hnext : ∀ j < 3, keyWord 4 key (4 * r + 4 + (j + 1))
      = keyWord 4 key (4 * r + (j + 1)) ^^^ keyWord 4 key (4 * r + 4 + j) := by
    intro j hj
    rw [keyWord_next (by omega), if_neg (by omega)]
  rw [ofBytes_nextKey k hr, h, Nat.mul_succ, hnext 2 (by omega), hnext 1 (by omega), hnext 0 (by omega),
    hfirst]

/-! ## the rounds -/

theorem isRoundKey_zero (key : List UInt8) :
    IsRoundKey (keyWord 4 (keyCols key)) 0 ((List.range 16).map fun i => key.getD i 0) := by
  unfold IsRoundKey
  rw [keyWord_lt (by omega), keyWord_lt (by omega), keyWord_lt (by omega), keyWord_lt (by omega)]
  unfold keyCols
  rw [toWord_getu32, toWord_getu32, toWord_getu32, toWord_getu32]
  rfl

/-- the rounds before the last, and the round key that is made with each -/
theorem foldl_aes128kRound {key : Nat → Word} {s0 : State} {s : List UInt8 × List UInt8}
    (hs : State.ofBytes s.1 = rounds (keyWord 4 key) s0 0) (hk : IsRoundKey (keyWord 4 key) 1 s.2) :
    ∀ n ≤ 9, State.ofBytes ((List.range n).foldl (fun s i => aes128kRound s (i + 1)) s).1
        = rounds (keyWord 4 key) s0 n
      ∧ IsRoundKey (keyWord 4 key) (n + 1)
        ((List.range n).foldl (fun s i => aes128kRound s (i + 1)) s).2 := by
  intro n
  induction n with
  | zero => exact fun _ => ⟨hs, hk⟩
  | succ n ih =>
    intro hn
    obtain ⟨hst, hkey⟩ := ih (by omega)
    rw [List.range_succ, List.foldl_append]
    refine ⟨?_, hkey.next (by omega)⟩
    show State.ofBytes (aes128kRound _ (n + 1)).1 = _
    rw [ofBytes_aes128kRound, hst, hkey]
    rfl

end Aes128k

theorem bytes_ofBytes {l : List UInt8} (h : l.length = 16) : (State.ofBytes l).bytes = l := by
  apply List.ext_getElem
  · exact h.symm
  · intro i h1 h2
    have hi : i < 16 := h1
    interval_cases i <;> simp [State.ofBytes, State.bytes, Word.bytes, h]

/-- the two ciphers for a key of 128 bits -/
theorem aes128k128d_aesEncrypt (key : List UInt8) :
    (aesEncryptInit key 16).map AesCtx.aesEncrypt = some (aes128k128d key) := by
  have hlen : KeyLen 16 := Or.inl rfl
  rw [aesEncrypt_cipher, if_pos hlen]
  refine congrArg some (funext fun data => ?_)
  let roundKey := (List.range 16).map fun i => key.getD i 0
  have hk0 : IsRoundKey (keyWord 4 (keyCols key)) 0 roundKey := isRoundKey_zero key
  have hs0 : State.ofBytes (xor128 roundKey data)
      = rounds (keyWord 4 (keyCols key)) (State.ofBytes data) 0 := by
    rw [ofBytes_xor128, hk0]
    unfold rounds State.addRoundKey
    dsimp only
    rw [Word.xor_comm (State.ofBytes data).c0, Word.xor_comm (State.ofBytes data).c1,
      Word.xor_comm (State.ofBytes data).c2, Word.xor_comm (State.ofBytes data).c3]
  obtain ⟨hst, hkey⟩ := foldl_aes128kRound (s := (xor128 roundKey data, nextKey roundKey 0)) hs0
    (hk0.next (by omega)) 9 (le_refl 9)
  have hlast : State.ofBytes (aes128k128d key data)
      = cipher 10 (keyWord 4 (keyCols key)) (State.ofBytes data) := by
    unfold aes128k128d cipher
    dsimp only
    rw [ofBytes_xor128, ofBytes_shiftRow, ofBytes_byteSub, hst, hkey]
    rfl
  show (cipher 10 (keyWord 4 (keyCols key)) (State.ofBytes data)).bytes = _
  rw [← hlast, bytes_ofBytes rfl]

end Rtl8192eu
