import Rtl8192eu.Lib.Mem

/-!
# The traffic indication map

`rtw_set_tim_ie` of `core/rtw_ap.c` writes the TIM element: it leaves away the octets of the bitmap
in front of the first one that is not zero (an even number of them) and those behind the last one.

* `rtwSetTimIe`   the bytes of the element, and the `u8` that is returned;
* `Indicated`, `group` what a station reads in them;
* `timRange_spec`   what the two searches find;
* `tim_roundTrip_iff`   when the bitmap comes back, with the right length.
-/

namespace Rtl8192eu

open Mem

namespace Tim

/-- `rtw_bmp_is_set` -/
def rtwBmpIsSet (bmp : Nat → UInt8) (len id : Nat) : Bool :=
  if len ≤ id / 8 then false else (bmp (id / 8)).toNat.testBit (id % 8)

/-- `rtw_bmp_not_empty`, of the `n` octets from `i` on -/
def rtwBmpNotEmpty (bmp : Nat → UInt8) : Nat → Nat → Bool
  | 0, _ => false
  | n + 1, i => if bmp i ≠ 0 then true else rtwBmpNotEmpty bmp n (i + 1)

/-- the first octet that is not zero, among the `n` from `i` on -/
def firstOctet (bmp : Nat → UInt8) : Nat → Nat → Nat
  | 0, i => i
  | n + 1, i => if bmp i ≠ 0 then i else firstOctet bmp n (i + 1)

/-- the last one, except octet 0 -/
def lastOctet (bmp : Nat → UInt8) : Nat → Nat
  | 0 => 0
  | i + 1 => if bmp (i + 1) ≠ 0 then i + 1 else lastOctet bmp i

/-- `n1` and `bmp_len` -/
def timRange (bmp : Nat → UInt8) (len : Nat) : Nat × Nat :=
  if rtwBmpNotEmpty bmp len 0 then
    let n1 := firstOctet bmp len 0 &&& 0xFE
    (n1, lastOctet bmp (len - 1) - n1 + 1)
  else (0, 1)

def wlanEidTim : UInt8 := 5

/-- the bitmap control octet -/
def bmpControl (bmp : Nat → UInt8) (len : Nat) : UInt8 :=
  (if rtwBmpIsSet bmp len 0 then 1 else 0) ||| UInt8.ofNat (timRange bmp len).1

/-- the element, and the return value -/
def rtwSetTimIe (dtimCnt dtimPeriod : UInt8) (bmp : Nat → UInt8) (len : Nat) : List UInt8 × UInt8 :=
  let r := timRange bmp len
  ([wlanEidTim, UInt8.ofNat (2 + 1 + r.2), dtimCnt, dtimPeriod, bmpControl bmp len] ++ read bmp r.1 r.2,
    UInt8.ofNat (2 + 2 + 1 + r.2))

/-! ## what a station reads -/

def bmpOffset (control : UInt8) : Nat := (control &&& 0xFE).toNat

/-- the traffic indicator of the station with AID `k` -/
def Indicated (control : UInt8) (partialBmp : List UInt8) (k : Nat) : Prop :=
  bmpOffset control ≤ k / 8
    ∧ ∃ octet, partialBmp[k / 8 - bmpOffset control]? = some octet ∧ octet.toNat.testBit (k % 8) = true

/-- that of group addressed frames -/
def group (control : UInt8) : Bool := control &&& 1 == 1

/-- the bit of an AID in the bitmap -/
def InBmp (bmp : Nat → UInt8) (len k : Nat) : Prop := k / 8 < len ∧ (bmp (k / 8)).toNat.testBit (k % 8) = true

/-- the element holds the bitmap, and its size is returned -/
structure RoundTrips (dtimCnt dtimPeriod : UInt8) (bmp : Nat → UInt8) (len : Nat) : Prop where
  decoded : ∃ length control partialBmp,
    (rtwSetTimIe dtimCnt dtimPeriod bmp len).1
        = [wlanEidTim, length, dtimCnt, dtimPeriod, control] ++ partialBmp
      ∧ length.toNat = 3 + partialBmp.length
      ∧ (rtwSetTimIe dtimCnt dtimPeriod bmp len).2.toNat = length.toNat + 2
      ∧ (∀ k, 1 ≤ k → (Indicated control partialBmp k ↔ InBmp bmp len k))
      ∧ group control = rtwBmpIsSet bmp len 0
  /-- octets of the bitmap are copied, and nothing behind it -/
  inside : (timRange bmp len).1 + (timRange bmp len).2 ≤ len

variable {bmp : Nat → UInt8} {len n i k : Nat}

/-! ## the searches -/

theorem rtwBmpNotEmpty_iff : rtwBmpNotEmpty bmp n i = true ↔ ∃ j, i ≤ j ∧ j < i + n ∧ bmp j ≠ 0 := by
  induction n generalizing i with
  | zero =>
    refine iff_of_false Bool.false_ne_true ?_
    rintro ⟨j, h1, h2, -⟩
    omega
  | succ n ih =>
    rw [rtwBmpNotEmpty]
    by_cases h : bmp i ≠ 0
    · rw [if_pos h]
      exact iff_of_true rfl ⟨i, Nat.le_refl i, by omega, h⟩
    · rw [if_neg h, ih]
      constructor
      · rintro ⟨j, h1, h2, h3⟩
        exact ⟨j, by omega, by omega, h3⟩
      · rintro ⟨j, h1, h2, h3⟩
        have hne : j ≠ i := fun he => h (he ▸ h3)
        exact ⟨j, by omega, by omega, h3⟩

/-- it is not zero, unless all are, and none in front of it is -/
theorem firstOctet_spec : (firstOctet bmp n i = i + n ∨ bmp (firstOctet bmp n i) ≠ 0)
    ∧ ∀ j, i ≤ j → j < i + n → bmp j ≠ 0 → firstOctet bmp n i ≤ j := by
  induction n generalizing i with
  | zero => exact ⟨Or.inl rfl, fun j h1 h2 _ => absurd h2 (Nat.not_lt.mpr h1)⟩
  | succ n ih =>
    rw [firstOctet]
    by_cases h : bmp i ≠ 0
    · rw [if_pos h]
      exact ⟨Or.inr h, fun j h1 _ _ => h1⟩
    · rw [if_neg h]
      obtain ⟨hend, hfound⟩ := @ih (i + 1)
      refine ⟨hend.imp_left fun he => by omega, fun j h1 h2 h3 => ?_⟩
      have hne : j ≠ i := fun he => h (he ▸ h3)
      exact hfound j (by omega) (by omega) h3

theorem lastOctet_spec : lastOctet bmp n ≤ n ∧ (∀ j, lastOctet bmp n < j → j ≤ n → bmp j = 0)
    ∧ (lastOctet bmp n = 0 ∨ bmp (lastOctet bmp n) ≠ 0) := by
  induction n with
  | zero => exact ⟨Nat.le_refl 0, fun j h1 h2 => absurd h1 (Nat.not_lt.mpr h2), Or.inl rfl⟩
  | succ n ih =>
    rw [lastOctet]
    by_cases h : bmp (n + 1) ≠ 0
    · rw [if_pos h]
      exact ⟨Nat.le_refl _, fun j h1 h2 => absurd h1 (Nat.not_lt.mpr h2), Or.inr h⟩
    · rw [if_neg h]
      obtain ⟨hle, hzero, hlast⟩ := ih
      refine ⟨by omega, fun j h1 h2 => ?_, hlast⟩
      by_cases hj : j = n + 1
      · rw [hj]
        exact not_not.mp h
      · exact hzero j h1 (by omega)

theorem and_fe (n : Nat) (hn : n < 256) : n &&& 0xFE = n / 2 * 2 := by
  have h : ∀ n < 256, n &&& 0xFE = n / 2 * 2 := by decide +kernel
  exact h n hn

/-- what is copied: at an even octet, and everything that is not zero -/
theorem timRange_spec (hpos : 1 ≤ len) (hlen : len ≤ 251) : (timRange bmp len).1 % 2 = 0
    ∧ 1 ≤ (timRange bmp len).2 ∧ (timRange bmp len).1 + (timRange bmp len).2 ≤ len
    ∧ ∀ j < len, bmp j ≠ 0 → (timRange bmp len).1 ≤ j ∧ j < (timRange bmp len).1 + (timRange bmp len).2 := by
  unfold timRange
  by_cases h : rtwBmpNotEmpty bmp len 0 = true
  · rw [if_pos h]
    obtain ⟨j, -, hj, hne⟩ := rtwBmpNotEmpty_iff.mp h
    rw [Nat.zero_add] at hj
    obtain ⟨-, hfirst⟩ := @firstOctet_spec bmp len 0
    obtain ⟨hle, hzero, -⟩ := @lastOctet_spec bmp (len - 1)
    have hlast : ∀ j < len, bmp j ≠ 0 → j ≤ lastOctet bmp (len - 1) := by
      intro j hj hne
      by_contra hlt
      exact hne (hzero j (by omega) (by omega))
    have h1 := hfirst j (Nat.zero_le j) (by omega) hne
    have h2 := hlast j hj hne
    dsimp only
    rw [and_fe _ (by omega)]
    refine ⟨by omega, by omega, by omega, fun j hj hne => ?_⟩
    have h1 := hfirst j (Nat.zero_le j) (by omega) hne
    have h2 := hlast j hj hne
    omega
  · rw [if_neg h]
    refine ⟨rfl, Nat.le_refl 1, by omega, fun j hj hne => ?_⟩
    exact absurd (rtwBmpNotEmpty_iff.mpr ⟨j, Nat.zero_le j, by omega, hne⟩) h

/-- the whole bitmap is copied, of 251 octets -/
theorem timRange_full : (timRange bmp 251).2 = 251 ↔ (bmp 0 ≠ 0 ∨ bmp 1 ≠ 0) ∧ bmp 250 ≠ 0 := by
  obtain ⟨heven, -, hle, hin⟩ := @timRange_spec bmp 251 (by decide) (Nat.le_refl _)
  constructor
  · intro hfull
    have hn : rtwBmpNotEmpty bmp 251 0 = true := by
      by_contra hno
      unfold timRange at hfull
      rw [if_neg hno] at hfull
      cases hfull
    obtain ⟨hle', -, hlast⟩ := @lastOctet_spec bmp 250
    obtain ⟨hfirst, hfound⟩ := @firstOctet_spec bmp 251 0
    obtain ⟨j, -, hj, hne⟩ := rtwBmpNotEmpty_iff.mp hn
    have hbefore := hfound j (Nat.zero_le j) hj hne
    unfold timRange at hfull
    rw [if_pos hn] at hfull
    dsimp only at hfull
    rw [and_fe _ (by omega)] at hfull
    change lastOctet bmp 250 - _ + 1 = 251 at hfull
    have h250 : lastOctet bmp 250 = 250 := by omega
    have hlow : firstOctet bmp 251 0 = 0 ∨ firstOctet bmp 251 0 = 1 := by omega
    rw [h250] at hlast
    refine ⟨?_, hlast.resolve_left (by decide)⟩
    have hnz := hfirst.resolve_left (by omega)
    rcases hlow with hlow | hlow
    · rw [hlow] at hnz
      exact Or.inl hnz
    · rw [hlow] at hnz
      exact Or.inr hnz
  · rintro ⟨hlow, hhigh⟩
    have h1 := hin 250 (by decide) hhigh
    rcases hlow with hlow | hlow
    · have h2 := hin 0 (by decide) hlow
      omega
    · have h2 := hin 1 (by decide) hlow
      omega

/-! ## the element -/

/-- bit 0 and an even offset do not get into each other's way -/
theorem control_spec (b : Bool) (n : Nat) (hn : n < 256) (heven : n % 2 = 0) :
    bmpOffset ((if b then 1 else 0) ||| UInt8.ofNat n) = n
      ∧ group ((if b then 1 else 0) ||| UInt8.ofNat n) = b := by
  have h : ∀ b : Bool, ∀ n < 256, n % 2 = 0 → bmpOffset ((if b then 1 else 0) ||| UInt8.ofNat n) = n
      ∧ group ((if b then 1 else 0) ||| UInt8.ofNat n) = b := by
    decide +kernel
  exact h b n hn heven

theorem toNat_ofNat_small {n : Nat} (h : n < 256) : (UInt8.ofNat n).toNat = n := by
  rw [UInt8.toNat_ofNat']
  exact Nat.mod_eq_of_lt h

/-- **A station finds the bits of the bitmap**, in the octets that are copied. -/
theorem indicated_iff (hpos : 1 ≤ len) (hlen : len ≤ 251) (k : Nat) :
    Indicated (bmpControl bmp len) (read bmp (timRange bmp len).1 (timRange bmp len).2) k
      ↔ InBmp bmp len k := by
  obtain ⟨heven, -, hle, hin⟩ := @timRange_spec bmp len hpos hlen
  have hoff : bmpOffset (bmpControl bmp len) = (timRange bmp len).1 :=
    (control_spec _ _ (by omega) heven).1
  unfold Indicated InBmp
  rw [hoff]
  constructor
  · rintro ⟨hge, octet, hget, hbit⟩
    obtain ⟨hlt, hoctet⟩ := List.getElem?_eq_some_iff.mp hget
    rw [length_read] at hlt
    rw [getElem_read, Nat.add_sub_cancel' hge] at hoctet
    refine ⟨by omega, ?_⟩
    rw [hoctet]
    exact hbit
  · rintro ⟨hlt, hbit⟩
    have hne : bmp (k / 8) ≠ 0 := by
      intro h0
      rw [h0] at hbit
      simp at hbit
    obtain ⟨hge, hend⟩ := hin (k / 8) hlt hne
    refine ⟨hge, bmp (k / 8), ?_, hbit⟩
    rw [List.getElem?_eq_getElem (by rw [length_read]; omega), getElem_read, Nat.add_sub_cancel' hge]

/-- **The TIM element holds the bitmap**, but the size of the longest one is returned as 0. -/
theorem tim_roundTrip_iff (dtimCnt dtimPeriod : UInt8) (bmp : Nat → UInt8) (len : Nat) (hpos : 1 ≤ len)
    (hlen : len ≤ 251) :
    RoundTrips dtimCnt dtimPeriod bmp len ↔ ¬(len = 251 ∧ (bmp 0 ≠ 0 ∨ bmp 1 ≠ 0) ∧ bmp 250 ≠ 0) := by
  obtain ⟨heven, hone, hle, -⟩ := @timRange_spec bmp len hpos hlen
  have hsize : (timRange bmp len).2 = 251 ↔ len = 251 ∧ (bmp 0 ≠ 0 ∨ bmp 1 ≠ 0) ∧ bmp 250 ≠ 0 := by
    by_cases h : len = 251
    · subst h
      rw [timRange_full]
      exact ⟨fun h => ⟨rfl, h⟩, fun h => h.2⟩
    · exact iff_of_false (by omega) fun hc => h hc.1
  have hlength : (UInt8.ofNat (2 + 1 + (timRange bmp len).2)).toNat = 2 + 1 + (timRange bmp len).2 :=
    toNat_ofNat_small (by omega)
  rw [← hsize]
  constructor
  · rintro ⟨⟨length, control, partialBmp, hbytes, hlen', hret, -⟩, -⟩ hfull
    have hlen251 : length = UInt8.ofNat (2 + 1 + (timRange bmp len).2) := by
      have htail := List.tail_eq_of_cons_eq hbytes
      exact (List.head_eq_of_cons_eq htail).symm
    unfold rtwSetTimIe at hret
    dsimp only at hret
    rw [hlen251, hlength, hfull] at hret
    cases hret
  · intro hfull
    refine ⟨⟨_, _, _, rfl, ?_, ?_, fun k _ => indicated_iff hpos hlen k, ?_⟩, hle⟩
    · rw [hlength, length_read]
    · rw [hlength]
      exact (toNat_ofNat_small (by omega)).trans (by omega)
    · exact (control_spec _ _ (by omega) heven).2

theorem tim_roundTrip_iff_aid : RoundTrips 0 1 (fun i => if i = 3 then 0x40 else 0) 17 :=
  (tim_roundTrip_iff 0 1 (fun i => if i = 3 then 0x40 else 0) 17 (by decide) (by decide)).mpr (by decide)

/-- every bit is set -/
theorem full_tim_returns_zero : ¬RoundTrips 0 1 (fun _ => 0xff) 251 := by
  rintro ⟨⟨length, control, partialBmp, hbytes, hlen, hret, -⟩, -⟩
  have hzero : (rtwSetTimIe 0 1 (fun _ => 0xff) 251).2.toNat = 0 := by decide +kernel
  rw [hzero] at hret
  omega

end Tim

end Rtl8192eu
