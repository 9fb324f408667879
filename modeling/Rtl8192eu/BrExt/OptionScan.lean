import Rtl8192eu.BrExt.DbHandle
import Rtl8192eu.Lib.Loop

/-!
# The scanners for tags and options

`__nat25_find_pppoe_tag` and `scan_tlv` go through a packet by the sizes that are in it.  Their loops
are given here with the bytes that a round reads: a read behind the end of the packet ends the loop
with the result `none`.

* `findRound`, `scanRound`   a round of each loop;
* `insertCopies`, `lookupCopies`   the bytes that are copied behind `__nat25_find_pppoe_tag`;
* `PppoeSafe`, `NdSafe`   the loop ends, in the packet, and what was found lies there;
* `ClearTags`, `ClearOpts`   the texts for which it is so;
* `bridgeScan_iff`   and no others.
-/

namespace Rtl8192eu

open Mem Loop

namespace Pppoe

/-! ## PPPoE tags -/

namespace Skb

/-- a round of `__nat25_find_pppoe_tag` at `cur`, which reads `ph->length` and the header of a tag -/
def findRound (s : Skb) (type : Nat) (cur : Nat) : Next Nat (Option (Option Nat)) :=
  if s.len < tag then .stop none
  else if cur < s.phLength then
    if s.len < tag + cur + tagHdrLen then .stop none
    else if get16 s.mem (tag + cur) = type then .stop (some (some (tag + cur)))
    else .again (cur + tagHdrLen + get16 s.mem (tag + cur + 2))
  else .stop (some none)

/-- the tag at `p` is in the packet, with the length it declares -/
def HasTag (s : Skb) (p : Nat) : Prop := p + tagHdrLen + get16 s.mem (p + 2) ≤ s.len

/-- the pieces of the packet that `NAT25_INSERT` copies for the old tag at `p` -/
def insertCopies (s : Skb) (p : Nat) : List (Nat × Nat) :=
  let oldTagLen := get16 s.mem (p + 2)
  if oldTagLen + tagHdrLen + magicCodeLen + rtlRelayTagLen > tagBufLen then []
  else [(p + tagHdrLen, oldTagLen)]

/-- the pieces of the packet that `NAT25_LOOKUP` reads of the relay tag at `p` -/
def lookupCopies (s : Skb) (p : Nat) : List (Nat × Nat) :=
  if get16 s.mem (p + 2) < magicCodeLen + rtlRelayTagLen then []
  else if get16 s.mem (p + tagHdrLen) ≠ magicCode then [(p + tagHdrLen, magicCodeLen)]
  else [(p + tagHdrLen, magicCodeLen), (p + tagHdrLen + magicCodeLen, ethAlen)]

/-- the scan ends with what `__nat25_find_pppoe_tag` returns, has read bytes of the packet only, and
the tag that was found is in the packet, and so is what is copied of it -/
def PppoeSafe (s : Skb) (type : Nat) : Prop :=
  Ends (s.findRound type) 0 (some (s.findPppoeTag type)) ∧
    ∀ p ∈ s.findPppoeTag type,
      s.HasTag p ∧ ∀ x ∈ s.insertCopies p ++ s.lookupCopies p, x.1 + x.2 ≤ s.len

end Skb

/-- the text behind the header, of which `d` bytes are declared: up to the first tag of the type that
is looked for the headers of the declared tags are there, and that tag is complete -/
inductive ClearTags (type : Nat) : Nat → List UInt8 → Prop
  | done {l} : ClearTags type 0 l
  | hit {d l} (t : Tag) (h : t.type = type) : ClearTags type d (t.bytes ++ l)
  | next {d a b c e l} (h : of16 a b ≠ type)
      (hl : ClearTags type (d - (tagHdrLen + of16 c e)) (l.drop (of16 c e))) :
      ClearTags type d (a :: b :: c :: e :: l)

section
variable {type d : Nat} {a b c e : UInt8} {l l' : List UInt8}

theorem Tag.of_head {t : Tag} (h : t.bytes ++ l' = a :: b :: c :: e :: l) :
    t.type = of16 a b ∧ of16 c e ≤ l.length := by
  have hc := t.cut_bytes l'
  rw [h] at hc
  by_cases hle : of16 c e ≤ l.length
  · have hcut : Tag.cut (a :: b :: c :: e :: l) = some (_, _) := if_pos hle
    rw [hcut] at hc
    cases hc
    exact ⟨rfl, hle⟩
  · have hcut : Tag.cut (a :: b :: c :: e :: l) = none := if_neg hle
    rw [hcut] at hc
    cases hc

theorem not_clearTags_short (hd : 0 < d) (hl : l.length < tagHdrLen) : ¬ClearTags type d l := by
  intro h
  cases h with
  | done => exact Nat.lt_irrefl _ hd
  | hit t _ =>
    rw [List.length_append, t.length_bytes] at hl
    omega
  | next _ _ =>
    simp only [List.length_cons] at hl
    unfold tagHdrLen at hl
    omega

theorem clearTags_hit (hd : 0 < d) (h : of16 a b = type) :
    ClearTags type d (a :: b :: c :: e :: l) ↔ of16 c e ≤ l.length := by
  constructor
  · intro hc
    generalize hl : a :: b :: c :: e :: l = l₀ at hc
    cases hc with
    | done => exact absurd hd (Nat.lt_irrefl _)
    | hit t _ => exact (Tag.of_head hl.symm).2
    | next hne _ =>
      cases hl
      exact absurd h hne
  · intro hle
    have hcut : Tag.cut (a :: b :: c :: e :: l) = some (_, _) := if_pos hle
    rw [← Tag.bytes_cut hcut]
    exact ClearTags.hit _ h

theorem clearTags_next (hd : 0 < d) (h : of16 a b ≠ type) :
    ClearTags type d (a :: b :: c :: e :: l) ↔
      ClearTags type (d - (tagHdrLen + of16 c e)) (l.drop (of16 c e)) := by
  constructor
  · intro hc
    generalize hl : a :: b :: c :: e :: l = l₀ at hc
    cases hc with
    | done => exact absurd hd (Nat.lt_irrefl _)
    | hit t ht => exact absurd ((Tag.of_head hl.symm).1.symm.trans ht) h
    | next _ hc =>
      cases hl
      exact hc
  · exact ClearTags.next h

end

namespace Skb

variable {s : Skb} {type cur : Nat} {r : Option Nat}

/-- what is left of the packet -/
def rest (s : Skb) (a : Nat) : List UInt8 := read s.mem a (s.len - a)

theorem length_rest (a : Nat) : (s.rest a).length = s.len - a := length_read

theorem rest_tag {a : Nat} (h : a + tagHdrLen ≤ s.len) :
    s.rest a = s.mem a :: s.mem (a + 1) :: s.mem (a + 2) :: s.mem (a + 3) :: s.rest (a + tagHdrLen) := by
  unfold rest
  have hn : s.len - a = tagHdrLen + (s.len - (a + tagHdrLen)) := by omega
  rw [hn, read_add]
  rfl

theorem drop_rest (a k : Nat) : (s.rest a).drop k = s.rest (a + k) := by
  unfold rest
  rw [drop_read, Nat.sub_sub]

theorem findFrom_of_ends (h : Ends (s.findRound type) cur (some r)) (fuel : Nat)
    (hf : s.phLength - cur < fuel) : s.findFrom type fuel cur = r := by
  obtain ⟨n, hr⟩ := h
  generalize hx : some r = x at hr
  induction hr generalizing fuel with
  | @stop cur _ h =>
    subst hx
    unfold findRound at h
    obtain ⟨fuel, rfl⟩ := Nat.exists_eq_succ_of_ne_zero (Nat.ne_of_gt (Nat.zero_lt_of_lt hf))
    rw [findFrom]
    split at h
    · cases h
    · split at h
      · rename_i hc
        rw [if_pos hc]
        split at h
        · cases h
        · split at h
          · rename_i ht
            cases h
            rw [if_pos ht]
          · cases h
      · rename_i hc
        cases h
        rw [if_neg hc]
  | @again _ cur cur' _ h _ ih =>
    unfold findRound at h
    obtain ⟨fuel, rfl⟩ := Nat.exists_eq_succ_of_ne_zero (Nat.ne_of_gt (Nat.zero_lt_of_lt hf))
    rw [findFrom]
    split at h
    · cases h
    · split at h
      · rename_i hc
        rw [if_pos hc]
        split at h
        · cases h
        · split at h
          · cases h
          · rename_i ht
            cases h
            rw [if_neg ht]
            apply ih fuel _ hx
            unfold tagHdrLen
            omega
      · cases h

theorem findPppoeTag_of_ends (h : Ends (s.findRound type) 0 (some r)) : s.findPppoeTag type = r :=
  findFrom_of_ends h _ (Nat.lt_succ_self _)

/-- the scan from a tag on -/
theorem findRound_iff (type : Nat) (hlen : tag ≤ s.len) (cur : Nat) :
    (∃ r, Ends (s.findRound type) cur (some r) ∧ ∀ p ∈ r, s.HasTag p) ↔
      ClearTags type (s.phLength - cur) (s.rest (tag + cur)) := by
  generalize hd : s.phLength - cur = d
  induction d using Nat.strongRecOn generalizing cur with
  | _ d ih =>
    subst hd
    by_cases hc : cur < s.phLength
    · have hpos : 0 < s.phLength - cur := Nat.sub_pos_of_lt hc
      by_cases hroom : s.len < tag + cur + tagHdrLen
      · have hround : s.findRound type cur = .stop none := by
          rw [findRound, if_neg (Nat.not_lt.mpr hlen), if_pos hc, if_pos hroom]
        refine iff_of_false ?_ (not_clearTags_short hpos ?_)
        · rintro ⟨r, hr, -⟩
          cases (ends_stop hround).mp hr
        · rw [length_rest]
          unfold tagHdrLen at hroom ⊢
          omega
      · have hle := Nat.not_lt.mp hroom
        rw [rest_tag hle]
        by_cases ht : get16 s.mem (tag + cur) = type
        · have hround : s.findRound type cur = .stop (some (some (tag + cur))) := by
            rw [findRound, if_neg (Nat.not_lt.mpr hlen), if_pos hc, if_neg hroom, if_pos ht]
          rw [clearTags_hit hpos ht, length_rest]
          have hwhole : s.HasTag (tag + cur) ↔ get16 s.mem (tag + cur + 2) ≤ s.len - (tag + cur + tagHdrLen) := by
            unfold HasTag
            omega
          refine Iff.trans ?_ hwhole
          constructor
          · rintro ⟨r, hr, hw⟩
            cases (ends_stop hround).mp hr
            exact hw _ rfl
          · intro hw
            refine ⟨_, (ends_stop hround).mpr rfl, ?_⟩
            intro p hp
            cases Option.mem_some_iff.mp hp
            exact hw
        · have hround : s.findRound type cur = .again (cur + tagHdrLen + get16 s.mem (tag + cur + 2)) := by
            rw [findRound, if_neg (Nat.not_lt.mpr hlen), if_pos hc, if_neg hroom, if_neg ht]
          rw [clearTags_next hpos ht, drop_rest]
          have hnext := ih (s.phLength - (cur + tagHdrLen + get16 s.mem (tag + cur + 2)))
            (by unfold tagHdrLen; omega) _ rfl
          have haddr : tag + (cur + tagHdrLen + get16 s.mem (tag + cur + 2)) =
              tag + cur + tagHdrLen + of16 (s.mem (tag + cur + 2)) (s.mem (tag + cur + 3)) := by
            show _ = tag + cur + tagHdrLen + get16 s.mem (tag + cur + 2)
            omega
          have hsub : s.phLength - (cur + tagHdrLen + get16 s.mem (tag + cur + 2)) =
              s.phLength - cur - (tagHdrLen + of16 (s.mem (tag + cur + 2)) (s.mem (tag + cur + 3))) := by
            show _ = _ - (tagHdrLen + get16 s.mem (tag + cur + 2))
            omega
          rw [haddr, hsub] at hnext
          rw [← hnext]
          simp only [ends_again hround]
    · have hround : s.findRound type cur = .stop (some none) := by
        rw [findRound, if_neg (Nat.not_lt.mpr hlen), if_neg hc]
      have hz : s.phLength - cur = 0 := Nat.sub_eq_zero_of_le (Nat.not_lt.mp hc)
      rw [hz]
      refine iff_of_true ⟨none, (ends_stop hround).mpr rfl, ?_⟩ ClearTags.done
      exact fun _ h => nomatch h

/-- what is copied is in the tag -/
theorem copies_inside {p : Nat} (h : s.HasTag p) :
    ∀ x ∈ s.insertCopies p ++ s.lookupCopies p, x.1 + x.2 ≤ s.len := by
  intro x hx
  unfold HasTag at h
  rcases List.mem_append.mp hx with hx | hx
  · unfold insertCopies at hx
    dsimp only at hx
    split at hx
    · cases hx
    · cases List.mem_singleton.mp hx
      exact h
  · unfold lookupCopies at hx
    split at hx
    · cases hx
    · rename_i hlen
      unfold magicCodeLen rtlRelayTagLen ethAlen at hlen
      unfold tagHdrLen at h
      split at hx
      · cases List.mem_singleton.mp hx
        show p + 4 + 2 ≤ s.len
        omega
      · rcases List.mem_cons.mp hx with rfl | hx
        · show p + 4 + 2 ≤ s.len
          omega
        · cases List.mem_singleton.mp hx
          show p + 4 + 2 + 6 ≤ s.len
          omega

theorem pppoeSafe_iff (s : Skb) (type : Nat) :
    s.PppoeSafe type ↔ tag ≤ s.len ∧ ClearTags type s.phLength (s.rest tag) := by
  by_cases hlen : tag ≤ s.len
  · have hscan := findRound_iff type hlen 0
    rw [Nat.sub_zero, Nat.add_zero] at hscan
    rw [← hscan]
    constructor
    · rintro ⟨hends, hfound⟩
      exact ⟨hlen, _, hends, fun p hp => (hfound p hp).1⟩
    · rintro ⟨-, r, hends, hfound⟩
      cases findPppoeTag_of_ends hends
      exact ⟨hends, fun p hp => ⟨hfound p hp, copies_inside (hfound p hp)⟩⟩
  · have hround : s.findRound type 0 = .stop none := if_pos (Nat.not_le.mp hlen)
    refine iff_of_false ?_ (fun h => hlen h.1)
    rintro ⟨hends, -⟩
    cases (ends_stop hround).mp hends

end Skb

end Pppoe

/-! ## options of neighbour discovery -/

namespace Nat25

open Pppoe hiding BrExt

namespace Ipv6

/-- a round of `scan_tlv` with `len` bytes left at `a`, which reads two of them -/
def scanRound (s : Skb) (tag len8b : UInt8) (x : Nat × Nat) : Next (Nat × Nat) (Option (Option Nat)) :=
  if x.2 = 0 then .stop (some none)
  else if s.len < x.1 + 2 then .stop none
  else if s.mem x.1 = tag ∧ s.mem (x.1 + 1) = len8b ∧ len8b.toNat * 8 ≤ x.2 then
    .stop (some (some (x.1 + 2)))
  else .again (x.1 + (s.mem (x.1 + 1)).toNat * 8, x.2 - (s.mem (x.1 + 1)).toNat * 8)

/-- the option with its value at `p` is in the packet, with the length it declares -/
def HasOpt (s : Skb) (len8b : UInt8) (p : Nat) : Prop := p + len8b.toNat * 8 ≤ s.len + 2

/-- if the message has options, the scan ends with what `scan_tlv` returns, has read bytes of the
packet only, and the option that was found is in the packet, and so is the address that is replaced -/
def NdSafe (s : Skb) : Prop :=
  ∀ x ∈ ndOption (s.mem icmp), x.1 ≤ s.len - icmp →
    ∃ r, scanTlv s.mem x.2 1 (s.len - icmp - x.1) (icmp + x.1) (s.len - icmp - x.1) = some r ∧
      Ends (scanRound s x.2 1) (icmp + x.1, s.len - icmp - x.1) (some r) ∧
      ∀ p ∈ r, HasOpt s 1 p ∧ p + ethAlen ≤ s.len

/-- up to the first option that is looked for no option has the length 0, and the headers of the
options are there -/
inductive ClearOpts (tag len8b : UInt8) : List UInt8 → Prop
  | nil : ClearOpts tag len8b []
  | hit {l} (h : len8b.toNat * 8 ≤ l.length + 2) : ClearOpts tag len8b (tag :: len8b :: l)
  | next {x n l} (hn : n ≠ 0) (hl : ClearOpts tag len8b ((x :: n :: l).drop (n.toNat * 8))) :
      ClearOpts tag len8b (x :: n :: l)

/-- the options of a message of neighbour discovery, if it has the size for them -/
def NdClear (s : Skb) : Prop :=
  ∀ x ∈ ndOption (s.mem icmp), x.1 ≤ s.len - icmp → ClearOpts x.2 1 (s.rest (icmp + x.1))

section
variable {s : Skb} {tag len8b x n : UInt8} {l : List UInt8} {a len fuel : Nat}

theorem not_clearOpts_one : ¬ClearOpts tag len8b [x] := nofun

theorem clearOpts_next (hn : n ≠ 0) (h : ¬(x = tag ∧ n = len8b ∧ len8b.toNat * 8 ≤ l.length + 2)) :
    ClearOpts tag len8b (x :: n :: l) ↔ ClearOpts tag len8b ((x :: n :: l).drop (n.toNat * 8)) := by
  constructor
  · intro hc
    cases hc with
    | hit hle => exact absurd ⟨rfl, rfl, hle⟩ h
    | next _ hl => exact hl
  · exact ClearOpts.next hn

theorem not_clearOpts_zero (h : ¬(x = tag ∧ (0 : UInt8) = len8b)) : ¬ClearOpts tag len8b (x :: 0 :: l) := by
  intro hc
  cases hc with
  | hit _ => exact h ⟨rfl, rfl⟩
  | next hn _ => exact hn rfl

theorem scanTlv_of_ends {y : Nat × Nat} {r : Option Nat} (h : Ends (scanRound s tag len8b) y (some r))
    (hf : y.2 ≤ fuel) : scanTlv s.mem tag len8b fuel y.1 y.2 = some r := by
  obtain ⟨k, hr⟩ := h
  generalize hx : some r = x at hr
  induction hr generalizing fuel with
  | @stop y _ h =>
    subst hx
    unfold scanRound at h
    split at h
    · rename_i hz
      cases h
      rw [hz]
      cases fuel with
      | zero => rfl
      | succ fuel => exact if_pos rfl
    · rename_i hz
      split at h
      · cases h
      · split at h
        · rename_i ht
          cases h
          cases fuel with
          | zero => exact absurd (Nat.le_zero.mp hf) hz
          | succ fuel => rw [scanTlv, if_neg hz, if_pos ht]
        · cases h
  | @again _ y y' _ h _ ih =>
    unfold scanRound at h
    split at h
    · cases h
    · rename_i hz
      split at h
      · cases h
      · split at h
        · cases h
        · rename_i ht
          cases h
          by_cases hn : s.mem (y.1 + 1) = 0
          · -- the state is the same one
            have hrest := ih (Nat.le_trans (Nat.sub_le ..) hf) hx
            rw [hn] at hrest
            exact hrest
          · cases fuel with
            | zero => exact absurd (Nat.le_zero.mp hf) hz
            | succ fuel =>
              have hpos : 0 < (s.mem (y.1 + 1)).toNat := by
                apply Nat.pos_of_ne_zero
                exact fun h0 => hn (UInt8.toNat_inj.mp h0)
              rw [scanTlv, if_neg hz, if_neg ht, if_neg hn]
              apply ih _ hx
              show y.2 - _ ≤ fuel
              omega

theorem rest_opt (h : a + 2 ≤ s.len) : s.rest a = s.mem a :: s.mem (a + 1) :: s.rest (a + 2) := by
  unfold Skb.rest
  have hn : s.len - a = 2 + (s.len - (a + 2)) := by omega
  rw [hn, read_add]
  rfl

/-- the scan from an option on -/
theorem scanRound_iff (hpos : 0 < len8b.toNat) (a : Nat) :
    (∃ r, Ends (scanRound s tag len8b) (a, s.len - a) (some r) ∧ ∀ p ∈ r, HasOpt s len8b p) ↔
      ClearOpts tag len8b (s.rest a) := by
  generalize hd : s.len - a = d
  induction d using Nat.strongRecOn generalizing a with
  | _ d ih =>
    by_cases hz : d = 0
    · have hround : scanRound s tag len8b (a, d) = .stop (some none) := if_pos hz
      have hnil : s.rest a = [] := by
        apply List.eq_nil_of_length_eq_zero
        rw [Skb.length_rest, hd, hz]
      rw [hnil]
      refine iff_of_true ⟨none, (ends_stop hround).mpr rfl, ?_⟩ ClearOpts.nil
      exact fun _ h => nomatch h
    · by_cases hroom : s.len < a + 2
      · have hround : scanRound s tag len8b (a, d) = .stop none := by
          rw [scanRound, if_neg hz, if_pos hroom]
        have hone : (s.rest a).length = 1 := by
          rw [Skb.length_rest]
          omega
        obtain ⟨x, hx⟩ := List.length_eq_one_iff.mp hone
        rw [hx]
        refine iff_of_false ?_ not_clearOpts_one
        rintro ⟨r, hr, -⟩
        cases (ends_stop hround).mp hr
      · have hle := Nat.not_lt.mp hroom
        have hlen : (s.rest (a + 2)).length + 2 = d := by
          rw [Skb.length_rest]
          omega
        by_cases ht : s.mem a = tag ∧ s.mem (a + 1) = len8b ∧ len8b.toNat * 8 ≤ d
        · have hround : scanRound s tag len8b (a, d) = .stop (some (some (a + 2))) := by
            rw [scanRound, if_neg hz, if_neg hroom, if_pos ht]
          rw [rest_opt hle, ht.1, ht.2.1]
          refine iff_of_true ⟨_, (ends_stop hround).mpr rfl, ?_⟩ (ClearOpts.hit (by rw [hlen]; exact ht.2.2))
          intro p hp
          cases Option.mem_some_iff.mp hp
          unfold HasOpt
          omega
        · have hround : scanRound s tag len8b (a, d) =
              .again (a + (s.mem (a + 1)).toNat * 8, d - (s.mem (a + 1)).toNat * 8) := by
            rw [scanRound, if_neg hz, if_neg hroom, if_neg ht]
          by_cases hn : s.mem (a + 1) = 0
          · have hself : scanRound s tag len8b (a, d) = .again (a, d) := by
              rw [hround, hn]
              rfl
            have hno : ¬((s.mem a) = tag ∧ (0 : UInt8) = len8b) := by
              rintro ⟨-, h0⟩
              rw [← h0] at hpos
              exact absurd hpos (by decide)
            rw [rest_opt hle, hn]
            refine iff_of_false ?_ (not_clearOpts_zero hno)
            rintro ⟨r, hr, -⟩
            exact not_ends_self hself hr
          · have hne : 0 < (s.mem (a + 1)).toNat := by
              apply Nat.pos_of_ne_zero
              exact fun h0 => hn (UInt8.toNat_inj.mp h0)
            have hnext := ih (d - (s.mem (a + 1)).toNat * 8) (by omega)
              (a + (s.mem (a + 1)).toNat * 8) (by omega)
            rw [rest_opt hle, clearOpts_next hn (by rw [hlen]; exact ht), ← rest_opt hle, Skb.drop_rest,
              ← hnext]
            simp only [ends_again hround]

end

theorem ndSafe_iff (s : Skb) : NdSafe s ↔ NdClear s := by
  unfold NdSafe NdClear
  refine forall_congr' fun x => forall_congr' fun _ => forall_congr' fun hx => ?_
  have hsub : s.len - icmp - x.1 = s.len - (icmp + x.1) := Nat.sub_sub ..
  rw [hsub, ← scanRound_iff (by decide)]
  constructor
  · rintro ⟨r, -, hends, hopt⟩
    exact ⟨r, hends, fun p hp => (hopt p hp).1⟩
  · rintro ⟨r, hends, hopt⟩
    refine ⟨r, scanTlv_of_ends hends (Nat.le_refl _), hends, fun p hp => ⟨hopt p hp, ?_⟩⟩
    have hwhole : p + 1 * 8 ≤ s.len + 2 := hopt p hp
    unfold ethAlen
    omega

end Ipv6

end Nat25

open Pppoe Nat25 Ipv6

/-- **the scanners end in the packet** just when the tags and the options that they meet are there -/
theorem bridgeScan_iff (s : Skb) :
    (s.PppoeSafe pttRelaySid ↔
      Skb.tag ≤ s.len ∧ ClearTags pttRelaySid s.phLength (s.rest Skb.tag)) ∧
    (NdSafe s ↔ NdClear s) :=
  ⟨Skb.pppoeSafe_iff s pttRelaySid, ndSafe_iff s⟩

namespace Nat25

/-- a neighbour solicitation with the options `opts` -/
def solicitation (opts : List UInt8) : Skb where
  mem := write emptyMem (icmp) ([135] ++ List.replicate 23 0 ++ opts)
  len := icmp + 24 + opts.length
  tailroom := 0

/-- a PADI frame with the header of a relay tag at its end -/
def cutTag : Skb where
  mem := write emptyMem 12 ([0x88, 0x63, 0x11, padiCode, 0, 0] ++ bytes16 4 ++ bytes16 pttRelaySid ++ bytes16 8)
  len := 24
  tailroom := 0

end Nat25

/-- an option of no length is looked at for ever, and a tag is returned that is not in the packet -/
theorem bridgeScan_bad : ¬NdSafe (solicitation [5, 0, 0, 0, 0, 0, 0, 0]) ∧ ¬cutTag.PppoeSafe pttRelaySid := by
  constructor
  · intro h
    obtain ⟨r, -, hr, -⟩ := h (24, 1) rfl (by decide)
    exact not_ends_self (by decide) hr
  · intro h
    exact absurd (h.2 20 (by decide)).1 (by unfold Skb.HasTag; decide)

end Rtl8192eu
