import Mathlib.Algebra.Group.Nat.Defs
import Rtl8192eu.Lib.Mem
import Rtl8192eu.Lib.Records
import Rtl8192eu.Recv.Frame

/-!
# The relay tag of PPPoE discovery

With `addPPPoETag` the address of the client travels in the Relay-Session-Id tag: `nat25_db_handle`
puts it into the PADI and PADR frames a client sends, in front of the value of its own tag, and
takes it out of the PADO and PADS frames of the server.

* `Tag`, `tagFormat`   a tag, and the tag area as self-delimiting records;
* `findPppoeTag`, `addPppoeTag`, `skbPullAndMerge`   on the memory of a packet, for either byte order
                         of the host;
* `IsDiscovery`    a frame with a list of complete tags;
* `relayTag_iff`   when the two methods are inverse.
-/

namespace Rtl8192eu

open Records Mem

namespace Pppoe

/-! ## the packet -/

/-- offsets from `skb->data`; the packet is followed by `tailroom` bytes -/
structure Skb where
  mem : Nat → UInt8
  len : Nat
  tailroom : Nat

/-- the byte order of the host -/
inductive Endian where
  | big
  | little
  deriving DecidableEq

/-- `ntohs` of the field at `a` -/
def get16 (m : Nat → UInt8) (a : Nat) : Nat := 256 * (m a).toNat + (m (a + 1)).toNat

/-- the field at `a` as the host loads it -/
def load16 : Endian → (Nat → UInt8) → Nat → Nat
  | .big, m, a => get16 m a
  | .little, m, a => (m a).toNat + 256 * (m (a + 1)).toNat

def bytes16 (n : Nat) : List UInt8 := [UInt8.ofNat (n / 256), UInt8.ofNat n]

/-- `htons(n)` into the field at `a` -/
def put16 (m : Nat → UInt8) (a n : Nat) : Nat → UInt8 := write m a (bytes16 n)

def ethAlen : Nat := 6
def ethHlen : Nat := 14
def tagHdrLen : Nat := 4
def magicCode : Nat := 0x8186
def magicCodeLen : Nat := 2
def rtlRelayTagLen : Nat := ethAlen
/-- `sizeof(tag_buf)` -/
def tagBufLen : Nat := 40

def pttRelaySid : Nat := 0x0110

def padiCode : UInt8 := 0x09
def padoCode : UInt8 := 0x07
def padrCode : UInt8 := 0x19
def padsCode : UInt8 := 0x65

namespace Skb

/-- `ph->code` -/
def code (s : Skb) : UInt8 := s.mem (ethHlen + 1)
/-- `ntohs(ph->sid)` -/
def sid (s : Skb) : Nat := get16 s.mem (ethHlen + 2)
/-- `ntohs(ph->length)` -/
def phLength (s : Skb) : Nat := get16 s.mem (ethHlen + 4)
/-- `ph->length = htons(n)`; a difference is taken modulo 2^16 -/
def setPhLength (s : Skb) (n : Nat) : Skb := { s with mem := put16 s.mem (ethHlen + 4) n }
/-- the offset of `ph->tag` -/
def tag : Nat := ethHlen + 6

/-- `skb_put` -/
def put (s : Skb) (n : Nat) : Skb := { s with len := s.len + n, tailroom := s.tailroom - n }
/-- `skb_trim` by `n` bytes -/
def trim (s : Skb) (n : Nat) : Skb := { s with len := s.len - n, tailroom := s.tailroom + n }

def memmove (s : Skb) (dst src n : Nat) : Skb := { s with mem := write s.mem dst (read s.mem src n) }

/-- `__nat25_find_pppoe_tag` from `cur` on; every round takes the header of a tag at least -/
def findFrom (s : Skb) (type : Nat) : Nat → Nat → Option Nat
  | 0, _ => none
  | n + 1, cur =>
    if cur < s.phLength then
      if get16 s.mem (tag + cur) = type then some (tag + cur)
      else findFrom s type n (cur + tagHdrLen + get16 s.mem (tag + cur + 2))
    else none

def findPppoeTag (s : Skb) (type : Nat) : Option Nat := s.findFrom type (s.phLength + 1) 0

/-- `__nat25_add_pppoe_tag`: `tb` is the memory at the new tag -/
def addPppoeTag (e : Endian) (s : Skb) (tb : Nat → UInt8) : Skb × Int :=
  -- `tag_len` is not converted
  let dataLen := load16 e tb 2 + tagHdrLen
  if s.tailroom < dataLen then (s, -1)
  else
    let s := (s.put dataLen).memmove (tag + dataLen) tag s.phLength
    let s := s.setPhLength (s.phLength + dataLen)
    ({ s with mem := write s.mem tag (read tb 0 dataLen) }, dataLen)

/-- `none` for -1 -/
def skbPullAndMerge (s : Skb) (src len : Nat) : Option Skb :=
  if s.len < src + len ∨ s.len < len then none
  else some ((s.memmove src (src + len) (s.len - (src + len))).trim len)

/-- the new tag, in front of an old value of `n` bytes in `tag_buf` -/
def tagBuf (buf : Nat → UInt8) (mac : List UInt8) (n : Nat) : Nat → UInt8 :=
  write buf 0 (bytes16 pttRelaySid ++ bytes16 (magicCodeLen + rtlRelayTagLen + n)
    ++ bytes16 magicCode ++ mac)

/-- `Add relay tag` -/
def addRelay (e : Endian) (s : Skb) (buf : Nat → UInt8) (oldTagLen : Nat) : Skb × Int :=
  let r := s.addPppoeTag e (tagBuf buf (read s.mem ethAlen ethAlen) oldTagLen)
  if r.2 < 0 then (r.1, -1) else (r.1, 0)

/-- `NAT25_INSERT` of a PADI or PADR frame; `stack` is what is in `tag_buf` and behind it -/
def relayInsert (e : Endian) (stack : Nat → UInt8) (s : Skb) : Skb × Int :=
  match s.findPppoeTag pttRelaySid with
  | none => s.addRelay e stack 0
  | some old =>
    let oldTagLen := get16 s.mem (old + 2)
    if oldTagLen + tagHdrLen + magicCodeLen + rtlRelayTagLen > tagBufLen then (s, -1)
    else
      let buf := write stack (tagHdrLen + magicCodeLen + rtlRelayTagLen)
        (read s.mem (old + tagHdrLen) oldTagLen)
      match s.skbPullAndMerge old (tagHdrLen + oldTagLen) with
      | none => (s, -1)
      | some s => (s.setPhLength (s.phLength + 0x10000 - tagHdrLen - oldTagLen)).addRelay e buf oldTagLen

/-- the magic code and the address go, and the header of the tag with them if nothing else is in
the tag; what is left has the old length -/
def stripRelay (s : Skb) (ptr tagLen : Nat) : Skb × Int :=
  let offset := if tagLen > magicCodeLen + rtlRelayTagLen then tagHdrLen else 0
  let n := tagHdrLen + magicCodeLen + rtlRelayTagLen - offset
  match s.skbPullAndMerge (ptr + offset) n with
  | none => (s, -1)
  | some s =>
    let s := s.setPhLength (s.phLength + 0x10000 - n)
    if offset > 0 then
      ({ s with mem := put16 s.mem (ptr + 2) (tagLen - magicCodeLen - rtlRelayTagLen) }, 0)
    else (s, 0)

/-- `NAT25_LOOKUP` of a PADO or PADS frame -/
def relayLookup (s : Skb) : Skb × Int :=
  match s.findPppoeTag pttRelaySid with
  | none => (s, -1)
  | some ptr =>
    let tagType := get16 s.mem ptr
    let tagLen := get16 s.mem (ptr + 2)
    if tagType ≠ pttRelaySid ∨ tagLen < magicCodeLen + rtlRelayTagLen then (s, -1)
    else if get16 s.mem (ptr + tagHdrLen) ≠ magicCode then (s, -1)
    else (s.memmove 0 (ptr + tagHdrLen + magicCodeLen) ethAlen).stripRelay ptr tagLen

end Skb

/-- the rest of what the adapter has for discovery -/
structure BrExt where
  addPPPoETag : Bool
  connectionInProgress : Nat
  pppoeAddr : List UInt8

/-- `WAIT_TIME_PPPOE` -/
def waitTimePppoe : Nat := 5

/-- `nat25_db_handle(NAT25_INSERT)` in the discovery phase, `ph->sid == 0` -/
def dbHandleInsert (e : Endian) (stack : Nat → UInt8) (p : BrExt) (s : Skb) : BrExt × Skb × Int :=
  if s.code = padiCode ∨ s.code = padrCode then
    if p.addPPPoETag then (p, s.relayInsert e stack)
    else
      let sa := read s.mem ethAlen ethAlen
      if p.connectionInProgress ≠ 0 ∧ sa ≠ p.pppoeAddr then (p, s, -2)
      else
        ({ p with
          pppoeAddr := if p.connectionInProgress = 0 then sa else p.pppoeAddr
          connectionInProgress := waitTimePppoe }, s, 0)
  else (p, s, -1)

/-- `nat25_db_handle(NAT25_LOOKUP)`, of a frame that has no session -/
def dbHandleLookup (p : BrExt) (s : Skb) : BrExt × Skb × Int :=
  if s.code = padoCode ∨ s.code = padsCode then
    if p.addPPPoETag then (p, s.relayLookup)
    else if p.connectionInProgress = 0 then (p, s, -1)
    else
      ({ p with connectionInProgress := waitTimePppoe },
        { s with mem := write s.mem 0 p.pppoeAddr }, 0)
  else (p, s, -1)

/-! ## tags -/

def of16 (a b : UInt8) : Nat := 256 * a.toNat + b.toNat

theorem of16_lt (a b : UInt8) : of16 a b < 2 ^ 16 := by
  have := a.toNat_lt
  have := b.toNat_lt
  unfold of16
  omega

theorem of16_bytes (n : Nat) : of16 (UInt8.ofNat (n / 256)) (UInt8.ofNat n) = n % 2 ^ 16 := by
  unfold of16
  rw [UInt8.toNat_ofNat', UInt8.toNat_ofNat']
  omega

theorem bytes16_of16 (a b : UInt8) : bytes16 (of16 a b) = [a, b] := by
  have ha := a.toNat_lt
  have hb := b.toNat_lt
  have h1 : UInt8.ofNat (of16 a b / 256) = a := by
    apply UInt8.toNat_inj.mp
    rw [UInt8.toNat_ofNat']
    unfold of16
    omega
  have h2 : UInt8.ofNat (of16 a b) = b := by
    apply UInt8.toNat_inj.mp
    rw [UInt8.toNat_ofNat']
    unfold of16
    omega
  unfold bytes16
  rw [h1, h2]

structure Tag where
  type : Nat
  value : List UInt8
  type_lt : type < 2 ^ 16
  length_lt : value.length < 2 ^ 16
  deriving DecidableEq, Repr

namespace Tag

def bytes (t : Tag) : List UInt8 := bytes16 t.type ++ bytes16 t.value.length ++ t.value

def cut : List UInt8 → Option (Tag × List UInt8)
  | a :: b :: c :: d :: rest =>
    if of16 c d ≤ rest.length then
      some (⟨of16 a b, rest.take (of16 c d), of16_lt a b, by
        rw [List.length_take]
        exact Nat.lt_of_le_of_lt (Nat.min_le_left ..) (of16_lt c d)⟩, rest.drop (of16 c d))
    else none
  | _ => none

theorem length_bytes (t : Tag) : t.bytes.length = tagHdrLen + t.value.length := by
  rw [bytes, List.length_append]
  rfl

theorem cut_bytes (t : Tag) (l : List UInt8) : cut (t.bytes ++ l) = some (t, l) := by
  obtain ⟨type, value, ht, hv⟩ := t
  have h1 := of16_bytes type
  have h2 := of16_bytes value.length
  rw [Nat.mod_eq_of_lt ht] at h1
  rw [Nat.mod_eq_of_lt hv] at h2
  show cut (_ :: _ :: _ :: _ :: (value ++ l)) = _
  rw [cut, if_pos (by rw [h2, List.length_append]; exact Nat.le_add_right ..)]
  congr 2
  · simp only [mk.injEq]
    exact ⟨h1, by rw [h2, List.take_left' rfl]⟩
  · rw [h2, List.drop_left' rfl]

theorem bytes_cut {l l' : List UInt8} {t : Tag} (h : cut l = some (t, l')) : t.bytes ++ l' = l := by
  unfold cut at h
  split at h
  · rename_i a b c d rest
    split at h
    · rename_i hle
      cases h
      unfold bytes
      dsimp only
      rw [List.length_take, Nat.min_eq_left hle, bytes16_of16, bytes16_of16, List.append_assoc,
        List.take_append_drop]
      rfl
    · cases h
  · cases h

def hasType (type : Nat) (t : Tag) : Bool := t.type == type

end Tag

def tagFormat : Format Tag UInt8 where
  bytes := Tag.bytes
  cut := Tag.cut
  cut_bytes := Tag.cut_bytes
  bytes_cut := Tag.bytes_cut
  bytes_ne t h := by
    have hl := t.length_bytes
    rw [h] at hl
    exact absurd hl (by unfold tagHdrLen; simp; omega)

/-- the size of a tag area -/
def total (ts : List Tag) : Nat := (all tagFormat ts).length

/-- a frame whose tag area is a list of complete tags, the size of which its header has -/
structure IsDiscovery (ts : List Tag) (s : Skb) : Prop where
  area : read s.mem Skb.tag (total ts) = all tagFormat ts
  phLength : s.phLength = total ts
  fits : Skb.tag + total ts ≤ s.len

/-! ## the memory -/

section
variable {m m' : Nat → UInt8} {a n : Nat}

theorem get16_congr (h : read m a 2 = read m' a 2) : get16 m a = get16 m' a := by
  have h0 := cell_congr h (i := 0) (by omega)
  have h1 := cell_congr h (i := 1) (by omega)
  rw [Nat.add_zero] at h0
  unfold get16
  rw [h0, h1]

theorem get16_of_read (h : read m a 2 = bytes16 n) (hn : n < 2 ^ 16) : get16 m a = n := by
  have hr : read m a 2 = [m a, m (a + 1)] := rfl
  rw [hr] at h
  obtain ⟨h0, h1⟩ := List.cons.inj h
  show of16 (m a) (m (a + 1)) = n
  rw [h0, List.head_eq_of_cons_eq h1, of16_bytes, Nat.mod_eq_of_lt hn]

theorem read_tag {t : Tag} (h : read m a t.bytes.length = t.bytes) :
    get16 m a = t.type ∧ get16 m (a + 2) = t.value.length ∧
      read m (a + tagHdrLen) t.value.length = t.value := by
  unfold Tag.bytes at h
  obtain ⟨h12, h3⟩ := read_eq_append.mp h
  obtain ⟨h1, h2⟩ := read_eq_append.mp h12
  exact ⟨get16_of_read h1 t.type_lt, get16_of_read h2 t.length_lt, h3⟩

theorem get16_put16 : get16 (put16 m a n) a = n % 2 ^ 16 := by
  have hr : read (put16 m a n) a 2 = bytes16 n := read_write_self rfl
  have hb : bytes16 n = bytes16 (n % 2 ^ 16) := by
    rw [← of16_bytes, bytes16_of16]
    rfl
  rw [hb] at hr
  exact get16_of_read hr (Nat.mod_lt _ (by decide))

end

theorem total_cons (t : Tag) (ts : List Tag) : total (t :: ts) = t.bytes.length + total ts :=
  List.length_append

theorem total_append (ts ts' : List Tag) : total (ts ++ ts') = total ts + total ts' := by
  unfold total
  rw [all_append, List.length_append]

theorem length_le_total (ts : List Tag) : ts.length ≤ total ts := by
  induction ts with
  | nil => exact Nat.zero_le _
  | cons t ts ih =>
    rw [List.length_cons, total_cons, t.length_bytes]
    unfold tagHdrLen
    omega

namespace Skb

variable {s : Skb} {ts : List Tag} {type : Nat}

theorem findFrom_eq {fuel cur : Nat} (hr : read s.mem (tag + cur) (total ts) = all tagFormat ts)
    (hl : s.phLength = cur + total ts) (hf : ts.length < fuel) :
    s.findFrom type fuel cur =
      (first tagFormat (Tag.hasType type) ts).map fun x => tag + cur + x.1 := by
  induction ts generalizing cur fuel with
  | nil =>
    cases fuel with
    | zero => rfl
    | succ fuel =>
      have hc : ¬cur < s.phLength := by
        rw [hl]
        exact Nat.lt_irrefl _
      rw [findFrom, if_neg hc]
      rfl
  | cons t ts ih =>
    cases fuel with
    | zero => exact absurd hf (Nat.not_lt_zero _)
    | succ fuel =>
      have hpos := length_bytes_pos tagFormat t
      have hc : cur < s.phLength := by
        rw [hl, total_cons]
        exact Nat.lt_add_of_pos_right (Nat.lt_of_lt_of_le hpos (Nat.le_add_right ..))
      obtain ⟨hr1, hr2⟩ := read_eq_append.mp hr
      obtain ⟨htype, hlen, -⟩ := read_tag hr1
      rw [findFrom, if_pos hc, htype, hlen]
      by_cases h : t.type = type
      · rw [if_pos h, first_cons_of_pos (p := Tag.hasType type) (beq_iff_eq.mpr h)]
        rfl
      · rw [if_neg h, first_cons_of_neg (p := Tag.hasType type) (beq_eq_false_iff_ne.mpr h),
          Option.map_map]
        have hnext : cur + tagHdrLen + t.value.length = cur + t.bytes.length := by
          rw [t.length_bytes, Nat.add_assoc]
        rw [hnext, ih (by rw [← Nat.add_assoc]; exact hr2) (by rw [hl, total_cons, Nat.add_assoc])
          (by rw [List.length_cons] at hf; omega)]
        congr 1
        funext x
        show tag + (cur + t.bytes.length) + x.1 = tag + cur + (t.bytes.length + x.1)
        omega

theorem findPppoeTag_eq (h : IsDiscovery ts s) :
    s.findPppoeTag type = (first tagFormat (Tag.hasType type) ts).map fun x => tag + x.1 := by
  have hl := length_le_total ts
  have hph := h.phLength
  exact findFrom_eq h.area (by rw [hph, Nat.zero_add]) (by omega)

/-- a piece of the area is taken out -/
theorem skbPullAndMerge_eq {as bs cs : List UInt8}
    (hr : read s.mem tag (as ++ (bs ++ cs)).length = as ++ (bs ++ cs))
    (hfit : tag + (as ++ (bs ++ cs)).length ≤ s.len) :
    ∃ s', s.skbPullAndMerge (tag + as.length) bs.length = some s' ∧
      read s'.mem tag (as ++ cs).length = as ++ cs ∧ s'.len = s.len - bs.length ∧
      s'.tailroom = s.tailroom + bs.length ∧
      ∀ i, i < tag + as.length → s'.mem i = s.mem i := by
  obtain ⟨hra, hrbc⟩ := read_eq_append.mp hr
  obtain ⟨-, hrc⟩ := read_eq_append.mp hrbc
  rw [List.length_append, List.length_append] at hfit
  unfold skbPullAndMerge
  rw [if_neg (by omega)]
  refine ⟨_, rfl, ?_, rfl, rfl, fun i hi => write_of_lt hi⟩
  refine read_eq_append.mpr ⟨?_, ?_⟩
  · show read (write _ _ _) _ _ = _
    rw [read_write_of_disjoint (Or.inl (Nat.le_refl _))]
    exact hra
  · show read (write s.mem (tag + as.length) (read s.mem _ (s.len - _))) (tag + as.length) _ = _
    have hcut (rest : List UInt8) (hrest : 0 + cs.length ≤ rest.length) :
        read (write s.mem (tag + as.length) rest) (tag + as.length) cs.length =
          (rest.drop 0).take cs.length := read_write_inside hrest
    rw [hcut _ (by rw [length_read]; omega), ← read_sub (by omega), Nat.add_zero]
    exact hrc

theorem phLength_setPhLength (n : Nat) : (s.setPhLength n).phLength = n % 2 ^ 16 := get16_put16

theorem read_setPhLength {a k : Nat} (n : Nat) (h : a + k ≤ ethHlen + 4 ∨ tag ≤ a) :
    read (s.setPhLength n).mem a k = read s.mem a k := by
  apply read_write_of_disjoint
  show a + k ≤ ethHlen + 4 ∨ ethHlen + 4 + 2 ≤ a
  exact h

theorem phLength_congr {s' : Skb} (h : ∀ i, i < tag → s'.mem i = s.mem i) :
    s'.phLength = s.phLength :=
  get16_congr (read_congr fun i _ hi => h i hi)

theorem addPppoeTag_eq (h : IsDiscovery ts s) {e : Endian} {tb : Nat → UInt8} {dataLen : Nat}
    (hd : load16 e tb 2 + tagHdrLen = dataLen) (hroom : dataLen ≤ s.tailroom) :
    ∃ s' : Skb, s.addPppoeTag e tb = (s', (dataLen : Int)) ∧ s'.len = s.len + dataLen ∧
      s'.phLength = (total ts + dataLen) % 2 ^ 16 ∧
      read s'.mem tag (dataLen + total ts) = read tb 0 dataLen ++ all tagFormat ts := by
  unfold addPppoeTag
  rw [hd, if_neg (Nat.not_lt.mpr hroom)]
  dsimp only
  have hmove : ∀ i, i < tag →
      ((s.put dataLen).memmove (tag + dataLen) tag s.phLength).mem i = s.mem i :=
    fun i hi => write_of_lt (by omega)
  rw [phLength_congr hmove]
  refine ⟨_, rfl, rfl, ?_, ?_⟩
  · have hlast : ∀ (q : Skb) (bs : List UInt8),
        Skb.phLength { q with mem := write q.mem tag bs } = q.phLength :=
      fun q bs => phLength_congr fun i hi => write_of_lt hi
    rw [hlast, phLength_setPhLength, h.phLength]
  · rw [read_add, read_write_self length_read.symm]
    congr 1
    rw [read_write_of_disjoint (Or.inr (Nat.le_of_eq (by rw [length_read]))),
      read_setPhLength _ (Or.inr (Nat.le_add_right ..))]
    show read (write s.mem (tag + dataLen) (read s.mem tag s.phLength)) (tag + dataLen) (total ts) = _
    rw [h.phLength, read_write_self length_read.symm]
    exact h.area

end Skb

/-! ## the relay tag -/

/-- the tag that the driver puts into the frames of the client `mac` -/
def relayTag (mac old : List UInt8) (h : mac.length + old.length ≤ 34) : Tag where
  type := pttRelaySid
  value := bytes16 magicCode ++ mac ++ old
  type_lt := by decide
  length_lt := by
    rw [List.length_append, List.length_append]
    have : (bytes16 magicCode).length = 2 := rfl
    omega

/-- what the host takes for the size of the new tag -/
def dataLen : Endian → Nat → Nat
  | .big, n => tagHdrLen + magicCodeLen + rtlRelayTagLen + n
  | .little, n => 256 * (magicCodeLen + rtlRelayTagLen + n) + tagHdrLen

namespace Skb

variable {s : Skb} {ts : List Tag}

theorem read_tagBuf {buf : Nat → UInt8} {mac old : List UInt8} (hm : mac.length = 6)
    (h : mac.length + old.length ≤ 34) (hb : read buf 12 old.length = old) :
    read (tagBuf buf mac old.length) 0 (dataLen .big old.length) = (relayTag mac old h).bytes := by
  have hhead : (bytes16 pttRelaySid ++ bytes16 (magicCodeLen + rtlRelayTagLen + old.length)
      ++ bytes16 magicCode ++ mac).length = 12 := by
    rw [List.length_append, hm]
    rfl
  have hv : (relayTag mac old h).value.length = magicCodeLen + rtlRelayTagLen + old.length := by
    show (bytes16 magicCode ++ mac ++ old).length = _
    rw [List.length_append, List.length_append, hm]
    rfl
  show read _ 0 (12 + old.length) = _
  rw [read_add, tagBuf, read_write_self hhead.symm,
    read_write_of_disjoint (Or.inr (Nat.le_of_eq (by rw [hhead]))), Nat.zero_add, hb]
  unfold Tag.bytes
  rw [hv]
  show _ = bytes16 pttRelaySid ++ _ ++ (bytes16 magicCode ++ mac ++ old)
  simp only [List.append_assoc]

theorem load16_tagBuf {buf : Nat → UInt8} {mac : List UInt8} {n : Nat} (hn : n ≤ 28)
    (e : Endian) : load16 e (tagBuf buf mac n) 2 + tagHdrLen = dataLen e n := by
  have h2 : tagBuf buf mac n 2 = UInt8.ofNat ((8 + n) / 256) := rfl
  have h3 : tagBuf buf mac n 3 = UInt8.ofNat (8 + n) := rfl
  have h2' : (tagBuf buf mac n 2).toNat = 0 := by
    rw [h2, UInt8.toNat_ofNat']
    omega
  have h3' : (tagBuf buf mac n 3).toNat = 8 + n := by
    rw [h3, UInt8.toNat_ofNat']
    omega
  cases e with
  | big =>
    show 256 * _ + (tagBuf buf mac n 3).toNat + 4 = 4 + 2 + 6 + n
    rw [h2', h3']
    omega
  | little =>
    show (tagBuf buf mac n 2).toNat + 256 * (tagBuf buf mac n 3).toNat + 4 = 256 * (2 + 6 + n) + 4
    rw [h2', h3']
    omega

theorem addRelay_eq (h : IsDiscovery ts s) {buf : Nat → UInt8} {old : List UInt8}
    (hold : (read s.mem ethAlen ethAlen).length + old.length ≤ 34)
    (hb : read buf 12 old.length = old) (e : Endian) (hroom : dataLen e old.length ≤ s.tailroom) :
    ∃ s' : Skb, s.addRelay e buf old.length = (s', 0) ∧ s'.len = s.len + dataLen e old.length ∧
      s'.phLength = (total ts + dataLen e old.length) % 2 ^ 16 ∧
      (e = .big → read s'.mem tag (dataLen e old.length + total ts) =
        (relayTag (read s.mem ethAlen ethAlen) old hold).bytes ++ all tagFormat ts) := by
  have hn : old.length ≤ 28 := by
    rw [length_read] at hold
    unfold ethAlen at hold
    omega
  have hmac : (read s.mem ethAlen ethAlen).length = 6 := length_read
  obtain ⟨s', heq, hlen, hph, hread⟩ := addPppoeTag_eq h (load16_tagBuf hn e) hroom
  refine ⟨s', ?_, hlen, hph, fun he => ?_⟩
  · unfold addRelay
    rw [heq]
    exact if_neg (Int.not_lt.mpr (Int.natCast_nonneg _))
  · subst he
    rw [hread, read_tagBuf hmac hold hb]

theorem addRelay_noRoom {buf : Nat → UInt8} {n : Nat} (hn : n ≤ 28) {e : Endian}
    (hroom : s.tailroom < dataLen e n) : (s.addRelay e buf n).2 = -1 := by
  have hs : s.addPppoeTag e (tagBuf buf (read s.mem ethAlen ethAlen) n) = (s, -1) := by
    unfold addPppoeTag
    rw [load16_tagBuf hn, if_pos hroom]
  unfold addRelay
  rw [hs]
  rfl

end Skb

/-! ## the client's own tag -/

/-- the client's own relay tag -/
def ownTag (ts : List Tag) : Option Tag := ts.find? (Tag.hasType pttRelaySid)

/-- the other tags -/
def others (ts : List Tag) : List Tag := ts.eraseP (Tag.hasType pttRelaySid)

def oldValue (ts : List Tag) : List UInt8 := (ownTag ts).elim [] Tag.value

theorem ownTag_cases (ts : List Tag) :
    (first tagFormat (Tag.hasType pttRelaySid) ts = none ∧ ownTag ts = none ∧ others ts = ts) ∨
      ∃ pre t post, ts = pre ++ t :: post ∧ ownTag ts = some t ∧ others ts = pre ++ post ∧
        first tagFormat (Tag.hasType pttRelaySid) ts = some (total pre, t) := by
  cases hf : first tagFormat (Tag.hasType pttRelaySid) ts with
  | none =>
    have hno := first_eq_none.mp hf
    refine Or.inl ⟨rfl, List.find?_eq_none.mpr fun t ht => ?_, List.eraseP_of_forall_not fun t ht => ?_⟩
    · rw [hno t ht]
      exact Bool.false_ne_true
    · rw [hno t ht]
      exact Bool.false_ne_true
  | some x =>
    obtain ⟨pre, post, rfl, ht, hpre, ho⟩ := first_eq_some (o := x.1) (r := x.2) hf
    have hpre' : ∀ t ∈ pre, ¬Tag.hasType pttRelaySid t = true := by
      intro t ht
      rw [hpre t ht]
      exact Bool.false_ne_true
    refine Or.inr ⟨pre, x.2, post, rfl, ?_, ?_, ?_⟩
    · unfold ownTag
      rw [List.find?_append, List.find?_eq_none.mpr hpre', Option.none_or, List.find?_cons_of_pos ht]
    · unfold others
      rw [List.eraseP_append_right _ hpre', List.eraseP_cons_of_pos ht]
    · rw [show total pre = x.1 from ho.symm]

/-- the size of the client's own tag -/
def ownLen (ts : List Tag) : Nat := (ownTag ts).elim 0 fun t => t.bytes.length

theorem total_others (ts : List Tag) : total ts = total (others ts) + ownLen ts := by
  unfold ownLen
  rcases ownTag_cases ts with ⟨-, hn, ho⟩ | ⟨pre, t, post, rfl, hn, ho, -⟩
  · rw [hn, ho]
    rfl
  · rw [hn, ho, total_append, total_append, total_cons]
    dsimp only [Option.elim_some]
    omega

namespace Skb

variable {s : Skb} {ts pre post : List Tag} {t : Tag}

theorem area_split (h : IsDiscovery (pre ++ t :: post) s) :
    read s.mem tag (all tagFormat pre ++ (t.bytes ++ all tagFormat post)).length =
      all tagFormat pre ++ (t.bytes ++ all tagFormat post) := by
  have ha := h.area
  unfold total at ha
  rw [all_append] at ha
  exact ha

theorem read_tag_at (h : IsDiscovery (pre ++ t :: post) s) :
    get16 s.mem (tag + total pre) = t.type ∧ get16 s.mem (tag + total pre + 2) = t.value.length ∧
      read s.mem (tag + total pre + tagHdrLen) t.value.length = t.value :=
  read_tag (read_eq_append.mp (read_eq_append.mp (area_split h)).2).1

theorem total_lt (h : IsDiscovery ts s) : total ts < 2 ^ 16 := by
  rw [← h.phLength]
  exact of16_lt _ _

/-- a tag is taken out of the area and of the length in the header -/
theorem takeOut (h : IsDiscovery (pre ++ t :: post) s) :
    ∃ s', s.skbPullAndMerge (tag + total pre) t.bytes.length = some s' ∧
      IsDiscovery (pre ++ post) (s'.setPhLength (s'.phLength + 0x10000 - t.bytes.length)) ∧
      s'.len + t.bytes.length = s.len ∧ s'.tailroom = s.tailroom + t.bytes.length ∧
      ∀ i, i < tag → s'.mem i = s.mem i := by
  have hfit := h.fits
  have htot := total_lt h
  have hts : total (pre ++ t :: post) = total pre + (t.bytes.length + total post) := by
    rw [total_append, total_cons]
  obtain ⟨s₁, hs, hr, hl, ht, hsame⟩ := skbPullAndMerge_eq (area_split h) (by
    unfold total at hfit
    rw [all_append] at hfit
    exact hfit)
  have hlow : ∀ i, i < tag → s₁.mem i = s.mem i :=
    fun i hi => hsame i (Nat.lt_of_lt_of_le hi (Nat.le_add_right ..))
  have hph : s₁.phLength = total (pre ++ t :: post) := by
    rw [phLength_congr hlow]
    exact h.phLength
  refine ⟨s₁, hs, ⟨?_, ?_, ?_⟩, by omega, ht, hlow⟩
  · rw [read_setPhLength _ (Or.inr (Nat.le_refl _))]
    unfold total
    rw [all_append]
    exact hr
  · rw [phLength_setPhLength, hph, hts, total_append]
    omega
  · show tag + total (pre ++ post) ≤ s₁.len
    rw [total_append]
    omega

/-- the client's own tag is taken out, if there is one -/
theorem relayInsert_eq (h : IsDiscovery ts s) (hold : ∀ t ∈ ownTag ts, t.value.length ≤ 28)
    (e : Endian) (stack : Nat → UInt8) :
    ∃ (s' : Skb) (buf : Nat → UInt8), IsDiscovery (others ts) s' ∧ s'.len + ownLen ts = s.len ∧
      s'.tailroom = s.tailroom + ownLen ts ∧
      read s'.mem ethAlen ethAlen = read s.mem ethAlen ethAlen ∧
      read buf 12 (oldValue ts).length = oldValue ts ∧
      s.relayInsert e stack = s'.addRelay e buf (oldValue ts).length := by
  unfold relayInsert oldValue ownLen
  rw [findPppoeTag_eq h]
  rcases ownTag_cases ts with ⟨hf, hn, ho⟩ | ⟨pre, t, post, rfl, hn, ho, hf⟩
  · rw [hf, hn, ho]
    exact ⟨s, stack, h, rfl, rfl, rfl, rfl, rfl⟩
  · rw [hf, hn, ho]
    have hlen := hold t hn
    obtain ⟨-, htlen, hval⟩ := read_tag_at h
    obtain ⟨s₁, hs, hdisc, hl, ht, hlow⟩ := takeOut h
    rw [t.length_bytes] at hs hdisc
    dsimp only [Option.map_some, Option.elim_some]
    rw [htlen, hval, hs,
      if_neg (by unfold tagHdrLen magicCodeLen rtlRelayTagLen ethAlen tagBufLen; omega)]
    refine ⟨s₁.setPhLength (s₁.phLength + 0x10000 - tagHdrLen - t.value.length),
      write stack (tagHdrLen + magicCodeLen + rtlRelayTagLen) t.value, ?_, hl, ht, ?_, ?_, rfl⟩
    · rw [Nat.sub_sub]
      exact hdisc
    · rw [read_setPhLength _ (Or.inl (by decide))]
      exact read_congr fun i _ hi => hlow i (Nat.lt_of_lt_of_le hi (by decide))
    · exact read_write_self rfl

/-! ### the answer of the server -/

/-- what is left of the tag of the driver -/
def restored (old : List UInt8) (h : old.length ≤ 28) : List Tag :=
  if old = [] then []
  else [⟨pttRelaySid, old, by decide, Nat.lt_of_le_of_lt h (by decide)⟩]

theorem restored_bytes {old : List UInt8} (h : old.length ≤ 28) :
    all tagFormat (restored old h) =
      if old = [] then [] else bytes16 pttRelaySid ++ bytes16 old.length ++ old := by
  unfold restored
  split
  · rfl
  · rw [all_singleton]
    rfl

/-- the tag of the driver is the first relay tag of an answer -/
theorem first_relay (hpre : ∀ t ∈ pre, t.hasType pttRelaySid = false)
    (ht : t.hasType pttRelaySid = true) :
    first tagFormat (Tag.hasType pttRelaySid) (pre ++ t :: post) = some (total pre, t) :=
  first_append hpre ht

/-- the area in pieces: header, magic code and address, old value -/
theorem read_relay {mac old : List UInt8} {hm : mac.length + old.length ≤ 34}
    (h : IsDiscovery (pre ++ relayTag mac old hm :: post) s) :
    read s.mem (tag + total pre + tagHdrLen) 2 = bytes16 magicCode ∧
      read s.mem (tag + total pre + tagHdrLen + magicCodeLen) mac.length = mac ∧
      read s.mem (tag + total pre + tagHdrLen + magicCodeLen + mac.length) old.length = old := by
  obtain ⟨-, -, hv⟩ := read_tag_at h
  obtain ⟨h12, h3⟩ := read_eq_append.mp hv
  obtain ⟨h1, h2⟩ := read_eq_append.mp h12
  refine ⟨h1, h2, ?_⟩
  rw [List.length_append] at h3
  rw [Nat.add_assoc _ magicCodeLen]
  exact h3

section
variable {mac old : List UInt8} {hm : mac.length + old.length ≤ 34}

theorem length_relayTag (hmac : mac.length = ethAlen) :
    (relayTag mac old hm).value.length = 8 + old.length := by
  show (bytes16 magicCode ++ mac ++ old).length = _
  rw [List.length_append, List.length_append, hmac]
  rfl

theorem isDiscovery_memmove_front (h : IsDiscovery ts s) (src : Nat) :
    IsDiscovery ts (s.memmove 0 src ethAlen) := by
  have hsame : ∀ i, ethAlen ≤ i → (s.memmove 0 src ethAlen).mem i = s.mem i := by
    intro i hi
    have hl : (read s.mem src ethAlen).length = ethAlen := length_read
    have hge : 0 + (read s.mem src ethAlen).length ≤ i := by
      rw [hl, Nat.zero_add]
      exact hi
    exact write_of_ge hge
  refine ⟨?_, ?_, h.fits⟩
  · rw [← h.area]
    exact read_congr fun i hi _ => hsame i (Nat.le_trans (by decide) hi)
  · rw [← h.phLength]
    exact get16_congr (read_congr fun i hi _ => hsame i (Nat.le_trans (by decide) hi))

/-- the tests of the tag succeed, and the address is written -/
theorem relayLookup_start (hmac : mac.length = ethAlen)
    (hpre : ∀ t ∈ pre, t.hasType pttRelaySid = false)
    (h : IsDiscovery (pre ++ relayTag mac old hm :: post) s) :
    ∃ s₀ : Skb, IsDiscovery (pre ++ relayTag mac old hm :: post) s₀ ∧ s₀.len = s.len ∧
      read s₀.mem 0 ethAlen = mac ∧
      s.relayLookup = s₀.stripRelay (tag + total pre) (8 + old.length) := by
  obtain ⟨htype, hlen, -⟩ := read_tag_at h
  obtain ⟨hmagic, hmacr, -⟩ := read_relay h
  have htype : get16 s.mem (tag + total pre) = pttRelaySid := htype
  rw [length_relayTag hmac] at hlen
  have hwhole : ¬(8 + old.length < magicCodeLen + rtlRelayTagLen) :=
    Nat.not_lt.mpr (Nat.le_add_right ..)
  refine ⟨s.memmove 0 (tag + total pre + tagHdrLen + magicCodeLen) ethAlen,
    isDiscovery_memmove_front h _, rfl, ?_, ?_⟩
  · show read (write s.mem 0 (read s.mem _ _)) 0 ethAlen = mac
    rw [read_write_self length_read.symm, ← hmac]
    exact hmacr
  · unfold relayLookup
    rw [findPppoeTag_eq h, first_relay hpre rfl]
    dsimp only [Option.map_some]
    rw [htype, hlen, get16_of_read hmagic (by decide),
      if_neg (not_or.mpr ⟨not_not.mpr rfl, hwhole⟩), if_neg (not_not.mpr rfl)]

/-- the client has no old tag -/
theorem stripRelay_all (hmac : mac.length = ethAlen) (ho : old = [])
    (h : IsDiscovery (pre ++ relayTag mac old hm :: post) s) :
    ∃ s' : Skb, s.stripRelay (tag + total pre) (8 + old.length) = (s', 0) ∧
      IsDiscovery (pre ++ post) s' ∧ s'.len + 12 = s.len ∧
      read s'.mem 0 ethAlen = read s.mem 0 ethAlen := by
  subst ho
  have hb : (relayTag mac [] hm).bytes.length = 12 := by
    rw [Tag.length_bytes, length_relayTag hmac]
    rfl
  obtain ⟨s₁, hs, hdisc, hl, -, hlow⟩ := takeOut h
  rw [hb] at hs hdisc hl
  refine ⟨s₁.setPhLength (s₁.phLength + 0x10000 - 12), ?_, hdisc, hl, ?_⟩
  · show (match s.skbPullAndMerge (tag + total pre) 12 with
      | none => (s, (-1 : Int))
      | some s => (s.setPhLength (s.phLength + 0x10000 - 12), 0)) = _
    rw [hs]
  · rw [read_setPhLength _ (Or.inl (by decide))]
    exact read_congr fun i _ hi => hlow i (Nat.lt_of_lt_of_le hi (by decide))

theorem total_restored (pre post : List Tag) (hmac : mac.length = ethAlen)
    (hm : mac.length + old.length ≤ 34) (hold : old.length ≤ 28) (hn : old ≠ []) :
    total (pre ++ (restored old hold ++ post)) + 8 = total (pre ++ relayTag mac old hm :: post) := by
  have hr : total (restored old hold) = 4 + old.length := by
    unfold total
    rw [restored_bytes, if_neg hn, List.length_append]
    rfl
  have hv : (relayTag mac old hm).value.length = 8 + old.length := length_relayTag hmac
  rw [total_append, total_append, total_append, total_cons, Tag.length_bytes, hr, hv]
  unfold tagHdrLen
  omega

/-- what is left is the client's old tag -/
theorem stripRelay_old (hmac : mac.length = ethAlen) (hn : old ≠ [])
    (hold : old.length ≤ 28) (h : IsDiscovery (pre ++ relayTag mac old hm :: post) s) :
    ∃ s' : Skb, s.stripRelay (tag + total pre) (8 + old.length) = (s', 0) ∧
      IsDiscovery (pre ++ (restored old hold ++ post)) s' ∧ s'.len + 8 = s.len ∧
      read s'.mem 0 ethAlen = read s.mem 0 ethAlen := by
  have hpos := List.length_pos_iff.mpr hn
  -- the area once more, cut where the pieces go
  let as := all tagFormat pre
  let hdr := bytes16 pttRelaySid ++ bytes16 (8 + old.length)
  let bs := bytes16 magicCode ++ mac
  let cs := old ++ all tagFormat post
  have hbs : bs.length = 8 := by
    show (bytes16 magicCode ++ mac).length = 8
    rw [List.length_append, hmac]
    rfl
  have hv : (relayTag mac old hm).value.length = 8 + old.length := length_relayTag hmac
  have hsplit : as ++ ((relayTag mac old hm).bytes ++ all tagFormat post) =
      (as ++ hdr) ++ (bs ++ cs) := by
    unfold Tag.bytes
    rw [hv]
    show as ++ (bytes16 pttRelaySid ++ _ ++ (bytes16 magicCode ++ mac ++ old) ++ _) = _
    simp only [hdr, bs, cs, List.append_assoc]
  have har := area_split h
  have hfit := h.fits
  unfold total at hfit
  rw [all_append] at hfit
  have hfit : tag + (as ++ ((relayTag mac old hm).bytes ++ all tagFormat post)).length ≤ s.len := hfit
  rw [show all tagFormat pre = as from rfl, hsplit] at har
  rw [hsplit] at hfit
  obtain ⟨s₁, hs, hr, hl, -, hsame⟩ := skbPullAndMerge_eq har hfit
  have hhdr : (as ++ hdr).length = total pre + tagHdrLen := List.length_append
  rw [hhdr, hbs, ← Nat.add_assoc] at hs
  have hlow : ∀ i, i < tag → s₁.mem i = s.mem i :=
    fun i hi => hsame i (Nat.lt_of_lt_of_le hi (Nat.le_add_right ..))
  have hph : s₁.phLength = total (pre ++ relayTag mac old hm :: post) := by
    rw [phLength_congr hlow]
    exact h.phLength
  let s₂ := s₁.setPhLength (s₁.phLength + 0x10000 - 8)
  let s₃ : Skb := { s₂ with mem := put16 s₂.mem (tag + total pre + 2) old.length }
  have hlow₃ : ∀ i, i < tag → s₃.mem i = s₂.mem i :=
    fun i hi => write_of_lt (Nat.lt_of_lt_of_le hi (by omega))
  have hnew : all tagFormat (pre ++ (restored old hold ++ post)) =
      (as ++ bytes16 pttRelaySid) ++ (bytes16 old.length ++ cs) := by
    rw [all_append, all_append, restored_bytes, if_neg hn]
    simp only [as, cs, List.append_assoc]
  have htot := total_restored pre post hmac hm hold hn
  have hlt := total_lt h
  have hfits := h.fits
  refine ⟨s₃, ?_, ⟨?_, ?_, ?_⟩, ?_, ?_⟩
  · have hif : 8 + old.length > magicCodeLen + rtlRelayTagLen := Nat.lt_add_of_pos_right hpos
    have hrest : 8 + old.length - magicCodeLen - rtlRelayTagLen = old.length := by
      show 8 + old.length - 2 - 6 = _
      omega
    unfold stripRelay
    rw [if_pos hif, hrest]
    show (match s.skbPullAndMerge (tag + total pre + tagHdrLen) 8 with
      | none => (s, (-1 : Int))
      | some s =>
        let s := s.setPhLength (s.phLength + 0x10000 - 8)
        ({ s with mem := put16 s.mem (tag + total pre + 2) old.length }, 0)) = _
    rw [hs]
  · have hr₂ : read s₂.mem tag ((as ++ bytes16 pttRelaySid)
        ++ (bytes16 (8 + old.length) ++ cs)).length =
          (as ++ bytes16 pttRelaySid) ++ (bytes16 (8 + old.length) ++ cs) := by
      rw [read_setPhLength _ (Or.inr (Nat.le_refl _))]
      simp only [hdr, List.append_assoc] at hr
      simp only [List.append_assoc]
      exact hr
    have hlen : (bytes16 old.length).length = (bytes16 (8 + old.length)).length := rfl
    have hw := read_write_middle hr₂ hlen
    have haddr : tag + total pre + 2 = tag + (as ++ bytes16 pttRelaySid).length := by
      rw [List.length_append, Nat.add_assoc]
      rfl
    show read (write s₂.mem (tag + total pre + 2) _) tag (all tagFormat _).length = _
    rw [hnew, haddr]
    exact hw
  · rw [phLength_congr hlow₃, phLength_setPhLength, hph]
    omega
  · show tag + _ ≤ s₁.len
    omega
  · show s₁.len + 8 = s.len
    omega
  · rw [read_congr fun i _ hi => hlow₃ i (Nat.lt_of_lt_of_le hi (by decide)),
      read_setPhLength _ (Or.inl (by decide))]
    exact read_congr fun i _ hi => hlow i (Nat.lt_of_lt_of_le hi (by decide))

end

end Skb

/-! ## the claim of the two methods -/

/-- a PADI or PADR frame of a client, with room for the tag -/
structure Request where
  ext : BrExt
  skb : Skb
  tags : List Tag
  adds : ext.addPPPoETag = true
  code : skb.code = padiCode ∨ skb.code = padrCode
  discovery : IsDiscovery tags skb
  own : ∀ t ∈ ownTag tags, t.value.length ≤ 28

namespace Request

variable (q : Request)

/-- the address of the client -/
def mac : List UInt8 := read q.skb.mem ethAlen ethAlen

theorem length_old : (oldValue q.tags).length ≤ 28 := by
  unfold oldValue
  cases h : ownTag q.tags with
  | none => exact Nat.zero_le _
  | some t => exact q.own t h

theorem length_mac : q.mac.length = ethAlen := length_read

theorem relay_fits : q.mac.length + (oldValue q.tags).length ≤ 34 := by
  have := q.length_old
  have hm : q.mac.length = 6 := q.length_mac
  omega

/-- the tag for the client, with the value of its own -/
def relay : Tag := relayTag q.mac (oldValue q.tags) q.relay_fits

/-- the tags that are wanted -/
def wanted : List Tag := q.relay :: others q.tags

def HasRoom : Prop := total q.wanted ≤ total q.tags + q.skb.tailroom

/-- the tag is put in, and the header and the packet grow with it -/
def Inserted (e : Endian) (stack : Nat → UInt8) : Prop :=
  let r := (dbHandleInsert e stack q.ext q.skb).2
  r.2 = 0 ∧ ∃ ts, ts.Perm q.wanted ∧ IsDiscovery ts r.1 ∧
    r.1.len + total q.tags = q.skb.len + total ts

theorem total_wanted : total q.wanted = dataLen .big (oldValue q.tags).length + total (others q.tags) := by
  unfold wanted
  rw [total_cons, Tag.length_bytes]
  unfold relay
  rw [Skb.length_relayTag q.length_mac]
  show 4 + (8 + _) + _ = 12 + _ + _
  omega

end Request

/-- a PADO or PADS frame of the server: its relay tag is the one of `q` -/
structure Reply (q : Request) where
  ext : BrExt
  skb : Skb
  pre : List Tag
  post : List Tag
  adds : ext.addPPPoETag = true
  code : skb.code = padoCode ∨ skb.code = padsCode
  relay : ∀ t ∈ pre, t.hasType pttRelaySid = false
  discovery : IsDiscovery (pre ++ q.relay :: post) skb

namespace Reply

variable {q : Request} (a : Reply q)

/-- the client's own tag, or none, stands where the tag of the driver was -/
def wanted : List Tag := a.pre ++ ((ownTag q.tags).toList ++ a.post)

/-- the client is addressed, and gets its own tag back -/
def Restored : Prop :=
  let r := (dbHandleLookup a.ext a.skb).2
  r.2 = 0 ∧ read r.1.mem 0 ethAlen = q.mac ∧ IsDiscovery a.wanted r.1 ∧
    r.1.len + total (a.pre ++ q.relay :: a.post) = a.skb.len + total a.wanted

end Reply

theorem total_perm {ts ts' : List Tag} (h : ts.Perm ts') : total ts = total ts' :=
  (h.flatMap_right Tag.bytes).length_eq

theorem dataLen_big {e : Endian} {n : Nat} (h : dataLen e n = dataLen .big n) : e = .big := by
  cases e with
  | big => rfl
  | little =>
    have h : 256 * (2 + 6 + n) + 4 = 4 + 2 + 6 + n := h
    omega

/-- **insertion**: on a host with the byte order of the network -/
theorem inserted_iff (q : Request) (hroom : q.HasRoom) (e : Endian) (stack : Nat → UInt8) :
    q.Inserted e stack ↔ e = .big ∧ total q.wanted < 2 ^ 16 := by
  obtain ⟨s', buf, hd, hl, ht, hmac, hbuf, heq⟩ := Skb.relayInsert_eq q.discovery q.own e stack
  have hr : (dbHandleInsert e stack q.ext q.skb).2 = s'.addRelay e buf (oldValue q.tags).length := by
    unfold dbHandleInsert
    rw [if_pos q.code, if_pos q.adds]
    exact heq
  have hold : (read s'.mem ethAlen ethAlen).length + (oldValue q.tags).length ≤ 34 := by
    rw [hmac]
    exact q.relay_fits
  have htags := total_others q.tags
  have hw := q.total_wanted
  unfold Request.Inserted
  rw [hr]
  unfold Request.HasRoom at hroom
  constructor
  · rintro ⟨h0, ts, hperm, hdisc, hlen⟩
    have hts := total_perm hperm
    refine ⟨?_, ?_⟩
    · by_cases hno : s'.tailroom < dataLen e (oldValue q.tags).length
      · rw [Skb.addRelay_noRoom q.length_old hno] at h0
        exact absurd h0 (by decide)
      · obtain ⟨s₂, hs₂, hlen₂, -, -⟩ := Skb.addRelay_eq hd hold hbuf e (Nat.le_of_not_lt hno)
        rw [hs₂] at hlen
        dsimp only at hlen
        exact dataLen_big (n := (oldValue q.tags).length) (by omega)
    · rw [← hts]
      exact Skb.total_lt hdisc
  · rintro ⟨rfl, hlt⟩
    obtain ⟨s₂, hs₂, hlen₂, hph₂, hread⟩ := Skb.addRelay_eq hd hold hbuf .big (by omega)
    have hrelay : relayTag (read s'.mem ethAlen ethAlen) (oldValue q.tags) hold = q.relay := by
      unfold Request.relay Request.mac
      simp only [hmac]
    have hread := hread rfl
    rw [hrelay, ← hw] at hread
    rw [hs₂]
    refine ⟨rfl, q.wanted, List.Perm.refl _, ⟨hread, ?_, ?_⟩, ?_⟩
    · rw [hph₂, Nat.add_comm, ← hw, Nat.mod_eq_of_lt hlt]
    · have hfit := hd.fits
      show _ ≤ s₂.len
      omega
    · show s₂.len + _ = _
      omega

/-- **lookup**: an empty tag of the client is not given back -/
theorem restored_iff {q : Request} (a : Reply q) :
    a.Restored ↔ ∀ t ∈ ownTag q.tags, t.value ≠ [] := by
  obtain ⟨s₀, hd₀, hl₀, hm₀, heq⟩ := Skb.relayLookup_start q.length_mac a.relay a.discovery
  have hr : (dbHandleLookup a.ext a.skb).2 =
      s₀.stripRelay (Skb.tag + total a.pre) (8 + (oldValue q.tags).length) := by
    unfold dbHandleLookup
    rw [if_pos a.code, if_pos a.adds]
    exact heq
  have hd₀ : IsDiscovery (a.pre ++ relayTag q.mac (oldValue q.tags) q.relay_fits :: a.post) s₀ := hd₀
  have hrelay : total (a.pre ++ q.relay :: a.post) =
      total a.pre + (tagHdrLen + (8 + (oldValue q.tags).length) + total a.post) := by
    rw [total_append, total_cons, Tag.length_bytes]
    unfold Request.relay
    rw [Skb.length_relayTag q.length_mac]
  unfold Reply.Restored Reply.wanted
  rw [hr]
  cases ht : ownTag q.tags with
  | none =>
    have ho : oldValue q.tags = [] := by
      unfold oldValue
      rw [ht]
      rfl
    obtain ⟨s', hs, hdisc, hl, hm⟩ := Skb.stripRelay_all q.length_mac ho hd₀
    rw [hs, hrelay, ho]
    refine iff_of_true ⟨rfl, hm.trans hm₀, hdisc, ?_⟩ (fun _ h => nomatch h)
    show s'.len + (total a.pre + (4 + (8 + 0) + total a.post)) = a.skb.len + total (a.pre ++ a.post)
    rw [total_append]
    omega
  | some t =>
    have ho : oldValue q.tags = t.value := by
      unfold oldValue
      rw [ht]
      rfl
    by_cases hv : t.value = []
    · obtain ⟨s', hs, hdisc, -, -⟩ := Skb.stripRelay_all q.length_mac (ho.trans hv) hd₀
      rw [hs]
      refine iff_of_false ?_ (fun h => h t rfl hv)
      -- the header says one size only
      rintro ⟨-, -, hdisc', -⟩
      have hsize := hdisc'.phLength.symm.trans hdisc.phLength
      have hpos := length_bytes_pos tagFormat t
      rw [total_append, total_append, total_append] at hsize
      have ht1 : total (some t).toList = t.bytes.length := congrArg List.length (all_singleton t)
      have hpos : 0 < t.bytes.length := hpos
      omega
    · obtain ⟨s', hs, hdisc, hl, hm⟩ :=
        Skb.stripRelay_old q.length_mac (by rw [ho]; exact hv) q.length_old hd₀
      have htype : t.hasType pttRelaySid = true := List.find?_some ht
      have htype : t.type = pttRelaySid := beq_iff_eq.mp htype
      have hres : Skb.restored (oldValue q.tags) q.length_old = (some t).toList := by
        unfold Skb.restored
        rw [if_neg (by rw [ho]; exact hv)]
        obtain ⟨type, value, h1, h2⟩ := t
        simp only [Option.toList_some, List.cons.injEq, and_true, Tag.mk.injEq]
        exact ⟨htype.symm, ho⟩
      rw [hs]
      rw [hres] at hdisc
      refine iff_of_true ⟨rfl, hm.trans hm₀, hdisc, ?_⟩ ?_
      · have hsize := Skb.total_restored a.pre a.post q.length_mac q.relay_fits
          q.length_old (by rw [ho]; exact hv)
        rw [hres] at hsize
        show s'.len + total (a.pre ++ relayTag q.mac (oldValue q.tags) q.relay_fits :: a.post) = _
        rw [← hsize]
        omega
      · intro t' ht'
        cases ht'
        exact hv

end Pppoe

open Pppoe

/-- **insertion and removal are inverse** just when the host has the byte order of the network, the
header can hold the new size, and the client has no empty relay tag -/
theorem relayTag_iff (e : Endian) (stack : Nat → UInt8) (q : Request) (hroom : q.HasRoom)
    (a : Reply q) : q.Inserted e stack ∧ a.Restored ↔
      (e = .big ∧ total q.wanted < 2 ^ 16) ∧ ∀ t ∈ ownTag q.tags, t.value ≠ [] :=
  and_congr (inserted_iff q hroom e stack) (restored_iff a)

namespace Pppoe

def emptyMem : Nat → UInt8 := fun _ => 0

def adding : BrExt := ⟨true, 0, []⟩

/-- a discovery frame of 60 bytes for `da` from `sa` -/
def discoveryFrame (da sa : List UInt8) (code : UInt8) (ts : List Tag) : Skb where
  mem := write emptyMem 0
    (da ++ sa ++ [0x88, 0x63, 0x11, code, 0, 0] ++ bytes16 (total ts) ++ all tagFormat ts)
  len := 60
  tailroom := 100

def serviceName : Tag := ⟨0x0101, [], by decide, by decide⟩

/-- a PADI frame with an empty service name -/
def padi : Request where
  ext := adding
  skb := discoveryFrame [255, 255, 255, 255, 255, 255] [2, 0, 0, 0, 0, 1] padiCode [serviceName]
  tags := [serviceName]
  adds := rfl
  code := Or.inl rfl
  discovery := ⟨by decide, by decide, by decide⟩
  own := by decide

def pado : Reply padi where
  ext := adding
  skb := discoveryFrame [2, 0, 0, 0, 0, 9] [2, 0, 0, 0, 0, 5] padoCode [serviceName, padi.relay]
  pre := [serviceName]
  post := []
  adds := rfl
  code := Or.inl rfl
  relay := by decide
  discovery := ⟨by decide, by decide, by decide⟩

end Pppoe

theorem relayTag_iff_padi : padi.Inserted .big emptyMem ∧ pado.Restored :=
  (relayTag_iff .big emptyMem padi (by unfold Request.HasRoom; decide) pado).mpr
    ⟨⟨rfl, by decide⟩, by decide⟩

/-- on a little-endian host 2052 bytes of room are wanted for the 12 of the tag -/
theorem relayTag_little : ¬padi.Inserted .little emptyMem := by
  intro h
  exact absurd h.1 (by decide)

end Rtl8192eu
