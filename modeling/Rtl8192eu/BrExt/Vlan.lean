import Rtl8192eu.BrExt.DbEffect

/-!
# The VLAN tag of a bridged frame

The handler of NAT2.5 wants frames without a VLAN tag: `rtw_br_client_tx` and `nat25_handle_frame`
take the tag off and put it back.

* `vlanStrip`, `vlanRestore`, `addTag`   the addresses are moved, two bytes at a time;
* `rtwBrClientTx`, `nat25HandleFrame`   the two functions, with the places where they return;
* `TaggedFrame`   a frame with a tag;
* `TxCarries`, `RxKeeps` what is wanted of the tag and of the rest of the frame;
* `TxRefused`     the frames that are let go without their tag;
* `bridgeVlan_iff`   only for them the tag is lost.
-/

namespace Rtl8192eu

open Mem HashChain

namespace Nat25

open Pppoe hiding BrExt

variable {H : Host}

/-! ## the tag -/

/-- a tag that is off: `vlan_hdr`, and the bytes in front of `skb->data` -/
structure Vlan where
  tci : List UInt8
  front : List UInt8
  length_tci : tci.length = 2
  length_front : front.length = 4

/-- the loop in front of `skb_pull(skb, 4)` -/
def stripLoop (m : Nat → UInt8) : Nat → UInt8 :=
  (List.range 6).foldl
    (fun m i => write m (ethAlen * 2 + 2 - i * 2) (read m (ethAlen * 2 - 2 - i * 2) 2)) m

/-- the loop behind `skb_push(skb, 4)` -/
def restoreLoop (m : Nat → UInt8) : Nat → UInt8 :=
  (List.range 6).foldl (fun m i => write m (i * 2) (read m (4 + i * 2) 2)) m

def vlanStrip (s : Skb) : Vlan × Skb :=
  let m := stripLoop s.mem
  (⟨read s.mem (ethAlen * 2 + 2) 2, read m 0 4, length_read, length_read⟩,
    { mem := shift m 4, len := s.len - 4, tailroom := s.tailroom })

def vlanRestore (v : Vlan) (s : Skb) : Skb where
  mem := write (write (restoreLoop (ahead v.front s.mem)) (ethAlen * 2) (bytes16 ethP8021Q))
    (ethAlen * 2 + 2) v.tci
  len := s.len + 4
  tailroom := s.tailroom

/-- `if` there is a tag -/
def takeVlan (s : Skb) : Option Vlan × Skb :=
  if etherType s = ethP8021Q then
    let r := vlanStrip s
    (some r.1, r.2)
  else (none, s)

/-- `if (is_vlan_tag)` -/
def putVlan : Option Vlan → Skb → Skb
  | none, s => s
  | some v, s => vlanRestore v s

/-! ## `dhcp_flag_bcast` -/

namespace Dhcp

/-- `struct udphdr` -/
def udph (s : Skb) : Nat := ethHlen + 4 * Ip.ihl s
/-- `struct dhcpMessage` -/
def dhcph (s : Skb) : Nat := udph s + 8
def flags (s : Skb) : Nat := dhcph s + 10
def cookie (s : Skb) : Nat := dhcph s + 236
def check (s : Skb) : Nat := udph s + 6

def clientPort : Nat := 68
def serverPort : Nat := 67
def dhcpMagic : List UInt8 := [0x63, 0x82, 0x53, 0x63]

/-- a request without the broadcast flag -/
def isRequest (s : Skb) : Prop :=
  etherType s = ethPIp ∧ s.mem (ethHlen + 9) = 17 ∧ get16 s.mem (udph s) = clientPort ∧
    get16 s.mem (udph s + 2) = serverPort ∧ read s.mem (cookie s) 4 = dhcpMagic ∧
    s.mem (flags s) &&& 0x80 = 0

instance (s : Skb) : Decidable (isRequest s) :=
  inferInstanceAs (Decidable (_ ∧ _ ∧ _ ∧ _ ∧ _ ∧ _))

/-- `while (sum >> 16)` -/
def fold (sum : Nat) : Nat :=
  if h : sum < 2 ^ 16 then sum else fold (sum % 2 ^ 16 + sum / 2 ^ 16)
termination_by sum
decreasing_by omega

/-- a field of 16 bits as the host stores it -/
def store16 (e : Endian) (m : Nat → UInt8) (a n : Nat) : Nat → UInt8 :=
  match e with
  | .big => write m a (bytes16 n)
  | .little => write m a (bytes16 n).reverse

end Dhcp

/-- `dhcp_flag_bcast` -/
def Adapter.dhcpFlagBcast (p : Adapter H) (s : Skb) : Skb :=
  if p.dhcpBcstDisable = false ∧ Dhcp.isRequest s then
    let m := write s.mem (Dhcp.flags s) [s.mem (Dhcp.flags s) ||| 0x80]
    let sum := 0xffff - load16 H.endian m (Dhcp.check s) + load16 H.endian m (Dhcp.flags s)
    { s with mem := Dhcp.store16 H.endian m (Dhcp.check s) (0xffff - Dhcp.fold sum) }
  else s

/-! ## `rtw_br_client_tx` -/

/-- what `rtw_skb_copy` finds behind the new packet -/
structure Copy where
  behind : Nat → UInt8
  tailroom : Nat

structure TxEnv extends Env where
  /-- `rx_handler_data` is there -/
  brPort : Bool := true
  /-- `rtw_skb_copy` gives a packet -/
  copy : Option Copy := some ⟨emptyMem, 0⟩
  /-- `skb_linearize` is not an error -/
  linearize : Bool := true

def rtwSkbCopy (c : Copy) (s : Skb) : Skb := ⟨ahead (read s.mem 0 s.len) c.behind, s.len, c.tailroom⟩

namespace Adapter

/-- the test for the cached client -/
def isCached (p : Adapter H) (env : TxEnv) (s : Skb) : Prop :=
  s.mem 0 &&& 1 = 0 ∧ env.brPort = true ∧ srcAddr s ≠ p.brMac ∧ etherType s ≠ ethP8021Q ∧
    etherType s = ethPIp ∧ p.scdbMac = srcAddr s ∧ p.scdbEntry.isSome = true

instance (p : Adapter H) (env : TxEnv) (s : Skb) : Decidable (p.isCached env s) :=
  inferInstanceAs (Decidable (_ ∧ _ ∧ _ ∧ _ ∧ _ ∧ _ ∧ _))

/-- `br_ip` -/
def noteBrIp (p : Adapter H) (s : Skb) : Adapter H :=
  if srcAddr s = p.brMac ∧ etherType s = ethPIp then { p with brIp := Ip.saddr s } else p

/-- `scdb_findEntry`: the MAC address is not looked at -/
def scdbFindEntry (p : Adapter H) (_mac : EthAddr) (ip : List UInt8) : Option (List UInt8) :=
  (p.nethash.get (generateIpv4NetworkAddr ip)).map fun _ => generateIpv4NetworkAddr ip

/-- the cache, before the database; `do_nat25` -/
def scdbCheck (p : Adapter H) (s : Skb) : Adapter H × Bool :=
  if etherType s = ethPIp then
    if p.scdbMac ≠ srcAddr s then
      match p.scdbFindEntry (srcAddr s) (Ip.saddr s) with
      | some k =>
        ({ p with scdbEntry := some k, scdbMac := srcAddr s, scdbIp := Ip.saddr s }.refresh k, false)
      | none => ({ p with scdbEntry := none }, true)
    else
      match p.scdbEntry with
      | some k => (p.refresh k, false)
      | none => ({ p with scdbMac := .zero, scdbIp := List.replicate 4 0 }, true)
  else (p, true)

end Adapter

/-- the call behind `if (do_nat25)`; `ret` is there if it has returned -/
structure Mid (H : Host) where
  priv : Adapter H
  vlan : Option Vlan
  skb : Skb
  ret : Option Int

/-- the packet is copied with its tag, which is taken off again -/
def copySkb (c : Copy) (v : Option Vlan) (s : Skb) : Option Vlan × Skb :=
  let s := rtwSkbCopy c (putVlan v s)
  match v with
  | none => (none, s)
  | some _ =>
    let r := vlanStrip s
    (some r.1, r.2)

/-- the result of `NAT25_INSERT`: only for -2 the frame is dropped -/
def afterInsert (v : Option Vlan) (r : Out H) : Mid H :=
  ⟨r.priv, v, r.skb, if r.ret < 0 then if r.ret = -2 then some (-1) else some 0 else none⟩

namespace Adapter

def linearizeAndInsert (p : Adapter H) (env : TxEnv) (v : Option Vlan) (s : Skb) : Option (Mid H) :=
  if env.linearize = false then some ⟨p, v, s, some (-1)⟩
  else (p.nat25DbHandle env.toEnv s .insert).map (afterInsert v)

/-- `if (do_nat25)` -/
def doNat25 (p : Adapter H) (env : TxEnv) (v : Option Vlan) (s : Skb) : Option (Mid H) :=
  (p.nat25DbHandle env.toEnv s .check).bind fun c =>
    if c.ret = 0 then
      match env.copy with
      | none => some ⟨c.priv, v, putVlan v c.skb, some (-1)⟩
      | some copy =>
        let r := copySkb copy v c.skb
        c.priv.linearizeAndInsert env r.1 r.2
    else c.priv.linearizeAndInsert env v c.skb

/-- `memcpy(skb->data + MACADDRLEN, GET_MY_HWADDR(padapter), MACADDRLEN)` -/
def setSa (H : Host) (s : Skb) : Skb := { s with mem := write s.mem ethAlen H.myHwaddr.bytes }

/-- the last test of the source address -/
def checkSa (p : Adapter H) (s : Skb) : Out H := ⟨p, s, if srcAddr s ≠ H.myHwaddr then -1 else 0⟩

/-- the address of the adapter is put in, and the tag put back -/
def finishTx (r : Mid H) : Out H :=
  match r.ret with
  | some n => ⟨r.priv, r.skb, n⟩
  | none => r.priv.checkSa (putVlan r.vlan (r.priv.dhcpFlagBcast (setSa H r.skb)))

def rtwBrClientTx (p : Adapter H) (env : TxEnv) (s : Skb) : Option (Out H) :=
  if p.isCached env s then some ((p.scdbEntry.elim p p.refresh).checkSa (setSa H s))
  else
    let x := takeVlan s
    let c := (p.noteBrIp x.2).scdbCheck x.2
    let mid := if c.2 then c.1.doNat25 env x.1 x.2 else some ⟨c.1, x.1, x.2, none⟩
    mid.map finishTx

/-! ## `nat25_handle_frame` -/

/-- a packet for the cached client -/
def scdbHit (p : Adapter H) (s : Skb) : Prop :=
  p.nat25scDisable = false ∧ etherType s = ethPIp ∧ p.scdbIp = Ip.daddr s

instance (p : Adapter H) (s : Skb) : Decidable (p.scdbHit s) :=
  inferInstanceAs (Decidable (_ ∧ _ ∧ _))

/-- traffic for the bridge itself -/
def forBrIp (p : Adapter H) (s : Skb) : Prop :=
  etherType s = ethPIp ∧ p.brIp = Ip.daddr s ∨
    etherType s = ethPArp ∧ p.brIp = read s.mem (ethHlen + 24) 4

instance (p : Adapter H) (s : Skb) : Decidable (p.forBrIp s) :=
  inferInstanceAs (Decidable (_ ∧ _ ∨ _ ∧ _))

/-- the frame without its tag -/
def handleUntagged (p : Adapter H) (env : Env) (s : Skb) : Option (Out H) :=
  if p.nat25Disable = false then
    if p.scdbHit s then some ⟨p, setDa s p.scdbMac, 0⟩ else p.nat25DbHandle env s .lookup
  else if p.forBrIp s then p.nat25DbHandle env s .lookup
  else some ⟨p, s, 0⟩

def nat25HandleFrame (p : Adapter H) (env : Env) (s : Skb) : Option (Out H) :=
  if s.mem 0 &&& 1 = 0 then
    let x := takeVlan s
    (p.handleUntagged env x.2).map fun r =>
      ⟨r.priv, putVlan x.1 r.skb, if r.ret = -1 then -1 else 0⟩
  else some ⟨p, s, 0⟩

end Adapter

/-! ## what is wanted -/

/-- an Ethernet frame with an 802.1Q header -/
structure TaggedFrame where
  skb : Skb
  tagged : etherType skb = ethP8021Q
  whole : ethHlen + 4 ≤ skb.len

/-- the frame without its tag -/
def TaggedFrame.inner (f : TaggedFrame) : Skb := (vlanStrip f.skb).2

/-- the packet that `NAT25_INSERT` gets -/
def inserted (H : Host) (env : TxEnv) (s : Skb) : Skb :=
  if copied H s then env.copy.elim s fun c => rtwSkbCopy c s else s

/-- a frame that goes on has its 802.1Q header, the inner type behind it, its length but for a relay
tag, and the address of the adapter -/
def TxCarries (p : Adapter H) (env : TxEnv) (f : TaggedFrame) : Prop :=
  ∀ r, p.rtwBrClientTx env f.skb = some r → r.ret = 0 →
    read r.skb.mem (2 * ethAlen) 6 = read f.skb.mem (2 * ethAlen) 6 ∧
      r.skb.len + (tagSizes p (inserted H env f.inner)).1 =
        f.skb.len + (tagSizes p (inserted H env f.inner)).2 ∧
      srcAddr r.skb = H.myHwaddr

/-- the database is asked about the destination -/
def LooksUp (p : Adapter H) (s : Skb) : Prop :=
  s.mem 0 &&& 1 = 0 ∧ if p.nat25Disable = false then ¬p.scdbHit s else p.forBrIp s

instance (p : Adapter H) (s : Skb) : Decidable (LooksUp p s) :=
  inferInstanceAs (Decidable (_ ∧ if p.nat25Disable = false then ¬p.scdbHit s else p.forBrIp s))

/-- the fields of the inner protocol that are rewritten -/
def rxFields (p : Adapter H) (s : Skb) : List (Nat × Nat) :=
  if LooksUp p s then lookupFields p s else []

/-- the part of the relay tag that is taken out -/
def rxCut (p : Adapter H) (s : Skb) : Nat × Nat :=
  if LooksUp p s then lookupCut p s else (ethHlen, 0)

/-- what is at `f` without the tag, is four bytes further on with it -/
def behindTag (f : Nat × Nat) : Nat × Nat := (f.1 + 4, f.2)

/-- a received frame keeps all but its destination and the fields of the inner protocol -/
def RxKeeps (p : Adapter H) (env : Env) (f : TaggedFrame) : Prop :=
  ∃ r, p.nat25HandleFrame env f.skb = some r ∧
    Kept ((rxFields p f.inner).map behindTag) (behindTag (rxCut p f.inner)) f.skb r.skb

/-- `do_nat25`: the cache has no entry for the frame -/
def AsksNat25 (p : Adapter H) (s : Skb) : Prop :=
  etherType s = ethPIp →
    if p.scdbMac ≠ srcAddr s then p.nethash.get (generateIpv4NetworkAddr (Ip.saddr s)) = none
    else p.scdbEntry = none

/-- `NAT25_INSERT` is reached, and has no use for the frame -/
def TxRefused (p : Adapter H) (env : TxEnv) (s : Skb) : Prop :=
  AsksNat25 p s ∧ (copied H s = true → env.copy ≠ none) ∧ env.linearize = true ∧
    Refused p (inserted H env s)

/-! ## taking off and putting back -/

variable {s : Skb}

/-- the addresses, a tag, and the rest of the frame -/
def addTag (tci : List UInt8) (s : Skb) : Skb where
  mem := ahead (read s.mem 0 12 ++ (bytes16 ethP8021Q ++ tci)) (shift s.mem 12)
  len := s.len + 4
  tailroom := s.tailroom

theorem stripLoop_eq (m : Nat → UInt8) : stripLoop m = write m 4 (read m 0 12) := by
  show moveUp 0 4 2 6 m = _
  rw [moveUp_eq]

theorem restoreLoop_eq (m : Nat → UInt8) : restoreLoop m = write m 0 (read m 4 12) := by
  show moveDown 0 4 2 6 m = _
  rw [moveDown_eq]

theorem vlanStrip_eq (s : Skb) :
    (vlanStrip s).2 = ⟨ahead (read s.mem 0 12) (shift s.mem 16), s.len - 4, s.tailroom⟩ := by
  have hm : shift (stripLoop s.mem) 4 = ahead (read s.mem 0 12) (shift s.mem 16) := by
    rw [stripLoop_eq, ← Nat.add_zero 4, shift_write, write_zero, length_read, shift_shift]
  unfold vlanStrip
  rw [← hm]

theorem vlanRestore_eq (v : Vlan) (s : Skb) : vlanRestore v s = addTag v.tci s := by
  have hfront : shift (ahead v.front s.mem) 4 = s.mem := by
    rw [← v.length_front, shift_ahead]
  have haddr : read (ahead v.front s.mem) 4 12 = read s.mem 0 12 := by
    rw [← Nat.add_zero 4, ← read_shift, hfront]
  have hrest : shift (ahead v.front s.mem) 16 = shift s.mem 12 := by
    show shift _ (4 + 12) = _
    rw [← shift_shift, hfront]
  have hlen : (read s.mem 0 12 ++ (bytes16 ethP8021Q ++ v.tci)).length = 16 := by
    rw [List.length_append, List.length_append, length_read, v.length_tci]
    rfl
  have hm : write (write (restoreLoop (ahead v.front s.mem)) 12 (bytes16 ethP8021Q)) 14 v.tci =
      ahead (read s.mem 0 12 ++ (bytes16 ethP8021Q ++ v.tci)) (shift s.mem 12) := by
    have h1 : write (write (ahead v.front s.mem) 0 (read s.mem 0 12)) (0 + (read s.mem 0 12).length)
        (bytes16 ethP8021Q) = _ := write_append
    have h2 : write (write (ahead v.front s.mem) 0 (read s.mem 0 12 ++ bytes16 ethP8021Q))
        (0 + (read s.mem 0 12 ++ bytes16 ethP8021Q).length) v.tci = _ := write_append
    rw [length_read] at h1
    rw [List.length_append, length_read] at h2
    have h1 : write (write _ 0 _) 12 _ = _ := h1
    have h2 : write (write _ 0 _) 14 _ = _ := h2
    rw [restoreLoop_eq, haddr, h1, h2, List.append_assoc, write_zero, hlen, hrest]
  unfold vlanRestore addTag
  rw [← hm]
  rfl

section
variable {t : List UInt8} {i n : Nat}

theorem read_addTag_low (h : n ≤ 12) : read (addTag t s).mem 0 n = read s.mem 0 n := by
  unfold addTag
  rw [ahead_append, read_ahead_take (by rw [length_read]; exact h)]
  have hsub : read s.mem (0 + 0) n = ((read s.mem 0 12).drop 0).take n := read_sub (by omega)
  rw [List.drop_zero] at hsub
  exact hsub.symm

theorem shift_addTag_tag : shift (addTag t s).mem 12 = ahead (bytes16 ethP8021Q ++ t) (shift s.mem 12) := by
  unfold addTag
  rw [ahead_append, shift_ahead_read]

theorem length_tag (ht : t.length = 2) : (bytes16 ethP8021Q ++ t).length = 4 := by
  rw [List.length_append, ht]
  rfl

theorem shift_addTag (ht : t.length = 2) : shift (addTag t s).mem 16 = shift s.mem 12 := by
  show shift _ (12 + 4) = _
  rw [← shift_shift, shift_addTag_tag, ← length_tag ht, shift_ahead]

theorem addTag_low (h : i < 12) : (addTag t s).mem i = s.mem i := by
  have hr := cell_congr (read_addTag_low (t := t) (s := s) (Nat.le_refl 12)) h
  rw [Nat.zero_add] at hr
  exact hr

theorem addTag_high (ht : t.length = 2) (i : Nat) : (addTag t s).mem (16 + i) = s.mem (12 + i) :=
  congrFun (shift_addTag ht) i

theorem read_addTag_tag (ht : t.length = 2) : read (addTag t s).mem 12 4 = bytes16 ethP8021Q ++ t := by
  rw [← Nat.add_zero 12, ← read_shift, shift_addTag_tag]
  exact read_ahead (length_tag ht).symm

theorem read_addTag_high (ht : t.length = 2) (n : Nat) :
    read (addTag t s).mem 16 n = read s.mem 12 n := read_congr_at fun i _ => addTag_high ht i

/-- the tag, and the inner type behind it -/
theorem read_addTag (ht : t.length = 2) :
    read (addTag t s).mem 12 6 = bytes16 ethP8021Q ++ t ++ read s.mem 12 2 := by
  show read _ 12 (4 + 2) = _
  rw [read_add, read_addTag_tag ht, read_addTag_high ht]

theorem vlanStrip_addTag (ht : t.length = 2) : (vlanStrip (addTag t s)).2 = s := by
  rw [vlanStrip_eq, read_addTag_low (Nat.le_refl 12), shift_addTag ht, ahead_read]
  rfl

theorem tci_vlanStrip (ht : t.length = 2) : (vlanStrip (addTag t s)).1.tci = t := by
  have h : read (addTag t s).mem 14 2 = ((read (addTag t s).mem 12 6).drop 2).take 2 :=
    read_sub (k := 2) (by decide)
  rw [read_addTag ht] at h
  show read (addTag t s).mem 14 2 = t
  rw [h]
  show ((t ++ read s.mem 12 2).take 2) = t
  exact List.take_left' ht

end

namespace TaggedFrame

variable (f : TaggedFrame)

/-- the two bytes of the tag -/
def tci : List UInt8 := read f.skb.mem 14 2

theorem length_tci : f.tci.length = 2 := length_read

theorem inner_eq : f.inner = ⟨ahead (read f.skb.mem 0 12) (shift f.skb.mem 16), f.skb.len - 4,
    f.skb.tailroom⟩ := vlanStrip_eq f.skb

theorem length_inner : f.inner.len + 4 = f.skb.len := by
  have hw : 14 + 4 ≤ f.skb.len := f.whole
  rw [inner_eq]
  show f.skb.len - 4 + 4 = _
  omega

theorem addTag_inner : addTag f.tci f.inner = f.skb := by
  have htype : read f.skb.mem 12 2 = bytes16 ethP8021Q := by
    have h : of16 (f.skb.mem 12) (f.skb.mem 13) = ethP8021Q := f.tagged
    rw [← h, bytes16_of16]
    rfl
  have hlow : read f.inner.mem 0 12 = read f.skb.mem 0 12 := by
    rw [inner_eq]
    exact read_ahead length_read.symm
  have hhigh : shift f.inner.mem 12 = shift f.skb.mem 16 := by
    rw [inner_eq]
    exact shift_ahead_read 0 12
  have hsplit : read f.skb.mem 0 16 = read f.skb.mem 0 12 ++ (bytes16 ethP8021Q ++ f.tci) := by
    show read _ 0 (12 + (2 + 2)) = _
    rw [read_add, Nat.zero_add, read_add, htype]
    rfl
  have hmem : (addTag f.tci f.inner).mem = f.skb.mem := by
    unfold addTag
    rw [hlow, hhigh, ← hsplit, ahead_read]
  have hlen : (addTag f.tci f.inner).len = f.skb.len := f.length_inner
  have htail : (addTag f.tci f.inner).tailroom = f.skb.tailroom := rfl
  show Skb.mk (addTag f.tci f.inner).mem (addTag f.tci f.inner).len (addTag f.tci f.inner).tailroom =
    ⟨f.skb.mem, f.skb.len, f.skb.tailroom⟩
  rw [hmem, hlen, htail]

end TaggedFrame

/-! ## a received frame -/

theorem addTag_tag {t : List UInt8} (ht : t.length = 2) (s s' : Skb) {k : Nat} (hk : k < 4) :
    (addTag t s).mem (12 + k) = (addTag t s').mem (12 + k) := by
  have hk : k < (bytes16 ethP8021Q ++ t).length := by
    rw [length_tag ht]
    exact hk
  show shift (addTag t s).mem 12 k = shift (addTag t s').mem 12 k
  rw [shift_addTag_tag, shift_addTag_tag, ahead_of_lt hk, ahead_of_lt hk]

theorem outside_behindTag {fields : List (Nat × Nat)} {i : Nat}
    (h : Outside (fields.map behindTag) (4 + i)) : Outside fields i := by
  rintro f hf ⟨hl, hr⟩
  refine h (behindTag f) (List.mem_map_of_mem hf) ⟨?_, ?_⟩
  · show f.1 + 4 ≤ 4 + i
    omega
  · show 4 + i < f.1 + 4 + f.2
    omega

/-- with the tag in front, the fields are four bytes further on -/
theorem kept_addTag {fields : List (Nat × Nat)} {cut : Nat × Nat} {s s' : Skb} {t : List UInt8}
    (ht : t.length = 2) (hf : ∀ f ∈ fields, ethHlen ≤ f.1) (hc : ethHlen ≤ cut.1)
    (h : Kept fields cut s s') :
    Kept (fields.map behindTag) (behindTag cut) (addTag t s) (addTag t s') := by
  have hhdr : ethHlen = 14 := rfl
  have hlow : ∀ i, i < ethHlen → Outside fields i :=
    fun i hi f hin hout => absurd (Nat.lt_of_lt_of_le hi (hf f hin)) (Nat.not_lt.mpr hout.1)
  refine ⟨?_, fun i hi hlt hout => ?_, fun i _ hge hlt hout => ?_⟩
  · have hl := h.len
    show s'.len + 4 + cut.2 = s.len + 4
    omega
  · rcases Nat.lt_or_ge i 12 with h12 | h12
    · rw [addTag_low h12, addTag_low h12]
      exact h.below i hi (by omega) (hlow i (by omega))
    rcases Nat.lt_or_ge i 16 with h16 | h16
    · obtain ⟨k, rfl⟩ := Nat.exists_eq_add_of_le h12
      exact addTag_tag ht s' s (by omega)
    · obtain ⟨k, rfl⟩ := Nat.exists_eq_add_of_le h16
      have hk : 12 + k < cut.1 := by
        have hlt : 16 + k < cut.1 + 4 := hlt
        omega
      have hin : 16 + k = 4 + (12 + k) := by omega
      rw [addTag_high ht, addTag_high ht]
      exact h.below _ (Nat.le_add_right_of_le (by decide)) hk (outside_behindTag (hin ▸ hout))
  · have hge : cut.1 + 4 ≤ i := hge
    have hlt : i < s'.len + 4 := hlt
    obtain ⟨k, rfl⟩ := Nat.exists_eq_add_of_le (show 16 ≤ i by omega)
    have hin : 16 + k = 4 + (12 + k) := by omega
    rw [Nat.add_assoc, addTag_high ht, addTag_high ht, ← Nat.add_assoc]
    exact h.above _ (Nat.le_add_right_of_le (by decide)) (by omega) (by omega)
      (outside_behindTag (hin ▸ hout))

theorem takeVlan_tagged (f : TaggedFrame) : takeVlan f.skb = (some (vlanStrip f.skb).1, f.inner) :=
  if_pos f.tagged

theorem skb_low (f : TaggedFrame) : f.skb.mem 0 = f.inner.mem 0 := by
  rw [← f.addTag_inner]
  exact addTag_low (by decide)

theorem le_rxCut (p : Adapter H) (s : Skb) : ethHlen ≤ (rxCut p s).1 := by
  unfold rxCut
  split
  · exact le_lookupCut p s
  · exact Nat.le_refl _

theorem le_rxFields (p : Adapter H) (s : Skb) : ∀ f ∈ rxFields p s, ethHlen ≤ f.1 := by
  intro f hf
  unfold rxFields at hf
  split at hf
  · exact le_lookupFields hf
  · cases hf

theorem kept_of_not_looksUp {p : Adapter H} {s s' : Skb} (hno : ¬LooksUp p s) (h : DaOnly s s') :
    Kept (rxFields p s) (rxCut p s) s s' := by
  unfold rxFields rxCut
  rw [if_neg hno, if_neg hno]
  exact h.kept

theorem kept_of_looksUp {p : Adapter H} {env : Env} {s : Skb} {r : Out H} (hyes : LooksUp p s)
    (h : p.nat25DbHandle env s .lookup = some r) : Kept (rxFields p s) (rxCut p s) s r.skb := by
  unfold rxFields rxCut
  rw [if_pos hyes, if_pos hyes]
  exact lookup_kept h

/-- without the tag -/
theorem handleUntagged_kept (p : Adapter H) (env : Env) (hm : s.mem 0 &&& 1 = 0) :
    ∃ r, p.handleUntagged env s = some r ∧ Kept (rxFields p s) (rxCut p s) s r.skb := by
  obtain ⟨r, hr⟩ := Option.isSome_iff_exists.mp (lookup_isSome p env s)
  unfold Adapter.handleUntagged
  by_cases hd : p.nat25Disable = false
  · rw [if_pos hd]
    by_cases hhit : p.scdbHit s
    · rw [if_pos hhit]
      have hno : ¬LooksUp p s := fun h => absurd h.2 (by rw [if_pos hd]; exact not_not_intro hhit)
      exact ⟨_, rfl, kept_of_not_looksUp hno (.write p.scdbMac.length_eq)⟩
    · rw [if_neg hhit]
      exact ⟨r, hr, kept_of_looksUp ⟨hm, by rw [if_pos hd]; exact hhit⟩ hr⟩
  · rw [if_neg hd]
    by_cases hbr : p.forBrIp s
    · rw [if_pos hbr]
      exact ⟨r, hr, kept_of_looksUp ⟨hm, by rw [if_neg hd]; exact hbr⟩ hr⟩
    · rw [if_neg hbr]
      have hno : ¬LooksUp p s := fun h => absurd h.2 (by rw [if_neg hd]; exact hbr)
      exact ⟨_, rfl, kept_of_not_looksUp hno .refl⟩

/-- **reception**: the tag comes back to its place -/
theorem rx_keeps (p : Adapter H) (env : Env) (f : TaggedFrame) : RxKeeps p env f := by
  unfold RxKeeps Adapter.nat25HandleFrame
  rw [skb_low]
  by_cases hm : f.inner.mem 0 &&& 1 = 0
  · obtain ⟨r, hr, hkept⟩ := handleUntagged_kept p env hm
    have hadd := kept_addTag f.length_tci (le_rxFields p f.inner) (le_rxCut p f.inner) hkept
    rw [f.addTag_inner] at hadd
    rw [if_pos hm, takeVlan_tagged]
    dsimp only
    rw [hr]
    refine ⟨_, rfl, ?_⟩
    show Kept _ _ _ (vlanRestore (vlanStrip f.skb).1 r.skb)
    rw [vlanRestore_eq]
    exact hadd
  · have hno : ¬LooksUp p f.inner := fun h => hm h.1
    rw [if_neg hm]
    unfold rxFields rxCut
    rw [if_neg hno, if_neg hno]
    exact ⟨_, rfl, DaOnly.refl.kept⟩

/-! ## a frame to be sent -/

section
variable {p : Adapter H} {env : TxEnv} {v : Vlan} {i : Nat}

theorem store16_low {e : Endian} {m : Nat → UInt8} {a n : Nat} (h : i < a) :
    Dhcp.store16 e m a n i = m i := by
  cases e with
  | big => exact write_of_lt h
  | little => exact write_of_lt h

theorem dhcpFlagBcast_low (h : i < ethHlen) : (p.dhcpFlagBcast s).mem i = s.mem i := by
  have hudp : i < Dhcp.udph s := Nat.lt_add_right _ h
  have hflags : i < Dhcp.flags s := Nat.lt_add_right _ (Nat.lt_add_right _ hudp)
  have hcheck : i < Dhcp.check s := Nat.lt_add_right _ hudp
  unfold Adapter.dhcpFlagBcast
  split
  · dsimp only
    rw [store16_low hcheck, write_of_lt hflags]
  · rfl

theorem dhcpFlagBcast_len : (p.dhcpFlagBcast s).len = s.len := by
  unfold Adapter.dhcpFlagBcast
  split
  · rfl
  · rfl

theorem srcAddr_congr {s s' : Skb} (h : ∀ i, i < 12 → s.mem i = s'.mem i) : srcAddr s = srcAddr s' := by
  unfold srcAddr EthAddr.readAt
  congr 1
  exact read_congr fun i _ hi => h i hi

theorem srcAddr_setSa : srcAddr (Adapter.setSa H s) = H.myHwaddr := by
  unfold srcAddr EthAddr.readAt Adapter.setSa
  congr 1
  exact read_write_self H.myHwaddr.length_eq.symm

theorem setSa_mem (h : 12 ≤ i) : (Adapter.setSa H s).mem i = s.mem i :=
  write_of_ge (by rw [H.myHwaddr.length_eq]; exact h)

/-- the frame that goes on from `s` -/
def sent (p : Adapter H) (v : Vlan) (s : Skb) : Skb := addTag v.tci (p.dhcpFlagBcast (Adapter.setSa H s))

theorem srcAddr_sent : srcAddr (sent p v s) = H.myHwaddr := by
  rw [← srcAddr_setSa (H := H) (s := s)]
  apply srcAddr_congr
  intro i hi
  rw [sent, addTag_low hi, dhcpFlagBcast_low (Nat.lt_trans hi (by decide))]

theorem len_sent : (sent p v s).len = s.len + 4 := congrArg (· + 4) dhcpFlagBcast_len

theorem finishTx_go : Adapter.finishTx ⟨p, some v, s, none⟩ = ⟨p, sent p v s, 0⟩ := by
  show p.checkSa (vlanRestore v _) = _
  rw [vlanRestore_eq]
  show Out.mk p (sent p v s) (if srcAddr (sent p v s) ≠ H.myHwaddr then -1 else 0) = _
  rw [if_neg (not_not_intro srcAddr_sent)]

/-- the tag and the inner type are there -/
theorem read_sent {s' : Skb} (h : ∀ i, i < ethHlen → s.mem i = s'.mem i) :
    read (sent p v s).mem 12 6 = read (addTag v.tci s').mem 12 6 := by
  unfold sent
  rw [read_addTag v.length_tci, read_addTag v.length_tci]
  congr 1
  refine read_congr fun i hl hr => ?_
  rw [dhcpFlagBcast_low hr, setSa_mem hl, h i hr]

/-- a copy of a tagged frame is the tagged copy -/
theorem rtwSkbCopy_addTag {t : List UInt8} (ht : t.length = 2) (c : Copy) (h : 12 ≤ s.len) :
    rtwSkbCopy c (addTag t s) = addTag t (rtwSkbCopy c s) := by
  obtain ⟨n, hn⟩ := Nat.exists_eq_add_of_le h
  have hcopy : ahead (read s.mem 0 s.len) c.behind =
      ahead (read s.mem 0 12) (ahead (read s.mem 12 n) c.behind) := by
    rw [hn, read_add, ahead_append, Nat.zero_add]
  have hlow : read (ahead (read s.mem 0 s.len) c.behind) 0 12 = read s.mem 0 12 := by
    rw [hcopy]
    exact read_ahead length_read.symm
  have hhigh : shift (ahead (read s.mem 0 s.len) c.behind) 12 = ahead (read s.mem 12 n) c.behind := by
    rw [hcopy, shift_ahead_read]
  have htagged : read (addTag t s).mem 0 (s.len + 4) =
      (read s.mem 0 12 ++ (bytes16 ethP8021Q ++ t)) ++ read s.mem 12 n := by
    have hlen : s.len + 4 = (12 + 4) + n := by omega
    rw [hlen, read_add, read_add, read_addTag_low (Nat.le_refl 12), Nat.zero_add, read_addTag_tag ht,
      Nat.zero_add, read_addTag_high ht]
  have hmem : (rtwSkbCopy c (addTag t s)).mem = (addTag t (rtwSkbCopy c s)).mem := by
    show ahead (read (addTag t s).mem 0 (s.len + 4)) c.behind =
      ahead (read (ahead (read s.mem 0 s.len) c.behind) 0 12 ++ (bytes16 ethP8021Q ++ t))
        (shift (ahead (read s.mem 0 s.len) c.behind) 12)
    rw [htagged, hlow, hhigh, ahead_append]
  show Skb.mk (rtwSkbCopy c (addTag t s)).mem _ _ = Skb.mk (addTag t (rtwSkbCopy c s)).mem _ _
  rw [hmem]
  rfl

theorem copySkb_eq (c : Copy) (v : Vlan) (h : 12 ≤ s.len) :
    ∃ v', v'.tci = v.tci ∧ copySkb c (some v) s = (some v', rtwSkbCopy c s) := by
  have heq : rtwSkbCopy c (putVlan (some v) s) = addTag v.tci (rtwSkbCopy c s) := by
    rw [← rtwSkbCopy_addTag v.length_tci c h, ← vlanRestore_eq]
    rfl
  unfold copySkb
  rw [heq]
  refine ⟨(vlanStrip (addTag v.tci (rtwSkbCopy c s))).1, tci_vlanStrip v.length_tci, ?_⟩
  dsimp only
  rw [vlanStrip_addTag v.length_tci]

theorem doNat25_eq (p : Adapter H) (v : Vlan) (h : 12 ≤ s.len)
    (hcopy : copied H s = true → env.copy ≠ none) :
    ∃ v', v'.tci = v.tci ∧ p.doNat25 env (some v) s =
      p.linearizeAndInsert env (some v') (inserted H env s) := by
  obtain ⟨n, hn, hiff⟩ := check_eq p env.toEnv s
  unfold Adapter.doNat25 inserted
  rw [hn, Option.bind_some]
  by_cases hc : copied H s = true
  · rw [if_pos (hiff.mpr hc), if_pos hc]
    cases hcp : env.copy with
    | none => exact absurd hcp (hcopy hc)
    | some c =>
      obtain ⟨v', hv, heq⟩ := copySkb_eq c v h
      dsimp only
      rw [heq]
      exact ⟨v', hv, rfl⟩
  · rw [if_neg fun h0 => hc (hiff.mp h0), if_neg hc]
    exact ⟨v, rfl, rfl⟩

theorem doNat25_noCopy (p : Adapter H) (v : Vlan) (hc : copied H s = true) (hcopy : env.copy = none) :
    p.doNat25 env (some v) s = some ⟨p, some v, vlanRestore v s, some (-1)⟩ := by
  obtain ⟨n, hn, hiff⟩ := check_eq p env.toEnv s
  unfold Adapter.doNat25
  rw [hn, Option.bind_some, if_pos (hiff.mpr hc), hcopy]
  rfl

theorem inserted_len : (inserted H env s).len = s.len := by
  unfold inserted
  split
  · cases env.copy with
    | none => rfl
    | some c => rfl
  · rfl

theorem inserted_mem (h : i < s.len) : (inserted H env s).mem i = s.mem i := by
  unfold inserted
  split
  · cases env.copy with
    | none => rfl
    | some c =>
      show ahead (read s.mem 0 s.len) c.behind i = s.mem i
      rw [ahead_of_lt (by rw [length_read]; exact h), getElem_read, Nat.zero_add]
  · rfl

/-! ### the cache -/

theorem scdbCheck_asks (p : Adapter H) (s : Skb) : (p.scdbCheck s).2 = true ↔ AsksNat25 p s := by
  unfold Adapter.scdbCheck AsksNat25 Adapter.scdbFindEntry
  by_cases hip : etherType s = ethPIp
  · rw [if_pos hip]
    by_cases hm : p.scdbMac ≠ srcAddr s
    · rw [if_pos hm, if_pos hm]
      cases p.nethash.get (generateIpv4NetworkAddr (Ip.saddr s)) with
      | none => simp
      | some e => simp [hip]
    · rw [if_neg hm, if_neg hm]
      cases p.scdbEntry with
      | none => simp
      | some k => simp [hip]
  · rw [if_neg hip]
    simp [hip]

theorem scdbCheck_adds (p : Adapter H) (s : Skb) :
    (p.scdbCheck s).1.addPPPoETag = p.addPPPoETag := by
  unfold Adapter.scdbCheck
  split
  · split
    · split
      · rfl
      · rfl
    · split
      · rfl
      · rfl
  · rfl

theorem noteBrIp_asks (p : Adapter H) (s : Skb) : AsksNat25 (p.noteBrIp s) s ↔ AsksNat25 p s := by
  unfold Adapter.noteBrIp
  split
  · exact Iff.rfl
  · exact Iff.rfl

theorem noteBrIp_adds (p : Adapter H) (s : Skb) : (p.noteBrIp s).addPPPoETag = p.addPPPoETag := by
  unfold Adapter.noteBrIp
  split
  · rfl
  · rfl

end

/-! ### the whole call -/

section
variable {p : Adapter H} {env : TxEnv} {f : TaggedFrame}

theorem le_length_inner (f : TaggedFrame) : ethHlen ≤ f.inner.len := by
  have hl := f.length_inner
  have hw := f.whole
  omega

theorem rtwBrClientTx_asks (env : TxEnv) (ha : AsksNat25 p f.inner) :
    ∃ q : Adapter H, q.addPPPoETag = p.addPPPoETag ∧ p.rtwBrClientTx env f.skb =
      (q.doNat25 env (some (vlanStrip f.skb).1) f.inner).map Adapter.finishTx := by
  have hask := (scdbCheck_asks (p.noteBrIp f.inner) f.inner).mpr ((noteBrIp_asks p f.inner).mpr ha)
  refine ⟨((p.noteBrIp f.inner).scdbCheck f.inner).1,
    (scdbCheck_adds _ _).trans (noteBrIp_adds _ _), ?_⟩
  unfold Adapter.rtwBrClientTx
  rw [if_neg fun h => h.2.2.2.1 f.tagged, takeVlan_tagged]
  dsimp only
  rw [if_pos hask]

theorem rtwBrClientTx_cached (env : TxEnv) (ha : ¬AsksNat25 p f.inner) : ∃ q : Adapter H,
    p.rtwBrClientTx env f.skb = some ⟨q, sent q (vlanStrip f.skb).1 f.inner, 0⟩ := by
  have hask : ¬((p.noteBrIp f.inner).scdbCheck f.inner).2 = true :=
    fun h => ha ((noteBrIp_asks p f.inner).mp ((scdbCheck_asks _ _).mp h))
  refine ⟨((p.noteBrIp f.inner).scdbCheck f.inner).1, ?_⟩
  unfold Adapter.rtwBrClientTx
  rw [if_neg fun h => h.2.2.2.1 f.tagged, takeVlan_tagged]
  dsimp only
  rw [if_neg hask, Option.map_some, finishTx_go]

/-- what goes on behind `if (do_nat25)` carries the tag -/
theorem carries_sent {q : Adapter H} {v : Vlan} {s : Skb} {a b : Nat} (hv : v.tci = f.tci)
    (hlow : ∀ i, i < ethHlen → s.mem i = f.inner.mem i) (hlen : s.len + a = f.inner.len + b) :
    read (sent q v s).mem (2 * ethAlen) 6 = read f.skb.mem (2 * ethAlen) 6 ∧
      (sent q v s).len + a = f.skb.len + b ∧ srcAddr (sent q v s) = H.myHwaddr := by
  have hread := read_sent (p := q) (v := v) hlow
  rw [hv, f.addTag_inner] at hread
  have hl := f.length_inner
  exact ⟨hread, by rw [len_sent]; omega, srcAddr_sent⟩

/-- a frame for which the database is not asked is an IPv4 frame -/
theorem tagSizes_cached (ha : ¬AsksNat25 p f.inner) :
    tagSizes p (inserted H env f.inner) = (0, 0) := by
  have hip : etherType f.inner = ethPIp := by
    by_contra hno
    exact ha fun h => absurd h hno
  have hpr : protocol H f.inner = .ip := if_pos hip
  have hc : ¬copied H f.inner = true := by
    unfold copied
    rw [hpr]
    exact Bool.false_ne_true
  have hins : inserted H env f.inner = f.inner := if_neg hc
  rw [hins]
  exact tagSizes_of_ne (by rw [hpr]; decide)

theorem protocol_of_8021Q {s : Skb} (h : etherType s = ethP8021Q) : protocol H s = .other := by
  unfold protocol
  rw [h]
  simp [ethP8021Q, ethPIp, ethPArp, ethPIpx, ethPAtalk, ethPAarp, ethPPppDisc, ethPPppSes, ethPIpv6]

/-- a frame without its tag does not look like the one with the tag -/
theorem not_carries {q : Adapter H} {s : Skb} {r : Out H} (hs : s.len + 4 = f.skb.len)
    (h : q.nat25DbHandle env.toEnv s .insert = some r)
    (hread : read r.skb.mem 12 6 = read f.skb.mem 12 6)
    (hlen : r.skb.len + (tagSizes p s).1 = f.skb.len + (tagSizes p s).2) : False := by
  have htype : etherType s = ethP8021Q := by
    have h2 : read r.skb.mem (12 + 0) 2 = read f.skb.mem (12 + 0) 2 := read_sub_congr hread (by decide)
    have hlow : read r.skb.mem 12 2 = read s.mem 12 2 :=
      read_congr fun i _ hi => (insert_spec h).low i hi
    rw [← f.tagged]
    exact get16_congr (hlow.symm.trans h2)
  have hpr := protocol_of_8021Q (H := H) htype
  have hr : r = ⟨q, s, -1⟩ := by
    unfold Adapter.nat25DbHandle at h
    rw [hpr] at h
    exact (Option.some.inj h).symm
  rw [tagSizes_of_ne (by rw [hpr]; decide), hr] at hlen
  dsimp only at hlen
  omega

/-! ### after `NAT25_INSERT` -/

variable {v : Vlan} {x : Out H}

theorem finish_refused (h : x.ret = -1) :
    Adapter.finishTx (afterInsert (some v) x) = ⟨x.priv, x.skb, 0⟩ := by
  unfold afterInsert
  rw [h]
  rfl

theorem finish_dropped (h : x.ret = -2) : (Adapter.finishTx (afterInsert (some v) x)).ret = -1 := by
  unfold afterInsert
  rw [h]
  rfl

theorem finish_inserted (h : x.ret = 0) :
    Adapter.finishTx (afterInsert (some v) x) = ⟨x.priv, sent x.priv v x.skb, 0⟩ := by
  unfold afterInsert
  rw [h]
  exact finishTx_go

theorem inserted_low (f : TaggedFrame) (env : TxEnv) :
    ∀ i, i < ethHlen → (inserted H env f.inner).mem i = f.inner.mem i :=
  fun _ hi => inserted_mem (Nat.lt_of_lt_of_le hi (le_length_inner f))

theorem twelve_le_length_inner (f : TaggedFrame) : 12 ≤ f.inner.len :=
  Nat.le_trans (by decide) (le_length_inner f)

/-- the early return behind `NAT25_INSERT` -/
theorem not_txCarries (h : TxRefused p env f.inner) : ¬TxCarries p env f := by
  obtain ⟨hasks, hcopy, hlin, href⟩ := h
  obtain ⟨q, hadds, htx⟩ := rtwBrClientTx_asks env hasks
  obtain ⟨v, -, hnat⟩ := doNat25_eq q (vlanStrip f.skb).1 (twelve_le_length_inner f) hcopy
  have href := (refused_congr hadds).mpr href
  obtain ⟨x, hx⟩ := Option.isSome_iff_exists.mp (insert_isSome env.toEnv href)
  have hret : x.ret = -1 := by
    rcases (insert_spec hx).ret with ⟨-, hret⟩ | ⟨hno, -⟩
    · exact hret
    · exact absurd href hno
  have hres : p.rtwBrClientTx env f.skb = some ⟨x.priv, x.skb, 0⟩ := by
    rw [htx, hnat, Adapter.linearizeAndInsert, if_neg (by rw [hlin]; decide), hx, Option.map_some,
      Option.map_some, finish_refused hret]
  intro hcarries
  obtain ⟨hread, hl, -⟩ := hcarries _ hres rfl
  exact not_carries (by rw [inserted_len, f.length_inner]) hx hread hl

/-- the database takes the frame, or the call does not return 0 -/
theorem carries_of_asks {r : Out H} (hasks : AsksNat25 p f.inner) (hno : ¬TxRefused p env f.inner)
    (hr : p.rtwBrClientTx env f.skb = some r) (hret : r.ret = 0) :
    ∃ (q : Adapter H) (v : Vlan) (s : Skb), v.tci = f.tci ∧ r = ⟨q, sent q v s, 0⟩ ∧
      (∀ i, i < ethHlen → s.mem i = f.inner.mem i) ∧
      s.len + (tagSizes p (inserted H env f.inner)).1 =
        f.inner.len + (tagSizes p (inserted H env f.inner)).2 := by
  obtain ⟨q, hadds, htx⟩ := rtwBrClientTx_asks env hasks
  rw [htx] at hr
  by_cases hc : copied H f.inner = true ∧ env.copy = none
  · rw [doNat25_noCopy q _ hc.1 hc.2] at hr
    cases hr
    have hret : (-1 : Int) = 0 := hret
    exact absurd hret (by decide)
  have hcopy : copied H f.inner = true → env.copy ≠ none := fun h1 h2 => hc ⟨h1, h2⟩
  obtain ⟨v, hv, hnat⟩ := doNat25_eq q (vlanStrip f.skb).1 (twelve_le_length_inner f) hcopy
  rw [hnat, Adapter.linearizeAndInsert] at hr
  by_cases hlin : env.linearize = false
  · rw [if_pos hlin] at hr
    cases hr
    have hret : (-1 : Int) = 0 := hret
    exact absurd hret (by decide)
  rw [if_neg hlin, Option.map_map] at hr
  obtain ⟨x, hx, rfl⟩ := Option.map_eq_some_iff.mp hr
  have hspec := insert_spec hx
  rcases hspec.ret with ⟨href, -⟩ | ⟨-, h2 | ⟨h0, hl⟩⟩
  · exact absurd ⟨hasks, hcopy, eq_true_of_ne_false hlin, (refused_congr hadds).mp href⟩ hno
  · -- dropped for another connection
    exact absurd ((finish_dropped h2).symm.trans hret) (by decide)
  · rw [tagSizes_congr hadds, inserted_len] at hl
    exact ⟨x.priv, v, x.skb, hv, finish_inserted h0,
      fun i hi => (hspec.low i hi).trans (inserted_low f env i hi), hl⟩

/-- **transmission**: the tag is lost with the frames that are refused, and only with them -/
theorem txCarries_iff (p : Adapter H) (env : TxEnv) (f : TaggedFrame) :
    TxCarries p env f ↔ ¬TxRefused p env f.inner := by
  constructor
  · exact fun h href => not_txCarries href h
  · intro hno r hr hret
    by_cases hasks : AsksNat25 p f.inner
    · obtain ⟨q, v, s, hv, rfl, hlow, hlen⟩ := carries_of_asks hasks hno hr hret
      exact carries_sent hv hlow hlen
    · obtain ⟨q, htx⟩ := rtwBrClientTx_cached env hasks
      rw [htx] at hr
      cases hr
      rw [tagSizes_cached hasks]
      exact carries_sent rfl (fun _ _ => rfl) rfl

end

end Nat25

open Nat25

/-- the tag of a bridged frame and the rest of the frame are kept just when the frame to be sent is not
one that `NAT25_INSERT` has no use for -/
theorem bridgeVlan_iff {H : Host} (p p' : Adapter H) (env : TxEnv) (env' : Env) (f f' : TaggedFrame) :
    TxCarries p env f ∧ RxKeeps p' env' f' ↔ ¬TxRefused p env f.inner :=
  (and_iff_left (rx_keeps p' env' f')).trans (txCarries_iff p env f)

namespace Nat25

open Pppoe hiding BrExt

def station : Host where
  hz := 250
  longBits := 64
  endian := .little
  ipx := false
  myHwaddr := ⟨[2, 0, 0, 0, 0, 9], rfl⟩
  brNetdev := none
  icmp6Cksum := fun _ => (0, 0)

/-- a frame of 64 bytes with a tag for the VLAN 5, and the type of MPLS behind it -/
def mpls : TaggedFrame where
  skb := ⟨write emptyMem 0 [2, 0, 0, 0, 0, 5, 2, 0, 0, 0, 0, 1, 0x81, 0, 0, 5, 0x88, 0x47], 64, 0⟩
  tagged := by decide
  whole := by decide

def fresh : Adapter station where
  jiffies := 0

theorem mpls_refused : TxRefused fresh {} mpls.inner := by
  refine ⟨fun h => absurd h (by decide), fun h => absurd h (by decide), rfl, ?_⟩
  show True
  trivial

end Nat25

/-- the MPLS frame goes on without its tag -/
theorem bridgeVlan_mpls : ¬(TxCarries fresh {} mpls ∧ RxKeeps fresh {} mpls) := by
  intro h
  exact not_txCarries mpls_refused h.1

end Rtl8192eu
