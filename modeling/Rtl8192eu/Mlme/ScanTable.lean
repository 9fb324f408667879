import Rtl8192eu.Ie.Ssid
import Rtl8192eu.Lib.Apart
import Rtl8192eu.Lib.Run

/-!
# The table of the networks that were scanned

`rtw_update_scanned_network` of `core/rtw_mlme.c` writes a received beacon or probe response over the first
entry of `scanned_queue` that `is_same_network`, or puts it into a free entry, or over the weakest one.  A
hidden network is the same network as every name of its address, so that one response can be the same network
as two entries, and is written over the first.

* `isSameNetwork`, `updateNetwork`   the functions of that name;
* `rtwUpdateScannedNetwork`   the update, and `freeNetworkQueue` the sweep;
* `ScanTable.Once`   every entry is in one list, and every network in the queue once;
* `ScanTable.StepOk`   fixed entries stay, and the weakest one is given away;
* `ScanTable.KeepsOnce`   no response is written over one of two entries it is the same network as;
* `scanTable_iff`   the runs.

P2P, mesh and antenna diversity are not compiled in; `CONFIG_RSSI_PRIORITY` is.  The time is in milliseconds.
-/

namespace Rtl8192eu

open Run Cells

/-! ## what is received -/

/-- `NDIS_802_11_NETWORK_INFRASTRUCTURE` -/
inductive InfraMode where
  | ibss | infrastructure | autoUnknown | infrastructureMax | apMode | monitor | mesh
  deriving DecidableEq, Repr

/-- `WLAN_BSSID_EX`; `collect_bss_info` refuses frames without the fixed fields -/
structure BssidEx where
  macAddress : Mac
  /-- `Reserved[0]` -/
  bssType : UInt8
  ssid : Ndis80211Ssid
  rssi : Int := 0
  dsConfig : UInt8 := 1
  infrastructureMode : InfraMode := .infrastructure
  signalStrength : UInt8 := 0
  signalQuality : UInt8 := 0
  ies : List UInt8 := List.replicate 12 0
  fixedFields : 12 ≤ ies.length := by decide

/-- `BSS_TYPE_BCN` -/
def bssTypeBcn : UInt8 := 2

/-- `BSS_TYPE_PROB_RSP` -/
def bssTypeProbRsp : UInt8 := 3

namespace BssidEx

/-- `rtw_get_capability_from_ie`, read from the bytes at 10 -/
def capability (b : BssidEx) : BitVec 16 := (b.ies.getD 11 0).toBitVec ++ (b.ies.getD 10 0).toBitVec

/-- `WLAN_CAPABILITY_BSS` -/
def capBss (b : BssidEx) : Bool := b.capability.getLsbD 0

/-- `WLAN_CAPABILITY_IBSS` -/
def capIbss (b : BssidEx) : Bool := b.capability.getLsbD 1

def isBeaconOrResponse (b : BssidEx) : Bool := b.bssType == bssTypeBcn || b.bssType == bssTypeProbRsp

end BssidEx

/-- without P2P -/
def isSameNetwork (src dst : BssidEx) : Bool :=
  if src.macAddress = dst.macAddress ∧ src.capIbss = dst.capIbss ∧ src.capBss = dst.capBss then
    if src.ssid.ssid.length = dst.ssid.ssid.length
        ∧ (src.ssid = dst.ssid ∨ isAllNull src.ssid.ssid = true ∨ isAllNull dst.ssid.ssid = true) then true
    else if src.ssid.ssid.length = 0 ∨ dst.ssid.ssid.length = 0 then true
    else false
  else false

/-! ## the keys of a beacon -/

/-- `struct beacon_keys`; `ssid` is the whole array -/
structure BcnKeys where
  ssid : List UInt8 := List.replicate 32 0
  ssidLen : Nat := 0
  ch : UInt8 := 0
  bw : UInt8 := 0
  offset : UInt8 := 0
  protoCap : UInt8 := 0
  rateSet : List UInt8 := List.replicate 12 0
  rateNum : UInt8 := 0
  encrypProtocol : Nat := 0
  pairwiseCipher : Nat := 0
  groupCipher : Nat := 0
  akm : Nat := 0
  deriving DecidableEq

/-- `CHANNEL_WIDTH_40` and `CHANNEL_WIDTH_80` -/
def isWide (bw : UInt8) : Bool := bw == 1 || bw == 2

def rtwIsChbwGrouped (a b : BcnKeys) : Bool :=
  a.ch == b.ch && !(isWide a.bw && isWide b.bw && a.offset != b.offset)

/-- the channel, `proto_cap` and the rates are not compared -/
def rtwBcnKeyCompare (cur recv : BcnKeys) : Bool :=
  rtwIsChbwGrouped cur recv
    && decide ({ cur with
        ch := recv.ch, bw := recv.bw, offset := recv.offset, protoCap := recv.protoCap
        rateNum := recv.rateNum, rateSet := recv.rateSet } = recv)

/-- the keys of a hidden network take the name that is known -/
def BcnKeys.named (cur recv : BcnKeys) : BcnKeys :=
  if isHiddenSsid (recv.ssid.take recv.ssidLen) then
    { recv with ssid := cur.ssid.take cur.ssidLen ++ recv.ssid.drop cur.ssidLen, ssidLen := cur.ssidLen }
  else recv

/-! ## the table -/

/-- `struct wlan_network` -/
structure WlanNetwork where
  fixed : Bool := false
  lastScanned : Nat := 0
  lastNonHiddenSsidAp : Nat := 0
  bcnKeys : BcnKeys := {}
  bcnKeysValid : Bool := false
  network : BssidEx

/-- the table, with the entries by their places in `free_bss_buf` -/
structure ScanTable where
  nets : Nat → WlanNetwork
  scannedQueue : List Nat := []
  freeBssPool : List Nat
  numOfScanned : BitVec 32 := 0
  now : Nat := 0

/-- `cur_network`, with the signal of `recvpriv`, while it is associated -/
structure CurNetwork where
  network : BssidEx
  signalStrength : UInt8
  signalQual : UInt8

/-- `SCANQUEUE_LIFETIME` -/
def scanqueueLifetime : Nat := 20000

/-- `rtw_get_passing_time_ms` -/
def passingTimeMs (now start : Nat) : BitVec 32 := BitVec.ofInt 32 ((now : Int) - start)

/-- one part of the sample and four of the history -/
def signalMix (smp ori : UInt8) : UInt8 := UInt8.ofNat ((smp.toNat + ori.toNat * 4) / 5)

def updateNetwork (asoc : Option CurNetwork) (dst src : BssidEx) (updateIe : Bool) : BssidEx :=
  -- 101: not received on the channel of the network
  let right := src.signalQuality ≠ 101
  let final :=
    match asoc.filter fun cur => isSameNetwork cur.network src with
    | some cur => (cur.signalStrength, cur.signalQual)
    | none =>
      if right then
        (signalMix src.signalStrength dst.signalStrength, signalMix src.signalQuality dst.signalQuality)
      else (dst.signalStrength, dst.signalQuality)
  { (if updateIe then src else dst) with
    signalStrength := final.1
    signalQuality := final.2
    rssi := if right then (src.rssi + dst.rssi * 4).tdiv 5 else dst.rssi }

section
-- `rtw_get_bcn_keys_from_bss`: what was read of the keys, and whether it is valid
variable (getBcnKeys : BssidEx → BcnKeys × Bool)

/-- an entry that is written for the first time; `keys` are those of the last network -/
def newEntry (now : Nat) (keys : BcnKeys) (target : BssidEx) : WlanNetwork where
  lastScanned := now
  lastNonHiddenSsidAp := now
  bcnKeys := if target.isBeaconOrResponse then (getBcnKeys target).1 else keys
  bcnKeysValid := target.isBeaconOrResponse && (getBcnKeys target).2
  network := { target with signalQuality := if target.signalQuality = 101 then 0 else target.signalQuality }

/-- `last_non_hidden_ssid_ap` after a frame -/
def nonHiddenTime (now : Nat) (e : WlanNetwork) (target : BssidEx) : Nat :=
  if target.isBeaconOrResponse = true ∧ target.infrastructureMode = .infrastructure
      ∧ isHiddenSsid target.ssid.ssid = false then now
  else e.lastNonHiddenSsidAp

/-- `update_ie`, with `bcn_keys` -/
def updateIe (now : Nat) (e : WlanNetwork) (target : BssidEx) : Bool × BcnKeys :=
  let keys := (getBcnKeys target).1
  if target.infrastructureMode = .mesh ∨ e.network.bssType ≤ target.bssType then (true, keys)
  else if target.infrastructureMode = .infrastructure ∧ e.fixed = false
      ∧ (scanqueueLifetime : Int) < (passingTimeMs now (nonHiddenTime now e target)).toInt then (true, keys)
  else if target.isBeaconOrResponse && (getBcnKeys target).2 then
    (!rtwBcnKeyCompare e.bcnKeys (e.bcnKeys.named keys), e.bcnKeys.named keys)
  else (false, keys)

/-- the branch for a network that is in the queue -/
def updateEntry (now : Nat) (asoc : Option CurNetwork) (e : WlanNetwork) (target : BssidEx) : WlanNetwork :=
  let valid := target.isBeaconOrResponse && (getBcnKeys target).2
  let r := updateIe getBcnKeys now e target
  { e with
    lastScanned := now
    lastNonHiddenSsidAp := nonHiddenTime now e target
    bcnKeys := if valid then r.2 else e.bcnKeys
    bcnKeysValid := if valid then true else if r.1 then false else e.bcnKeysValid
    network := updateNetwork asoc e.network target r.1 }

end

namespace ScanTable

def setNet (t : ScanTable) (p : Nat) (e : WlanNetwork) : ScanTable :=
  { t with nets := Function.update t.nets p e }

/-- `choice` after an entry of another network -/
def choose (t : ScanTable) (p : Nat) (choice : Option Nat) : Option Nat :=
  if (t.nets p).fixed then choice
  else
    match choice with
    | none => some p
    | some c =>
      if (t.nets p).network.signalStrength < (t.nets c).network.signalStrength then some p else choice

/-- the loop over the queue: the entry that was found, and `choice` -/
def search (t : ScanTable) (target : BssidEx) : List Nat → Option Nat → Option Nat × Option Nat
  | [], choice => (none, choice)
  | p :: ps, choice =>
    if isSameNetwork (t.nets p).network target then (some p, choice) else search t target ps (t.choose p choice)

/-- `_rtw_alloc_network`, and the entry put at the end of the queue -/
def takeFree (t : ScanTable) (p : Nat) (rest : List Nat) (e : WlanNetwork) : ScanTable :=
  { t.setNet p e with
    scannedQueue := t.scannedQueue ++ [p]
    freeBssPool := rest
    numOfScanned := t.numOfScanned + 1 }

def rtwUpdateScannedNetwork (getBcnKeys : BssidEx → BcnKeys × Bool) (t : ScanTable) (asoc : Option CurNetwork)
    (target : BssidEx) : ScanTable :=
  match t.search target t.scannedQueue none with
  | (some p, _) => t.setNet p (updateEntry getBcnKeys t.now asoc (t.nets p) target)
  | (none, choice) =>
    match t.freeBssPool with
    | p :: rest => t.takeFree p rest (newEntry getBcnKeys t.now (t.nets p).bcnKeys target)
    | [] =>
      match choice with
      | none => t
      | some p => t.setNet p (newEntry getBcnKeys t.now (t.nets p).bcnKeys target)

/-- `_rtw_free_network` -/
def freeNetwork (isfreeall adhoc : Bool) (t : ScanTable) (p : Nat) : ScanTable :=
  let lifetime := if adhoc then 1 else scanqueueLifetime
  if (t.nets p).fixed then t
  else if isfreeall = false ∧ (passingTimeMs t.now (t.nets p).lastScanned).toNat < lifetime then t
  else
    { t with
      scannedQueue := t.scannedQueue.erase p
      freeBssPool := t.freeBssPool ++ [p]
      numOfScanned := t.numOfScanned - 1 }

/-- `_rtw_free_network_queue` -/
def freeNetworkQueue (isfreeall adhoc : Bool) (t : ScanTable) : ScanTable :=
  t.scannedQueue.foldl (freeNetwork isfreeall adhoc) t

end ScanTable

inductive ScanEvent where
  | update (asoc : Option CurNetwork) (target : BssidEx)
  | advance (ms : Nat)
  | sweep (isfreeall adhoc : Bool)
  | setFixed (p : Nat) (b : Bool)

namespace ScanTable

def step (getBcnKeys : BssidEx → BcnKeys × Bool) (t : ScanTable) : ScanEvent → ScanTable
  | .update asoc target => t.rtwUpdateScannedNetwork getBcnKeys asoc target
  | .advance ms => { t with now := t.now + ms }
  | .sweep isfreeall adhoc => t.freeNetworkQueue isfreeall adhoc
  | .setFixed p b => t.setNet p { t.nets p with fixed := b }

theorem length_noName : ([] : List UInt8).length ≤ 32 := by decide

theorem length_fixedFields : 12 ≤ (List.replicate 12 (0 : UInt8)).length := by decide

/-- the pool that `rtw_init_mlme_priv` makes, of zeros -/
def init (n : BitVec 32) : ScanTable where
  nets _ :=
    { network := ⟨List.replicate 6 0, 0, ⟨[], length_noName⟩, 0, 0, .ibss, 0, 0, List.replicate 12 0,
        length_fixedFields⟩ }
  freeBssPool := List.range n.toNat

/-! ## what the table is to be -/

/-- no two entries of the queue are the same network -/
def Unique (t : ScanTable) : Prop :=
  Apart (fun a b : WlanNetwork => isSameNetwork a.network b.network = true) t.nets t.scannedQueue

/-- every entry is in one of the lists, and no network in the queue twice -/
structure Once (n : BitVec 32) (t : ScanTable) : Prop where
  lists : (t.scannedQueue ++ t.freeBssPool).Perm (List.range n.toNat)
  num : t.numOfScanned.toNat = t.scannedQueue.length
  unique : t.Unique

/-- the entry at `p` is given to the network -/
structure Evicted (t t' : ScanTable) (target : BssidEx) (p : Nat) : Prop where
  mem : p ∈ t.scannedQueue
  notFixed : (t.nets p).fixed = false
  weakest : ∀ q ∈ t.scannedQueue, (t.nets q).fixed = false →
    (t.nets p).network.signalStrength ≤ (t.nets q).network.signalStrength
  scannedQueue : t'.scannedQueue = t.scannedQueue
  given : (t'.nets p).network.macAddress = target.macAddress ∧ (t'.nets p).network.ssid = target.ssid
    ∧ (t'.nets p).network.ies = target.ies
  others : ∀ q, q ≠ p → t'.nets q = t.nets q

/-- what an event does to the entries -/
structure StepOk (t : ScanTable) (e : ScanEvent) (t' : ScanTable) : Prop where
  /-- a fixed entry stays, with its network -/
  fixed : ∀ p ∈ t.scannedQueue, (t.nets p).fixed = true →
    p ∈ t'.scannedQueue ∧ isSameNetwork (t.nets p).network (t'.nets p).network = true
  /-- no entry is free: the weakest one that is not fixed is given to the network -/
  evicts : ∀ asoc target, e = .update asoc target → t.freeBssPool = [] →
    (∀ p ∈ t.scannedQueue, isSameNetwork (t.nets p).network target = false) →
    (∃ p, Evicted t t' target p) ∨ (∀ p ∈ t.scannedQueue, (t.nets p).fixed = true) ∧ t' = t

/-- the frame is written over the entry: a mesh, a type that counts as much, a name that was not seen for long,
or other keys -/
def Overwrites (getBcnKeys : BssidEx → BcnKeys × Bool) (now : Nat) (e : WlanNetwork) (target : BssidEx) :
    Prop :=
  target.infrastructureMode = .mesh ∨ e.network.bssType ≤ target.bssType
    ∨ (target.infrastructureMode = .infrastructure ∧ e.fixed = false
      ∧ (scanqueueLifetime : Int) < (passingTimeMs now (nonHiddenTime now e target)).toInt)
    ∨ (target.isBeaconOrResponse && (getBcnKeys target).2) = true
      ∧ rtwBcnKeyCompare e.bcnKeys (e.bcnKeys.named (getBcnKeys target).1) = false

/-- what is written over the first entry that is the same network is not the same network as another -/
def KeepsOnce (getBcnKeys : BssidEx → BcnKeys × Bool) (t : ScanTable) : ScanEvent → Prop
  | .update _ target => ∀ p, t.scannedQueue.find? (fun p => isSameNetwork (t.nets p).network target) = some p →
      Overwrites getBcnKeys t.now (t.nets p) target →
      ∀ q ∈ t.scannedQueue, q ≠ p → isSameNetwork (t.nets q).network target = false
  | _ => True

end ScanTable

/-! ## the same network -/

variable {a b c : BssidEx}

/-- the parts that `isSameNetwork` compares -/
structure SameKey (a b : BssidEx) : Prop where
  macAddress : a.macAddress = b.macAddress
  ssid : a.ssid = b.ssid
  capBss : a.capBss = b.capBss
  capIbss : a.capIbss = b.capIbss

theorem SameKey.same_left (h : SameKey a b) : isSameNetwork a c = isSameNetwork b c := by
  unfold isSameNetwork
  rw [h.macAddress, h.ssid, h.capBss, h.capIbss]

theorem SameKey.same_right (h : SameKey a b) : isSameNetwork c a = isSameNetwork c b := by
  unfold isSameNetwork
  rw [h.macAddress, h.ssid, h.capBss, h.capIbss]

theorem isSameNetwork_self (a : BssidEx) : isSameNetwork a a = true := by
  simp [isSameNetwork]

theorem isSameNetwork_comm (h : isSameNetwork a b = true) : isSameNetwork b a = true := by
  unfold isSameNetwork at h ⊢
  split at h
  · next hk =>
    rw [if_pos ⟨hk.1.symm, hk.2.1.symm, hk.2.2.symm⟩]
    split at h
    · next hs =>
      have hs' : b.ssid = a.ssid ∨ isAllNull b.ssid.ssid = true ∨ isAllNull a.ssid.ssid = true := by
        rcases hs.2 with he | he | he
        · exact .inl he.symm
        · exact .inr (.inr he)
        · exact .inr (.inl he)
      rw [if_pos ⟨hs.1.symm, hs'⟩]
    · split at h
      · next h0 => rw [if_pos h0.symm, ite_self]
      · cases h
  · cases h

section
variable {getBcnKeys : BssidEx → BcnKeys × Bool} {now : Nat} {asoc : Option CurNetwork} {e : WlanNetwork}
  {target : BssidEx} {keys : BcnKeys}

theorem updateIe_iff : (updateIe getBcnKeys now e target).1 = true
    ↔ ScanTable.Overwrites getBcnKeys now e target := by
  unfold updateIe ScanTable.Overwrites
  by_cases h1 : target.infrastructureMode = .mesh ∨ e.network.bssType ≤ target.bssType
  · simp [h1, ← or_assoc]
  · by_cases h2 : target.infrastructureMode = .infrastructure ∧ e.fixed = false
        ∧ (scanqueueLifetime : Int) < (passingTimeMs now (nonHiddenTime now e target)).toInt
    · simp [h2]
    · by_cases h3 : (target.isBeaconOrResponse && (getBcnKeys target).2) = true
      · simp only [if_neg h1, if_neg h2, if_pos h3, ← or_assoc]
        simp [h1, h2, h3]
      · simp only [if_neg h1, if_neg h2, if_neg h3, ← or_assoc]
        simp [h1, h2, h3]

/-- an entry that is written for the first time is that of the network -/
theorem newEntry_key : SameKey (newEntry getBcnKeys now keys target).network target := ⟨rfl, rfl, rfl, rfl⟩

theorem updateEntry_key_of (h : ScanTable.Overwrites getBcnKeys now e target) :
    SameKey (updateEntry getBcnKeys now asoc e target).network target := by
  have hu := updateIe_iff.mpr h
  unfold updateEntry updateNetwork
  simp only [hu, if_true]
  exact ⟨rfl, rfl, rfl, rfl⟩

theorem updateEntry_key_of_not (h : ¬ ScanTable.Overwrites getBcnKeys now e target) :
    SameKey (updateEntry getBcnKeys now asoc e target).network e.network := by
  have hu : (updateIe getBcnKeys now e target).1 = false := Bool.eq_false_iff.mpr (mt updateIe_iff.mp h)
  unfold updateEntry updateNetwork
  simp only [hu, Bool.false_eq_true, if_false]
  exact ⟨rfl, rfl, rfl, rfl⟩

end

/-! ## the update -/

namespace ScanTable

variable {getBcnKeys : BssidEx → BcnKeys × Bool} {t t' : ScanTable} {asoc : Option CurNetwork}
  {target : BssidEx} {n : BitVec 32} {p q : Nat} {l ps rest : List Nat} {choice : Option Nat} {e : WlanNetwork}
  {ev : ScanEvent}

@[simp] theorem setNet_self : (t.setNet p e).nets p = e := Function.update_self ..

theorem setNet_ne (h : q ≠ p) : (t.setNet p e).nets q = t.nets q := Function.update_of_ne h ..

/-- the choice among the entries `l` -/
def Weakest (t : ScanTable) (l : List Nat) : Option Nat → Prop
  | none => ∀ p ∈ l, (t.nets p).fixed = true
  | some c => c ∈ l ∧ (t.nets c).fixed = false ∧ ∀ p ∈ l, (t.nets p).fixed = false →
      (t.nets c).network.signalStrength ≤ (t.nets p).network.signalStrength

theorem weakest_choose (h : Weakest t l choice) (p : Nat) : Weakest t (l ++ [p]) (t.choose p choice) := by
  unfold choose
  cases hf : (t.nets p).fixed with
  | true =>
    rw [if_pos rfl]
    cases choice with
    | none =>
      intro q hq
      rcases List.mem_append.mp hq with hq | hq
      · exact h q hq
      · rw [List.mem_singleton.mp hq, hf]
    | some c =>
      refine ⟨List.mem_append_left _ h.1, h.2.1, fun q hq hqf => ?_⟩
      rcases List.mem_append.mp hq with hq | hq
      · exact h.2.2 q hq hqf
      · rw [List.mem_singleton.mp hq, hf] at hqf
        cases hqf
  | false =>
    rw [if_neg Bool.false_ne_true]
    cases choice with
    | none =>
      refine ⟨by simp, hf, fun q hq hqf => ?_⟩
      rcases List.mem_append.mp hq with hq | hq
      · rw [h q hq] at hqf
        cases hqf
      · rw [List.mem_singleton.mp hq]
        exact UInt8.le_refl _
    | some c =>
      dsimp only
      split
      · next hlt =>
        refine ⟨by simp, hf, fun q hq hqf => ?_⟩
        rcases List.mem_append.mp hq with hq | hq
        · exact UInt8.le_trans (UInt8.le_of_lt hlt) (h.2.2 q hq hqf)
        · rw [List.mem_singleton.mp hq]
          exact UInt8.le_refl _
      · next hge =>
        refine ⟨List.mem_append_left _ h.1, h.2.1, fun q hq hqf => ?_⟩
        rcases List.mem_append.mp hq with hq | hq
        · exact h.2.2 q hq hqf
        · rw [List.mem_singleton.mp hq]
          exact UInt8.not_lt.mp hge

/-- the entry that the loop finds -/
theorem search_fst (t : ScanTable) (target : BssidEx) (l : List Nat) (choice : Option Nat) :
    (t.search target l choice).1 = l.find? fun p => isSameNetwork (t.nets p).network target := by
  induction l generalizing choice with
  | nil => rfl
  | cons p l ih =>
    unfold search
    cases h : isSameNetwork (t.nets p).network target with
    | true => simp [h]
    | false => simp [h, ih]

/-- and the choice, if it finds none -/
theorem search_snd (h : ∀ p ∈ l, isSameNetwork (t.nets p).network target = false) (hc : Weakest t ps choice) :
    Weakest t (ps ++ l) (t.search target l choice).2 := by
  induction l generalizing ps choice with
  | nil =>
    rw [List.append_nil]
    exact hc
  | cons p l ih =>
    unfold search
    rw [h p List.mem_cons_self, if_neg Bool.false_ne_true, List.append_cons]
    exact ih (fun q hq => h q (List.mem_cons_of_mem _ hq)) (weakest_choose hc p)

/-- **What an update does**: a known network, a free entry, or the weakest one. -/
theorem update_cases (getBcnKeys : BssidEx → BcnKeys × Bool) (t : ScanTable) (asoc : Option CurNetwork)
    (target : BssidEx) :
    (∃ p, t.scannedQueue.find? (fun p => isSameNetwork (t.nets p).network target) = some p
        ∧ t.rtwUpdateScannedNetwork getBcnKeys asoc target
          = t.setNet p (updateEntry getBcnKeys t.now asoc (t.nets p) target))
      ∨ (∀ p ∈ t.scannedQueue, isSameNetwork (t.nets p).network target = false)
        ∧ ((∃ p rest, t.freeBssPool = p :: rest ∧ t.rtwUpdateScannedNetwork getBcnKeys asoc target
            = t.takeFree p rest (newEntry getBcnKeys t.now (t.nets p).bcnKeys target))
          ∨ t.freeBssPool = [] ∧ ((∀ p ∈ t.scannedQueue, (t.nets p).fixed = true)
                ∧ t.rtwUpdateScannedNetwork getBcnKeys asoc target = t
              ∨ ∃ p, Weakest t t.scannedQueue (some p) ∧ t.rtwUpdateScannedNetwork getBcnKeys asoc target
                = t.setNet p (newEntry getBcnKeys t.now (t.nets p).bcnKeys target))) := by
  have hfst := search_fst t target t.scannedQueue none
  unfold rtwUpdateScannedNetwork
  cases hr : t.search target t.scannedQueue none with
  | mk found choice =>
    rw [hr] at hfst
    cases found with
    | some p => exact .inl ⟨p, hfst.symm, rfl⟩
    | none =>
      have hno : ∀ p ∈ t.scannedQueue, isSameNetwork (t.nets p).network target = false := by
        simpa using List.find?_eq_none.mp hfst.symm
      have hw : Weakest t ([] ++ t.scannedQueue) (t.search target t.scannedQueue none).2 :=
        search_snd hno fun _ hp => nomatch hp
      rw [hr, List.nil_append] at hw
      refine .inr ⟨hno, ?_⟩
      cases hf : t.freeBssPool with
      | cons p rest => exact .inl ⟨p, rest, rfl, rfl⟩
      | nil =>
        refine .inr ⟨rfl, ?_⟩
        cases choice with
        | none => exact .inl ⟨hw, rfl⟩
        | some p => exact .inr ⟨p, hw, rfl⟩

/-! ## the lists -/

/-- every entry is in one of the lists, and the number is that of the queue -/
structure Lists (n : BitVec 32) (t : ScanTable) : Prop where
  lists : (t.scannedQueue ++ t.freeBssPool).Perm (List.range n.toNat)
  num : t.numOfScanned.toNat = t.scannedQueue.length

theorem Lists.nodup (h : t.Lists n) : (t.scannedQueue ++ t.freeBssPool).Nodup :=
  h.lists.nodup_iff.mpr List.nodup_range

theorem Lists.length_le (h : t.Lists n) : t.scannedQueue.length + t.freeBssPool.length = n.toNat := by
  rw [← List.length_append, h.lists.length_eq, List.length_range]

/-- a free entry is not in the queue -/
theorem Lists.ne_of_free (h : t.Lists n) (hf : t.freeBssPool = p :: rest) (hq : q ∈ t.scannedQueue) :
    q ≠ p := by
  have hd := (List.nodup_append.mp h.nodup).2.2 q hq p
  rw [hf] at hd
  exact hd List.mem_cons_self

theorem Lists.setNet (h : t.Lists n) (p : Nat) (e : WlanNetwork) : (t.setNet p e).Lists n := ⟨h.lists, h.num⟩

theorem Lists.takeFree (h : t.Lists n) (hf : t.freeBssPool = p :: rest) (e : WlanNetwork) :
    (t.takeFree p rest e).Lists n := by
  have hlen := h.length_le
  have hn := n.isLt
  rw [hf, List.length_cons] at hlen
  constructor
  · show (t.scannedQueue ++ [p] ++ rest).Perm _
    rw [List.append_assoc, List.singleton_append, ← hf]
    exact h.lists
  · show (t.numOfScanned + 1).toNat = (t.scannedQueue ++ [p]).length
    have hone : (1 : BitVec 32).toNat = 1 := rfl
    rw [List.length_append, List.length_singleton, BitVec.toNat_add, h.num, hone]
    exact Nat.mod_eq_of_lt (by omega)

/-- what a sweep does -/
structure Swept (n : BitVec 32) (t t' : ScanTable) : Prop where
  nets : t'.nets = t.nets
  sublist : t'.scannedQueue.Sublist t.scannedQueue
  fixed : ∀ p ∈ t.scannedQueue, (t.nets p).fixed = true → p ∈ t'.scannedQueue
  lists : t.Lists n → t'.Lists n

theorem Swept.refl : Swept n t t := ⟨rfl, List.Sublist.refl _, fun _ hp _ => hp, id⟩

theorem Swept.trans {t'' : ScanTable} (h : Swept n t t') (h' : Swept n t' t'') : Swept n t t'' where
  nets := h'.nets.trans h.nets
  sublist := h'.sublist.trans h.sublist
  fixed p hp hf := h'.fixed p (h.fixed p hp hf) (by rw [h.nets]; exact hf)
  lists hl := h'.lists (h.lists hl)

/-- the entry goes to the other list -/
def giveBack (t : ScanTable) (p : Nat) : ScanTable :=
  { t with
    scannedQueue := t.scannedQueue.erase p
    freeBssPool := t.freeBssPool ++ [p]
    numOfScanned := t.numOfScanned - 1 }

theorem freeNetwork_cases (all adhoc : Bool) (t : ScanTable) (p : Nat) : freeNetwork all adhoc t p = t
    ∨ (t.nets p).fixed = false ∧ freeNetwork all adhoc t p = t.giveBack p := by
  unfold freeNetwork
  dsimp only
  cases hf : (t.nets p).fixed with
  | true => exact .inl (if_pos rfl)
  | false =>
    rw [if_neg Bool.false_ne_true]
    by_cases h : all = false
        ∧ (passingTimeMs t.now (t.nets p).lastScanned).toNat < (if adhoc then 1 else scanqueueLifetime)
    · rw [if_pos h]
      exact .inl rfl
    · rw [if_neg h]
      exact .inr ⟨rfl, rfl⟩

theorem giveBack_lists (hp : p ∈ t.scannedQueue) (h : t.Lists n) : (t.giveBack p).Lists n := by
  constructor
  · show (t.scannedQueue.erase p ++ (t.freeBssPool ++ [p])).Perm _
    refine List.Perm.trans ?_ h.lists
    rw [← List.append_assoc]
    refine (List.perm_append_singleton p _).trans ?_
    rw [← List.cons_append]
    exact (List.perm_cons_erase hp).symm.append_right _
  · show (t.numOfScanned - 1).toNat = (t.scannedQueue.erase p).length
    have hpos := List.length_pos_of_mem hp
    rw [List.length_erase_of_mem hp, ← h.num]
    rw [← h.num] at hpos
    exact BitVec.toNat_sub_of_le (BitVec.le_def.mpr hpos)

theorem freeNetwork_swept (all adhoc : Bool) (hp : p ∈ t.scannedQueue) :
    Swept n t (freeNetwork all adhoc t p) := by
  rcases freeNetwork_cases all adhoc t p with he | ⟨hf, he⟩
  · rw [he]
    exact Swept.refl
  · rw [he]
    refine ⟨rfl, List.erase_sublist, fun q hq hqf => ?_, giveBack_lists hp⟩
    have hne : q ≠ p := by
      intro heq
      rw [heq, hf] at hqf
      cases hqf
    exact (List.mem_erase_of_ne hne).mpr hq

theorem mem_freeNetwork (all adhoc : Bool) (hq : q ∈ t.scannedQueue) (hne : q ≠ p) :
    q ∈ (freeNetwork all adhoc t p).scannedQueue := by
  rcases freeNetwork_cases all adhoc t p with he | ⟨-, he⟩
  · rw [he]
    exact hq
  · rw [he]
    exact (List.mem_erase_of_ne hne).mpr hq

theorem foldl_swept (all adhoc : Bool) (hn : l.Nodup) (hl : ∀ p ∈ l, p ∈ t.scannedQueue) :
    Swept n t (l.foldl (freeNetwork all adhoc) t) := by
  induction l generalizing t with
  | nil => exact Swept.refl
  | cons p l ih =>
    obtain ⟨hp, hn⟩ := List.nodup_cons.mp hn
    have hstep : Swept n t (freeNetwork all adhoc t p) := freeNetwork_swept all adhoc (hl p List.mem_cons_self)
    refine hstep.trans (ih hn fun q hq => ?_)
    exact mem_freeNetwork all adhoc (hl q (List.mem_cons_of_mem _ hq)) fun heq => hp (heq ▸ hq)

theorem sweep_swept (h : t.Lists n) (all adhoc : Bool) : Swept n t (t.freeNetworkQueue all adhoc) :=
  foldl_swept all adhoc (List.nodup_append.mp h.nodup).1 fun _ hp => hp

theorem lists_step (h : t.Lists n) : (t.step getBcnKeys ev).Lists n := by
  cases ev with
  | update asoc target =>
    show (t.rtwUpdateScannedNetwork getBcnKeys asoc target).Lists n
    rcases update_cases getBcnKeys t asoc target with
      ⟨p, -, he⟩ | ⟨-, ⟨p, rest, hf, he⟩ | ⟨-, ⟨-, he⟩ | ⟨p, -, he⟩⟩⟩
    · rw [he]
      exact h.setNet _ _
    · rw [he]
      exact h.takeFree hf _
    · rw [he]
      exact h
    · rw [he]
      exact h.setNet _ _
  | advance ms => exact ⟨h.lists, h.num⟩
  | sweep all adhoc => exact (sweep_swept h all adhoc).lists h
  | setFixed p b => exact h.setNet _ _

/-! ## every network once -/

theorem mem_of_find (h : t.scannedQueue.find? (fun p => isSameNetwork (t.nets p).network target) = some p) :
    p ∈ t.scannedQueue ∧ isSameNetwork (t.nets p).network target = true :=
  ⟨List.mem_of_find?_eq_some h, List.find?_some (p := fun p => isSameNetwork (t.nets p).network target) h⟩

/-- **An entry of the queue is written over.** -/
theorem unique_setNet_iff (h : t.Lists n) (hu : t.Unique) (hp : p ∈ t.scannedQueue) :
    (t.setNet p e).Unique
      ↔ ∀ q ∈ t.scannedQueue, q ≠ p → isSameNetwork e.network (t.nets q).network = false := by
  have hnodup := (List.nodup_append.mp h.nodup).1
  refine (apart_update_iff (fun _ _ => isSameNetwork_comm) hnodup hu hp).trans ?_
  simp only [Bool.not_eq_true]

/-- with the key it had -/
theorem unique_setNet_same (hu : t.Unique) (hk : SameKey e.network (t.nets p).network) :
    (t.setNet p e).Unique := by
  refine Apart.congr (fun a _ b _ hr => ?_) hu
  have hkey : ∀ q, SameKey ((t.setNet p e).nets q).network (t.nets q).network := by
    intro q
    by_cases hq : q = p
    · rw [hq, setNet_self]
      exact hk
    · rw [setNet_ne hq]
      exact ⟨rfl, rfl, rfl, rfl⟩
  rw [← (hkey a).same_left, ← (hkey b).same_right]
  exact hr

/-- with the key of a frame -/
theorem unique_setNet_target (h : t.Lists n) (hu : t.Unique) (hp : p ∈ t.scannedQueue)
    (hk : SameKey e.network target) : (t.setNet p e).Unique
      ↔ ∀ q ∈ t.scannedQueue, q ≠ p → isSameNetwork (t.nets q).network target = false := by
  rw [unique_setNet_iff h hu hp]
  refine forall_congr' fun q => imp_congr_right fun _ => imp_congr_right fun _ => ?_
  rw [hk.same_left, ← Bool.not_eq_true, ← Bool.not_eq_true]
  exact not_congr ⟨isSameNetwork_comm, isSameNetwork_comm⟩

theorem unique_takeFree (h : t.Lists n) (hu : t.Unique) (hf : t.freeBssPool = p :: rest)
    (hk : SameKey e.network target)
    (hno : ∀ q ∈ t.scannedQueue, isSameNetwork (t.nets q).network target = false) :
    (t.takeFree p rest e).Unique := by
  have hsame : ∀ q ∈ t.scannedQueue, (t.takeFree p rest e).nets q = t.nets q := fun q hq =>
    setNet_ne (h.ne_of_free hf hq)
  have hnew : (t.takeFree p rest e).nets p = e := setNet_self
  refine apart_concat_iff.mpr ⟨Apart.congr (fun a ha b hb hr => ?_) hu, fun q hq hr => ?_⟩
  · rw [hsame a ha, hsame b hb] at hr
    exact hr
  · rw [hsame q hq, hnew, hk.same_right, hno q hq] at hr
    cases hr

theorem kept_iff (h : t.Lists n) (hu : t.Unique) :
    (t.step getBcnKeys ev).Unique ↔ t.KeepsOnce getBcnKeys ev := by
  cases ev with
  | update asoc target =>
    show (t.rtwUpdateScannedNetwork getBcnKeys asoc target).Unique ↔ _
    rcases update_cases getBcnKeys t asoc target with ⟨p, hfind, he⟩ | ⟨hno, he⟩
    · obtain ⟨hp, -⟩ := mem_of_find hfind
      rw [he]
      have hK : t.KeepsOnce getBcnKeys (.update asoc target) ↔ (Overwrites getBcnKeys t.now (t.nets p) target →
          ∀ q ∈ t.scannedQueue, q ≠ p → isSameNetwork (t.nets q).network target = false) := by
        constructor
        · exact fun hk => hk p hfind
        · intro hk p' hfind'
          obtain rfl := Option.some.inj (hfind.symm.trans hfind')
          exact hk
      rw [hK]
      by_cases ho : Overwrites getBcnKeys t.now (t.nets p) target
      · rw [unique_setNet_target h hu hp (updateEntry_key_of ho)]
        exact ⟨fun hq _ => hq, fun hq => hq ho⟩
      · exact iff_of_true (unique_setNet_same hu (updateEntry_key_of_not ho)) fun ho' => absurd ho' ho
    · have hK : t.KeepsOnce getBcnKeys (.update asoc target) := by
        intro p hfind
        obtain ⟨hp, hs⟩ := mem_of_find hfind
        rw [hno p hp] at hs
        cases hs
      refine iff_of_true ?_ hK
      rcases he with ⟨p, rest, hf, he⟩ | ⟨-, ⟨-, he⟩ | ⟨p, hw, he⟩⟩
      · rw [he]
        exact unique_takeFree h hu hf newEntry_key hno
      · rw [he]
        exact hu
      · rw [he]
        exact (unique_setNet_target h hu hw.1 newEntry_key).mpr fun q hq _ => hno q hq
  | advance ms => exact iff_of_true hu trivial
  | sweep all adhoc =>
    have hs := sweep_swept h all adhoc
    refine iff_of_true ?_ trivial
    show Apart _ (t.freeNetworkQueue all adhoc).nets _
    rw [hs.nets]
    exact hu.sublist hs.sublist
  | setFixed p b => exact iff_of_true (unique_setNet_same hu ⟨rfl, rfl, rfl, rfl⟩) trivial

/-! ## fixed entries, and the weakest -/

theorem stepOk (h : t.Lists n) : t.StepOk ev (t.step getBcnKeys ev) := by
  have hself : ∀ p ∈ t.scannedQueue, p ∈ t.scannedQueue
      ∧ isSameNetwork (t.nets p).network (t.nets p).network = true := fun p hp => ⟨hp, isSameNetwork_self _⟩
  -- an entry is written over, with a network that is the same, or by one that is not fixed
  have hset : ∀ p e, ((t.nets p).fixed = true → isSameNetwork (t.nets p).network e.network = true) →
      ∀ q ∈ t.scannedQueue, (t.nets q).fixed = true →
        q ∈ (t.setNet p e).scannedQueue
          ∧ isSameNetwork (t.nets q).network ((t.setNet p e).nets q).network = true := by
    intro p e hsame q hq hf
    refine ⟨hq, ?_⟩
    by_cases hqp : q = p
    · subst hqp
      rw [setNet_self]
      exact hsame hf
    · rw [setNet_ne hqp]
      exact isSameNetwork_self _
  cases ev with
  | update asoc target =>
    show t.StepOk _ (t.rtwUpdateScannedNetwork getBcnKeys asoc target)
    rcases update_cases getBcnKeys t asoc target with ⟨p, hfind, he⟩ | ⟨hno, ⟨p, rest, hf, he⟩ | ⟨hfree, he⟩⟩
    · obtain ⟨hp, hs⟩ := mem_of_find hfind
      rw [he]
      refine ⟨hset p _ fun _ => ?_, fun _ _ hev _ hno => ?_⟩
      · by_cases ho : Overwrites getBcnKeys t.now (t.nets p) target
        · rw [(updateEntry_key_of ho).same_right]
          exact hs
        · rw [(updateEntry_key_of_not ho).same_right]
          exact isSameNetwork_self _
      · obtain ⟨rfl, rfl⟩ := ScanEvent.update.inj hev
        rw [hno p hp] at hs
        cases hs
    · rw [he]
      refine ⟨fun q hq _ => ⟨List.mem_append_left _ hq, ?_⟩, fun _ _ _ hempty => ?_⟩
      · show isSameNetwork _ ((t.setNet p _).nets q).network = true
        rw [setNet_ne (h.ne_of_free hf hq)]
        exact isSameNetwork_self _
      · rw [hf] at hempty
        cases hempty
    · rcases he with ⟨hall, he⟩ | ⟨p, hw, he⟩
      · rw [he]
        exact ⟨fun q hq _ => hself q hq, fun _ _ _ _ _ => .inr ⟨hall, rfl⟩⟩
      · rw [he]
        refine ⟨hset p _ fun hfix => ?_, fun _ _ hev _ _ => .inl ⟨p, hw.1, hw.2.1, hw.2.2, rfl, ?_, ?_⟩⟩
        · rw [hw.2.1] at hfix
          cases hfix
        · obtain ⟨rfl, rfl⟩ := ScanEvent.update.inj hev
          rw [setNet_self]
          exact ⟨rfl, rfl, rfl⟩
        · exact fun q hq => setNet_ne hq
  | advance ms => exact ⟨fun q hq _ => hself q hq, fun _ _ hev => nomatch hev⟩
  | sweep all adhoc =>
    have hs := sweep_swept h all adhoc
    refine ⟨fun q hq hf => ⟨hs.fixed q hq hf, ?_⟩, fun _ _ hev => nomatch hev⟩
    show isSameNetwork _ ((t.freeNetworkQueue all adhoc).nets q).network = true
    rw [hs.nets]
    exact isSameNetwork_self _
  | setFixed p b => exact ⟨hset p _ fun _ => isSameNetwork_self _, fun _ _ hev => nomatch hev⟩

theorem lists_init (n : BitVec 32) : (init n).Lists n := ⟨List.Perm.refl _, rfl⟩

end ScanTable

/-- **Every network is in the table once in exactly the runs in which no frame is written over one of two
entries that it is the same network as**; the rest holds in every run. -/
theorem scanTable_iff (getBcnKeys : BssidEx → BcnKeys × Bool) (n : BitVec 32) (es : List ScanEvent) :
    ((∀ es', es' <+: es → (run (ScanTable.step getBcnKeys) (ScanTable.init n) es').Once n)
        ∧ Along (ScanTable.step getBcnKeys) (fun t e => t.StepOk e (t.step getBcnKeys e)) (ScanTable.init n) es)
      ↔ Along (ScanTable.step getBcnKeys) (ScanTable.KeepsOnce getBcnKeys) (ScanTable.init n) es := by
  have hlists : ∀ t e, ScanTable.Lists n t → (ScanTable.step getBcnKeys t e).Lists n := fun _ _ =>
    ScanTable.lists_step
  have hok : Along (ScanTable.step getBcnKeys) (fun t e => t.StepOk e (t.step getBcnKeys e)) (ScanTable.init n)
      es :=
    along_of_forall_prefix fun es' e _ => ScanTable.stepOk (run_inv_all hlists _ es' (ScanTable.lists_init n))
  refine (and_iff_left hok).trans ?_
  refine always_iff_along (ScanTable.lists_init n) hlists (fun es hC => ?_) (fun t e hI hP hP' => ?_) es
  · have h := run_inv (I := fun t => t.Lists n ∧ t.Unique)
      (fun t e h hk => ⟨ScanTable.lists_step h.1, (ScanTable.kept_iff h.1 h.2).mpr hk⟩) _ es
      ⟨ScanTable.lists_init n, apart_nil⟩ hC
    exact ⟨h.1.lists, h.1.num, h.2⟩
  · exact (ScanTable.kept_iff hI hP.unique).mp hP'.unique

/-- a beacon of an access point, with the name that is given -/
def beaconNamed (ssid : Ndis80211Ssid) : BssidEx where
  macAddress := [0, 1, 2, 3, 4, 5]
  bssType := bssTypeBcn
  ssid := ssid
  fixedFields := ScanTable.length_fixedFields

theorem length_aName : [(0x61 : UInt8)].length ≤ 32 := by decide

/-- an access point has two names, and hides one -/
def twoNames : List ScanEvent :=
  [.update none (beaconNamed ⟨[0x61], length_aName⟩), .update none (beaconNamed ⟨[0x62], by decide⟩),
    .update none (beaconNamed ⟨[], ScanTable.length_noName⟩)]

theorem scanTable_twice : ¬ ∀ (getBcnKeys : BssidEx → BcnKeys × Bool) (n : BitVec 32) (es : List ScanEvent),
    0 < n → (run (ScanTable.step getBcnKeys) (ScanTable.init n) es).Once n := by
  intro h
  have hu := (h (fun _ => ({}, false)) 2 twoNames (by decide)).unique
  have hq : (run (ScanTable.step fun _ => ({}, false)) (ScanTable.init 2) twoNames).scannedQueue = [0, 1] := by
    decide +kernel
  unfold ScanTable.Unique at hu
  rw [hq] at hu
  exact hu.ne (p := 0) (q := 1) (fun _ _ => isSameNetwork_comm) (by decide) (by decide) (by decide)
    (by decide +kernel)

end Rtl8192eu
