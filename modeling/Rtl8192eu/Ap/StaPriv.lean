import Rtl8192eu.Recv.Adapter

/-!
# The stations of the access point

`struct sta_priv` in AP mode.  A `sta_info` is known by its place in `pstainfo_buf`; it is in the
free queue or in the hash table, and there it may be linked into `auth_list` or `asoc_list`.  The
chains of `sta_hash` are one list here.

* `StaList`       a list with the counter that is kept beside it;
* `rtwAllocStainfo`   takes the first free entry and clears it;
* `rtwFreeStainfo`   unlinks from the table and from `auth_list`, but not from `asoc_list`;
* `rtwAidAlloc`   the first free association id.

A list node that is cleared while it is linked breaks the list it is in.  This is not modelled: the
list keeps the entry.
-/

namespace Rtl8192eu

/-- `NUM_STA` -/
def numSta : Nat := 32

/-- `state` of a station, the bits that the MLME of the access point uses -/
structure StaState where
  asoc : Bool := false
  authNull : Bool := false
  authState : Bool := false
  authSuccess : Bool := false
  assocState : Bool := false
  assocSuccess : Bool := false
  deriving DecidableEq, Repr

/-- `flags` of a station, less those of QoS, HT and VHT -/
structure StaFlags where
  shortPreamble : Bool := false
  nonErp : Bool := false
  amsduDisable : Bool := false
  mfp : Bool := false
  wps : Bool := false
  maybeWps : Bool := false
  deriving DecidableEq, Repr

structure StaSec where
  dot8021xalg : Nat := 0
  wpaPsk : Nat := 0
  wpaGroupCipher : Nat := 0
  wpa2GroupCipher : Nat := 0
  wpaPairwiseCipher : Nat := 0
  wpa2PairwiseCipher : Nat := 0
  akmSuiteType : Nat := 0
  wpaIe : List UInt8 := []
  deriving DecidableEq, Repr

structure ApSta where
  macAddr : Mac := []
  state : StaState := {}
  flags : StaFlags := {}
  sec : StaSec := {}
  bpairwiseKeyInstalled : Bool := false
  authSeq : Nat := 0
  authalg : Nat := 0
  chgTxt : List UInt8 := List.replicate 128 0
  expireTo : Nat := 0
  aid : Nat := 0
  capability : Nat := 0
  bssrateset : List UInt8 := []
  deriving DecidableEq, Repr

/-! ## lists with a counter -/

/-- the counters are `u8` -/
structure StaList where
  nodes : List Nat := []
  cnt : Nat := 0
  deriving DecidableEq, Repr

namespace StaList

/-- insert at the tail, unless the node is linked -/
def link (l : StaList) (p : Nat) : StaList :=
  if p ∈ l.nodes then l else ⟨l.nodes ++ [p], (l.cnt + 1) % 256⟩

def unlink (l : StaList) (p : Nat) : StaList :=
  if p ∈ l.nodes then ⟨l.nodes.filter (· ≠ p), (l.cnt + 255) % 256⟩ else l

end StaList

/-! ## the table -/

structure StaPriv where
  /-- the entries of `pstainfo_buf` -/
  pool : Nat → ApSta := fun _ => {}
  freeStaQueue : List Nat := List.range numSta
  table : List Nat := []
  authList : StaList := {}
  asocList : StaList := {}
  /-- `sta_aid`, from `aid` on -/
  staAid : Nat → Option Nat := fun _ => none
  maxAid : Nat := 32
  maxNumSta : Nat := numSta
  startedAid : Nat := 1
  rrAid : Bool := false
  authTo : Nat := 3
  assocTo : Nat := 3
  expireTo : Nat := 60

namespace StaPriv

def rtwGetStainfo (s : StaPriv) (addr : Mac) : Option Nat :=
  s.table.find? fun p => (s.pool p).macAddr = staKey addr

/-- a write through a `sta_info` pointer -/
def modSta (s : StaPriv) (p : Nat) (g : ApSta → ApSta) : StaPriv :=
  { s with pool := Function.update s.pool p (g (s.pool p)) }

def rtwAllocStainfo (s : StaPriv) (addr : Mac) : Option (Nat × StaPriv) :=
  match s.freeStaQueue with
  | [] => none
  | p :: q =>
    some (p, { s with
      pool := Function.update s.pool p { macAddr := addr }
      freeStaQueue := q
      table := s.table ++ [p] })

/-- the association id goes back when the table of ids knows the station -/
def freeAid (s : StaPriv) (p : Nat) : StaPriv :=
  let aid := (s.pool p).aid
  if 0 < aid && s.staAid aid = some p then
    { s.modSta p fun sta => { sta with aid := 0 } with staAid := Function.update s.staAid aid none }
  else s

def rtwFreeStainfo (s : StaPriv) (p : Nat) : StaPriv :=
  let s := { s with
    table := s.table.filter (· ≠ p)
    authList := s.authList.unlink p }
  let s := s.modSta p fun sta =>
    { sta with state := { sta.state with asoc := false }, expireTo := 0 }
  let s := s.freeAid p
  { s with freeStaQueue := s.freeStaQueue ++ [p] }

/-- the search of `rtw_aid_alloc`: `i` ids are used so far -/
def aidSearch (s : StaPriv) : Nat → Nat → Option Nat
  | 0, _ => none
  | n + 1, i =>
    let aid := (i + s.startedAid - 1) % s.maxAid + 1
    if s.staAid aid = none then if s.maxNumSta ≤ i then none else some aid
    else if s.maxNumSta ≤ i + 1 then none
    else s.aidSearch n (i + 1)

/-- `none` when no id is left; the `aid` of the station is then zero -/
def rtwAidAlloc (s : StaPriv) (p : Nat) : Option StaPriv :=
  (s.aidSearch s.maxAid 0).map fun aid =>
    { s.modSta p fun sta => { sta with aid := aid } with
      staAid := Function.update s.staAid aid (some p)
      startedAid := if s.rrAid then aid % s.maxAid + 1 else s.startedAid }

/-! ## writes -/

section

variable (s : StaPriv) (p : Nat) (g : ApSta → ApSta)

@[simp] theorem modSta_pool : (s.modSta p g).pool p = g (s.pool p) := Function.update_self ..

@[simp] theorem modSta_table : (s.modSta p g).table = s.table := rfl

theorem modSta_pool_ne {q : Nat} (h : q ≠ p) : (s.modSta p g).pool q = s.pool q :=
  Function.update_of_ne h _ _

variable {s p g}

theorem modSta_macAddr (hg : (g (s.pool p)).macAddr = (s.pool p).macAddr) (q : Nat) :
    ((s.modSta p g).pool q).macAddr = (s.pool q).macAddr := by
  by_cases h : q = p
  · rw [h, modSta_pool, hg]
  · rw [modSta_pool_ne _ _ _ h]

/-- the table is searched by address only -/
theorem rtwGetStainfo_congr {s' : StaPriv} (ht : s'.table = s.table)
    (hm : ∀ p ∈ s.table, (s'.pool p).macAddr = (s.pool p).macAddr) (addr : Mac) :
    s'.rtwGetStainfo addr = s.rtwGetStainfo addr := by
  unfold rtwGetStainfo
  rw [ht]
  generalize s.table = l at hm
  induction l with
  | nil => rfl
  | cons q l ih =>
    rw [List.find?_cons, List.find?_cons, hm q List.mem_cons_self,
      ih fun r hr => hm r (List.mem_cons_of_mem _ hr)]

theorem rtwGetStainfo_modSta (hg : (g (s.pool p)).macAddr = (s.pool p).macAddr) (addr : Mac) :
    (s.modSta p g).rtwGetStainfo addr = s.rtwGetStainfo addr := by
  apply rtwGetStainfo_congr (modSta_table s p g)
  intro q _
  exact modSta_macAddr hg q

end

end StaPriv

end Rtl8192eu
