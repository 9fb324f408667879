import Mathlib.Data.Int.ConditionallyCompleteOrder
import Mathlib.Data.List.MinMax
import Rtl8192eu.Ie.Elems
import Rtl8192eu.Mlme.ScanTable

/-!
# Which network is joined

`rtw_select_roaming_candidate` and `rtw_select_and_join_from_scanned_queue` of `core/rtw_mlme.c`: a loop over the
networks that were scanned, which keeps the best one so far.

* `rtwIsDesiredNetwork`   security and mode;
* `rtwCheckJoinCandidate_foldl`   the loop finds the strongest network that may be joined;
* `rtwCheckRoamingCandidate_foldl`   and the strongest one that is better than the current network by a threshold;
* `roam_increases`   signals that vary less than the threshold: no network is joined twice.

802.11r, WNM, MBO, the repeater mode and DFS are not compiled in.
-/

namespace Rtl8192eu

open Run

/-- `NDIS_802_11_WEP_STATUS` -/
inductive Ndis80211WepStatus where
  | encryption1Enabled | encryptionDisabled | encryption1KeyAbsent | encryptionNotSupported
  | encryption2Enabled | encryption2KeyAbsent | encryption3Enabled | encryption3KeyAbsent | encrypteionWapi
  deriving DecidableEq, Repr

/-- `NDIS_802_11_AUTHENTICATION_MODE`, with the two modes of `rtw_security.h` -/
inductive Ndis80211AuthMode where
  | «open» | shared | autoSwitch | wpa | wpaPsk | wpaNone | wpa2 | wpa2Psk
  deriving DecidableEq, Repr

/-- `Privacy`, as `collect_bss_info` reads it -/
def BssidEx.privacy (b : BssidEx) : Bool := b.capability.getLsbD 4

/-- the loop of `rtw_get_wps_ie`; every round moves on by two at least -/
def getWpsIeLoop (inIe : Nat → UInt8) (inLen : Nat) : Nat → Nat → Option Nat
  | 0, _ => none
  | n + 1, cnt =>
    if cnt + 1 + 4 < inLen then
      if 768 ≤ cnt + 1 + 4 then none
      else if inIe cnt = 221 ∧ (List.range 4).map (fun i => inIe (cnt + 2 + i)) = [0x00, 0x50, 0xf2, 0x04] then some cnt
      else getWpsIeLoop inIe inLen n (cnt + (inIe (cnt + 1)).toNat + 2)
    else none

/-- the offset of the element -/
def rtwGetWpsIe (inIe : Nat → UInt8) (inLen : Nat) : Option Nat := getWpsIeLoop inIe inLen inLen 0

/-- the elements behind the fixed fields -/
def BssidEx.elements (b : BssidEx) : Nat → UInt8 := fun i => b.ies.getD (12 + i) 0

/-- `is_zero_mac_addr` -/
def zeroMacAddr : Mac := List.replicate 6 0

/-- what is read for the choice -/
structure SelectMlme where
  table : ScanTable
  /-- `ChannelNum` of `channel_set`, up to the end of it -/
  channelSet : List UInt8
  ndisencryptstatus : Ndis80211WepStatus := .encryptionDisabled
  ndisauthtype : Ndis80211AuthMode := .open
  wifiSpec : Bool := false
  /-- `WIFI_UNDER_WPS` -/
  underWps : Bool := false
  /-- `WIFI_ADHOC_STATE` -/
  adhocState : Bool := false
  curNetwork : BssidEx
  curNetworkScanned : Option Nat := none
  assocByBssid : Bool := false
  assocBssid : Mac := []
  assocSsid : Ndis80211Ssid
  toRoam : Nat := 0
  needToRoam : Bool := false
  roamNetwork : Option Nat := none
  roamTgtAddr : Mac := zeroMacAddr
  roamScanrExpMs : BitVec 32 := 5000
  roamRssiDiffTh : UInt8 := 10

/-- `rtw_chset_search_ch`, whether the channel is found -/
def rtwChsetSearchCh (chSet : List UInt8) (ch : UInt8) : Bool := ch != 0 && chSet.contains ch

def isSameEss (a b : BssidEx) : Bool := a.ssid == b.ssid

namespace SelectMlme

variable (s : SelectMlme)

def network (i : Nat) : BssidEx := (s.table.nets i).network

def rssi (i : Nat) : Int := (s.network i).rssi

def rtwIsDesiredNetwork (pnetwork : BssidEx) : Bool :=
  if s.underWps then (rtwGetWpsIe pnetwork.elements (pnetwork.ies.length - 12)).isSome
  else
    let disabled := s.ndisencryptstatus == .encryptionDisabled
    let bselected :=
      if s.wifiSpec then
        -- the element decides alone, also if the line before was not met
        if s.ndisauthtype = .wpa2Psk then
          match rtwGetIe pnetwork.elements 0x30 (pnetwork.ies.length - 12) with
          | some (_, ieLen) => decide (0 < ieLen)
          | none => false
        else !(disabled && pnetwork.privacy)
      else true
    let bselected := if !disabled && !pnetwork.privacy then false else bselected
    if s.adhocState && pnetwork.infrastructureMode != s.curNetwork.infrastructureMode then false else bselected

/-- `last_scanned` is not too old to roam -/
def fresh (i : Nat) : Bool :=
  decide (passingTimeMs s.table.now (s.table.nets i).lastScanned < s.roamScanrExpMs)

/-! ## to join -/

/-- the conditions of `rtw_check_join_candidate` on a network -/
def joinable (i : Nat) : Bool :=
  let competitor := s.network i
  rtwChsetSearchCh s.channelSet competitor.dsConfig
    && (!s.assocByBssid || competitor.macAddress == s.assocBssid)
    && (s.assocSsid.ssid.headD 0 == 0 || competitor.ssid == s.assocSsid)
    && s.rtwIsDesiredNetwork competitor
    && (s.toRoam == 0 || (s.fresh i && isSameEss competitor s.curNetwork))

def rtwCheckJoinCandidate (candidate : Option Nat) (competitor : Nat) : Option Nat :=
  if s.joinable competitor then
    match candidate with
    | none => some competitor
    | some c => if s.rssi c < s.rssi competitor then some competitor else some c
  else candidate

/-- the network that `rtw_joinbss_cmd` is called for; `none` is `_FAIL` -/
def rtwSelectAndJoinFromScannedQueue : Option Nat × SelectMlme :=
  match s.roamNetwork with
  | some i => (some i, { s with roamNetwork := none })
  | none => (s.table.scannedQueue.foldl s.rtwCheckJoinCandidate none, s)

/-! ## to roam -/

/-- the conditions of `rtw_check_roaming_candidate` on a network, up to `roam_tgt_addr` -/
def roamable (i : Nat) : Bool :=
  let competitor := s.network i
  rtwChsetSearchCh s.channelSet competitor.dsConfig && isSameEss competitor s.curNetwork
    && s.rtwIsDesiredNetwork competitor && s.needToRoam

/-- `cur` is `cur_network_scanned` -/
def rtwCheckRoamingCandidate (cur : Nat) (candidate : Option Nat) (competitor : Nat) : Option Nat :=
  if s.roamable competitor = false then candidate
  else if s.roamTgtAddr ≠ zeroMacAddr then
    if (s.network competitor).macAddress = s.roamTgtAddr then some competitor else candidate
  else if s.fresh competitor = false then candidate
  else if s.rssi competitor - s.rssi cur < s.roamRssiDiffTh.toNat then candidate
  else
    match candidate with
    | none => some competitor
    | some c => if s.rssi competitor ≤ s.rssi c then some c else some competitor

/-- whether a candidate was found -/
def rtwSelectRoamingCandidate : Bool × SelectMlme :=
  match s.curNetworkScanned with
  | none => (false, s)
  | some cur =>
    match s.table.scannedQueue.foldl (s.rtwCheckRoamingCandidate cur) none with
    | none => (false, s)
    | some i =>
      (true, { s with
        roamNetwork := some i
        roamTgtAddr := if (s.network i).macAddress = s.roamTgtAddr then zeroMacAddr else s.roamTgtAddr })

end SelectMlme

/-! ## the loops -/

/-- a loop that keeps the largest member so far, of those that are let through -/
theorem foldl_largest {α : Type*} (p : α → Bool) (f : α → Int) (l : List α) :
    l.foldl (fun m a => if p a then
        match m with
        | none => some a
        | some b => if f b < f a then some a else some b
      else m) none = (l.filter p).argmax f := by
  unfold List.argmax
  rw [List.foldl_filter]
  congr 1
  funext m a
  cases m with
  | none => rfl
  | some b => rfl

/-- a loop that keeps the last member so far -/
theorem foldl_last {α : Type*} (p : α → Bool) (l : List α) :
    l.foldl (fun m a => if p a then some a else m) none = (l.filter p).getLast? := by
  rw [← List.foldl_filter]
  generalize l.filter p = k
  induction k using List.reverseRecOn with
  | nil => rfl
  | append_singleton k a ih => simp

namespace SelectMlme

variable (s : SelectMlme)

/-- **The candidate to join** is the first one of the strongest networks that may be joined. -/
theorem rtwCheckJoinCandidate_foldl : s.table.scannedQueue.foldl s.rtwCheckJoinCandidate none
    = (s.table.scannedQueue.filter s.joinable).argmax s.rssi := by
  rw [← foldl_largest]
  congr 1
  funext m i
  cases m <;> rfl

/-- better than the current network -/
def better (cur i : Nat) : Bool :=
  s.roamable i && s.fresh i && decide ((s.roamRssiDiffTh.toNat : Int) ≤ s.rssi i - s.rssi cur)

/-- **The candidate to roam to** is the first one of the strongest networks that are better, or the last one with the
address that was asked for. -/
theorem rtwCheckRoamingCandidate_foldl (cur : Nat) :
    s.table.scannedQueue.foldl (s.rtwCheckRoamingCandidate cur) none
      = if s.roamTgtAddr = zeroMacAddr then (s.table.scannedQueue.filter (s.better cur)).argmax s.rssi
        else (s.table.scannedQueue.filter fun i =>
          s.roamable i && (s.network i).macAddress == s.roamTgtAddr).getLast? := by
  by_cases ht : s.roamTgtAddr = zeroMacAddr
  · rw [if_pos ht, ← foldl_largest]
    congr 1
    funext m i
    unfold rtwCheckRoamingCandidate better
    rw [if_neg (not_not_intro ht)]
    cases hr : s.roamable i with
    | false => rfl
    | true =>
      cases hf : s.fresh i with
      | false => rfl
      | true =>
        by_cases hlt : s.rssi i - s.rssi cur < s.roamRssiDiffTh.toNat
        · simp [hlt]
        · cases m with
          | none => simp [hlt]
          | some c =>
            by_cases hle : s.rssi i ≤ s.rssi c
            · simp [hlt, hle]
            · simp [hlt, hle, Int.not_le.mp hle]
  · rw [if_neg ht, ← foldl_last]
    congr 1
    funext m i
    unfold rtwCheckRoamingCandidate
    rw [if_pos ht]
    cases hr : s.roamable i <;> simp

/-- what is found is in the list, and on the channels and with the name and the security that were asked for -/
theorem roamable_of_candidate {cur i : Nat}
    (h : s.table.scannedQueue.foldl (s.rtwCheckRoamingCandidate cur) none = some i) :
    i ∈ s.table.scannedQueue ∧ s.roamable i = true := by
  rw [rtwCheckRoamingCandidate_foldl] at h
  split at h
  · have hmem := List.mem_filter.mp (List.argmax_mem h)
    have hb := hmem.2
    simp only [better, Bool.and_eq_true] at hb
    exact ⟨hmem.1, hb.1.1⟩
  · have hmem := List.mem_filter.mp (List.mem_of_getLast? h)
    have hb := hmem.2
    simp only [Bool.and_eq_true] at hb
    exact ⟨hmem.1, hb.1⟩

theorem better_of_candidate (ht : s.roamTgtAddr = zeroMacAddr) {cur i : Nat}
    (h : s.table.scannedQueue.foldl (s.rtwCheckRoamingCandidate cur) none = some i) :
    s.rssi cur + s.roamRssiDiffTh.toNat ≤ s.rssi i := by
  rw [rtwCheckRoamingCandidate_foldl, if_pos ht] at h
  have hb := (List.mem_filter.mp (List.argmax_mem h)).2
  simp only [better, Bool.and_eq_true, decide_eq_true_eq] at hb
  omega

end SelectMlme

/-! ## roaming again and again -/

/-- the station, and the networks that it has left behind -/
structure RoamSys where
  mlme : SelectMlme
  left : List Mac := []

inductive RoamEvent where
  /-- scans and beacons, for as long as the station is associated -/
  | scanned (table : ScanTable)
  /-- the signal has fallen below `roam_rssi_threshold`, or risen again -/
  | needToRoam (b : Bool)
  /-- the end of a scan with `RTW_ROAM_ACTIVE` -/
  | select
  /-- the network is joined -/
  | join

namespace RoamSys

variable (s : RoamSys)

/-- the address of the entry that `cur_network_scanned` points to -/
def current : Option Mac := s.mlme.curNetworkScanned.map fun i => (s.mlme.network i).macAddress

def step : RoamEvent → RoamSys
  | .scanned table => { s with mlme := { s.mlme with table := table } }
  | .needToRoam b => { s with mlme := { s.mlme with needToRoam := b } }
  | .select => { s with mlme := s.mlme.rtwSelectRoamingCandidate.2 }
  | .join =>
    match s.mlme.rtwSelectAndJoinFromScannedQueue with
    | (some i, mlme) =>
      { mlme := { mlme with curNetworkScanned := some i, curNetwork := mlme.network i }
        left := s.left ++ s.current.toList }
    | (none, mlme) => { s with mlme := mlme }

/-- the entries that the next choice can be about -/
def entries (table : ScanTable) : List Nat :=
  table.scannedQueue ++ s.mlme.curNetworkScanned.toList ++ s.mlme.roamNetwork.toList

/-- the signal of every network stays within `w` of the least that `lo` says -/
def Banded (lo : Mac → Int) (w : Int) (table : ScanTable) : Prop :=
  ∀ i ∈ s.entries table, lo (table.nets i).network.macAddress ≤ (table.nets i).network.rssi
    ∧ (table.nets i).network.rssi ≤ lo (table.nets i).network.macAddress + w

/-- the entries that are pointed to are not given away, and the network to join is one that was selected -/
def Steady (lo : Mac → Int) (w : Int) : RoamEvent → Prop
  | .scanned table => s.Banded lo w table
    ∧ ∀ i ∈ s.mlme.curNetworkScanned.toList ++ s.mlme.roamNetwork.toList,
      (table.nets i).network.macAddress = (s.mlme.network i).macAddress
  | .join => s.mlme.roamNetwork.isSome = true
  | .needToRoam _ | .select => True

/-- each network was left for a better one, and a better one is to be joined -/
structure Better (lo : Mac → Int) (w : Int) (th : UInt8) : Prop where
  th : s.mlme.roamRssiDiffTh = th
  tgt : s.mlme.roamTgtAddr = zeroMacAddr
  banded : s.Banded lo w s.mlme.table
  left : (s.left ++ s.current.toList).Pairwise fun a b => lo a < lo b
  next : ∀ i ∈ s.mlme.roamNetwork, ∀ m ∈ s.current, lo m < lo (s.mlme.network i).macAddress
  associated : s.mlme.roamNetwork.isSome = true → s.mlme.curNetworkScanned.isSome = true

variable {s} {lo : Mac → Int} {w : Int} {th : UInt8}

/-- a scan changes the signals, and not which networks are pointed to -/
theorem Better.scanned (h : s.Better lo w th) {table : ScanTable} (hs : s.Steady lo w (.scanned table)) :
    (s.step (.scanned table)).Better lo w th := by
  obtain ⟨hband, hmac⟩ := hs
  have hcur : (s.step (.scanned table)).current = s.current := by
    show (s.mlme.curNetworkScanned.map fun i => (table.nets i).network.macAddress)
      = s.mlme.curNetworkScanned.map fun i => (s.mlme.network i).macAddress
    cases hc : s.mlme.curNetworkScanned with
    | none => rfl
    | some i => exact congrArg some (hmac i (List.mem_append_left _ (by rw [hc]; exact List.mem_singleton_self i)))
  refine ⟨h.th, h.tgt, hband, hcur ▸ h.left, fun i hi m hm => ?_, h.associated⟩
  rw [hcur] at hm
  have hi' : i ∈ s.mlme.roamNetwork := hi
  have hsame := hmac i (List.mem_append_right _ (Option.mem_toList.mpr hi'))
  exact hsame.symm ▸ h.next i hi' m hm

/-- what is selected is better, even where its signal is the least -/
theorem Better.select (hw : w < (th.toNat : Int)) (h : s.Better lo w th) : (s.step .select).Better lo w th := by
  show ({ s with mlme := s.mlme.rtwSelectRoamingCandidate.2 } : RoamSys).Better lo w th
  unfold SelectMlme.rtwSelectRoamingCandidate
  split
  · exact h
  · rename_i cur hcur
    split
    · exact h
    · rename_i i hi
      obtain ⟨hmem, -⟩ := s.mlme.roamable_of_candidate hi
      have hrssi := s.mlme.better_of_candidate h.tgt hi
      have hcurIn : cur ∈ s.entries s.mlme.table :=
        List.mem_append_left _ (List.mem_append_right _ (Option.mem_toList.mpr hcur))
      have hband : ∀ j ∈ s.mlme.table.scannedQueue ++ [cur] ++ [i], j ∈ s.entries s.mlme.table := by
        intro j hj
        rcases List.mem_append.mp hj with hj | hj
        · rcases List.mem_append.mp hj with hj | hj
          · exact List.mem_append_left _ (List.mem_append_left _ hj)
          · exact List.mem_singleton.mp hj ▸ hcurIn
        · exact List.mem_append_left _ (List.mem_append_left _ (List.mem_singleton.mp hj ▸ hmem))
      refine ⟨h.th, ?_, fun j hj => ?_, h.left, fun j hj m hm => ?_, fun _ => ?_⟩
      · show (if (s.mlme.network i).macAddress = s.mlme.roamTgtAddr then zeroMacAddr else s.mlme.roamTgtAddr) = _
        split
        · rfl
        · exact h.tgt
      · refine h.banded j (hband j ?_)
        simpa [entries, hcur] using hj
      · obtain rfl : i = j := Option.some.inj hj
        have hm' : (s.mlme.network cur).macAddress = m := by
          have hc : m ∈ s.mlme.curNetworkScanned.map fun i => (s.mlme.network i).macAddress := hm
          rw [hcur] at hc
          exact Option.some.inj hc
        have hi' := (h.banded i (hband i (by simp))).2
        have hcur' := (h.banded cur hcurIn).1
        have hth := h.th
        show lo m < lo (s.mlme.network i).macAddress
        rw [← hm']
        change _ ≤ lo (s.mlme.network i).macAddress + w at hi'
        change lo (s.mlme.network cur).macAddress ≤ _ at hcur'
        change (s.mlme.network cur).rssi + (s.mlme.roamRssiDiffTh.toNat : Int) ≤ (s.mlme.network i).rssi at hrssi
        rw [hth] at hrssi
        change (s.mlme.network i).rssi ≤ _ at hi'
        change _ ≤ (s.mlme.network cur).rssi at hcur'
        omega
      · show s.mlme.curNetworkScanned.isSome = true
        rw [hcur]
        rfl

/-- the better network becomes the current one -/
theorem Better.join (h : s.Better lo w th) (hs : s.Steady lo w .join) : (s.step .join).Better lo w th := by
  obtain ⟨i, hi⟩ := Option.isSome_iff_exists.mp hs
  obtain ⟨cur, hcur⟩ := Option.isSome_iff_exists.mp (h.associated hs)
  have hnow : s.current = some (s.mlme.network cur).macAddress := by
    unfold current
    rw [hcur]
    rfl
  have hstep : s.step .join
      = { mlme := { s.mlme with roamNetwork := none, curNetworkScanned := some i, curNetwork := s.mlme.network i }
          left := s.left ++ s.current.toList } := by
    unfold step SelectMlme.rtwSelectAndJoinFromScannedQueue
    rw [hi]
    rfl
  rw [hstep]
  refine ⟨h.th, h.tgt, fun j hj => h.banded j ?_, ?_, fun j hj => (by cases hj), fun hn => (by cases hn)⟩
  · have hj' : j ∈ s.mlme.table.scannedQueue ∨ j = i := by simpa [entries] using hj
    rcases hj' with hq | rfl
    · exact List.mem_append_left _ (List.mem_append_left _ hq)
    · exact List.mem_append_right _ (Option.mem_toList.mpr hi)
  · show (s.left ++ s.current.toList ++ [(s.mlme.network i).macAddress]).Pairwise fun a b => lo a < lo b
    refine List.pairwise_append.mpr ⟨h.left, List.pairwise_singleton _ _, fun a ha b hb => ?_⟩
    rw [List.mem_singleton.mp hb]
    have hnext := h.next i hi _ hnow
    rcases List.mem_append.mp ha with hleft | hlast
    · have hlt := (List.pairwise_append.mp h.left).2.2 a hleft _ (Option.mem_toList.mpr hnow)
      exact Int.lt_trans hlt hnext
    · have ha' : a = (s.mlme.network cur).macAddress := by simpa [hnow] using hlast
      rw [ha']
      exact hnext

theorem Better.step (hw : w < (th.toNat : Int)) (h : s.Better lo w th) {e : RoamEvent} (hs : s.Steady lo w e) :
    (s.step e).Better lo w th := by
  cases e with
  | scanned table => exact h.scanned hs
  | needToRoam b => exact ⟨h.th, h.tgt, h.banded, h.left, h.next, h.associated⟩
  | select => exact h.select hw
  | join => exact h.join hs

end RoamSys

/-- **No network is roamed to twice**, if the signal of each varies by less than `roam_rssi_diff_th`: each network that
is joined is better than all that were left, whatever the scans find and however often the choice is made. -/
theorem roam_increases {lo : Mac → Int} {w : Int} {s : SelectMlme} (hw : w < (s.roamRssiDiffTh.toNat : Int))
    (htgt : s.roamTgtAddr = zeroMacAddr) (hroam : s.roamNetwork = none) (hband : (RoamSys.mk s []).Banded lo w s.table)
    (es : List RoamEvent) (hes : Along RoamSys.step (fun s e => s.Steady lo w e) ⟨s, []⟩ es) :
    ((run RoamSys.step ⟨s, []⟩ es).left ++ (run RoamSys.step ⟨s, []⟩ es).current.toList).Pairwise
      fun a b => lo a < lo b := by
  have hinit : (RoamSys.mk s []).Better lo w s.roamRssiDiffTh := by
    refine ⟨rfl, htgt, hband, ?_, fun i hi => ?_, fun hn => ?_⟩
    · cases hc : (RoamSys.mk s []).current with
      | none => exact List.Pairwise.nil
      | some m => exact List.pairwise_singleton _ m
    · rw [hroam] at hi
      cases hi
    · rw [hroam] at hn
      cases hn
  exact (run_inv (I := fun t : RoamSys => t.Better lo w s.roamRssiDiffTh) (fun _ _ h he => h.step hw he) _ es hinit
    hes).left

instance (s : RoamSys) (lo : Mac → Int) (w : Int) (table : ScanTable) : Decidable (s.Banded lo w table) :=
  inferInstanceAs (Decidable (∀ i ∈ _, _ ∧ _))

instance (s : RoamSys) (lo : Mac → Int) (w : Int) : (e : RoamEvent) → Decidable (s.Steady lo w e)
  | .scanned table => inferInstanceAs (Decidable (s.Banded lo w table ∧ ∀ i ∈ _, _))
  | .join => inferInstanceAs (Decidable (_ = true))
  | .needToRoam _ | .select => isTrue trivial

/-- two networks of one name, and the far one is the current one -/
def twoNetworks : SelectMlme where
  table :=
    { nets := fun i => { network :=
        { macAddress := [2, 0, 0, 0, 0, UInt8.ofNat i], bssType := bssTypeBcn, ssid := ⟨[0x61], by decide⟩,
          rssi := if i = 0 then -80 else -60 } }
      scannedQueue := [0, 1], freeBssPool := [] }
  channelSet := [1, 6, 11]
  curNetwork := { macAddress := [2, 0, 0, 0, 0, 0], bssType := bssTypeBcn, ssid := ⟨[0x61], by decide⟩ }
  curNetworkScanned := some 0
  assocSsid := ⟨[0x61], by decide⟩

theorem roam_increases_two :
    (run RoamSys.step ⟨twoNetworks, []⟩ [.needToRoam true, .select, .join]).left = [[2, 0, 0, 0, 0, 0]]
    ∧ ((run RoamSys.step ⟨twoNetworks, []⟩ [.needToRoam true, .select, .join]).left
      ++ (run RoamSys.step ⟨twoNetworks, []⟩ [.needToRoam true, .select, .join]).current.toList).Pairwise
      fun a b => (if a = [2, 0, 0, 0, 0, 0] then (-82 : Int) else -62) < if b = [2, 0, 0, 0, 0, 0] then -82 else -62 :=
  ⟨by decide, roam_increases (w := 4) (by decide) rfl rfl (by decide) _ (by decide)⟩

end Rtl8192eu
