import Rtl8192eu.Lib.Loop
import Rtl8192eu.Security.CamTable

/-!
# The loops that clear keys, for any address

`while ((cam_id = rtw_camid_search(..)) >= 0)` stands in `rtw_clearstakey_cmd` of `core/rtw_cmd.c`, twice in
`set_stakey_hdl` and in `setkey_hdl` of `core/rtw_mlme_ext.c`.  A search without a group bit does not look
at the used map: a slot that was cleared, or never used, is found under the address zero.

* `ClearSite.round`   one round of a loop;
* `Clears`   the loop ends after at most `camNum` rounds and leaves what it is to leave;
* `ClearSite.Safe`   when it does: `runs_of_safe`, `safe_of_ends`;
* `clearKeys_of_runs`   the loops of the handlers of `Cam` are these.
-/

namespace Rtl8192eu

open Loop

inductive ClearSite where
  /-- `rtw_clearstakey_cmd`, not enqueued -/
  | clearstakey
  /-- `set_stakey_hdl` with `_NO_PRIVACY_` -/
  | noPrivacy
  /-- `set_stakey_hdl`, the slot of the pairwise key holds a group key -/
  | stakeyConflict
  /-- `setkey_hdl`, the slot of the group key holds a pairwise key -/
  | setkeyConflict
  deriving DecidableEq, Repr

namespace ClearSite

/-- the last argument of `rtw_camid_search`, -1 or 1 -/
def gk : ClearSite → Option Bool
  | clearstakey => none
  | noPrivacy => none
  | stakeyConflict => some true
  | setkeyConflict => some true

/-- `addr` is `sta->cmn.mac_addr`, `pparm->addr` or the transmitter of the group key -/
def round (l : ClearSite) (addr : Mac) (s : Cam) : Next Cam Cam :=
  match s.camidSearch addr none l.gk with
  | some id => .again ((s.clearCamEntry id).camidFree id)
  | none => .stop s

/-- the entries that the search finds -/
def searched (l : ClearSite) (addr : Mac) (s : Cam) (id : Nat) : Bool := s.camCacheChk addr none l.gk id

/-- the entries with the address, and with the group bit in the control word where it is asked for -/
def labelled (l : ClearSite) (addr : Mac) (s : Cam) (id : Nat) : Bool :=
  decide ((s.camCache id).mac = addr) && l.gk.all fun g => g == (s.camCache id).gk

end ClearSite

/-- `s'` is `s` without the entries of `hit` -/
structure Cleared (addr : Mac) (hit : Cam → Nat → Bool) (s s' : Cam) : Prop where
  gone : ∀ id < camNum, (s'.camCache id).valid = true → hit s' id = false
  free : ∀ id < camNum, hit s id = true → s'.used id = false
  kept : ∀ id, (s.camCache id).mac ≠ addr → s'.camCache id = s.camCache id ∧ s'.used id = s.used id

/-- the loop ends in time, with the entries of `hit` cleared -/
def Clears (l : ClearSite) (addr : Mac) (hit : Cam → Nat → Bool) (s : Cam) : Prop :=
  ∃ n s', n ≤ camNum ∧ Runs (l.round addr) n s s' ∧ Cleared addr hit s s'

namespace ClearSite

variable {l : ClearSite} {addr : Mac} {s s' : Cam} {n fuel : Nat}

/-- no cleared entry is found again -/
def Safe (l : ClearSite) (addr : Mac) (s : Cam) : Prop :=
  addr ≠ zeroMac ∨ l.gk = some true ∨ ∀ id < camNum, (s.camCache id).mac ≠ zeroMac

/-- the group keys of the address have their slots marked -/
def Marked (l : ClearSite) (addr : Mac) (s : Cam) : Prop :=
  l.gk = some true → ∀ id < camNum, (s.camCache id).mac = addr → (s.camCache id).valid = true →
    (s.camCache id).gk = true → s.used id = true

theorem gk_cases (l : ClearSite) : l.gk = none ∨ l.gk = some true := by
  cases l with
  | clearstakey => exact Or.inl rfl
  | noPrivacy => exact Or.inl rfl
  | stakeyConflict => exact Or.inr rfl
  | setkeyConflict => exact Or.inr rfl

theorem round_some {id : Nat} (h : s.camidSearch addr none l.gk = some id) :
    l.round addr s = .again ((s.clearCamEntry id).camidFree id) := by
  unfold round
  rw [h]

theorem round_none (h : s.camidSearch addr none l.gk = none) : l.round addr s = .stop s := by
  unfold round
  rw [h]

theorem round_again (h : l.round addr s = .again s') : ∃ id < camNum,
    s.camCacheChk addr none l.gk id = true ∧ s' = (s.clearCamEntry id).camidFree id := by
  cases hs : s.camidSearch addr none l.gk with
  | none => cases (round_none hs).symm.trans h
  | some id =>
    obtain ⟨hid, hchk⟩ := Cam.camidSearch_some hs
    cases (round_some hs).symm.trans h
    exact ⟨id, hid, hchk, rfl⟩

theorem round_stop (h : l.round addr s = .stop s') :
    s' = s ∧ ∀ id < camNum, s.camCacheChk addr none l.gk id = false := by
  cases hs : s.camidSearch addr none l.gk with
  | none =>
    cases (round_none hs).symm.trans h
    exact ⟨rfl, fun id hid => Cam.camidSearch_none hs hid⟩
  | some id => cases (round_some hs).symm.trans h

/-- the loops with bounded fuel are the code's, if these end in time -/
theorem clearKeys_of_runs (h : Runs (l.round addr) n s s') (hn : n ≤ fuel) :
    s.clearKeys addr l.gk fuel = s' := by
  induction h generalizing fuel with
  | @stop s r h =>
    obtain ⟨rfl, hno⟩ := round_stop h
    cases fuel with
    | zero => rfl
    | succ fuel =>
      rw [Cam.clearKeys]
      cases hs : r.camidSearch addr none l.gk with
      | none => rfl
      | some id => cases (round_some hs).symm.trans h
  | @again n s t r h _ ih =>
    cases fuel with
    | zero => cases hn
    | succ fuel =>
      rw [Cam.clearKeys]
      cases hs : s.camidSearch addr none l.gk with
      | none => cases (round_none hs).symm.trans h
      | some id =>
        cases (round_some hs).symm.trans h
        exact ih (Nat.le_of_succ_le_succ hn)

/-- one round clears one entry -/
theorem round_step (ha : addr ≠ zeroMac ∨ l.gk = some true) (h : l.round addr s = .again s') :
    s'.cleared addr l.gk = s.cleared addr l.gk ∧ s'.hits addr l.gk < s.hits addr l.gk := by
  obtain ⟨id, hid, hchk, rfl⟩ := round_again h
  exact ⟨Cam.cleared_clear ha hid hchk, Cam.hits_clear ha hid hchk⟩

theorem runs_cleared (ha : addr ≠ zeroMac ∨ l.gk = some true) (s : Cam) :
    ∃ n ≤ camNum, Runs (l.round addr) n s (s.cleared addr l.gk) := by
  have hstep : ∀ t t', t.cleared addr l.gk = s.cleared addr l.gk → l.round addr t = .again t' →
      t'.cleared addr l.gk = s.cleared addr l.gk ∧ t'.hits addr l.gk < t.hits addr l.gk := by
    intro t t' ht h
    obtain ⟨hround, hlt⟩ := round_step ha h
    exact ⟨hround.trans ht, hlt⟩
  obtain ⟨n, r, hn, hr⟩ := runs_of_lt
    (I := fun t => t.cleared addr l.gk = s.cleared addr l.gk) (fun t => t.hits addr l.gk) hstep s rfl
  obtain ⟨t, ht, hstop⟩ := Runs.inv
    (I := fun t => t.cleared addr l.gk = s.cleared addr l.gk) (fun t t' ht h => (hstep t t' ht h).1) rfl hr
  obtain ⟨rfl, hno⟩ := round_stop hstop
  rw [Cam.cleared_of_none hno] at ht
  subst ht
  exact ⟨n, hn.trans (Cam.hits_le s addr l.gk), hr⟩

/-- a loop that finds nothing leaves the table -/
theorem runs_none (h : ∀ id < camNum, (s.camCache id).mac ≠ addr) :
    Runs (l.round addr) 0 s (s.cleared addr l.gk) := by
  have hno : ∀ id < camNum, s.camCacheChk addr none l.gk id = false := by
    intro id hid
    rw [← Bool.not_eq_true]
    intro hchk
    exact h id hid (Cam.camCacheChk_iff.mp hchk).1
  have hnone : s.camidSearch addr none l.gk = none := by
    cases hs : s.camidSearch addr none l.gk with
    | none => rfl
    | some id =>
      obtain ⟨hid, hchk⟩ := Cam.camidSearch_some hs
      exact absurd hchk (Bool.eq_false_iff.mp (hno id hid))
  rw [Cam.cleared_of_none hno]
  exact Runs.stop (round_none hnone)

theorem runs_of_safe (h : l.Safe addr s) : ∃ n ≤ camNum, Runs (l.round addr) n s (s.cleared addr l.gk) := by
  rcases h with ha | hgk | hmac
  · exact runs_cleared (Or.inl ha) s
  · exact runs_cleared (Or.inr hgk) s
  · by_cases ha : addr = zeroMac
    · subst ha
      exact ⟨0, Nat.zero_le _, runs_none hmac⟩
    · exact runs_cleared (Or.inl ha) s

/-- a slot with the address zero is found in every round, cleared or not -/
theorem round_zero (hgk : l.gk = none) {id : Nat} (hid : id < camNum) (h : (s.camCache id).mac = zeroMac) :
    ∃ t, l.round zeroMac s = .again t ∧ ∃ j < camNum, (t.camCache j).mac = zeroMac := by
  cases hs : s.camidSearch zeroMac none l.gk with
  | none =>
    have hno := Cam.camidSearch_none hs hid
    rw [hgk] at hno
    have hyes : s.camCacheChk zeroMac none none id = true :=
      Cam.camCacheChk_iff.mpr ⟨h, by simp, by simp⟩
    cases hyes.symm.trans hno
  | some j =>
    obtain ⟨hj, -⟩ := Cam.camidSearch_some hs
    refine ⟨_, round_some hs, j, hj, ?_⟩
    rw [Cam.camidFree, if_pos hj]
    simp [Cam.clearCamEntry]

theorem safe_of_ends (h : Ends (l.round addr) s s') : l.Safe addr s := by
  by_cases ha : addr = zeroMac
  · subst ha
    rcases l.gk_cases with hgk | hgk
    · refine Or.inr (Or.inr fun id hid hmac => ?_)
      have hstays : ∀ t : Cam, (∃ j < camNum, (t.camCache j).mac = zeroMac) →
          ∃ t', l.round zeroMac t = .again t' ∧ ∃ j < camNum, (t'.camCache j).mac = zeroMac := by
        rintro t ⟨j, hj, hmac⟩
        exact round_zero hgk hj hmac
      exact not_ends_of_stays hstays ⟨id, hid, hmac⟩ h
    · exact Or.inr (Or.inl hgk)
  · exact Or.inl ha

/-! ## what is left -/

/-- the entry of a slot that the search does not find is as it was -/
theorem cleared_kept (s : Cam) (l : ClearSite) {id : Nat} (h : (s.camCache id).mac ≠ addr) :
    (s.cleared addr l.gk).camCache id = s.camCache id ∧ (s.cleared addr l.gk).used id = s.used id := by
  refine Cam.cleared_of_not_chk ?_
  rw [← Bool.not_eq_true]
  intro hchk
  exact h (Cam.camCacheChk_iff.mp hchk).1

/-- the table after the loop, slot by slot -/
theorem cleared_valid {id : Nat} (hid : id < camNum) (h : ((s.cleared addr l.gk).camCache id).valid = true) :
    s.camCacheChk addr none l.gk id = false ∧ (s.cleared addr l.gk).camCache id = s.camCache id ∧
      (s.cleared addr l.gk).used id = s.used id := by
  cases hchk : s.camCacheChk addr none l.gk id with
  | true =>
    rw [Cam.cleared_camCache_of_chk hid hchk] at h
    cases h
  | false => exact ⟨rfl, Cam.cleared_of_not_chk hchk⟩

/-- what a search finds depends on its slot only -/
theorem chk_congr {t : Cam} {id : Nat} (hc : t.camCache id = s.camCache id) (hu : t.used id = s.used id) :
    t.camCacheChk addr none l.gk id = s.camCacheChk addr none l.gk id := by
  simp only [Cam.camCacheChk, Cam.camidIsGk, Cam.camidIsUsed, hc, hu]

theorem cleared_searched (s : Cam) : Cleared addr (l.searched addr) s (s.cleared addr l.gk) where
  gone id hid hv := by
    obtain ⟨hno, hc, hu⟩ := cleared_valid hid hv
    exact (chk_congr hc hu).trans hno
  free id hid hchk := Cam.cleared_used_of_chk hid hchk
  kept id hmac := cleared_kept s l hmac

/-- the search is by the control word where the slot is marked -/
theorem searched_eq_labelled {id : Nat} (hid : id < camNum) (hu : l.gk = some true → s.used id = true) :
    l.searched addr s id = l.labelled addr s id := by
  unfold searched labelled Cam.camCacheChk
  rcases l.gk_cases with hgk | hgk
  · rw [hgk]
    simp
  · simp [hgk, Cam.camidIsGk, Cam.camidIsUsed, hid, hu hgk]

theorem labelled_true {id : Nat} (h : l.labelled addr s id = true) :
    (s.camCache id).mac = addr ∧ (l.gk = some true → (s.camCache id).gk = true) := by
  simp only [labelled, Bool.and_eq_true, decide_eq_true_eq, Option.all_eq_true, beq_iff_eq] at h
  exact ⟨h.1, fun hgk => (h.2 true hgk).symm⟩

/-- by the control word a key remains, if its slot is not marked -/
theorem marked_of_cleared (h : Cleared addr (l.labelled addr) s (s.cleared addr l.gk)) : l.Marked addr s := by
  intro hgk id hid hmac hv hg
  by_contra hu
  have hno : s.camCacheChk addr none l.gk id = false := by
    simp [Cam.camCacheChk, hgk, Cam.camidIsGk, Cam.camidIsUsed, hu]
  obtain ⟨hc, -⟩ := Cam.cleared_of_not_chk hno
  have hgone := h.gone id hid (by rw [hc, hv])
  have hyes : l.labelled addr (s.cleared addr l.gk) id = true := by
    rw [labelled, hc]
    simp [hmac, hgk, hg]
  cases hyes.symm.trans hgone

theorem cleared_of_marked (h : l.Marked addr s) :
    Cleared addr (l.labelled addr) s (s.cleared addr l.gk) where
  gone id hid hv := by
    obtain ⟨hno, hc, -⟩ := cleared_valid hid hv
    have hsame : l.labelled addr (s.cleared addr l.gk) id = l.labelled addr s id := by
      unfold labelled
      rw [hc]
    rw [hsame, ← Bool.not_eq_true]
    intro hl
    obtain ⟨hmac, hg⟩ := labelled_true hl
    have hused : l.gk = some true → s.used id = true := fun hgk => h hgk id hid hmac (hc ▸ hv) (hg hgk)
    exact Bool.false_ne_true (hno.symm.trans ((searched_eq_labelled hid hused).trans hl))
  free id hid hl := by
    by_cases hused : l.gk = some true → s.used id = true
    · exact Cam.cleared_used_of_chk hid ((searched_eq_labelled hid hused).trans hl)
    · obtain ⟨hgk, hu⟩ := Classical.not_imp.mp hused
      have hno : s.camCacheChk addr none l.gk id = false := by
        simp [Cam.camCacheChk, hgk, Cam.camidIsGk, Cam.camidIsUsed, hu]
      rw [(Cam.cleared_of_not_chk hno).2]
      exact Bool.eq_false_iff.mpr hu
  kept id hmac := cleared_kept s l hmac

/-- the loop can only be left with what the search does not find -/
theorem clears_iff_of {hit : Cam → Nat → Bool} (hs : l.Safe addr s) :
    Clears l addr hit s ↔ Cleared addr hit s (s.cleared addr l.gk) := by
  obtain ⟨n, hn, hr⟩ := runs_of_safe hs
  constructor
  · rintro ⟨m, r, -, hm, hc⟩
    rwa [Ends.unique ⟨m, hm⟩ ⟨n, hr⟩] at hc
  · intro hc
    exact ⟨n, _, hn, hr, hc⟩

theorem safe_of_clears {hit : Cam → Nat → Bool} (h : Clears l addr hit s) : l.Safe addr s := by
  obtain ⟨n, r, -, hr, -⟩ := h
  exact safe_of_ends ⟨n, hr⟩

end ClearSite

/-- **The loops that clear keys**: they end in time, with the entries of the search cleared, if and only if
no cleared entry is found again; with the group keys by their control words, if these are all marked -/
theorem clearLoops_iff (l : ClearSite) (addr : Mac) (s : Cam) :
    (Clears l addr (l.searched addr) s ↔ l.Safe addr s) ∧
      (Clears l addr (l.labelled addr) s ↔ l.Safe addr s ∧ l.Marked addr s) := by
  refine ⟨⟨ClearSite.safe_of_clears, fun hs => ?_⟩, ⟨fun h => ?_, fun hs => ?_⟩⟩
  · exact (ClearSite.clears_iff_of hs).mpr (ClearSite.cleared_searched s)
  · have hs := ClearSite.safe_of_clears h
    exact ⟨hs, ClearSite.marked_of_cleared ((ClearSite.clears_iff_of hs).mp h)⟩
  · exact (ClearSite.clears_iff_of hs.1).mpr (ClearSite.cleared_of_marked hs.2)

/-- a table that was never used, the address zero -/
theorem clearLoops_stuck : ¬Clears .clearstakey zeroMac (ClearSite.clearstakey.searched zeroMac) {} ∧
    ¬∃ s, Ends (ClearSite.noPrivacy.round zeroMac) {} s := by
  have hmac : ((({} : Cam).camCache 0)).mac = zeroMac := rfl
  constructor
  · intro h
    rcases ClearSite.safe_of_clears h with ha | hgk | hno
    · exact ha rfl
    · cases hgk
    · exact hno 0 (by decide) hmac
  · rintro ⟨s, h⟩
    rcases ClearSite.safe_of_ends h with ha | hgk | hno
    · exact ha rfl
    · cases hgk
    · exact hno 0 (by decide) hmac

/-- the command of the handlers' model is the code's loop: the address of a station is not zero -/
theorem Cam.rtwClearstakeyCmd_runs (addr : StaAddr) (s : Cam) : ∃ n ≤ camNum,
    Runs (ClearSite.clearstakey.round addr) n s (s.rtwClearstakeyCmd addr) := by
  obtain ⟨n, hn, hr⟩ := ClearSite.runs_of_safe (l := .clearstakey) (s := s) (Or.inl addr.property.1)
  have hcmd : s.rtwClearstakeyCmd addr = _ := ClearSite.clearKeys_of_runs hr hn
  rw [hcmd]
  exact ⟨n, hn, hr⟩

end Rtl8192eu
