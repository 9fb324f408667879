import Mathlib.Data.Finset.Card
import Mathlib.Data.Nat.ModEq
import Mathlib.Order.Interval.Finset.Nat
import Rtl8192eu.Ap.StaPriv
import Rtl8192eu.Lib.Run

/-!
# Association ids over whole runs

`rtw_aid_alloc` looks for a free id from `started_aid` on, and counts the used ones it passes against
`max_num_sta`.  `rtw_free_stainfo` gives the id back.  With `rr_aid` the search starts behind the id
that was given last.

* `aidAt`         the order in which the ids are looked at;
* `aidSearch_spec`   what the search finds, and when it finds nothing;
* `AidMap`        `sta_aid` and the ids of the stations agree;
* `AidsOk`        also the limit holds, and no allocation fails without need;
* `aid_run_iff`   when this is so in all runs.
-/

namespace Rtl8192eu

open Run

namespace StaPriv

/-- the `i`-th id that is looked at -/
def aidAt (s : StaPriv) (i : Nat) : Nat := (i + s.startedAid - 1) % s.maxAid + 1

/-- the ids in use -/
def aidsInUse (s : StaPriv) : Finset Nat := (Finset.Icc 1 s.maxAid).filter fun k => (s.staAid k).isSome

/-- `sta_aid[k - 1]` is the station that has the id `k` -/
structure AidMap (s : StaPriv) : Prop where
  here : ∀ k p, s.staAid k = some p → (s.pool p).aid = k
  back : ∀ p, (s.pool p).aid ≠ 0 → s.staAid (s.pool p).aid = some p
  range : ∀ k p, s.staAid k = some p → 1 ≤ k ∧ k ≤ s.maxAid

/-- what holds of the ids -/
structure AidsOk (s : StaPriv) : Prop where
  map : AidMap s
  unique : ∀ p q, (s.pool p).aid ≠ 0 → (s.pool p).aid = (s.pool q).aid → p = q
  limit : s.aidsInUse.card ≤ s.maxNumSta
  /-- an allocation fails when the limit is reached, or when no id is free -/
  fails : ∀ p, s.rtwAidAlloc p = none →
    s.maxNumSta ≤ s.aidsInUse.card ∨ ∀ k, 1 ≤ k → k ≤ s.maxAid → s.staAid k ≠ none

/-- no station has an id -/
structure NoAid (s : StaPriv) : Prop where
  staAid : ∀ k, s.staAid k = none
  aid : ∀ p, (s.pool p).aid = 0
  started : 1 ≤ s.startedAid ∧ s.startedAid ≤ s.maxAid

end StaPriv

inductive AidEvent where
  /-- `rtw_aid_alloc` -/
  | alloc (p : Nat)
  /-- `rtw_free_stainfo`, `state` of the MLME is `_HW_STATE_AP_` -/
  | free (p : Nat)

/-- an id is allocated for a station that has none -/
def aidStep (s : StaPriv) : AidEvent → StaPriv
  | .alloc p => if (s.pool p).aid = 0 then (s.rtwAidAlloc p).getD s else s
  | .free p => s.rtwFreeStainfo p

namespace StaPriv

variable {s s' : StaPriv} {p q n i j k aid : Nat}

/-! ## the order of the search -/

theorem aidAt_range (h : 1 ≤ s.maxAid) (i : Nat) : 1 ≤ s.aidAt i ∧ s.aidAt i ≤ s.maxAid :=
  ⟨Nat.le_add_left 1 _, Nat.mod_lt _ h⟩

theorem aidAt_zero (h : 1 ≤ s.startedAid ∧ s.startedAid ≤ s.maxAid) : s.aidAt 0 = s.startedAid := by
  unfold aidAt
  rw [Nat.zero_add, Nat.mod_eq_of_lt (by omega)]
  omega

/-- no id twice -/
theorem aidAt_inj (h : 1 ≤ s.startedAid) (hi : i < s.maxAid) (hj : j < s.maxAid)
    (he : s.aidAt i = s.aidAt j) : i = j := by
  have hmod : Nat.ModEq s.maxAid (i + (s.startedAid - 1)) (j + (s.startedAid - 1)) := by
    unfold aidAt at he
    rw [Nat.add_sub_assoc h, Nat.add_sub_assoc h] at he
    exact Nat.succ_injective he
  have hij := Nat.ModEq.add_right_cancel' _ hmod
  rwa [Nat.ModEq, Nat.mod_eq_of_lt hi, Nat.mod_eq_of_lt hj] at hij

/-- every id -/
theorem aidAt_surj (h : 1 ≤ s.startedAid ∧ s.startedAid ≤ s.maxAid) (hk : 1 ≤ k) (hle : k ≤ s.maxAid) :
    ∃ i < s.maxAid, s.aidAt i = k := by
  refine ⟨(k + s.maxAid - s.startedAid) % s.maxAid, Nat.mod_lt _ (by omega), ?_⟩
  unfold aidAt
  have hsum : k + s.maxAid - s.startedAid + (s.startedAid - 1) = k - 1 + s.maxAid := by omega
  rw [Nat.add_sub_assoc h.1, Nat.mod_add_mod, hsum, Nat.add_mod_right, Nat.mod_eq_of_lt (by omega)]
  omega

/-- what is in use, among the first `n` -/
theorem card_image_aidAt (h : 1 ≤ s.startedAid) (hn : n ≤ s.maxAid) :
    ((Finset.range n).image s.aidAt).card = n := by
  rw [Finset.card_image_of_injOn, Finset.card_range]
  intro i hi j hj he
  rw [Finset.mem_coe, Finset.mem_range] at hi hj
  exact aidAt_inj h (Nat.lt_of_lt_of_le hi hn) (Nat.lt_of_lt_of_le hj hn) he

theorem mem_aidsInUse : k ∈ s.aidsInUse ↔ (1 ≤ k ∧ k ≤ s.maxAid) ∧ s.staAid k ≠ none := by
  unfold aidsInUse
  rw [Finset.mem_filter, Finset.mem_Icc, Option.isSome_iff_ne_none]

/-- as many are in use as the first ones that are -/
theorem le_card_aidsInUse (h : 1 ≤ s.startedAid) (hn : n ≤ s.maxAid)
    (hused : ∀ j < n, s.staAid (s.aidAt j) ≠ none) : n ≤ s.aidsInUse.card := by
  rw [← card_image_aidAt h hn]
  apply Finset.card_le_card
  intro k hk
  obtain ⟨j, hj, rfl⟩ := Finset.mem_image.mp hk
  rw [Finset.mem_range] at hj
  exact mem_aidsInUse.mpr ⟨aidAt_range (by omega) j, hused j hj⟩

/-! ## the search -/

/-- the first free id is found, within the limit -/
theorem aidSearch_some (h : s.aidSearch n i = some aid) : ∃ j, i ≤ j ∧ j < i + n ∧ s.aidAt j = aid
    ∧ s.staAid aid = none ∧ j < s.maxNumSta := by
  induction n generalizing i with
  | zero => cases h
  | succ n ih =>
    unfold aidSearch at h
    dsimp only at h
    split at h
    · rename_i hfree
      split at h
      · cases h
      · rename_i hlt
        cases h
        exact ⟨i, Nat.le_refl i, by omega, rfl, hfree, Nat.lt_of_not_le hlt⟩
    · split at h
      · cases h
      · obtain ⟨j, h1, h2, h3⟩ := ih h
        exact ⟨j, by omega, by omega, h3⟩

/-- nothing is found when all are in use, up to the last one or to the limit -/
theorem aidSearch_none (hlt : i < s.maxNumSta) (h : s.aidSearch n i = none) :
    ∃ m, (m = i + n ∨ m = s.maxNumSta ∧ m ≤ i + n)
      ∧ ∀ j, i ≤ j → j < m → s.staAid (s.aidAt j) ≠ none := by
  induction n generalizing i with
  | zero => exact ⟨i, Or.inl rfl, fun j h1 h2 => absurd h2 (Nat.not_lt.mpr h1)⟩
  | succ n ih =>
    unfold aidSearch at h
    dsimp only at h
    split at h
    · rw [if_neg (Nat.not_le.mpr hlt)] at h
      cases h
    · rename_i hused
      split at h
      · rename_i hend
        refine ⟨s.maxNumSta, Or.inr ⟨rfl, by omega⟩, fun j h1 h2 => ?_⟩
        obtain rfl : j = i := by omega
        exact hused
      · rename_i hmore
        obtain ⟨m, hm, hall⟩ := ih (by omega) h
        refine ⟨m, by omega, fun j h1 h2 => ?_⟩
        by_cases hj : j = i
        · rw [hj]
          exact hused
        · exact hall j (by omega) h2

/-- an allocation that fails had a reason -/
theorem rtwAidAlloc_fails (hs : 1 ≤ s.startedAid ∧ s.startedAid ≤ s.maxAid) (hpos : 1 ≤ s.maxNumSta)
    (h : s.rtwAidAlloc p = none) :
    s.maxNumSta ≤ s.aidsInUse.card ∨ ∀ k, 1 ≤ k → k ≤ s.maxAid → s.staAid k ≠ none := by
  obtain ⟨m, hm | ⟨hm, hle⟩, hall⟩ := aidSearch_none hpos (Option.map_eq_none_iff.mp h)
  · refine Or.inr fun k hk hkle => ?_
    obtain ⟨i, hi, rfl⟩ := aidAt_surj hs hk hkle
    exact hall i (Nat.zero_le i) (by omega)
  · refine Or.inl ?_
    rw [← hm]
    exact le_card_aidsInUse hs.1 (by omega) fun j hj => hall j (Nat.zero_le j) hj

/-! ## one step -/

/-- what the run leaves as it is -/
structure SameLimits (s s' : StaPriv) : Prop where
  maxAid : s'.maxAid = s.maxAid
  maxNumSta : s'.maxNumSta = s.maxNumSta
  rrAid : s'.rrAid = s.rrAid

theorem SameLimits.trans {s'' : StaPriv} (h : SameLimits s s') (h' : SameLimits s' s'') : SameLimits s s'' :=
  ⟨h'.maxAid.trans h.maxAid, h'.maxNumSta.trans h.maxNumSta, h'.rrAid.trans h.rrAid⟩

/-- the id `aid` is given to `p` -/
structure Given (s s' : StaPriv) (p aid : Nat) : Prop where
  staAid : s'.staAid = Function.update s.staAid aid (some p)
  pool : ∀ q, (s'.pool q).aid = if q = p then aid else (s.pool q).aid
  started : s'.startedAid = if s.rrAid then aid % s.maxAid + 1 else s.startedAid
  limits : SameLimits s s'

theorem given_of_search (h : s.aidSearch s.maxAid 0 = some aid) (p : Nat) :
    ∃ s', s.rtwAidAlloc p = some s' ∧ Given s s' p aid := by
  refine ⟨_, congrArg (Option.map _) h, rfl, fun q => ?_, rfl, rfl, rfl, rfl⟩
  show ((s.modSta p fun sta => { sta with aid := aid }).pool q).aid = _
  by_cases hq : q = p
  · rw [hq, modSta_pool, if_pos rfl]
  · rw [modSta_pool_ne _ _ _ hq, if_neg hq]

/-- an allocation that does not fail -/
theorem rtwAidAlloc_some (h : s.rtwAidAlloc p = some s') : ∃ j, j < s.maxNumSta
    ∧ s.staAid (s.aidAt j) = none ∧ Given s s' p (s.aidAt j) := by
  obtain ⟨aid, hsearch, -⟩ := Option.map_eq_some_iff.mp h
  obtain ⟨j, -, -, rfl, hfree, hlim⟩ := aidSearch_some hsearch
  obtain ⟨t, ht, hgiven⟩ := given_of_search hsearch p
  rw [h] at ht
  cases ht
  exact ⟨j, hlim, hfree, hgiven⟩

theorem freeAid_aid (h : AidMap s) (p : Nat) :
    (∀ k, (s.freeAid p).staAid k = if s.staAid k = some p then none else s.staAid k)
      ∧ (∀ q, ((s.freeAid p).pool q).aid = if q = p then 0 else (s.pool q).aid)
      ∧ (s.freeAid p).startedAid = s.startedAid ∧ SameLimits s (s.freeAid p) := by
  unfold freeAid
  dsimp only
  by_cases haid : (s.pool p).aid = 0
  · -- no id is its own
    have hnone : ∀ k, s.staAid k ≠ some p := by
      intro k hk
      have hrange := h.range k p hk
      rw [← h.here k p hk, haid] at hrange
      exact absurd hrange.1 (by decide)
    rw [haid]
    refine ⟨fun k => (if_neg (hnone k)).symm, fun q => ?_, rfl, rfl, rfl, rfl⟩
    by_cases hq : q = p
    · rw [if_pos hq, hq]
      exact haid
    · rw [if_neg hq]
      rfl
  · have hback := h.back p haid
    have hpos := Nat.pos_of_ne_zero haid
    rw [if_pos (by simp [hpos, hback])]
    refine ⟨fun k => ?_, fun q => ?_, rfl, rfl, rfl, rfl⟩
    · show Function.update s.staAid (s.pool p).aid none k = _
      by_cases hk : k = (s.pool p).aid
      · rw [hk, Function.update_self, if_pos hback]
      · rw [Function.update_of_ne hk, if_neg fun hc => hk (h.here k p hc).symm]
    · show ((s.modSta p fun sta => { sta with aid := 0 }).pool q).aid = _
      by_cases hq : q = p
      · rw [hq, modSta_pool, if_pos rfl]
      · rw [modSta_pool_ne _ _ _ hq, if_neg hq]

/-- a station is freed: its id goes back, and nothing else changes -/
theorem rtwFreeStainfo_aid (h : AidMap s) (p : Nat) :
    (∀ k, (s.rtwFreeStainfo p).staAid k = if s.staAid k = some p then none else s.staAid k)
      ∧ (∀ q, ((s.rtwFreeStainfo p).pool q).aid = if q = p then 0 else (s.pool q).aid)
      ∧ (s.rtwFreeStainfo p).startedAid = s.startedAid ∧ SameLimits s (s.rtwFreeStainfo p) := by
  unfold rtwFreeStainfo
  extract_lets s1 s2 s3
  have haid : ∀ q, (s2.pool q).aid = (s.pool q).aid := by
    intro q
    by_cases hq : q = p
    · rw [hq, modSta_pool]
    · rw [modSta_pool_ne _ _ _ hq]
  have hmap : AidMap s2 := by
    refine ⟨fun k q hk => ?_, fun q hq => ?_, h.range⟩
    · rw [haid]
      exact h.here k q hk
    · rw [haid] at hq ⊢
      exact h.back q hq
  obtain ⟨hsta, hpool, hstart, hlim⟩ := freeAid_aid hmap p
  refine ⟨hsta, fun q => ?_, hstart, hlim.maxAid, hlim.maxNumSta, hlim.rrAid⟩
  rw [← haid q]
  exact hpool q

/-- the map is kept by an allocation -/
theorem AidMap.alloc (h : AidMap s) (hmax : 1 ≤ s.maxAid) (haid : (s.pool p).aid = 0)
    (hj : s.staAid (s.aidAt j) = none) (hg : Given s s' p (s.aidAt j)) : AidMap s' := by
  obtain ⟨hsta, hpool, -, hlim⟩ := hg
  have hne : ∀ k q, s.staAid k = some q → q ≠ p := by
    rintro k q hk rfl
    have hrange := h.range k q hk
    rw [← h.here k q hk, haid] at hrange
    exact absurd hrange.1 (by decide)
  refine ⟨fun k q hk => ?_, fun q hq => ?_, fun k q hk => ?_⟩
  · rw [hsta] at hk
    by_cases hkj : k = s.aidAt j
    · subst hkj
      rw [Function.update_self] at hk
      rw [hpool, if_pos (Option.some.inj hk).symm]
    · rw [Function.update_of_ne hkj] at hk
      rw [hpool, if_neg (hne k q hk)]
      exact h.here k q hk
  · rw [hpool] at hq ⊢
    rw [hsta]
    by_cases hqp : q = p
    · rw [if_pos hqp, Function.update_self, hqp]
    · rw [if_neg hqp] at hq ⊢
      have hback := h.back q hq
      rw [Function.update_of_ne, hback]
      intro he
      rw [he, hj] at hback
      cases hback
  · rw [hlim.maxAid]
    rw [hsta] at hk
    by_cases hkj : k = s.aidAt j
    · rw [hkj]
      exact aidAt_range hmax j
    · rw [Function.update_of_ne hkj] at hk
      exact h.range k q hk

theorem AidMap.free (h : AidMap s) (p : Nat) : AidMap (s.rtwFreeStainfo p) := by
  obtain ⟨hsta, hpool, -, hlim⟩ := rtwFreeStainfo_aid h p
  have hof : ∀ k q, (s.rtwFreeStainfo p).staAid k = some q → s.staAid k = some q ∧ q ≠ p := by
    intro k q hk
    rw [hsta] at hk
    split at hk
    · cases hk
    · rename_i hne
      exact ⟨hk, fun he => hne (he ▸ hk)⟩
  refine ⟨fun k q hk => ?_, fun q hq => ?_, fun k q hk => ?_⟩
  · obtain ⟨hk, hq⟩ := hof k q hk
    rw [hpool, if_neg hq]
    exact h.here k q hk
  · rw [hpool] at hq ⊢
    by_cases hqp : q = p
    · rw [if_pos hqp] at hq
      exact absurd rfl hq
    · rw [if_neg hqp] at hq ⊢
      rw [hsta, h.back q hq, if_neg fun he => hqp (Option.some.inj he)]
  · rw [hlim.maxAid]
    exact h.range k q (hof k q hk).1

/-! ## runs -/

/-- also: without `rr_aid` all ids in use are among the first `max_num_sta` of the search -/
structure AidInv (s0 s : StaPriv) : Prop where
  map : AidMap s
  limits : SameLimits s0 s
  started : 1 ≤ s.startedAid ∧ s.startedAid ≤ s.maxAid
  near : s.rrAid = false → ∀ k p, s.staAid k = some p → ∃ j < s.maxNumSta, s.aidAt j = k

theorem NoAid.inv (h : NoAid s) : AidInv s s := by
  have hno : ∀ k p, s.staAid k ≠ some p := fun k p hk => nomatch (h.staAid k).symm.trans hk
  refine ⟨⟨fun k p hk => absurd hk (hno k p), fun p hp => absurd (h.aid p) hp,
    fun k p hk => absurd hk (hno k p)⟩, ⟨rfl, rfl, rfl⟩, h.started, fun _ k p hk => absurd hk (hno k p)⟩

theorem aidAt_congr (hm : s'.maxAid = s.maxAid) (hs : s'.startedAid = s.startedAid) : s'.aidAt = s.aidAt := by
  funext i
  unfold aidAt
  rw [hm, hs]

theorem AidInv.step {s0 : StaPriv} (h : AidInv s0 s) (e : AidEvent) : AidInv s0 (aidStep s e) := by
  have hmax : 1 ≤ s.maxAid := Nat.le_trans h.started.1 h.started.2
  cases e with
  | alloc p =>
    show AidInv s0 (if (s.pool p).aid = 0 then (s.rtwAidAlloc p).getD s else s)
    by_cases haid : (s.pool p).aid = 0
    · rw [if_pos haid]
      cases halloc : s.rtwAidAlloc p with
      | none => exact h
      | some s' =>
        obtain ⟨j, hj, hfree, hg⟩ := rtwAidAlloc_some halloc
        have hrange := aidAt_range hmax j
        refine ⟨h.map.alloc hmax haid hfree hg, h.limits.trans hg.limits, ?_, fun hrr k q hk => ?_⟩
        · show 1 ≤ s'.startedAid ∧ s'.startedAid ≤ s'.maxAid
          rw [hg.started, hg.limits.maxAid]
          split
          · exact ⟨Nat.le_add_left 1 _, Nat.mod_lt _ hmax⟩
          · exact h.started
        · change s'.rrAid = false at hrr
          change s'.staAid k = some q at hk
          show ∃ j < s'.maxNumSta, s'.aidAt j = k
          rw [hg.limits.rrAid] at hrr
          have hstart := hg.started
          rw [hrr, if_neg Bool.false_ne_true] at hstart
          rw [aidAt_congr hg.limits.maxAid hstart, hg.limits.maxNumSta]
          rw [hg.staAid] at hk
          by_cases hkj : k = s.aidAt j
          · exact ⟨j, hj, hkj.symm⟩
          · rw [Function.update_of_ne hkj] at hk
            exact h.near hrr k q hk
    · rw [if_neg haid]
      exact h
  | free p =>
    obtain ⟨hsta, -, hstart, hlim⟩ := rtwFreeStainfo_aid h.map p
    refine ⟨h.map.free p, h.limits.trans hlim, ?_, fun hrr k q hk => ?_⟩
    · show 1 ≤ (s.rtwFreeStainfo p).startedAid ∧ (s.rtwFreeStainfo p).startedAid ≤ (s.rtwFreeStainfo p).maxAid
      rw [hstart, hlim.maxAid]
      exact h.started
    · change (s.rtwFreeStainfo p).rrAid = false at hrr
      change (s.rtwFreeStainfo p).staAid k = some q at hk
      show ∃ j < (s.rtwFreeStainfo p).maxNumSta, (s.rtwFreeStainfo p).aidAt j = k
      rw [aidAt_congr hlim.maxAid hstart, hlim.maxNumSta]
      rw [hlim.rrAid] at hrr
      rw [hsta] at hk
      split at hk
      · cases hk
      · exact h.near hrr k q hk

/-- the ids are right when the search always starts at the same id, or there are too few ids -/
theorem AidInv.ok {s0 : StaPriv} (h : AidInv s0 s) (hpos : 1 ≤ s0.maxNumSta)
    (hc : s0.rrAid = false ∨ s0.maxAid ≤ s0.maxNumSta) : AidsOk s := by
  refine ⟨h.map, fun p q hp he => ?_, ?_, fun p => rtwAidAlloc_fails h.started ?_⟩
  · have hback := h.map.back p hp
    rw [he, h.map.back q (he ▸ hp)] at hback
    exact (Option.some.inj hback).symm
  · rw [h.limits.maxNumSta]
    rcases hc with hrr | hle
    · have hsub : s.aidsInUse ⊆ (Finset.range s0.maxNumSta).image s.aidAt := by
        intro k hk
        obtain ⟨-, hne⟩ := mem_aidsInUse.mp hk
        obtain ⟨p, hp⟩ := Option.ne_none_iff_exists'.mp hne
        obtain ⟨j, hj, rfl⟩ := h.near (h.limits.rrAid.trans hrr) k p hp
        rw [h.limits.maxNumSta] at hj
        exact Finset.mem_image_of_mem _ (Finset.mem_range.mpr hj)
      have hcard := Finset.card_le_card hsub
      have himage := Finset.card_image_le (s := Finset.range s0.maxNumSta) (f := s.aidAt)
      rw [Finset.card_range] at himage
      exact Nat.le_trans hcard himage
    · have hcard := Finset.card_filter_le (Finset.Icc 1 s.maxAid) fun k => (s.staAid k).isSome
      have hall : (Finset.Icc 1 s.maxAid).card = s0.maxAid := by
        rw [Nat.card_Icc, h.limits.maxAid]
        rfl
      rw [hall] at hcard
      exact Nat.le_trans hcard hle
  · rw [h.limits.maxNumSta]
    exact hpos

theorem aidAt_succ (h : 1 ≤ s.startedAid) (i : Nat) : s.aidAt i % s.maxAid + 1 = s.aidAt (i + 1) := by
  unfold aidAt
  have hsum : i + 1 + s.startedAid - 1 = i + s.startedAid - 1 + 1 := by omega
  rw [hsum, Nat.mod_add_mod]

/-- with `rr_aid` the ids are given in the order of the search, whatever the limit -/
theorem robin_run (h : NoAid s) (hrr : s.rrAid = true) (hpos : 1 ≤ s.maxNumSta) {m : Nat} (hm : m ≤ s.maxAid) :
    ∃ t, run aidStep s ((List.range m).map .alloc) = t ∧ (∀ j < m, t.staAid (s.aidAt j) = some j)
      ∧ (∀ j, m ≤ j → j < s.maxAid → t.staAid (s.aidAt j) = none) ∧ (∀ q, m ≤ q → (t.pool q).aid = 0)
      ∧ t.startedAid = s.aidAt m ∧ SameLimits s t := by
  induction m with
  | zero =>
    exact ⟨s, rfl, fun j hj => absurd hj (Nat.not_lt_zero j), fun j _ _ => h.staAid _, fun q _ => h.aid q,
      (aidAt_zero h.started).symm, rfl, rfl, rfl⟩
  | succ m ih =>
    obtain ⟨t, ht, hgiven, hfree, haid, hstart, hlim⟩ := ih (by omega)
    have hrange := aidAt_range (by omega : 1 ≤ s.maxAid) m
    have hzero : t.aidAt 0 = s.aidAt m := by
      rw [aidAt_zero, hstart]
      rw [hstart, hlim.maxAid]
      exact hrange
    have hsearch : t.aidSearch t.maxAid 0 = some (s.aidAt m) := by
      obtain ⟨n, hn⟩ := Nat.exists_eq_succ_of_ne_zero (show t.maxAid ≠ 0 by
        rw [hlim.maxAid]
        omega)
      have hnone := hfree m (Nat.le_refl m) (by omega)
      rw [← hzero] at hnone ⊢
      rw [hn, aidSearch]
      exact (if_pos hnone).trans (if_neg (by rw [hlim.maxNumSta]; omega))
    obtain ⟨t', ht', hg⟩ := given_of_search hsearch m
    have hne : ∀ j < s.maxAid, j ≠ m → s.aidAt j ≠ s.aidAt m := by
      intro j hj hjm he
      exact hjm (aidAt_inj h.started.1 hj (by omega) he)
    refine ⟨t', ?_, fun j hj => ?_, fun j hj hlt => ?_, fun q hq => ?_, ?_, hlim.trans hg.limits⟩
    · rw [List.range_succ, List.map_append, run_append, ht]
      show (if (t.pool m).aid = 0 then (t.rtwAidAlloc m).getD t else t) = t'
      rw [if_pos (haid m (Nat.le_refl m)), ht']
      rfl
    · rw [hg.staAid]
      by_cases hjm : j = m
      · rw [hjm, Function.update_self]
      · rw [Function.update_of_ne (hne j (by omega) hjm)]
        exact hgiven j (by omega)
    · rw [hg.staAid, Function.update_of_ne (hne j hlt (by omega))]
      exact hfree j (by omega) hlt
    · rw [hg.pool, if_neg (by omega)]
      exact haid q (by omega)
    · rw [hg.started, hlim.rrAid, hrr, if_pos rfl, hlim.maxAid]
      exact aidAt_succ h.started.1 m

end StaPriv

open StaPriv

/-- **The ids are right in all runs** exactly when `rr_aid` is off, or there are no more ids than
`max_num_sta`. -/
theorem aid_run_iff (s : StaPriv) (h : NoAid s) (hpos : 1 ≤ s.maxNumSta) :
    (∀ es, AidsOk (run aidStep s es)) ↔ s.rrAid = false ∨ s.maxAid ≤ s.maxNumSta := by
  constructor
  · intro hall
    by_contra hno
    rw [not_or, Bool.not_eq_false, Nat.not_le] at hno
    obtain ⟨hrr, hlt⟩ := hno
    -- one station more than the limit
    obtain ⟨t, ht, hgiven, -, -, -, hlim⟩ := robin_run h hrr hpos hlt
    have hsub : (Finset.range (s.maxNumSta + 1)).image s.aidAt ⊆ t.aidsInUse := by
      intro k hk
      obtain ⟨j, hj, rfl⟩ := Finset.mem_image.mp hk
      rw [Finset.mem_range] at hj
      refine mem_aidsInUse.mpr ⟨?_, ?_⟩
      · rw [hlim.maxAid]
        exact aidAt_range (by omega) j
      · rw [hgiven j hj]
        exact nofun
    have hcard := Finset.card_le_card hsub
    rw [card_image_aidAt h.started.1 hlt] at hcard
    have hlimit := (hall ((List.range (s.maxNumSta + 1)).map .alloc)).limit
    rw [ht, hlim.maxNumSta] at hlimit
    omega
  · intro hc es
    have hinv := run_inv_all (I := AidInv s) (fun t e ht => ht.step e) s es h.inv
    exact hinv.ok hpos hc

/-- two stations at most, of the ids 1 to 8 -/
def smallAp (rrAid : Bool) : StaPriv where
  maxAid := 8
  maxNumSta := 2
  rrAid := rrAid

theorem smallAp_noAid (rrAid : Bool) : NoAid (smallAp rrAid) where
  staAid _ := rfl
  aid _ := rfl
  started := ⟨Nat.le_refl 1, Nat.le_add_left 1 7⟩

theorem aid_run_iff_small : AidsOk (run aidStep (smallAp false) [.alloc 0, .alloc 1, .alloc 2]) :=
  (aid_run_iff (smallAp false) (smallAp_noAid false) (by decide)).mpr (Or.inl rfl) _

/-- three stations get an id -/
theorem robin_exceeds_limit : ¬AidsOk (run aidStep (smallAp true) [.alloc 0, .alloc 1, .alloc 2]) := by
  intro h
  have hcard : (run aidStep (smallAp true) [.alloc 0, .alloc 1, .alloc 2]).aidsInUse.card = 3 := by
    decide +kernel
  have hlimit := h.limit
  rw [hcard] at hlimit
  exact absurd hlimit (by decide)

end Rtl8192eu
