import Mathlib.Data.List.Find
import Rtl8192eu.Ap.StaLists

/-!
# The station of an address

What `rtw_get_stainfo` finds for an address, and what the writes to the table change of it.

* `StaPriv.view`   the station of the address, if there is one;
* `view_modSta` ..   one lemma for each write: what it does to its own address, and that the other
                     addresses keep their stations.
-/

namespace Rtl8192eu

namespace StaPriv

def view (s : StaPriv) (addr : Mac) : Option ApSta := (s.rtwGetStainfo addr).map s.pool

variable {s s' : StaPriv} {addr sa : Mac} {p : Nat} {g : ApSta → ApSta}

theorem view_eq_some {sta : ApSta} (h : s.view addr = some sta) :
    ∃ p, s.rtwGetStainfo addr = some p ∧ s.pool p = sta := Option.map_eq_some_iff.mp h

theorem view_of_found (h : s.rtwGetStainfo addr = some p) : s.view addr = some (s.pool p) := by
  unfold view
  rw [h]
  rfl

theorem view_modSta (hp : s.rtwGetStainfo sa = some p) (hg : (g (s.pool p)).macAddr = (s.pool p).macAddr) :
    (s.modSta p g).view sa = some (g (s.pool p)) := by
  unfold view
  rw [rtwGetStainfo_modSta hg, hp, Option.map_some, modSta_pool]

theorem view_modSta_ne (hp : (s.pool p).macAddr ≠ staKey addr)
    (hg : (g (s.pool p)).macAddr = (s.pool p).macAddr) : (s.modSta p g).view addr = s.view addr := by
  unfold view
  rw [rtwGetStainfo_modSta hg]
  cases hq : s.rtwGetStainfo addr with
  | none => rfl
  | some q =>
    have hne : q ≠ p := fun e => hp (e ▸ (rtwGetStainfo_some hq).2)
    rw [Option.map_some, Option.map_some, modSta_pool_ne _ _ _ hne]

/-- a new station -/
theorem view_alloc (h : s.TableOk) (hk : staKey sa = sa) (hnone : s.rtwGetStainfo sa = none)
    (ha : s.rtwAllocStainfo sa = some (p, s')) :
    s'.rtwGetStainfo sa = some p ∧ s'.pool p = { macAddr := sa }
      ∧ ∀ addr, staKey addr ≠ sa → s'.view addr = s.view addr := by
  unfold rtwAllocStainfo at ha
  split at ha
  · cases ha
  rename_i q rest hq
  obtain ⟨rfl, rfl⟩ := Prod.mk.inj (Option.some.inj ha)
  have hnot := h.free_not_mem hq
  have hpool : ∀ r ∈ s.table, Function.update s.pool q { macAddr := sa } r = s.pool r := by
    intro r hr
    have hne : r ≠ q := fun e => hnot (e ▸ hr)
    exact Function.update_of_ne hne _ _
  -- the old part of the table is searched as before
  have hfind : ∀ addr, (s.table ++ [q]).find? (fun r =>
        (Function.update s.pool q { macAddr := sa } r).macAddr = staKey addr)
      = (s.rtwGetStainfo addr).or (if sa = staKey addr then some q else none) := by
    intro addr
    have hold : s.table.find? (fun r => (Function.update s.pool q { macAddr := sa } r).macAddr = staKey addr)
        = s.rtwGetStainfo addr :=
      List.find?_congr fun r hr => by rw [hpool r hr]
    rw [List.find?_append, hold, List.find?_singleton, Function.update_self]
    simp only [decide_eq_true_eq]
  refine ⟨?_, Function.update_self .., fun addr haddr => ?_⟩
  · show (s.table ++ [q]).find? _ = some q
    rw [hfind, hnone, hk, if_pos rfl]
    rfl
  · show ((s.table ++ [q]).find? _).map _ = _
    rw [hfind, if_neg (Ne.symm haddr), Option.or_none]
    unfold view
    cases hr : s.rtwGetStainfo addr with
    | none => rfl
    | some r => exact congrArg some (hpool r (rtwGetStainfo_some hr).1)

/-- a station that is freed -/
theorem view_free (h : s.TableOk) (hp : s.rtwGetStainfo sa = some p) :
    (s.rtwFreeStainfo p).view sa = none
      ∧ ∀ addr, staKey addr ≠ staKey sa → (s.rtwFreeStainfo p).view addr = s.view addr := by
  obtain ⟨ht, -, -, -, hpool⟩ := ListsOk.rtwFreeStainfo_spec s p
  obtain ⟨hmem, hmac⟩ := rtwGetStainfo_some hp
  have hrest : ∀ q ∈ (s.rtwFreeStainfo p).table, q ∈ s.table ∧ q ≠ p := by
    intro q hq
    rw [ht] at hq
    simpa using hq
  constructor
  · have hnone : (s.rtwFreeStainfo p).rtwGetStainfo sa = none := by
      refine List.find?_eq_none.mpr fun q hq hm => ?_
      obtain ⟨hqm, hne⟩ := hrest q hq
      rw [hpool q hne, decide_eq_true_eq, ← hmac] at hm
      exact hne (h.mac q hqm p hmem hm)
    unfold view
    rw [hnone]
    rfl
  · intro addr haddr
    have hfind : (s.rtwFreeStainfo p).rtwGetStainfo addr = s.rtwGetStainfo addr := by
      unfold rtwGetStainfo
      rw [ht, List.find?_filter]
      refine List.find?_congr fun q hq => ?_
      by_cases hne : q = p
      · have hpk : (s.pool q).macAddr ≠ staKey addr := by
          rw [hne, hmac]
          exact Ne.symm haddr
        rw [decide_eq_false hpk, hne]
        simp
      · rw [hpool q hne]
        simp [hne]
    unfold view
    rw [hfind]
    cases hq : s.rtwGetStainfo addr with
    | none => rfl
    | some q =>
      have hne : q ≠ p := fun e => haddr (by rw [← hmac, ← (rtwGetStainfo_some hq).2, e])
      exact congrArg some (hpool q hne)

end StaPriv

end Rtl8192eu
