import Mathlib.Data.List.Perm.Subperm
import Rtl8192eu.Ap.Mlme

/-!
# The lists of the access point over whole runs

With protection off every frame moves its station between the lists at once; what is late is the
free of a station that has left, which a deletion event finds again by address and which does not
unlink from `asoc_list`.

* `StaPriv.Live`   the lists hold stations of the table, with exact counters;
* `ListsOk P s`    the invariant; `P` are the addresses of the queued deletion events, and no
                        associated station has one of them;
* `ListsOk.modSta` ..   one lemma for each way a handler writes;
* `ap_lists_live`   every run in which no station asks for association while its deletion is
                        queued.
-/

namespace Rtl8192eu

open Run

/-! ## lists with a counter -/

theorem filter_ne_eq_erase {l : List Nat} {p : Nat} (hn : l.Nodup) :
    l.filter (· ≠ p) = l.erase p := by
  rw [hn.erase_eq_filter]
  apply List.filter_congr
  intro x _
  by_cases hx : x = p <;> simp [hx]

/-- a list of entries of the table `T` -/
structure StaList.Ok (l : StaList) (T : List Nat) : Prop where
  nodup : l.nodes.Nodup
  mem : ∀ p ∈ l.nodes, p ∈ T
  cnt : l.cnt = l.nodes.length

namespace StaList

variable {l : StaList} {T : List Nat} {p q : Nat}

theorem Ok.length_le (h : l.Ok T) : l.nodes.length ≤ T.length :=
  (List.subperm_of_subset h.nodup h.mem).length_le

theorem mem_link : q ∈ (l.link p).nodes ↔ q ∈ l.nodes ∨ q = p := by
  unfold link
  split
  · rename_i hp
    exact ⟨Or.inl, fun h => h.elim id fun e => e ▸ hp⟩
  · simp

theorem mem_unlink : q ∈ (l.unlink p).nodes ↔ q ∈ l.nodes ∧ q ≠ p := by
  unfold unlink
  split
  · simp
  · rename_i hp
    exact ⟨fun h => ⟨h, fun e => hp (e ▸ h)⟩, fun h => h.1⟩

theorem filter_ne_length (hn : l.nodes.Nodup) (hp : p ∈ l.nodes) :
    (l.nodes.filter (· ≠ p)).length + 1 = l.nodes.length := by
  have hpos := List.length_pos_of_mem hp
  rw [filter_ne_eq_erase hn, List.length_erase_of_mem hp]
  omega

theorem Ok.link (h : l.Ok T) (hT : T.length ≤ numSta) (hp : p ∈ T) : (l.link p).Ok T := by
  unfold StaList.link
  split
  · exact h
  rename_i hnot
  have hnodup : (l.nodes ++ [p]).Nodup := by
    rw [List.nodup_append]
    refine ⟨h.nodup, by simp, ?_⟩
    intro a ha b hb e
    rw [List.mem_singleton.mp hb] at e
    exact hnot (e ▸ ha)
  have hmem : ∀ q ∈ l.nodes ++ [p], q ∈ T := by
    intro q hq
    rcases List.mem_append.mp hq with hq | hq
    · exact h.mem q hq
    · exact List.mem_singleton.mp hq ▸ hp
  have hlen := (List.subperm_of_subset hnodup hmem).length_le
  refine ⟨hnodup, hmem, ?_⟩
  -- the counter is far from its limit
  rw [List.length_append, List.length_singleton] at hlen ⊢
  show (l.cnt + 1) % 256 = _
  rw [h.cnt]
  unfold numSta at hT
  omega

theorem Ok.unlink (h : l.Ok T) (hT : T.length ≤ numSta) : (l.unlink p).Ok T := by
  have hle := h.length_le
  unfold StaList.unlink
  split
  · rename_i hp
    refine ⟨h.nodup.filter _, fun q hq => h.mem q (List.mem_of_mem_filter hq), ?_⟩
    have hlen := filter_ne_length h.nodup hp
    show (l.cnt + 255) % 256 = (l.nodes.filter _).length
    rw [h.cnt]
    unfold numSta at hT
    omega
  · exact h

end StaList

/-! ## the invariant -/

/-- the entries of `pstainfo_buf` are each in the table or free, and no two stations of the table
have one address -/
structure StaPriv.TableOk (s : StaPriv) : Prop where
  slots : (s.table ++ s.freeStaQueue).Perm (List.range numSta)
  key : ∀ p ∈ s.table, staKey (s.pool p).macAddr = (s.pool p).macAddr
  mac : ∀ p ∈ s.table, ∀ q ∈ s.table, (s.pool p).macAddr = (s.pool q).macAddr → p = q
  mfp : ∀ p ∈ s.table, (s.pool p).flags.mfp = false

/-- the lists hold only live stations -/
structure StaPriv.Live (s : StaPriv) : Prop where
  auth : ∀ p ∈ s.authList.nodes, p ∈ s.table
  asoc : ∀ p ∈ s.asocList.nodes, p ∈ s.table
  disjoint : ∀ p ∈ s.authList.nodes, p ∉ s.asocList.nodes
  authCnt : s.authList.cnt = s.authList.nodes.length
  asocCnt : s.asocList.cnt = s.asocList.nodes.length
  aid : ∀ p ∈ s.asocList.nodes, (s.pool p).aid ≠ 0

structure ListsOk (P : List Mac) (s : StaPriv) : Prop where
  table : s.TableOk
  auth : s.authList.Ok s.table
  asoc : s.asocList.Ok s.table
  disjoint : ∀ p ∈ s.authList.nodes, p ∉ s.asocList.nodes
  aid : ∀ p ∈ s.asocList.nodes, (s.pool p).aid ≠ 0
  key : ∀ m ∈ P, staKey m = m
  pend : ∀ m ∈ P, ∀ p ∈ s.asocList.nodes, (s.pool p).macAddr ≠ m

namespace StaPriv.TableOk

variable {s : StaPriv}

theorem nodup (h : s.TableOk) : (s.table ++ s.freeStaQueue).Nodup :=
  h.slots.nodup_iff.mpr List.nodup_range

theorem length_le (h : s.TableOk) : s.table.length ≤ numSta := by
  have := h.slots.length_eq
  rw [List.length_append, List.length_range] at this
  omega

theorem free_not_mem {q : Nat} {rest : List Nat} (h : s.TableOk) (hq : s.freeStaQueue = q :: rest) :
    q ∉ s.table := by
  have hnodup := h.nodup
  rw [hq, List.nodup_append] at hnodup
  exact fun hmem => hnodup.2.2 q hmem q List.mem_cons_self rfl

theorem alloc {addr : Mac} {q : Nat} {rest : List Nat} (h : s.TableOk)
    (hq : s.freeStaQueue = q :: rest) (hk : staKey addr = addr)
    (hfresh : ∀ r ∈ s.table, (s.pool r).macAddr ≠ addr) :
    TableOk { s with
      pool := Function.update s.pool q { macAddr := addr }
      freeStaQueue := rest
      table := s.table ++ [q] } := by
  have hold : ∀ r ∈ s.table, Function.update s.pool q { macAddr := addr } r = s.pool r := by
    intro r hr
    have hne : r ≠ q := fun e => h.free_not_mem hq (e ▸ hr)
    exact Function.update_of_ne hne _ _
  have hnew : Function.update s.pool q { macAddr := addr } q = ({ macAddr := addr } : ApSta) :=
    Function.update_self ..
  refine ⟨?_, ?_, ?_, ?_⟩
  · have hslots := h.slots
    rw [hq] at hslots
    show ((s.table ++ [q]) ++ rest).Perm _
    rwa [List.append_assoc]
  · intro r hr
    show staKey (Function.update s.pool q _ r).macAddr = (Function.update s.pool q _ r).macAddr
    rcases List.mem_append.mp hr with hr | hr
    · rw [hold r hr]
      exact h.key r hr
    · rw [List.mem_singleton.mp hr, hnew]
      exact hk
  · intro r hr t ht
    show (Function.update s.pool q _ r).macAddr = (Function.update s.pool q _ t).macAddr → r = t
    rcases List.mem_append.mp hr with hr | hr <;> rcases List.mem_append.mp ht with ht | ht
    · rw [hold r hr, hold t ht]
      exact h.mac r hr t ht
    · rw [List.mem_singleton.mp ht, hold r hr, hnew]
      exact fun e => absurd e (hfresh r hr)
    · rw [List.mem_singleton.mp hr, hold t ht, hnew]
      exact fun e => absurd e.symm (hfresh t ht)
    · rw [List.mem_singleton.mp hr, List.mem_singleton.mp ht]
      exact fun _ => rfl
  · intro r hr
    show (Function.update s.pool q _ r).flags.mfp = false
    rcases List.mem_append.mp hr with hr | hr
    · rw [hold r hr]
      exact h.mfp r hr
    · rw [List.mem_singleton.mp hr, hnew]

end StaPriv.TableOk

theorem StaPriv.rtwGetStainfo_some {s : StaPriv} {addr : Mac} {p : Nat}
    (h : s.rtwGetStainfo addr = some p) : p ∈ s.table ∧ (s.pool p).macAddr = staKey addr := by
  refine ⟨List.mem_of_find?_eq_some h, ?_⟩
  simpa using List.find?_some h

theorem StaPriv.rtwGetStainfo_none {s : StaPriv} {addr : Mac} (h : s.rtwGetStainfo addr = none)
    {p : Nat} (hp : p ∈ s.table) : (s.pool p).macAddr ≠ staKey addr := by
  simpa using List.find?_eq_none.mp h p hp

theorem invalidMac_key {addr : Mac} (h : invalidMac addr = false) : staKey addr = addr := by
  unfold invalidMac at h
  have hm : isMcast addr = false := by
    revert h
    cases isMcast addr <;> simp
  rw [staKey, hm, if_neg Bool.false_ne_true]

namespace ListsOk

variable {P : List Mac} {s : StaPriv} {p : Nat}

theorem live (h : ListsOk P s) : s.Live :=
  ⟨h.auth.mem, h.asoc.mem, h.disjoint, h.auth.cnt, h.asoc.cnt, h.aid⟩

/-! ## one lemma for each write -/

/-- a station is written without its address, its protection and, when associated, its id -/
theorem modSta {g : ApSta → ApSta} (h : ListsOk P s)
    (hmac : (g (s.pool p)).macAddr = (s.pool p).macAddr)
    (hmfp : p ∈ s.table → (g (s.pool p)).flags.mfp = false)
    (haid : p ∈ s.asocList.nodes → (g (s.pool p)).aid ≠ 0) : ListsOk P (s.modSta p g) := by
  have hm : ∀ q, ((s.modSta p g).pool q).macAddr = (s.pool q).macAddr := StaPriv.modSta_macAddr hmac
  refine ⟨⟨h.table.slots, ?_, ?_, ?_⟩, h.auth, h.asoc, h.disjoint, ?_, h.key, ?_⟩
  · intro q hq
    rw [hm]
    exact h.table.key q hq
  · intro q hq r hr e
    rw [hm, hm] at e
    exact h.table.mac q hq r hr e
  · intro q hq
    by_cases hqp : q = p
    · subst hqp
      rw [StaPriv.modSta_pool]
      exact hmfp hq
    · rw [StaPriv.modSta_pool_ne _ _ _ hqp]
      exact h.table.mfp q hq
  · intro q hq
    by_cases hqp : q = p
    · subst hqp
      rw [StaPriv.modSta_pool]
      exact haid hq
    · rw [StaPriv.modSta_pool_ne _ _ _ hqp]
      exact h.aid q hq
  · intro m hmem q hq
    rw [hm]
    exact h.pend m hmem q hq

theorem unlinkAsoc (h : ListsOk P s) (p : Nat) :
    ListsOk P { s with asocList := s.asocList.unlink p } := by
  refine ⟨⟨h.table.slots, h.table.key, h.table.mac, h.table.mfp⟩, h.auth,
    h.asoc.unlink h.table.length_le, ?_, ?_, h.key, ?_⟩
  · intro q hq hq'
    exact h.disjoint q hq (StaList.mem_unlink.mp hq').1
  · intro q hq
    exact h.aid q (StaList.mem_unlink.mp hq).1
  · intro m hm q hq
    exact h.pend m hm q (StaList.mem_unlink.mp hq).1

theorem linkAuth (h : ListsOk P s) (hp : p ∈ s.table) (hn : p ∉ s.asocList.nodes) :
    ListsOk P { s with authList := s.authList.link p } := by
  refine ⟨⟨h.table.slots, h.table.key, h.table.mac, h.table.mfp⟩, h.auth.link h.table.length_le hp,
    h.asoc, ?_, h.aid, h.key, h.pend⟩
  intro q hq
  rcases StaList.mem_link.mp hq with hq | rfl
  · exact h.disjoint q hq
  · exact hn

theorem unlinkAuth (h : ListsOk P s) (p : Nat) :
    ListsOk P { s with authList := s.authList.unlink p } := by
  refine ⟨⟨h.table.slots, h.table.key, h.table.mac, h.table.mfp⟩, h.auth.unlink h.table.length_le,
    h.asoc, ?_, h.aid, h.key, h.pend⟩
  intro q hq
  exact h.disjoint q (StaList.mem_unlink.mp hq).1

theorem linkAsoc (h : ListsOk P s) (hp : p ∈ s.table) (hn : p ∉ s.authList.nodes)
    (haid : (s.pool p).aid ≠ 0) (hP : (s.pool p).macAddr ∉ P) :
    ListsOk P { s with asocList := s.asocList.link p } := by
  refine ⟨⟨h.table.slots, h.table.key, h.table.mac, h.table.mfp⟩, h.auth,
    h.asoc.link h.table.length_le hp, ?_, ?_, h.key, ?_⟩
  · intro q hq hq'
    rcases StaList.mem_link.mp hq' with hq' | rfl
    · exact h.disjoint q hq hq'
    · exact hn hq
  · intro q hq
    rcases StaList.mem_link.mp hq with hq | rfl
    · exact h.aid q hq
    · exact haid
  · intro m hm q hq e
    rcases StaList.mem_link.mp hq with hq | rfl
    · exact h.pend m hm q hq e
    · exact hP (e ▸ hm)

theorem alloc {addr : Mac} {s' : StaPriv} (h : ListsOk P s) (hk : staKey addr = addr)
    (hnone : s.rtwGetStainfo addr = none) (ha : s.rtwAllocStainfo addr = some (p, s')) :
    ListsOk P s' ∧ p ∈ s'.table ∧ p ∉ s'.asocList.nodes ∧ s'.pool p = { macAddr := addr } := by
  unfold StaPriv.rtwAllocStainfo at ha
  split at ha
  · cases ha
  rename_i q rest hq
  obtain ⟨rfl, rfl⟩ := Prod.mk.inj (Option.some.inj ha)
  have hnot := h.table.free_not_mem hq
  have hfresh : ∀ r ∈ s.table, (s.pool r).macAddr ≠ addr := by
    intro r hr
    have := StaPriv.rtwGetStainfo_none hnone hr
    rwa [hk] at this
  have hold : ∀ r ∈ s.asocList.nodes,
      Function.update s.pool q { macAddr := addr } r = s.pool r := by
    intro r hr
    have hne : r ≠ q := fun e => hnot (e ▸ h.asoc.mem r hr)
    exact Function.update_of_ne hne _ _
  have hsub : ∀ {l : StaList}, l.Ok s.table → l.Ok (s.table ++ [q]) :=
    fun hl => ⟨hl.nodup, fun r hr => List.mem_append_left _ (hl.mem r hr), hl.cnt⟩
  refine ⟨⟨h.table.alloc hq hk hfresh, hsub h.auth, hsub h.asoc, h.disjoint, ?_, h.key, ?_⟩, ?_, ?_,
    Function.update_self ..⟩
  · intro r hr
    show (Function.update s.pool q _ r).aid ≠ 0
    rw [hold r hr]
    exact h.aid r hr
  · intro m hm r hr
    show (Function.update s.pool q _ r).macAddr ≠ m
    rw [hold r hr]
    exact h.pend m hm r hr
  · exact List.mem_append_right _ (List.mem_singleton_self q)
  · exact fun hq' => hnot (h.asoc.mem q hq')

/-- what a free does to the table and to the other stations -/
theorem rtwFreeStainfo_spec (s : StaPriv) (p : Nat) :
    (s.rtwFreeStainfo p).table = s.table.filter (· ≠ p)
      ∧ (s.rtwFreeStainfo p).freeStaQueue = s.freeStaQueue ++ [p]
      ∧ (s.rtwFreeStainfo p).authList = s.authList.unlink p
      ∧ (s.rtwFreeStainfo p).asocList = s.asocList
      ∧ ∀ q ≠ p, (s.rtwFreeStainfo p).pool q = s.pool q := by
  unfold StaPriv.rtwFreeStainfo StaPriv.freeAid
  dsimp only
  split
  · refine ⟨rfl, rfl, rfl, rfl, fun q hq => ?_⟩
    simp only [StaPriv.modSta_pool_ne _ _ _ hq]
  · refine ⟨rfl, rfl, rfl, rfl, fun q hq => ?_⟩
    simp only [StaPriv.modSta_pool_ne _ _ _ hq]

/-- **A station outside `asoc_list` can be freed.** -/
theorem free (h : ListsOk P s) (hp : p ∈ s.table) (hn : p ∉ s.asocList.nodes) :
    ListsOk P (s.rtwFreeStainfo p) := by
  obtain ⟨ht, hf, ha, hc, hpool⟩ := rtwFreeStainfo_spec s p
  have hmem : ∀ q ∈ (s.rtwFreeStainfo p).table, q ∈ s.table ∧ q ≠ p := by
    intro q hq
    rw [ht] at hq
    simpa using hq
  have hasoc : ∀ q ∈ s.asocList.nodes, q ≠ p := fun q hq e => hn (e ▸ hq)
  have hnodup := (List.nodup_append.mp h.table.nodup).1
  refine ⟨⟨?_, ?_, ?_, ?_⟩, ?_, ?_, ?_, ?_, h.key, ?_⟩
  · rw [ht, hf]
    have hback : (s.table.filter (· ≠ p) ++ [p]).Perm s.table := by
      rw [filter_ne_eq_erase hnodup]
      exact List.perm_append_comm.trans (List.perm_cons_erase hp).symm
    have hmove : (s.table.filter (· ≠ p) ++ (s.freeStaQueue ++ [p])).Perm
        ((s.table.filter (· ≠ p) ++ [p]) ++ s.freeStaQueue) := by
      rw [List.append_assoc]
      exact List.Perm.append_left _ List.perm_append_comm
    exact (hmove.trans (hback.append_right _)).trans h.table.slots
  · intro q hq
    obtain ⟨hq, hne⟩ := hmem q hq
    rw [hpool q hne]
    exact h.table.key q hq
  · intro q hq r hr
    obtain ⟨hq, hqne⟩ := hmem q hq
    obtain ⟨hr, hrne⟩ := hmem r hr
    rw [hpool q hqne, hpool r hrne]
    exact h.table.mac q hq r hr
  · intro q hq
    obtain ⟨hq, hne⟩ := hmem q hq
    rw [hpool q hne]
    exact h.table.mfp q hq
  · rw [ha, ht]
    have hu := h.auth.unlink (p := p) h.table.length_le
    refine ⟨hu.nodup, fun q hq => ?_, hu.cnt⟩
    obtain ⟨hq, hne⟩ := StaList.mem_unlink.mp hq
    simpa using ⟨h.auth.mem q hq, hne⟩
  · rw [hc, ht]
    refine ⟨h.asoc.nodup, fun q hq => ?_, h.asoc.cnt⟩
    simpa using ⟨h.asoc.mem q hq, hasoc q hq⟩
  · rw [ha, hc]
    intro q hq
    exact h.disjoint q (StaList.mem_unlink.mp hq).1
  · rw [hc]
    intro q hq
    rw [hpool q (hasoc q hq)]
    exact h.aid q hq
  · rw [hc]
    intro m hm q hq
    rw [hpool q (hasoc q hq)]
    exact h.pend m hm q hq

end ListsOk

/-! ## the handlers -/

/-- what the lists know a station by -/
def SameSta (sta sta' : ApSta) : Prop :=
  sta'.macAddr = sta.macAddr ∧ sta'.flags.mfp = sta.flags.mfp ∧ sta'.aid = sta.aid

theorem authSeqCheck_sameSta {mode : AuthAlgrthm} {assocTo : Nat} {sta sta' : ApSta} {alg seq : Nat}
    {f : RecvFrame} (h : authSeqCheck mode assocTo sta alg seq f = .ok sta') : SameSta sta sta' := by
  have hdone : ∀ st, SameSta sta (sta.authDone assocTo st) := by
    intro st
    unfold ApSta.authDone
    split <;> exact ⟨rfl, rfl, rfl⟩
  unfold authSeqCheck at h
  split at h
  · cases h
  split at h
  · split at h
    · obtain rfl := Except.ok.inj h
      exact hdone _
    · cases h
  split at h
  · obtain rfl := Except.ok.inj h
    exact ⟨rfl, rfl, rfl⟩
  split at h
  · split at h
    · cases h
    · split at h
      · cases h
      split at h
      · obtain rfl := Except.ok.inj h
        exact hdone _
      · cases h
  · cases h

namespace ListsOk

variable {P : List Mac} {s s' : StaPriv} {p : Nat} {conf : ApConf}

theorem sameSta {g : ApSta → ApSta} (h : ListsOk P s) (hp : p ∈ s.table)
    (hg : SameSta (s.pool p) (g (s.pool p))) : ListsOk P (s.modSta p g) := by
  obtain ⟨hmac, hmfp, haid⟩ := hg
  apply h.modSta hmac
  · intro _
    rw [hmfp]
    exact h.table.mfp p hp
  · intro hasoc
    rw [haid]
    exact h.aid p hasoc

theorem not_isProtected (h : ListsOk P s) (hp : p ∈ s.table) : (s.pool p).isProtected = false := by
  rw [ApSta.isProtected, h.table.mfp p hp, Bool.and_false]

/-- a station that authenticates is in the table and not associated -/
theorem authFind {sa : Mac} (h : ListsOk P s) (hsa : staKey sa = sa)
    (hf : authFind s sa = some (p, s')) : ListsOk P s' ∧ p ∈ s'.table ∧ p ∉ s'.asocList.nodes := by
  unfold Rtl8192eu.authFind at hf
  split at hf
  · rename_i q hq
    have hmem := (StaPriv.rtwGetStainfo_some hq).1
    rw [h.not_isProtected hmem, if_neg Bool.false_ne_true] at hf
    obtain ⟨rfl, rfl⟩ := Prod.mk.inj (Option.some.inj hf)
    exact ⟨h.unlinkAsoc q, hmem, fun hq' => (StaList.mem_unlink.mp hq').2 rfl⟩
  · rename_i hnone
    obtain ⟨⟨q, t⟩, ha, he⟩ := Option.map_eq_some_iff.mp hf
    obtain ⟨rfl, rfl⟩ := Prod.mk.inj he
    obtain ⟨hok, hmem, hnot, -⟩ := h.alloc hsa hnone ha
    exact ⟨hok.sameSta hmem ⟨rfl, rfl, rfl⟩, hmem, hnot⟩

theorem authList (h : ListsOk P s) (hp : p ∈ s.table) (hn : p ∉ s.asocList.nodes) :
    ListsOk P (authList s p) ∧ p ∈ (Rtl8192eu.authList s p).table
      ∧ p ∉ (Rtl8192eu.authList s p).asocList.nodes := by
  unfold Rtl8192eu.authList
  rw [h.not_isProtected hp, if_neg Bool.false_ne_true]
  refine ⟨(h.linkAuth hp hn).sameSta hp ?_, hp, hn⟩
  split <;> exact ⟨rfl, rfl, rfl⟩

theorem authSta {sa : Mac} {w : AuthWords} (h : ListsOk P s) (hp : p ∈ s.table)
    (hn : p ∉ s.asocList.nodes) : ListsOk P (authSta conf s sa p w).1 := by
  unfold Rtl8192eu.authSta
  split
  · dsimp only
    exact h.sameSta hp ⟨rfl, rfl, rfl⟩
  · split
    · exact h.free hp hn
    · rename_i sta hok
      obtain ⟨hmac, hmfp, haid⟩ := authSeqCheck_sameSta hok
      exact h.sameSta (g := fun _ => sta.authNext w.seq) hp ⟨hmac, hmfp, haid⟩

theorem onAuth {o : ApOracle} {f : RecvFrame} (h : ListsOk P s) :
    ListsOk P (onAuth conf o s f).1 := by
  unfold Rtl8192eu.onAuth
  dsimp only
  split
  · exact h
  rename_i hskip
  have hkey : staKey (getAddr2 f) = getAddr2 f := by
    apply invalidMac_key
    revert hskip
    cases invalidMac (getAddr2 f) <;> simp
  split
  · exact h
  split
  · exact h
  · rename_i p s' hfind
    obtain ⟨hok, hmem, hnot⟩ := h.authFind hkey hfind
    obtain ⟨hok, hmem, hnot⟩ := hok.authList hmem hnot
    exact hok.authSta hmem hnot

end ListsOk

/-! ## association -/

theorem StaPriv.aidSearch_ne_zero {s : StaPriv} {n i aid : Nat} (h : s.aidSearch n i = some aid) :
    aid ≠ 0 := by
  induction n generalizing i with
  | zero => cases h
  | succ n ih =>
    unfold StaPriv.aidSearch at h
    dsimp only at h
    split at h
    · split at h
      · cases h
      · obtain rfl := Option.some.inj h
        exact Nat.succ_ne_zero _
    · split at h
      · cases h
      · exact ih h

/-- the request passes all the tests of `OnAssocReq` -/
def assocPasses (conf : ApConf) (s : StaPriv) (f : RecvFrame) : Bool :=
  match s.rtwGetStainfo (getAddr2 f) with
  | none => false
  | some p =>
    match assocStart (s.pool p).state with
    | none => false
    | some st => (assocParse conf { s.pool p with state := st } f).1 = 0

namespace ListsOk

variable {P : List Mac} {s s' : StaPriv} {p : Nat} {conf : ApConf}

theorem assocParse_sameSta {sta sta' : ApSta} {st : StaState} {status : Nat} {f : RecvFrame}
    (hoff : conf.mfpOpt = 0) (hmfp : sta.flags.mfp = false)
    (h : assocParse conf { sta with state := st } f = (status, sta')) : SameSta sta sta' := by
  obtain ⟨hreq, -⟩ := assocParse_spec conf { sta with state := st } f
  rw [h] at hreq
  obtain ⟨flags, sec, cap, rates, rfl, -, hon⟩ := hreq
  refine ⟨rfl, ?_, rfl⟩
  cases hf : flags.mfp with
  | false => exact hmfp.symm
  | true => exact (hon (by omega) hf).symm

theorem assocAid (h : ListsOk P s) (hp : p ∈ s.table) (ha : assocAid s p = some s') :
    ListsOk P s' ∧ p ∈ s'.table ∧ (s'.pool p).aid ≠ 0
      ∧ (s'.pool p).macAddr = (s.pool p).macAddr := by
  unfold Rtl8192eu.assocAid at ha
  split at ha
  · rename_i hpos
    obtain rfl := Option.some.inj ha
    exact ⟨h, hp, Nat.pos_iff_ne_zero.mp hpos, rfl⟩
  · obtain ⟨aid, hsearch, rfl⟩ := Option.map_eq_some_iff.mp ha
    have haid := StaPriv.aidSearch_ne_zero hsearch
    have k := h.modSta (p := p) (g := fun sta => { sta with aid := aid }) rfl
      (fun _ => h.table.mfp p hp) (fun _ => haid)
    refine ⟨⟨⟨k.table.slots, k.table.key, k.table.mac, k.table.mfp⟩, k.auth, k.asoc, k.disjoint,
      k.aid, k.key, k.pend⟩, hp, ?_, ?_⟩
    · simp only [StaPriv.modSta_pool]
      exact haid
    · simp only [StaPriv.modSta_pool]

theorem assocLists (h : ListsOk P s) (hp : p ∈ s.table) (haid : (s.pool p).aid ≠ 0)
    (hP : (s.pool p).macAddr ∉ P) : ListsOk P (assocLists s p) := by
  unfold Rtl8192eu.assocLists
  rw [h.not_isProtected hp, if_neg Bool.false_ne_true]
  have h1 := h.unlinkAuth p
  dsimp only
  split
  · exact h1
  · have h2 := h1.sameSta (g := fun sta => { sta with expireTo := s.expireTo }) hp ⟨rfl, rfl, rfl⟩
    apply h2.linkAsoc hp
    · exact fun hq => (StaList.mem_unlink.mp hq).2 rfl
    · rw [StaPriv.modSta_pool]
      exact haid
    · rw [StaPriv.modSta_pool]
      exact hP

theorem onAssocReq {f : RecvFrame} (h : ListsOk P s) (hoff : conf.mfpOpt = 0)
    (hP : assocPasses conf s f = true → getAddr2 f ∉ P) : ListsOk P (onAssocReq conf s f).1 := by
  unfold Rtl8192eu.onAssocReq
  dsimp only
  split
  · exact h
  rename_i hvalid
  split
  · exact h
  split
  · exact h
  rename_i p hp
  obtain ⟨hmem, hmac⟩ := StaPriv.rtwGetStainfo_some hp
  rw [invalidMac_key (Bool.eq_false_of_not_eq_true hvalid)] at hmac
  split
  · exact h
  split
  · exact h
  rename_i st hst
  split
  · rename_i sta hparse
    obtain ⟨smac, smfp, said⟩ := assocParse_sameSta hoff (h.table.mfp p hmem) hparse
    have h1 := h.sameSta (g := fun _ => sta) hmem ⟨smac, smfp, said⟩
    split
    · exact h1
    · rename_i s' haid
      obtain ⟨h2, hmem', haid', hmac'⟩ := h1.assocAid hmem haid
      have hpass : assocPasses conf s f = true := by simp [assocPasses, hp, hst, hparse]
      have hnot : (s'.pool p).macAddr ∉ P := by
        rw [hmac', StaPriv.modSta_pool, smac, hmac]
        exact hP hpass
      have h3 := h2.sameSta (g := fun sta =>
        { sta with state := { sta.state with assocState := false, assocSuccess := true } })
        hmem' ⟨rfl, rfl, rfl⟩
      apply h3.assocLists hmem'
      · rw [StaPriv.modSta_pool]
        exact haid'
      · rw [StaPriv.modSta_pool]
        exact hnot
  · rename_i status sta hne hparse
    obtain ⟨smac, smfp, said⟩ := assocParse_sameSta hoff (h.table.mfp p hmem) hparse
    exact h.sameSta (g := fun _ => sta) hmem ⟨smac, smfp, said⟩

/-! ## leaving -/

/-- the station is out of `asoc_list` when its deletion event is queued -/
theorem apLeave {f : RecvFrame} (h : ListsOk P s) :
    ListsOk (P ++ (apLeave conf s f).2.toList) (Rtl8192eu.apLeave conf s f).1 := by
  have hnone : ListsOk (P ++ (none : Option Mac).toList) s := by simpa using h
  unfold Rtl8192eu.apLeave
  split
  · exact hnone
  split
  · exact hnone
  rename_i p hp
  split
  · obtain ⟨hmem, -⟩ := StaPriv.rtwGetStainfo_some hp
    have h1 := h.sameSta (g := fun sta => { sta with state := { sta.state with asoc := false } })
      hmem ⟨rfl, rfl, rfl⟩
    have h2 := h1.unlinkAsoc p
    have hm : ∀ q, ((s.modSta p fun sta =>
        { sta with state := { sta.state with asoc := false } }).pool q).macAddr = (s.pool q).macAddr :=
      StaPriv.modSta_macAddr rfl
    refine ⟨h2.table, h2.auth, h2.asoc, h2.disjoint, h2.aid, ?_, ?_⟩
    · intro m hmP
      rcases List.mem_append.mp hmP with hmP | hmP
      · exact h.key m hmP
      · rw [List.mem_singleton.mp hmP]
        exact h.table.key p hmem
    · intro m hmP q hq
      rcases List.mem_append.mp hmP with hmP | hmP
      · exact h2.pend m hmP q hq
      · -- no other station has the address
        rw [List.mem_singleton.mp hmP]
        obtain ⟨hq, hne⟩ := StaList.mem_unlink.mp hq
        intro e
        rw [hm] at e
        exact hne (h.table.mac q (h.asoc.mem q hq) p hmem e)
  · exact hnone

theorem stadel {addr : Mac} (h : ListsOk P s) (hP : addr ∈ P) :
    ListsOk P (rtwStadelEventCallback s addr)
      ∧ (s.rtwGetStainfo addr).toList.filter (· ∈ s.asocList.nodes) = [] := by
  unfold rtwStadelEventCallback
  cases hp : s.rtwGetStainfo addr with
  | none => exact ⟨h, rfl⟩
  | some p =>
    obtain ⟨hmem, hmac⟩ := StaPriv.rtwGetStainfo_some hp
    rw [h.key addr hP] at hmac
    have hnot : p ∉ s.asocList.nodes := fun hq => h.pend addr hP p hq hmac
    exact ⟨h.free hmem hnot, by simpa using hnot⟩

theorem weaken {P' : List Mac} (h : ListsOk P s) (hsub : ∀ m ∈ P', m ∈ P) : ListsOk P' s :=
  ⟨h.table, h.auth, h.asoc, h.disjoint, h.aid, fun m hm => h.key m (hsub m hm),
    fun m hm => h.pend m (hsub m hm)⟩

/-! ## expiry -/

theorem free_all (l : List Nat) (h : ListsOk P s) (hn : l.Nodup)
    (hl : ∀ p ∈ l, p ∈ s.authList.nodes) : ListsOk P (l.foldl StaPriv.rtwFreeStainfo s) := by
  induction l generalizing s with
  | nil => exact h
  | cons p l ih =>
    obtain ⟨hnot, hn⟩ := List.nodup_cons.mp hn
    have hp := hl p List.mem_cons_self
    apply ih (h.free (h.auth.mem p hp) (h.disjoint p hp)) hn
    intro q hq
    obtain ⟨-, -, ha, -⟩ := rtwFreeStainfo_spec s p
    rw [ha]
    exact StaList.mem_unlink.mpr ⟨hl q (List.mem_cons_of_mem p hq), fun e => hnot (e ▸ hq)⟩

theorem authExpire (h : ListsOk P s) : ListsOk P (authExpire s) := by
  have hpool : ∀ p, SameSta (s.pool p) (if p ∈ s.authList.nodes then
      { s.pool p with expireTo := (s.pool p).expireTo - 1 } else s.pool p) := by
    intro p
    split <;> exact ⟨rfl, rfl, rfl⟩
  unfold Rtl8192eu.authExpire
  apply free_all
  case hn => exact h.auth.nodup.filter _
  case hl => exact fun p hp => List.mem_of_mem_filter hp
  refine ⟨⟨h.table.slots, ?_, ?_, ?_⟩, h.auth, h.asoc, h.disjoint, ?_, h.key, ?_⟩
  · intro p hp
    dsimp only
    rw [(hpool p).1]
    exact h.table.key p hp
  · intro p hp q hq
    dsimp only
    rw [(hpool p).1, (hpool q).1]
    exact h.table.mac p hp q hq
  · intro p hp
    dsimp only
    rw [(hpool p).2.1]
    exact h.table.mfp p hp
  · intro p hp
    dsimp only
    rw [(hpool p).2.2]
    exact h.aid p hp
  · intro m hm p hp
    dsimp only
    rw [(hpool p).1]
    exact h.pend m hm p hp

end ListsOk

/-! ## runs -/

namespace ApRun

variable {conf : ApConf}

/-- no station is let in while the deletion event of an earlier association is queued -/
def Settled (conf : ApConf) (r : ApRun) : ApEvent → Prop
  | .assocReq f => assocPasses conf r.priv f = true → getAddr2 f ∉ r.pending
  | _ => True

instance decidableSettled (conf : ApConf) (r : ApRun) : ∀ e, Decidable (r.Settled conf e)
  | .assocReq f => inferInstanceAs (Decidable (assocPasses conf r.priv f = true → _))
  | .auth _ _ => isTrue trivial
  | .deauth _ => isTrue trivial
  | .disassoc _ => isTrue trivial
  | .stadel _ => isTrue trivial
  | .authExpire => isTrue trivial

structure ListsInv (r : ApRun) : Prop where
  lists : ListsOk r.pending r.priv
  freed : r.freedAsoc = []

theorem listsInv_step (hoff : conf.mfpOpt = 0) (r : ApRun) (e : ApEvent) (hI : r.ListsInv)
    (hC : r.Settled conf e) : (r.step conf e).ListsInv := by
  cases e with
  | auth o f => exact ⟨hI.lists.onAuth, hI.freed⟩
  | assocReq f => exact ⟨hI.lists.onAssocReq hoff hC, hI.freed⟩
  | deauth f => exact ⟨hI.lists.apLeave, hI.freed⟩
  | disassoc f => exact ⟨hI.lists.apLeave, hI.freed⟩
  | stadel i =>
    show (r.stadel i).ListsInv
    unfold ApRun.stadel
    split
    · exact hI
    · rename_i addr haddr
      obtain ⟨h1, h2⟩ := hI.lists.stadel (List.mem_of_getElem? haddr)
      refine ⟨h1.weaken fun m hm => List.mem_of_mem_eraseIdx hm, ?_⟩
      dsimp only
      rw [hI.freed, h2]
      rfl
  | authExpire => exact ⟨hI.lists.authExpire, hI.freed⟩

end ApRun

/-- **The lists hold only live stations**, with protection off, in every run of frames, deletion
events and expiry in which no station is let in while a deletion event of its address is queued;
and no deletion event frees an associated station. -/
theorem ap_lists_live (conf : ApConf) (s : StaPriv) (es : List ApEvent) (hoff : conf.mfpOpt = 0)
    (hs : s.TableOk) (hauth : s.authList = {}) (hasoc : s.asocList = {})
    (hC : Along (ApRun.step conf) (ApRun.Settled conf) { priv := s } es) :
    let r := run (ApRun.step conf) { priv := s } es
    r.priv.Live ∧ r.freedAsoc = [] := by
  have hlist : StaList.Ok {} s.table := ⟨List.nodup_nil, by simp, rfl⟩
  have h0 : ApRun.ListsInv { priv := s } := by
    refine ⟨⟨hs, hauth ▸ hlist, hasoc ▸ hlist, ?_, ?_, by simp, by simp⟩, rfl⟩
    · simp [hauth]
    · simp [hasoc]
  have h := run_inv (ApRun.listsInv_step hoff) _ es h0 hC
  exact ⟨h.lists.live, h.freed⟩

/-! ## an open access point -/

def openConf : ApConf where
  bssid := [2, 0, 0, 0, 0, 1]
  ssid := [0x61]

/-- a management frame of a station: frame control and body -/
def openMgnt (fc : UInt8) (body : List UInt8) : RecvFrame where
  id := 0
  data := [fc, 0, 0, 0] ++ [2, 0, 0, 0, 0, 1] ++ [2, 0, 0, 0, 0, 7] ++ [2, 0, 0, 0, 0, 1] ++ [0, 0] ++ body
  room := List.replicate 64 0

/-- a station comes in: open authentication, and a request with SSID and one rate -/
def openJoin : List ApEvent :=
  [.auth {} (openMgnt 0xb0 [0, 0, 1, 0, 0, 0]),
    .assocReq (openMgnt 0x00 ([0x01, 4, 0, 0] ++ [0, 1, 0x61] ++ [1, 1, 0x82]))]

def openDeauth : ApEvent := .deauth (openMgnt 0xc0 [3, 0])

theorem init_tableOk : StaPriv.TableOk {} :=
  ⟨List.Perm.refl _, by simp, by simp, by simp⟩

theorem ap_lists_live_rejoin :
    let r := run (ApRun.step openConf) { priv := {} } (openJoin ++ [openDeauth, .stadel 0] ++ openJoin)
    r.priv.asocList.nodes.length = 1 ∧ r.priv.Live :=
  ⟨by decide, (ap_lists_live openConf {} _ rfl init_tableOk rfl rfl (by decide)).1⟩

/-- a station that is back before its deletion event is handled is freed in `asoc_list` -/
theorem ap_lists_stale_stadel :
    ¬ ∀ (conf : ApConf) (s : StaPriv) (es : List ApEvent), conf.mfpOpt = 0 → s.TableOk →
      s.authList = {} → s.asocList = {} →
      let r := run (ApRun.step conf) { priv := s } es
      r.priv.Live ∧ r.freedAsoc = [] := by
  intro h
  have h' := h openConf {} (openJoin ++ [openDeauth] ++ openJoin ++ [.stadel 0]) rfl init_tableOk rfl rfl
  exact absurd h'.2 (by decide)

end Rtl8192eu
