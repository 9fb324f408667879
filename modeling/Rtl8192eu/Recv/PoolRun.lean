import Mathlib.Data.List.Nodup
import Rtl8192eu.Recv.Pool

/-!
# Runs of the receive path keep the pool

What each function of `Pool` does to the frames that are in hand, and from it that every frame is
in exactly one place after every run in which no frame is freed or kept behind its owner's back.

* `posthandleOk`, `mgntOk` ..   the frame that came in is still the one its owner holds;
* `Held.recvFunc`   a received frame ends in one place;
* `pool_run_conserved`   runs of received frames and timeouts.
-/

namespace Rtl8192eu

open Run Ledger

/-! ## defragmentation and port control -/

namespace RecvPriv

variable {s : RecvPriv} {n x : Nat} {hand : List Nat} {f : RecvFrame}

/-- the frames that a call of `recvframe_chk_defrag` leaves in hand -/
def inHand (ret : DefragRet) : List Nat := ret.frame.toList.map RecvFrame.id ++ ret.freed.map RecvFrame.id

theorem Held.chkDefragQueue (h : s.Held n (f.id :: hand)) :
    { s with adapter := (chkDefragQueue s.adapter f).adapter }.Held n
      (inHand (chkDefragQueue s.adapter f) ++ hand) := by
  unfold Rtl8192eu.chkDefragQueue
  split
  · exact h
  split
  · exact h
  split
  · exact h
  rename_i addr sta hsta
  have hs : s.adapter.rtwGetStainfo addr = some sta := defragSta_some hsta
  dsimp only
  split
  · split
    · -- the queue is freed and the first fragment takes its place
      apply h.setDefragQ hs
      show (sta.defragQ.map RecvFrame.id ++ hand ++ [f.id]).Perm (f.id :: hand ++ sta.defragQ.map RecvFrame.id)
      refine (List.perm_append_singleton _ _).trans (List.Perm.cons _ ?_)
      exact List.perm_append_comm
    · apply h.setDefragQ hs
      show (hand ++ (sta.defragQ ++ [{ f with keytrack := sta.keytrack }]).map RecvFrame.id).Perm
        (f.id :: hand ++ sta.defragQ.map RecvFrame.id)
      rw [List.map_append, ← List.append_assoc]
      exact List.perm_append_singleton _ _
  · split
    · -- the queue and the last fragment are freed
      apply h.setDefragQ hs
      show ((sta.defragQ ++ [{ f with keytrack := sta.keytrack }]).map RecvFrame.id ++ hand ++ []).Perm
        (f.id :: hand ++ sta.defragQ.map RecvFrame.id)
      rw [List.append_nil, List.map_append, List.append_assoc]
      exact List.perm_append_comm
    · rename_i r hr
      apply h.setDefragQ hs
      have hids := recvframeDefrag_id hr
      show (r.id :: (sta.defragQ ++ [{ f with keytrack := sta.keytrack }]).tail.map RecvFrame.id ++ hand ++ []).Perm
        (f.id :: hand ++ sta.defragQ.map RecvFrame.id)
      rw [← hids, List.append_nil, List.map_append, List.append_assoc]
      exact List.perm_append_comm

theorem Held.recvframeChkDefrag (h : s.Held n (f.id :: hand)) (micOk : Adapter → RecvFrame → Bool) :
    { s with adapter := (recvframeChkDefrag micOk s.adapter f).adapter }.Held n
      (inHand (recvframeChkDefrag micOk s.adapter f) ++ hand) := by
  have h' := h.chkDefragQueue
  rw [recvframeChkDefrag_adapter]
  refine h'.perm (List.Perm.append_right hand ?_)
  unfold Rtl8192eu.recvframeChkDefrag
  dsimp only
  split
  · exact List.Perm.refl _
  rename_i r hr
  split
  · split
    · -- the frame joins those that are freed
      rw [inHand, inHand, hr]
      show ((Rtl8192eu.chkDefragQueue s.adapter f).freed ++ [r]).map RecvFrame.id |>.Perm
        ([r.id] ++ (Rtl8192eu.chkDefragQueue s.adapter f).freed.map RecvFrame.id)
      rw [List.map_append]
      exact List.perm_append_comm
    · rename_i r' hmic
      rw [inHand, inHand, hr]
      show (r'.id :: _).Perm (r.id :: _)
      rw [recvframeChkmic_id hmic]
  · exact List.Perm.refl _

theorem Held.chkDefrag (h : s.Held n (f.id :: hand)) (o : RxOracle) :
    (s.chkDefrag o f).1.Held n ((s.chkDefrag o f).2.toList.map RecvFrame.id ++ hand) := by
  apply Held.freeAll
  apply (h.recvframeChkDefrag o.micOk).perm
  rw [inHand, ← List.append_assoc]
  exact List.Perm.append_right hand List.perm_append_comm

/-- decryption, defragmentation and port control leave at most one frame in hand -/
theorem Held.recvFuncPort (h : s.Held n (f.id :: hand)) (o : RxOracle) :
    (s.recvFuncPort o f).1.Held n ((s.recvFuncPort o f).2.toList.map RecvFrame.id ++ hand) := by
  unfold RecvPriv.recvFuncPort
  split
  · exact h.free
  rename_i g hg
  have h' : (s.chkDefrag o g).1.Held n ((s.chkDefrag o g).2.toList.map RecvFrame.id ++ hand) := by
    refine Held.chkDefrag ?_ o
    rwa [decryptor_id hg]
  split
  · rename_i s₁ hret
    rw [hret] at h'
    exact h'
  · rename_i s₁ r hret
    rw [hret] at h'
    split
    · exact h'.free
    · rename_i r' hport
      obtain rfl := portctrl_eq hport
      exact h'

end RecvPriv

/-! ## when the frame that came in is still the one in hand -/

namespace RecvPriv

def reorderRejects (s : RecvPriv) (r : RecvFrame) : Bool :=
  match s.reorderCtrl r with
  | none => false
  | some sta => (recvIndicatepktReorder (sta.recvreorderCtrl r.attrib.priority) r).1 = .fail

/-- a frame that was put together from fragments is not rejected by the reordering -/
def posthandleOk (s : RecvPriv) (o : RxOracle) (f : RecvFrame) : Bool :=
  match s.recvFuncPort o f with
  | (_, none) => true
  | (s, some r) => r.id = f.id || !s.reorderRejects r

/-- a management frame decrypts, passes its MIC check, is not a last fragment, and as another
fragment is unicast and has a station -/
def mgntOk (s : RecvPriv) (o : RxOracle) (f : RecvFrame) : Bool :=
  match validateMgmtProtect o s.conf s.adapter f with
  | .drop => true
  | .freed => false
  | .pass f =>
    if f.attrib.mfrag then !isMcast f.attrib.ra && (defragSta s.adapter f).isSome
    else f.attrib.fragNum = 0 && (!f.attrib.privacy || (recvframeChkmic o.micOk s.adapter f).isSome)

def prehandleOk (s : RecvPriv) (o : RxOracle) (f : RecvFrame) : Bool :=
  f.byte 0 &&& 3 ≠ 0 || getFrameType f ≠ .mgt || s.mgntOk o (parseHdr f)

def dequeueOk (o : RxOracle) : Nat → RecvPriv → Bool
  | 0, _ => true
  | n + 1, s =>
    match s.ucSwdec with
    | [] => true
    | f :: l => { s with ucSwdec := l }.posthandleOk o f
        && dequeueOk o n ({ s with ucSwdec := l }.recvFuncPosthandle o f)

def swdecOk (s : RecvPriv) (o : RxOracle) : Bool :=
  !(s.adapter.mode = .station && s.adapter.sec.busetkipkey) || dequeueOk o s.ucSwdec.length s

def queueOk (s : RecvPriv) (o : RxOracle) (f : RecvFrame) : Bool :=
  if s.waitsForKey f then
    if (s.enqueueSwdec f).freeCnt < s.nr / 4 then
      match (s.enqueueSwdec f).ucSwdec with
      | [] => true
      | g :: l => { s.enqueueSwdec f with ucSwdec := l }.posthandleOk o g
    else true
  else s.posthandleOk o f

def recvFuncOk (s : RecvPriv) (o : RxOracle) (f : RecvFrame) : Bool :=
  s.conf.monitor ||
    s.swdecOk o && (s.swdecPending o).prehandleOk o f &&
      match (s.swdecPending o).recvFuncPrehandle o f with
      | (_, none) => true
      | (s, some f) => s.queueOk o f

variable {s : RecvPriv} {n x : Nat} {hand : List Nat} {f : RecvFrame} {o : RxOracle}

theorem reorderCtrl_some {r : RecvFrame} {sta : StaInfo} (h : s.reorderCtrl r = some sta) :
    s.adapter.rtwGetStainfo r.attrib.ta = some sta := by
  unfold reorderCtrl at h
  split at h
  · exact h
  · cases h

theorem Held.recvFuncIndicate {orig r : RecvFrame} (h : s.Held n (r.id :: hand))
    (hok : r.id = orig.id ∨ s.reorderRejects r = false) :
    (s.recvFuncIndicate orig r).Held n hand := by
  unfold RecvPriv.recvFuncIndicate
  unfold reorderRejects at hok
  split
  · exact h.free
  rename_i sta hsta
  rw [hsta] at hok
  dsimp only at hok
  have hs := reorderCtrl_some hsta
  have hperm := recvIndicatepktReorder_perm (sta.recvreorderCtrl r.attrib.priority) r
  split
  · -- `orig` is freed, so it has to be the frame in hand
    rename_i c up hret
    rw [hret] at hok hperm
    obtain hid | hbad := hok
    · rw [← hid]
      refine Held.free (h.setCtrl hs ?_)
      rw [show c.pending = _ from hperm]
    · exact absurd hbad (by simp)
  · rename_i c up hret
    rw [hret] at hperm
    refine Held.freeAll (h.setCtrl hs ?_)
    have hids : (up.map RecvFrame.id ++ c.pending.map RecvFrame.id).Perm
        (r.id :: (sta.recvreorderCtrl r.attrib.priority).pending.map RecvFrame.id) := by
      rw [← List.map_append, ← List.map_cons]
      exact List.Perm.map _ hperm
    calc (up.map RecvFrame.id ++ hand ++ c.pending.map RecvFrame.id).Perm
          (hand ++ (up.map RecvFrame.id ++ c.pending.map RecvFrame.id)) := by
            rw [← List.append_assoc]
            exact List.Perm.append_right _ List.perm_append_comm
      List.Perm _ (hand ++ (r.id :: _)) := List.Perm.append_left _ hids
      List.Perm _ (r.id :: hand ++ _) := List.perm_middle
  · rename_i c up hret
    rw [hret] at hperm
    refine Held.free (h.setCtrl hs ?_)
    rw [show c.pending = _ from hperm]

theorem Held.recvFuncPosthandle (h : s.Held n (f.id :: hand)) (hok : s.posthandleOk o f = true) :
    (s.recvFuncPosthandle o f).Held n hand := by
  have h' := h.recvFuncPort o
  unfold RecvPriv.recvFuncPosthandle
  unfold posthandleOk at hok
  split
  · rename_i s₁ hport
    rw [hport] at h'
    exact h'
  · rename_i s₁ r hport
    rw [hport] at h' hok
    apply Held.recvFuncIndicate h'
    simpa using hok

theorem Held.takeSwdec {l : List RecvFrame} (h : s.Held n hand) (hq : s.ucSwdec = f :: l) :
    { s with ucSwdec := l }.Held n (f.id :: hand) := by
  refine h.exchange .swdec ?_ ?_ rfl rfl rfl
  · show (f.id :: hand ++ l.map RecvFrame.id).Perm (hand ++ s.ucSwdec.map RecvFrame.id)
    rw [hq]
    exact List.perm_middle.symm
  · intro p hp
    cases p with
    | swdec => exact absurd rfl hp
    | free => rfl
    | defrag key => rfl
    | reorder key tid => rfl

theorem Held.dequeueSwdec {k : Nat} (h : s.Held n hand) (hok : dequeueOk o k s = true) :
    (RecvPriv.dequeueSwdec o k s).Held n hand := by
  induction k generalizing s with
  | zero => exact h
  | succ k ih =>
    unfold RecvPriv.dequeueSwdec
    unfold dequeueOk at hok
    split
    · exact h
    · rename_i f l hq
      rw [hq] at hok
      dsimp only at hok
      rw [Bool.and_eq_true] at hok
      exact ih (Held.recvFuncPosthandle (h.takeSwdec hq) hok.1) hok.2

theorem Held.swdecPending (h : s.Held n hand) (hok : s.swdecOk o = true) :
    (s.swdecPending o).Held n hand := by
  unfold RecvPriv.swdecPending
  unfold swdecOk at hok
  split
  · rename_i hkey
    rw [hkey] at hok
    exact h.dequeueSwdec hok
  · exact h

theorem Held.enqueueSwdec (h : s.Held n (f.id :: hand)) : (s.enqueueSwdec f).Held n hand := by
  have hnot := h.accounted.not_mem_place List.mem_cons_self
  have hids : ∀ p, (s.listDelete f.id).ids p = s.ids p := by
    intro p
    rw [ids_listDelete]
    refine List.filter_eq_self.mpr fun y hy => decide_eq_true ?_
    rintro rfl
    exact hnot p hy
  refine h.exchange .swdec ?_ ?_ (hids .free) rfl rfl
  · show (hand ++ (unlink f.id s.ucSwdec ++ [f]).map RecvFrame.id).Perm (f.id :: hand ++ s.ids .swdec)
    rw [List.map_append, show (unlink f.id s.ucSwdec).map RecvFrame.id = s.ids .swdec from hids .swdec,
      ← List.append_assoc]
    exact List.perm_append_singleton _ _
  · intro p hp
    rw [← hids p]
    cases p with
    | swdec => exact absurd rfl hp
    | free => rfl
    | defrag key => rfl
    | reorder key tid => rfl

theorem Held.recvFuncQueue (h : s.Held n (f.id :: hand)) (hok : s.queueOk o f = true) :
    (s.recvFuncQueue o f).Held n hand := by
  unfold RecvPriv.recvFuncQueue
  unfold queueOk at hok
  split
  · rename_i hwait
    rw [if_pos hwait] at hok
    dsimp only
    split
    · rename_i hshort
      rw [if_pos (show (s.enqueueSwdec f).freeCnt < s.nr / 4 from hshort)] at hok
      split
      · exact h.enqueueSwdec
      · rename_i g l hq
        rw [hq] at hok
        exact Held.recvFuncPosthandle (h.enqueueSwdec.takeSwdec hq) hok
    · exact h.enqueueSwdec
  · rename_i hwait
    rw [if_neg hwait] at hok
    exact h.recvFuncPosthandle hok

/-! ## management, control and data frames before `recv_func_posthandle` -/

def SameQueues (a a' : Adapter) : Prop :=
  ∀ key, (a'.stations key).map (fun sta => (sta.defragQ, fun t => (sta.recvreorderCtrl t).pending))
    = (a.stations key).map fun sta => (sta.defragQ, fun t => (sta.recvreorderCtrl t).pending)

theorem SameQueues.setSta {a : Adapter} {addr : Mac} {sta sta' : StaInfo}
    (hs : a.rtwGetStainfo addr = some sta) (hd : sta'.defragQ = sta.defragQ)
    (hr : ∀ t, (sta'.recvreorderCtrl t).pending = (sta.recvreorderCtrl t).pending) :
    SameQueues a (a.setSta addr sta') := by
  intro key
  rw [stations_setSta]
  split
  · rename_i hkey
    rw [hkey, show a.stations (staKey addr) = some sta from hs, Option.map_some, Option.map_some, hd,
      funext hr]
  · rfl

theorem Held.sameQueues {a : Adapter} (h : s.Held n hand) (ha : SameQueues s.adapter a) :
    { s with adapter := a }.Held n hand := by
  refine ⟨h.accounted.congr ?_, h.cnt, h.once⟩
  intro p
  cases p with
  | free => rfl
  | swdec => rfl
  | defrag key =>
    have hkey := congrArg (Option.map fun q => q.1.map RecvFrame.id) (ha key)
    simp only [Option.map_map] at hkey
    exact congrArg (Option.getD · []) hkey
  | reorder key tid =>
    have hkey := congrArg (Option.map fun q => (q.2 tid).map RecvFrame.id) (ha key)
    simp only [Option.map_map] at hkey
    exact congrArg (Option.getD · []) hkey

theorem validateRecvDataFrame_sameQueues (a : Adapter) (f : RecvFrame) :
    SameQueues a (validateRecvDataFrame a f).2.1 := by
  obtain h | ⟨sta, sta', v, hs, ⟨_, _, _, _, _, rfl⟩, h⟩ := validateRecvDataFrame_adapter a f
  · rw [h]
    exact fun _ => rfl
  · rw [h]
    exact SameQueues.setSta (a := { a with sec := { a.sec with ivSeq := v } }) hs rfl fun _ => rfl

theorem validateRecvCtrlFrame_sameQueues (a : Adapter) (f : RecvFrame) :
    SameQueues a (validateRecvCtrlFrame a f) := by
  unfold validateRecvCtrlFrame
  split
  · exact fun _ => rfl
  split
  · unfold rtwProcessBarFrame
    split
    · exact fun _ => rfl
    · rename_i sta hs
      refine SameQueues.setSta hs rfl ?_
      intro t
      simp only [StaInfo.setCtrl, Function.update_apply]
      split
      · rename_i ht
        rw [ht]
      · rfl
  · exact fun _ => rfl

theorem mem_freeAll {l : List RecvFrame} (h : x ∈ (s.freeAll l).freeQueue) :
    x ∈ s.freeQueue ∨ x ∈ l.map RecvFrame.id := by
  induction l generalizing s with
  | nil => exact Or.inl h
  | cons f l ih =>
    obtain hq | hl := ih h
    · obtain hq | hq := List.mem_append.mp hq
      · exact Or.inl (List.mem_of_mem_filter hq)
      · exact Or.inr (List.mem_cons.mpr (Or.inl (List.mem_singleton.mp hq)))
    · exact Or.inr (List.mem_cons_of_mem _ hl)

theorem recvframeChkDefrag_mfrag {a : Adapter} {addr : Mac} {sta : StaInfo}
    (hm : f.attrib.mfrag = true) (hra : isMcast f.attrib.ra = false)
    (hs : defragSta a f = some (addr, sta)) (micOk : Adapter → RecvFrame → Bool) :
    (recvframeChkDefrag micOk a f).frame = none
      ∧ ∀ g ∈ (recvframeChkDefrag micOk a f).freed, g ∈ sta.defragQ := by
  have hq : (Rtl8192eu.chkDefragQueue a f).frame = none
      ∧ ∀ g ∈ (Rtl8192eu.chkDefragQueue a f).freed, g ∈ sta.defragQ := by
    simp only [Rtl8192eu.chkDefragQueue, hm, hra, hs, Bool.not_true, Bool.false_and,
      Bool.false_eq_true, if_false, if_true]
    split
    · exact ⟨rfl, fun g hg => hg⟩
    · exact ⟨rfl, fun g hg => absurd hg List.not_mem_nil⟩
  unfold Rtl8192eu.recvframeChkDefrag
  dsimp only
  rw [hq.1]
  exact hq

theorem chkDefrag_whole (hm : f.attrib.mfrag = false) (hn : f.attrib.fragNum = 0)
    (hmic : f.attrib.privacy = false ∨ (recvframeChkmic o.micOk s.adapter f).isSome = true) :
    (s.chkDefrag o f).1 = s := by
  have hq : Rtl8192eu.chkDefragQueue s.adapter f = ⟨some f, s.adapter, []⟩ := by
    simp [Rtl8192eu.chkDefragQueue, hm, hn]
  unfold RecvPriv.chkDefrag Rtl8192eu.recvframeChkDefrag
  rw [hq]
  dsimp only
  obtain hp | hr := hmic
  · rw [hp]
    rfl
  · obtain ⟨r, hr⟩ := Option.isSome_iff_exists.mp hr
    rw [hr]
    split <;> rfl

/-- **A management frame is freed by `recv_func_prehandle`** and by no one before. -/
theorem Held.validateRecvMgntFrame (h : s.Held n (f.id :: hand)) (hok : s.mgntOk o f = true) :
    ((s.validateRecvMgntFrame o f).rtwFreeRecvframe f.id).Held n hand := by
  unfold RecvPriv.validateRecvMgntFrame
  unfold mgntOk at hok
  split
  · exact h.free
  · rename_i hp
    rw [hp] at hok
    cases hok
  rename_i g hp
  rw [hp] at hok
  dsimp only at hok
  have hid := validateMgmtProtect_id hp
  rw [← hid] at h ⊢
  split at hok
  · -- the fragment waits in the queue of its station, and is taken out of it again
    rename_i hm
    rw [Bool.and_eq_true, Bool.not_eq_true'] at hok
    obtain ⟨⟨addr, sta⟩, hs⟩ := Option.isSome_iff_exists.mp hok.2
    obtain ⟨hframe, hfreed⟩ := recvframeChkDefrag_mfrag hm hok.1 hs o.micOk
    have hnot := h.accounted.not_mem_place List.mem_cons_self
    have h' := h.chkDefrag o
    rw [show (s.chkDefrag o g).2 = none from hframe] at h'
    have hlt : g.id < n := h.accounted.mem List.mem_cons_self
    apply Held.free_linked h' hlt h.accounted.not_mem_tail
    intro hbad
    obtain hq | hl := mem_freeAll hbad
    · exact hnot .free hq
    · obtain ⟨y, hy, hyid⟩ := List.mem_map.mp hl
      apply hnot (.defrag (staKey addr))
      rw [ids_defrag (defragSta_some hs), ← hyid]
      exact List.mem_map_of_mem (hfreed y hy)
  · rename_i hm
    simp only [Bool.and_eq_true, decide_eq_true_eq, Bool.or_eq_true, Bool.not_eq_true'] at hok
    rw [chkDefrag_whole (Bool.eq_false_iff.mpr hm) hok.1 hok.2]
    exact h.free

theorem Held.recvFuncPrehandle (h : s.Held n (f.id :: hand)) (hok : s.prehandleOk o f = true) :
    (s.recvFuncPrehandle o f).1.Held n ((s.recvFuncPrehandle o f).2.toList.map RecvFrame.id ++ hand) := by
  unfold RecvPriv.recvFuncPrehandle RecvPriv.validateRecvFrame
  unfold prehandleOk at hok
  by_cases hver : f.byte 0 &&& 3 ≠ 0
  · rw [if_pos hver]
    exact h.free
  rw [if_neg hver]
  cases ht : getFrameType f with
  | mgt =>
    have hm : s.mgntOk o (parseHdr f) = true := by simpa [hver, ht] using hok
    exact Held.validateRecvMgntFrame (f := parseHdr f) h hm
  | ctrl => exact (h.sameQueues (validateRecvCtrlFrame_sameQueues s.adapter f)).free
  | reserved => exact h.free
  | data =>
    have hid : (validateRecvDataFrame s.adapter (parseFc f)).2.2.id = f.id :=
      validateRecvDataFrame_id s.adapter (parseFc f)
    have h' := h.sameQueues (validateRecvDataFrame_sameQueues s.adapter (parseFc f))
    rw [← hid] at h'
    dsimp only
    split
    · rename_i s₁ g hret
      simp only [Prod.mk.injEq] at hret
      obtain ⟨-, rfl, rfl⟩ := hret
      exact h'
    · rename_i s₁ g _ hret
      simp only [Prod.mk.injEq] at hret
      obtain ⟨-, rfl, rfl⟩ := hret
      exact h'.free

/-! ## runs of the receive path -/

theorem Held.recvFunc (h : s.Held n (f.id :: hand)) (hok : s.recvFuncOk o f = true) :
    (s.recvFunc o f).Held n hand := by
  unfold RecvPriv.recvFunc
  unfold recvFuncOk at hok
  by_cases hmon : s.conf.monitor = true
  · rw [if_pos hmon]
    exact h.free
  rw [if_neg hmon]
  rw [Bool.eq_false_iff.mpr hmon, Bool.false_or, Bool.and_eq_true, Bool.and_eq_true] at hok
  obtain ⟨⟨hswdec, hpre⟩, hqueue⟩ := hok
  have h' := (h.swdecPending hswdec).recvFuncPrehandle hpre
  split
  · rename_i s₁ hret
    rw [hret] at h'
    exact h'
  · rename_i s₁ g hret
    rw [hret] at h' hqueue
    exact Held.recvFuncQueue h' hqueue

theorem Held.reorderTimeout (h : s.Held n hand) (addr : Mac) (tid : Fin 16) (cannotRun : Bool) :
    (s.reorderTimeout addr tid cannotRun).Held n hand := by
  unfold RecvPriv.reorderTimeout
  split
  · exact h
  rename_i sta hs
  refine Held.freeAll (h.setCtrl hs ?_)
  have happ : (rtwReorderingCtrlTimeoutHandler (sta.recvreorderCtrl tid) cannotRun).2
      ++ (rtwReorderingCtrlTimeoutHandler (sta.recvreorderCtrl tid) cannotRun).1.pending
      = (sta.recvreorderCtrl tid).pending := by
    unfold rtwReorderingCtrlTimeoutHandler
    split
    · rfl
    · exact recvIndicatepktsInOrder_append { sta.recvreorderCtrl tid with bReorderWaiting := false } true
  rw [← happ, List.map_append, ← List.append_assoc]
  exact List.Perm.append_right _ List.perm_append_comm

/-- before a step: no function on the way of the frame frees or keeps it behind the back of its
caller -/
def owned (s : RecvPriv) : PoolEvent → Bool
  | .recv o f =>
    match s.freeQueue with
    | [] => true
    | x :: l => { s with freeQueue := l, freeCnt := s.freeCnt - 1 }.recvFuncOk o { f with id := x }
  | _ => true

theorem Held.alloc {l : List Nat} (h : s.Held n hand) (hq : s.freeQueue = x :: l) :
    { s with freeQueue := l, freeCnt := s.freeCnt - 1 }.Held n (x :: hand) where
  accounted := by
    refine h.accounted.exchange .free ?_ ?_
    · show (x :: hand ++ l).Perm (hand ++ s.freeQueue)
      rw [hq]
      exact List.perm_middle.symm
    · intro p hp
      cases p with
      | free => exact absurd rfl hp
      | swdec => rfl
      | defrag key => rfl
      | reorder key tid => rfl
  cnt := by
    show s.freeCnt - 1 = l.length
    rw [h.cnt, hq, List.length_cons, Nat.add_sub_cancel]
  once := h.once

/-- **A step keeps every frame in one place.** -/
theorem step_held (s : RecvPriv) (e : PoolEvent) (h : s.Held n []) (hok : s.owned e = true) :
    (s.step e).Held n [] := by
  cases e with
  | recv o f =>
    unfold owned at hok
    rw [step]
    split
    · exact h
    · rename_i x l hq
      rw [hq] at hok
      exact Held.recvFunc (f := { f with id := x }) (h.alloc hq) hok
  | timeout addr tid cannotRun => exact h.reorderTimeout addr tid cannotRun
  | config sec conf =>
    exact ⟨h.accounted.congr fun p => by cases p <;> rfl, h.cnt, h.once⟩

theorem init_held {a : Adapter} (n : Nat) (conf : RxConf)
    (h0 : ∀ key sta, a.stations key = some sta →
      sta.defragQ = [] ∧ ∀ t, (sta.recvreorderCtrl t).pending = []) :
    (init n a conf).Held n [] where
  accounted := by
    have hempty : ∀ p, p ≠ .free → (init n a conf).ids p = [] := by
      intro p hp
      cases p with
      | free => exact absurd rfl hp
      | swdec => rfl
      | defrag key =>
        cases hs : a.stations key with
        | none => simp [ids, init, hs]
        | some sta => simp [ids, init, hs, (h0 key sta hs).1]
      | reorder key tid =>
        cases hs : a.stations key with
        | none => simp [ids, init, hs]
        | some sta => simp [ids, init, hs, (h0 key sta hs).2 tid]
    refine ⟨fun x hx => ⟨some .free, rfl, fun p => ?_⟩, fun x hx => ⟨List.not_mem_nil, fun p => ?_⟩⟩
    · by_cases hp : p = .free
      · subst hp
        exact List.count_eq_one_of_mem List.nodup_range (List.mem_range.mpr hx)
      · rw [hempty p hp, if_neg fun e => hp (Option.some.inj e).symm]
        rfl
    · by_cases hp : p = .free
      · subst hp
        exact fun hbad => hx (List.mem_range.mp hbad)
      · rw [hempty p hp]
        exact List.not_mem_nil
  cnt := List.length_range.symm
  once := rfl

/-- each of the `n` frames is in exactly one place, no frame was freed while it was in the free
queue, and the counter is the length of that queue -/
structure Conserved (s : RecvPriv) (n : Nat) : Prop where
  place : ∀ x < n, ∃ p, (s.ids p).count x = 1 ∧ ∀ q, q ≠ p → x ∉ s.ids q
  once : s.freedTwice = false
  cnt : s.freeCnt = s.freeQueue.length

theorem Held.conserved (h : s.Held n []) : s.Conserved n where
  place x hx := by
    obtain ⟨o, hhand, hpl⟩ := h.accounted.once x hx
    cases o with
    | none => cases hhand
    | some p =>
      refine ⟨p, (hpl p).trans (if_pos rfl), fun q hq => List.count_eq_zero.mp ?_⟩
      exact (hpl q).trans (if_neg fun e => hq (Option.some.inj e).symm)
  once := h.once
  cnt := h.cnt

end RecvPriv

/-- **The pool of receive frames is conserved** in a run in which every frame stays with its owner. -/
theorem pool_run_conserved (n : Nat) (a : Adapter) (conf : RxConf) (es : List PoolEvent)
    (h0 : ∀ key sta, a.stations key = some sta →
      sta.defragQ = [] ∧ ∀ t, (sta.recvreorderCtrl t).pending = [])
    (hes : Along RecvPriv.step (fun s e => s.owned e = true) (RecvPriv.init n a conf) es) :
    (run RecvPriv.step (RecvPriv.init n a conf) es).Conserved n := by
  have hinit := RecvPriv.init_held n conf h0
  exact (run_inv RecvPriv.step_held _ es hinit hes).conserved

def acceptOracle : RxOracle := ⟨acceptAll, fun _ _ => true, fun _ => true, true⟩

/-- a management frame from the access point, with sequence control `seq` -/
def mgntFrame (seq : List UInt8) : RecvFrame where
  id := 0
  attrib := { ra := List.replicate 6 0, ta := List.replicate 6 0 }
  data := [0x80, 0, 0, 0] ++ myMac ++ apMac ++ apMac ++ seq ++ List.replicate 12 0

/-- the stations of an adapter in operation: the access point and the broadcast station -/
def poolAdapter : Adapter :=
  { staAdapter .aes false with
    stations := fun m =>
      if m = apMac then some { dot118021XPrivacy := .aes } else if m = bcAddr then some {} else none }

theorem poolAdapter_queues (key : Mac) (sta : StaInfo) (h : poolAdapter.stations key = some sta) :
    sta.defragQ = [] ∧ ∀ t, (sta.recvreorderCtrl t).pending = [] := by
  simp only [poolAdapter] at h
  split at h
  · cases h
    exact ⟨rfl, fun _ => rfl⟩
  split at h
  · cases h
    exact ⟨rfl, fun _ => rfl⟩
  · cases h

/-- a beacon, and an MSDU in two fragments -/
theorem pool_run_conserved_three :
    let r := run RecvPriv.step (RecvPriv.init 4 poolAdapter {})
      [.recv acceptOracle (mgntFrame [0x50, 0]), .recv acceptOracle ccmpFirst,
        .recv acceptOracle ccmpLast]
    r.freeQueue = [3, 0, 2, 1] ∧ r.Conserved 4 :=
  ⟨by decide, pool_run_conserved 4 poolAdapter {} _ poolAdapter_queues (by decide)⟩

/-- A management frame that claims to be a last fragment is freed by the defragmentation and
again by its caller. -/
theorem pool_run_not_conserved :
    ¬ ∀ (n : Nat) (a : Adapter) (conf : RxConf) (es : List PoolEvent),
      (∀ key sta, a.stations key = some sta →
        sta.defragQ = [] ∧ ∀ t, (sta.recvreorderCtrl t).pending = []) →
      (run RecvPriv.step (RecvPriv.init n a conf) es).Conserved n := by
  intro h
  have hrun := h 4 poolAdapter {} [.recv acceptOracle (mgntFrame [0x51, 0])] poolAdapter_queues
  exact absurd hrun.once (by decide)

end Rtl8192eu
