import Rtl8192eu.Recv.Validate

/-!
# Defragmentation

`recvframe_defrag` and `recvframe_chk_defrag` of `core/rtw_recv.c`, and runs of the second.
The fragments of a station wait in its `defrag_q`; the last one joins the queue and the whole
queue is joined or freed.

* `recvframeDefrag`   joins a queue, `none` when it was freed instead;
* `recvframeChkDefrag`   one received frame;
* `recvframeDefrag_spec`   what a queue that is joined looks like, and the bytes of the result;
* `QueuesInv R`   every queue is pairwise related by `R`; kept by every frame that finds
                           only fragments related to it (`chkDefrag_queuesInv`);
* `DefragRun`, `DataRun`   runs of received frames, and of data frames from validation on.
-/

namespace Rtl8192eu

open Run

/-! ## `recvframe_defrag` -/

/-- the ciphers whose fragments must have consecutive packet numbers -/
def pnConsecutive : SecurityType → Bool
  | .aes | .ccmp256 | .gcmp | .gcmp256 => true
  | _ => false

def fragPn (f : RecvFrame) : BitVec 64 := ccmph2Pn (le64 f f.attrib.hdrlen)

/-- `recvframe_pull(pnextrframe, wlanhdr_offset)`; its result is not tested -/
def pullHdr (g : RecvFrame) : RecvFrame := (recvframePull g (g.attrib.hdrlen + g.attrib.ivLen)).getD g

/-- append the payload of `g`, whose header is pulled, to the first fragment less its ICV -/
def appendFrag (f g : RecvFrame) : RecvFrame :=
  let f := (recvframePullTail f f.attrib.icvLen).getD f
  let f := (recvframePut f g.data).getD f
  { f with attrib := { f.attrib with icvLen := g.attrib.icvLen } }

/-- the `while` loop over the 2nd to last fragment -/
def defragLoop : RecvFrame → BitVec 64 → Nat → List RecvFrame → Option RecvFrame
  | f, _, _, [] => some f
  | f, curPn, curfragnum, g :: l =>
    if pnConsecutive g.attrib.encrypt && fragPn g != curPn + 1 then none
    else if f.keytrack ≠ g.keytrack then none
    else if curfragnum ≠ g.attrib.fragNum then none
    else if f.room.length < (pullHdr g).len then none
    else
      defragLoop (appendFrag f (pullHdr g))
        (if pnConsecutive g.attrib.encrypt then fragPn g else curPn) (curfragnum + 1) l

/-- `none`: the whole queue is freed.  Else all but the first fragment are freed. -/
def recvframeDefrag : List RecvFrame → Option RecvFrame
  | [] => none
  | f :: l =>
    if f.attrib.fragNum ≠ 0 then none
    else defragLoop f (if pnConsecutive f.attrib.encrypt then fragPn f else 0) 1 l

/-! ## `recvframe_chk_defrag` -/

/-- `recvframe_chkmic`; the MIC itself is a parameter -/
def recvframeChkmic (micOk : Adapter → RecvFrame → Bool) (a : Adapter) (f : RecvFrame) :
    Option RecvFrame :=
  if f.attrib.encrypt = .tkip then
    if micOk a f then some ((recvframePullTail f 8).getD f) else none
  else some f

/-- the station whose queue takes the fragments of a frame: management frames of an unknown
transmitter go to the broadcast station -/
def defragSta (a : Adapter) (f : RecvFrame) : Option (Mac × StaInfo) :=
  match a.rtwGetStainfo f.attrib.ta with
  | some sta => some (f.attrib.ta, sta)
  | none =>
    if getFrameType f ≠ .data then (a.rtwGetStainfo bcAddr).map fun sta => (bcAddr, sta) else none

structure DefragRet where
  frame : Option RecvFrame
  adapter : Adapter
  /-- frames passed to `rtw_free_recvframe` -/
  freed : List RecvFrame

/-- `recvframe_chk_defrag` before the MIC check -/
def chkDefragQueue (a : Adapter) (f : RecvFrame) : DefragRet :=
  if !f.attrib.mfrag && f.attrib.fragNum = 0 then ⟨some f, a, []⟩
  else if isMcast f.attrib.ra then ⟨none, a, [f]⟩
  else
    match defragSta a f with
    | none => ⟨none, a, [f]⟩
    | some (addr, sta) =>
      let f := { f with keytrack := sta.keytrack }
      if f.attrib.mfrag then
        -- the first fragment frees what is queued
        if f.attrib.fragNum = 0 then ⟨none, a.setSta addr { sta with defragQ := [f] }, sta.defragQ⟩
        else ⟨none, a.setSta addr { sta with defragQ := sta.defragQ ++ [f] }, []⟩
      else
        match recvframeDefrag (sta.defragQ ++ [f]) with
        | none => ⟨none, a.setSta addr { sta with defragQ := [] }, sta.defragQ ++ [f]⟩
        | some r => ⟨some r, a.setSta addr { sta with defragQ := [] }, (sta.defragQ ++ [f]).tail⟩

def recvframeChkDefrag (micOk : Adapter → RecvFrame → Bool) (a : Adapter) (f : RecvFrame) :
    DefragRet :=
  let ret := chkDefragQueue a f
  match ret.frame with
  | none => ret
  | some r =>
    if r.attrib.privacy then
      match recvframeChkmic micOk ret.adapter r with
      | none => { ret with frame := none, freed := ret.freed ++ [r] }
      | some r' => { ret with frame := some r' }
    else ret

/-- the queue that `recvframe_defrag` is called with, when `f` is a last fragment -/
def defragCall (a : Adapter) (f : RecvFrame) : Option (List RecvFrame) :=
  if !f.attrib.mfrag && f.attrib.fragNum ≠ 0 && !isMcast f.attrib.ra then
    (defragSta a f).map fun s => s.2.defragQ ++ [{ f with keytrack := s.2.keytrack }]
  else none

/-! ## the joined frame -/

def fragBody (g : RecvFrame) : List UInt8 := g.data.drop (g.attrib.hdrlen + g.attrib.ivLen)

/-- the bodies of the 2nd to last fragment; all but the last lose their ICV -/
def fragBodies : List RecvFrame → List UInt8
  | [] => []
  | [g] => fragBody g
  | g :: l => (fragBody g).take ((fragBody g).length - g.attrib.icvLen) ++ fragBodies l

/-- the first fragment less its ICV, then the bodies of the others -/
def msduPayload : List RecvFrame → List UInt8
  | [] => []
  | [f] => f.data
  | f :: l => f.data.take (f.len - f.attrib.icvLen) ++ fragBodies l

/-- a fragment is long enough for what is cut from it -/
def FragLong (g : RecvFrame) : Prop :=
  if g.attrib.fragNum = 0 then g.attrib.icvLen ≤ g.len
  else if g.attrib.mfrag then g.attrib.hdrlen + g.attrib.ivLen + g.attrib.icvLen ≤ g.len
  else g.attrib.hdrlen + g.attrib.ivLen ≤ g.len

instance (g : RecvFrame) : Decidable (FragLong g) :=
  inferInstanceAs (Decidable (ite _ _ (ite _ _ _)))

theorem pullHdr_eq {g : RecvFrame} (h : g.attrib.hdrlen + g.attrib.ivLen ≤ g.len) :
    pullHdr g = { g with data := fragBody g } := by
  unfold pullHdr recvframePull
  rw [if_neg (by omega)]
  rfl

/-- the room test is made before the ICV is pulled, so the bytes always fit -/
theorem appendFrag_data {f g : RecvFrame} (hi : f.attrib.icvLen ≤ f.len)
    (hr : g.len ≤ f.room.length) :
    (appendFrag f g).data = f.data.take (f.len - f.attrib.icvLen) ++ g.data := by
  have hroom : ¬ (f.data.drop (f.len - f.attrib.icvLen) ++ f.room).length < g.data.length := by
    rw [List.length_append]
    change g.data.length ≤ f.room.length at hr
    omega
  simp only [appendFrag, recvframePullTail, if_neg (by omega : ¬ f.len < f.attrib.icvLen),
    Option.getD_some, recvframePut, if_neg hroom]

theorem defragLoop_cons {f g r : RecvFrame} {curPn : BitVec 64} {n : Nat} {l : List RecvFrame}
    (h : defragLoop f curPn n (g :: l) = some r) :
    n = g.attrib.fragNum ∧ (pullHdr g).len ≤ f.room.length
      ∧ ∃ pn, defragLoop (appendFrag f (pullHdr g)) pn (n + 1) l = some r := by
  unfold defragLoop at h
  split at h
  · cases h
  split at h
  · cases h
  split at h
  · cases h
  split at h
  · cases h
  rename_i h3 h4
  exact ⟨Decidable.not_not.mp h3, Nat.le_of_not_lt h4, _, h⟩

theorem defragLoop_fragNum {f r : RecvFrame} {curPn : BitVec 64} {n : Nat} {l : List RecvFrame}
    (h : defragLoop f curPn n l = some r) :
    l.map (fun g => g.attrib.fragNum.val) = List.range' n l.length := by
  induction l generalizing f curPn n with
  | nil => rfl
  | cons g l ih =>
    obtain ⟨hn, -, pn, h⟩ := defragLoop_cons h
    rw [List.map_cons, ih h, List.length_cons, List.range'_succ, hn]

theorem defragLoop_data {f r : RecvFrame} {curPn : BitVec 64} {n : Nat} {l : List RecvFrame}
    (h : defragLoop f curPn n l = some r) (hf : f.attrib.icvLen ≤ f.len)
    (hl : ∀ g ∈ l, g.attrib.hdrlen + g.attrib.ivLen ≤ g.len)
    (hi : ∀ g ∈ l.dropLast, g.attrib.hdrlen + g.attrib.ivLen + g.attrib.icvLen ≤ g.len) :
    r.data = if l = [] then f.data else f.data.take (f.len - f.attrib.icvLen) ++ fragBodies l := by
  induction l generalizing f curPn n with
  | nil =>
    obtain rfl : f = r := by simpa [defragLoop] using h
    rfl
  | cons g l ih =>
    obtain ⟨-, hroom, pn, h⟩ := defragLoop_cons h
    have hg := hl g List.mem_cons_self
    have hd := appendFrag_data hf hroom
    rw [pullHdr_eq hg] at h hd
    have hic : (appendFrag f { g with data := fragBody g }).attrib.icvLen = g.attrib.icvLen := rfl
    rw [if_neg (List.cons_ne_nil g l)]
    cases l with
    | nil =>
      obtain rfl : _ = r := by simpa [defragLoop] using h
      exact hd
    | cons g' l =>
      -- the body of `g` holds its ICV, so the next pull stays inside it
      have hgi : g.attrib.icvLen ≤ (fragBody g).length := by
        have := hi g List.mem_cons_self
        rw [fragBody, List.length_drop]
        change g.attrib.icvLen ≤ g.len - _
        omega
      have hlen : (appendFrag f { g with data := fragBody g }).len
          = (f.data.take (f.len - f.attrib.icvLen)).length + (fragBody g).length := by
        rw [RecvFrame.len, hd, List.length_append]
      have ih' := ih h (by rw [hic, hlen]; omega) (fun x hx => hl x (List.mem_cons_of_mem _ hx))
        (fun x hx => hi x (List.mem_cons_of_mem _ hx))
      rw [if_neg (List.cons_ne_nil g' l), hd, hic, hlen, Nat.add_sub_assoc hgi,
        List.take_length_add_append, List.append_assoc] at ih'
      exact ih'

/-- **What a joined queue looks like**, and the bytes of the result. -/
theorem recvframeDefrag_spec {q : List RecvFrame} {r : RecvFrame} (h : recvframeDefrag q = some r) :
    q.map (fun g => g.attrib.fragNum.val) = List.range q.length
    ∧ ((∀ g ∈ q, FragLong g) → (∀ g ∈ q.dropLast, g.attrib.mfrag = true) →
        r.data = msduPayload q) := by
  cases q with
  | nil => cases h
  | cons f l =>
    simp only [recvframeDefrag] at h
    split at h
    · cases h
    rename_i h0
    rw [Decidable.not_not] at h0
    have hn := defragLoop_fragNum h
    constructor
    · rw [List.map_cons, hn, h0, List.length_cons, List.range_eq_range', List.range'_succ]
      rfl
    · intro hlong hm
      -- every later fragment has a number other than `0`
      have hpos : ∀ g ∈ l, g.attrib.fragNum ≠ 0 := by
        intro g hg e
        have : g.attrib.fragNum.val ∈ List.range' 1 l.length := hn ▸ List.mem_map_of_mem hg
        rw [e] at this
        simp at this
      have hfl : f.attrib.icvLen ≤ f.len := by
        have := hlong f List.mem_cons_self
        rwa [FragLong, if_pos h0] at this
      have hl : ∀ g ∈ l, g.attrib.hdrlen + g.attrib.ivLen ≤ g.len := by
        intro g hg
        have := hlong g (List.mem_cons_of_mem _ hg)
        rw [FragLong, if_neg (hpos g hg)] at this
        split at this <;> omega
      cases l with
      | nil => exact defragLoop_data h hfl hl (List.forall_mem_nil _)
      | cons g l =>
        refine (defragLoop_data h hfl hl fun x hx => ?_).trans (if_neg (List.cons_ne_nil g l))
        have hx' := List.dropLast_subset _ hx
        have := hlong x (List.mem_cons_of_mem _ hx')
        rwa [FragLong, if_neg (hpos x hx'), if_pos (hm x (List.mem_cons_of_mem _ hx))] at this

/-! ## the identity of the joined frame -/

theorem recvframePullTail_id (f : RecvFrame) (n : Nat) : ((recvframePullTail f n).getD f).id = f.id := by
  unfold recvframePullTail
  split <;> rfl

theorem appendFrag_id (f g : RecvFrame) : (appendFrag f g).id = f.id := by
  simp only [appendFrag, recvframePullTail, recvframePut]
  split <;> split <;> rfl

theorem defragLoop_id {f r : RecvFrame} {pn : BitVec 64} {n : Nat} {l : List RecvFrame}
    (h : defragLoop f pn n l = some r) : r.id = f.id := by
  induction l generalizing f pn n with
  | nil =>
    obtain rfl : f = r := by simpa [defragLoop] using h
    rfl
  | cons g l ih =>
    obtain ⟨-, -, pn', h⟩ := defragLoop_cons h
    rw [ih h, appendFrag_id]

theorem recvframeDefrag_id {q : List RecvFrame} {r : RecvFrame} (h : recvframeDefrag q = some r) :
    q.map RecvFrame.id = r.id :: q.tail.map RecvFrame.id := by
  cases q with
  | nil => cases h
  | cons f l =>
    simp only [recvframeDefrag] at h
    split at h
    · cases h
    · rw [defragLoop_id h]
      rfl

theorem recvframeChkmic_id {micOk : Adapter → RecvFrame → Bool} {a : Adapter} {f g : RecvFrame}
    (h : recvframeChkmic micOk a f = some g) : g.id = f.id := by
  unfold recvframeChkmic at h
  split at h
  · split at h
    · cases h
      exact recvframePullTail_id f 8
    · cases h
  · cases h
    rfl

/-! ## the queues along a run -/

section queues

variable {P : RecvFrame → Prop} {R : RecvFrame → RecvFrame → Prop} {a : Adapter} {f : RecvFrame}

/-- a queue of fragments that are not the last one, each with `P` and any two related by `R` -/
def QueueOk (P : RecvFrame → Prop) (R : RecvFrame → RecvFrame → Prop) (q : List RecvFrame) : Prop :=
  q.Pairwise R ∧ ∀ g ∈ q, g.attrib.mfrag = true ∧ P g

def QueuesInv (P : RecvFrame → Prop) (R : RecvFrame → RecvFrame → Prop) (a : Adapter) : Prop :=
  ∀ key sta, a.stations key = some sta → QueueOk P R sta.defragQ

/-- a fragment is fit for the queue it joins; a first fragment finds the queue empty -/
def FitsQueue (P : RecvFrame → Prop) (R : RecvFrame → RecvFrame → Prop) (a : Adapter)
    (f : RecvFrame) : Prop :=
  (f.attrib.mfrag = true ∨ f.attrib.fragNum ≠ 0) → isMcast f.attrib.ra = false →
    ∀ s ∈ defragSta a f, P { f with keytrack := s.2.keytrack }
      ∧ (f.attrib.fragNum ≠ 0 → ∀ g ∈ s.2.defragQ, R g { f with keytrack := s.2.keytrack })

instance [DecidablePred P] [DecidableRel R] : Decidable (FitsQueue P R a f) :=
  inferInstanceAs (Decidable (_ → _ → ∀ s ∈ defragSta a f, _ ∧ (_ → ∀ g ∈ s.2.defragQ, _)))

theorem defragSta_some {s : Mac × StaInfo} (h : defragSta a f = some s) :
    a.rtwGetStainfo s.1 = some s.2 := by
  unfold defragSta at h
  split at h
  · rename_i hs
    cases h
    exact hs
  · split at h
    · obtain ⟨sta, hs, rfl⟩ := Option.map_eq_some_iff.mp h
      exact hs
    · cases h

theorem queueOk_nil : QueueOk P R [] := ⟨List.Pairwise.nil, List.forall_mem_nil _⟩

theorem QueuesInv.setSta {addr : Mac} {sta : StaInfo} (hI : QueuesInv P R a)
    (h : QueueOk P R sta.defragQ) : QueuesInv P R (a.setSta addr sta) := by
  intro key sta' hs
  by_cases hk : key = staKey addr
  · subst hk
    have e : (a.setSta addr sta).stations (staKey addr) = some sta := Function.update_self ..
    rw [e] at hs
    cases hs
    exact h
  · have e : (a.setSta addr sta).stations key = a.stations key := Function.update_of_ne hk _ _
    rw [e] at hs
    exact hI key sta' hs

theorem QueuesInv.chkDefragQueue (hI : QueuesInv P R a) (hf : FitsQueue P R a f) :
    QueuesInv P R (chkDefragQueue a f).adapter := by
  unfold Rtl8192eu.chkDefragQueue
  split
  · exact hI
  rename_i hfrag
  split
  · exact hI
  rename_i hra
  split
  · exact hI
  rename_i addr sta hs
  have hfrag' : f.attrib.mfrag = true ∨ f.attrib.fragNum ≠ 0 := by
    cases hm : f.attrib.mfrag
    · exact Or.inr (by simpa [hm] using hfrag)
    · exact Or.inl rfl
  obtain ⟨hP, hR⟩ := hf hfrag' (Bool.eq_false_of_not_eq_true hra) _ hs
  obtain ⟨hq, hm⟩ := hI _ _ (defragSta_some hs)
  dsimp only
  split
  · rename_i hmf
    split
    · refine hI.setSta ⟨List.pairwise_singleton _ _, ?_⟩
      intro g hg
      rw [List.mem_singleton.mp hg]
      exact ⟨hmf, hP⟩
    · rename_i h0
      refine hI.setSta ⟨List.pairwise_append.mpr ⟨hq, List.pairwise_singleton _ _, ?_⟩, ?_⟩
      · intro g hg h hh
        rw [List.mem_singleton.mp hh]
        exact hR h0 g hg
      · intro g hg
        rcases List.mem_append.mp hg with hg | hg
        · exact hm g hg
        · rw [List.mem_singleton.mp hg]
          exact ⟨hmf, hP⟩
  · split <;> exact hI.setSta queueOk_nil

theorem recvframeChkDefrag_adapter (micOk : Adapter → RecvFrame → Bool) (a : Adapter) (f : RecvFrame) :
    (recvframeChkDefrag micOk a f).adapter = (chkDefragQueue a f).adapter := by
  simp only [recvframeChkDefrag]
  split
  · rfl
  split
  · split <;> rfl
  · rfl

theorem QueuesInv.defragCall {q : List RecvFrame} (hI : QueuesInv P R a) (hf : FitsQueue P R a f)
    (h : defragCall a f = some q) :
    q.Pairwise R ∧ (∀ g ∈ q, P g)
      ∧ q.map (fun g => g.attrib.mfrag) = List.replicate (q.length - 1) true ++ [false] := by
  unfold Rtl8192eu.defragCall at h
  split at h
  · rename_i hl
    simp only [Bool.and_eq_true, Bool.not_eq_true', decide_eq_true_eq] at hl
    obtain ⟨s, hs, rfl⟩ := Option.map_eq_some_iff.mp h
    obtain ⟨hP, hR⟩ := hf (Or.inr hl.1.2) hl.2 s hs
    obtain ⟨hq, hm⟩ := hI _ _ (defragSta_some hs)
    refine ⟨List.pairwise_append.mpr ⟨hq, List.pairwise_singleton _ _, ?_⟩, ?_, ?_⟩
    · intro g hg h hh
      rw [List.mem_singleton.mp hh]
      exact hR hl.1.2 g hg
    · intro g hg
      rcases List.mem_append.mp hg with hg | hg
      · exact (hm g hg).2
      · rw [List.mem_singleton.mp hg]
        exact hP
    · rw [List.map_append, List.length_append, List.length_singleton, Nat.add_sub_cancel,
        List.map_congr_left (fun g hg => (hm g hg).1), List.map_const', List.map_singleton, hl.1.1]
  · cases h

end queues

/-! ## runs of received frames -/

structure DefragRun where
  adapter : Adapter
  /-- the queues that `recvframe_defrag` joined, with the frame it returned -/
  joined : List (List RecvFrame × RecvFrame)

inductive DefragEvent where
  | recv (f : RecvFrame)
  /-- a pairwise key is installed for the station of an address -/
  | newKey (addr : Mac)

def Adapter.newKey (a : Adapter) (addr : Mac) : Adapter :=
  match a.rtwGetStainfo addr with
  | none => a
  | some sta => a.setSta addr { sta with keytrack := sta.keytrack + 1 }

def DefragRun.init (a : Adapter) : DefragRun := ⟨a, []⟩

def DefragRun.step (micOk : Adapter → RecvFrame → Bool) (r : DefragRun) : DefragEvent → DefragRun
  | .recv f =>
    { adapter := (recvframeChkDefrag micOk r.adapter f).adapter
      joined := r.joined ++
        ((defragCall r.adapter f).bind fun q => (recvframeDefrag q).map fun x => (q, x)).toList }
  | .newKey addr => { r with adapter := r.adapter.newKey addr }

def SameMsdu (g h : RecvFrame) : Prop :=
  getAddr2 g = getAddr2 h ∧ g.attrib.seqNum = h.attrib.seqNum

instance : DecidableRel SameMsdu := fun _ _ => inferInstanceAs (Decidable (_ ∧ _))

structure OneMsdu (q : List RecvFrame) (r : RecvFrame) : Prop where
  same : q.Pairwise SameMsdu
  fragNum : q.map (fun g => g.attrib.fragNum.val) = List.range q.length
  mfrag : q.map (fun g => g.attrib.mfrag) = List.replicate (q.length - 1) true ++ [false]
  payload : r.data = msduPayload q

/-- before a frame is received: as a fragment it is long enough, and unless it is a first
fragment the queue it joins holds only fragments of its transmitter and sequence number -/
def DefragRun.Fits (r : DefragRun) : DefragEvent → Prop
  | .recv f => FitsQueue FragLong SameMsdu r.adapter f
  | .newKey _ => True

instance (r : DefragRun) (e : DefragEvent) : Decidable (r.Fits e) :=
  match e with
  | .recv f => inferInstanceAs (Decidable (FitsQueue FragLong SameMsdu r.adapter f))
  | .newKey _ => isTrue trivial

theorem QueuesInv.newKey {P : RecvFrame → Prop} {R : RecvFrame → RecvFrame → Prop} {a : Adapter}
    (hI : QueuesInv P R a) (addr : Mac) : QueuesInv P R (a.newKey addr) := by
  unfold Adapter.newKey
  split
  · exact hI
  · rename_i sta hs
    exact hI.setSta (hI _ sta hs)

structure DefragRun.Inv (r : DefragRun) : Prop where
  queues : QueuesInv FragLong SameMsdu r.adapter
  joined : ∀ x ∈ r.joined, OneMsdu x.1 x.2

theorem DefragRun.inv_step (micOk : Adapter → RecvFrame → Bool) (r : DefragRun) (e : DefragEvent)
    (hI : r.Inv) (hf : r.Fits e) : (r.step micOk e).Inv := by
  cases e with
  | newKey addr => exact ⟨hI.queues.newKey addr, hI.joined⟩
  | recv f =>
    constructor
    · show QueuesInv _ _ (recvframeChkDefrag micOk r.adapter f).adapter
      rw [recvframeChkDefrag_adapter]
      exact hI.queues.chkDefragQueue hf
    · intro x hx
      rcases List.mem_append.mp hx with hx | hx
      · exact hI.joined x hx
      · rw [Option.mem_toList, Option.bind_eq_some_iff] at hx
        obtain ⟨q, hq, hx⟩ := hx
        obtain ⟨y, hy, rfl⟩ := Option.map_eq_some_iff.mp hx
        obtain ⟨hsame, hlong, hmf⟩ := hI.queues.defragCall hf hq
        obtain ⟨hnum, hpay⟩ := recvframeDefrag_spec hy
        refine ⟨hsame, hnum, hmf, hpay hlong fun g hg => ?_⟩
        -- the last fragment aside, the bit is set
        have hd := congrArg List.dropLast hmf
        rw [← List.map_dropLast, List.dropLast_concat] at hd
        have hg' : g.attrib.mfrag ∈ List.replicate (q.length - 1) true := hd ▸ List.mem_map_of_mem hg
        exact List.eq_of_mem_replicate hg'

/-- **Reassembly joins one MSDU**, in a run where every fragment fits the queue it joins. -/
theorem defrag_run_oneMsdu (micOk : Adapter → RecvFrame → Bool) (a : Adapter) (es : List DefragEvent)
    (h0 : ∀ key sta, a.stations key = some sta → sta.defragQ = [])
    (hf : Along (DefragRun.step micOk) DefragRun.Fits (DefragRun.init a) es) :
    ∀ x ∈ (run (DefragRun.step micOk) (DefragRun.init a) es).joined, OneMsdu x.1 x.2 := by
  have hI : (DefragRun.init a).Inv :=
    ⟨fun key sta hs => h0 key sta hs ▸ queueOk_nil, List.forall_mem_nil _⟩
  exact (run_inv (DefragRun.inv_step micOk) _ es hI hf).joined

theorem staAdapter_defragQ {cipher : SecurityType} {blocked : Bool} (key : Mac) (sta : StaInfo)
    (h : (staAdapter cipher blocked).stations key = some sta) : sta.defragQ = [] := by
  simp only [staAdapter] at h
  split at h
  · cases h; rfl
  · cases h

/-- a plaintext fragment from the access point -/
def plainFrag (seq : Fin 4096) (frag : Fin 16) (mfrag : Bool) (body : List UInt8) : RecvFrame where
  id := 0
  attrib := { ta := apMac, ra := myMac, hdrlen := 24, seqNum := seq, fragNum := frag, mfrag := mfrag }
  data := [0x08, 0x02, 0, 0] ++ myMac ++ apMac ++ apMac ++ [0, 0] ++ body
  room := List.replicate 64 0

theorem defrag_run_oneMsdu_two :
    let r := run (DefragRun.step fun _ _ => true) (DefragRun.init (staAdapter .noPrivacy false))
      [.recv (plainFrag 5 0 true [1, 2]), .recv (plainFrag 5 1 false [3])]
    r.joined.map (fun x => x.2.data.drop 24) = [[1, 2, 3]] ∧ ∀ x ∈ r.joined, OneMsdu x.1 x.2 := by
  exact ⟨by decide, defrag_run_oneMsdu _ _ _ staAdapter_defragQ (by decide)⟩

/-- sequence numbers are not compared: fragment 0 of number 5 and fragment 1 of number 6 -/
theorem defrag_run_two_msdus :
    ¬ ∀ (micOk : Adapter → RecvFrame → Bool) (a : Adapter) (es : List DefragEvent),
      (∀ key sta, a.stations key = some sta → sta.defragQ = []) →
      ∀ x ∈ (run (DefragRun.step micOk) (DefragRun.init a) es).joined, OneMsdu x.1 x.2 := by
  intro h
  have h' := h (fun _ _ => true) (staAdapter .noPrivacy false)
    [.recv (plainFrag 5 0 true [1, 2]), .recv (plainFrag 6 1 false [3])] staAdapter_defragQ
  have hall : ∀ x ∈ (run (DefragRun.step fun _ _ => true)
      (DefragRun.init (staAdapter .noPrivacy false))
      [.recv (plainFrag 5 0 true [1, 2]), .recv (plainFrag 6 1 false [3])]).joined,
      x.1.Pairwise SameMsdu := fun x hx => (h' x hx).same
  exact absurd hall (by decide)

/-! ## runs of data frames, from validation on -/

/-- `validate_recv_data_frame` and `decryptor`: the frame, unless it was dropped -/
def acceptFrame (dec : SwDecrypt) (a : Adapter) (f : RecvFrame) : Adapter × Option RecvFrame :=
  match validateRecvDataFrame a (parseFc f) with
  | (.success, a', f') => (a', decryptor dec a' f')
  | (_, a', _) => (a', none)

structure DataRun where
  adapter : Adapter
  /-- the reassembled frames that `recvframe_chk_defrag` returned, with their fragments -/
  joined : List (List RecvFrame × RecvFrame)

inductive DataEvent where
  | recv (dec : SwDecrypt) (micOk : Adapter → RecvFrame → Bool) (f : RecvFrame)
  | newKey (addr : Mac)

def DataRun.init (a : Adapter) : DataRun := ⟨a, []⟩

def DataRun.step (r : DataRun) : DataEvent → DataRun
  | .recv dec micOk f =>
    match acceptFrame dec r.adapter f with
    | (a', none) => { r with adapter := a' }
    | (a', some g) =>
      let ret := recvframeChkDefrag micOk a' g
      { adapter := ret.adapter
        joined := r.joined ++
          (ret.frame.bind fun x => (defragCall a' g).map fun q => (q, x)).toList }
  | .newKey addr => { r with adapter := r.adapter.newKey addr }

def SamePrivacy (g h : RecvFrame) : Prop := g.attrib.privacy = h.attrib.privacy

instance : DecidableRel SamePrivacy := fun _ _ => inferInstanceAs (Decidable (_ = _))

/-- before a frame is received: if it is accepted and is not a first fragment, then the fragments
that wait for its transmitter have its Protected bit -/
def DataRun.Unmixed (r : DataRun) : DataEvent → Prop
  | .recv dec _ f => (acceptFrame dec r.adapter f).2.isSome = true → getFragNum f ≠ 0 →
      ∀ sta ∈ r.adapter.rtwGetStainfo (getAddr2 f), ∀ g ∈ sta.defragQ,
        g.attrib.privacy = getPrivacy f
  | .newKey _ => True

instance (r : DataRun) (e : DataEvent) : Decidable (r.Unmixed e) :=
  match e with
  | .recv _ _ f => inferInstanceAs (Decidable (_ → _ → ∀ sta ∈ r.adapter.rtwGetStainfo (getAddr2 f),
      ∀ g ∈ sta.defragQ, g.attrib.privacy = getPrivacy f))
  | .newKey _ => isTrue trivial

theorem QueuesInv.cachesOnly {P : RecvFrame → Prop} {R : RecvFrame → RecvFrame → Prop}
    {a a' : Adapter} {ta : Mac} (hI : QueuesInv P R a) (h : a.CachesOnly a' ta) :
    QueuesInv P R a' := by
  obtain ⟨sta, sta', v, hs, ⟨_, _, _, _, _, rfl⟩, rfl⟩ := h
  have hI' : QueuesInv P R { a with sec := { a.sec with ivSeq := v } } := hI
  exact hI'.setSta (hI _ sta hs)

theorem QueuesInv.acceptFrame {P : RecvFrame → Prop} {R : RecvFrame → RecvFrame → Prop}
    {a : Adapter} (hI : QueuesInv P R a) (dec : SwDecrypt) (f : RecvFrame) :
    QueuesInv P R (acceptFrame dec a f).1 := by
  have e : (Rtl8192eu.acceptFrame dec a f).1 = (validateRecvDataFrame a (parseFc f)).2.1 := by
    unfold Rtl8192eu.acceptFrame
    split <;> rename_i h <;> rw [h]
  rw [e]
  rcases validateRecvDataFrame_adapter a (parseFc f) with h | h
  · rw [h]
    exact hI
  · exact hI.cachesOnly h

/-- **An accepted frame**: its station with the caches moved, and the attributes of its header. -/
theorem acceptFrame_some {dec : SwDecrypt} {a a' : Adapter} {f g : RecvFrame}
    (h : acceptFrame dec a f = (a', some g)) :
    ∃ sta sta', a.rtwGetStainfo (getAddr2 f) = some sta ∧ sta.CachesOnly sta'
      ∧ a'.rtwGetStainfo g.attrib.ta = some sta'
      ∧ a'.sec.dot11AuthAlgrthm = a.sec.dot11AuthAlgrthm
      ∧ g.attrib.privacy = getPrivacy f ∧ g.attrib.fragNum = getFragNum f := by
  unfold acceptFrame at h
  split at h
  · rename_i a₁ f₁ hv
    obtain ⟨rfl, hd⟩ := Prod.mk.inj h
    obtain ⟨sta, sta', v, dst, src, bssid, hs, hc, rfl, rfl, -⟩ := validateRecvDataFrame_accepted hv
    obtain ⟨bs, k, rfl⟩ := decryptor_some hd
    obtain ⟨e, i, c, he⟩ := setEncrypt_eq a.sec sta (dataAttrib (parseFc f) dst src bssid)
    rw [he]
    refine ⟨sta, sta', hs, hc, ?_, rfl, dataAttrib_privacy .., dataAttrib_fragNum ..⟩
    show Adapter.rtwGetStainfo _ (dataAttrib (parseFc f) dst src bssid).ta = _
    rw [dataAttrib_ta, Adapter.rtwGetStainfo_setSta]
  · cases h

theorem acceptFrame_fits {dec : SwDecrypt} {a a' : Adapter} {f g : RecvFrame}
    (h : acceptFrame dec a f = (a', some g))
    (hm : getFragNum f ≠ 0 → ∀ sta ∈ a.rtwGetStainfo (getAddr2 f), ∀ x ∈ sta.defragQ,
      x.attrib.privacy = getPrivacy f) :
    FitsQueue (fun _ => True) SamePrivacy a' g := by
  obtain ⟨sta, sta', hs, ⟨_, _, _, _, _, rfl⟩, hs', -, hp, hn⟩ := acceptFrame_some h
  intro _ _ s hsta
  refine ⟨trivial, fun h0 x hx => ?_⟩
  simp only [defragSta, hs', Option.mem_def, Option.some.injEq] at hsta
  subst hsta
  exact (hm (hn ▸ h0) sta hs x hx).trans hp.symm

structure DataRun.Inv (r : DataRun) : Prop where
  queues : QueuesInv (fun _ => True) SamePrivacy r.adapter
  joined : ∀ x ∈ r.joined, x.1.Pairwise SamePrivacy

theorem DataRun.inv_step (r : DataRun) (e : DataEvent) (hI : r.Inv) (hm : r.Unmixed e) :
    (r.step e).Inv := by
  cases e with
  | newKey addr => exact ⟨hI.queues.newKey addr, hI.joined⟩
  | recv dec micOk f =>
    have hq := hI.queues.acceptFrame dec f
    unfold DataRun.step
    dsimp only
    split
    · rename_i a' ha
      rw [ha] at hq
      exact ⟨hq, hI.joined⟩
    · rename_i a' g ha
      rw [ha] at hq
      have hf := acceptFrame_fits ha (hm (by rw [ha]; rfl))
      constructor
      · show QueuesInv _ _ (recvframeChkDefrag micOk a' g).adapter
        rw [recvframeChkDefrag_adapter]
        exact hq.chkDefragQueue hf
      · intro x hx
        rcases List.mem_append.mp hx with hx | hx
        · exact hI.joined x hx
        · rw [Option.mem_toList, Option.bind_eq_some_iff] at hx
          obtain ⟨y, -, hx⟩ := hx
          obtain ⟨q, hc, rfl⟩ := Option.map_eq_some_iff.mp hx
          exact (hq.defragCall hf hc).1

/-- **No reassembled frame mixes plaintext and protected fragments**, in a run where no accepted
fragment joins a queue of the other kind. -/
theorem defrag_run_samePrivacy (a : Adapter) (es : List DataEvent)
    (h0 : ∀ key sta, a.stations key = some sta → sta.defragQ = [])
    (hm : Along DataRun.step DataRun.Unmixed (DataRun.init a) es) :
    ∀ x ∈ (run DataRun.step (DataRun.init a) es).joined, x.1.Pairwise SamePrivacy := by
  have hI : (DataRun.init a).Inv :=
    ⟨fun key sta hs => h0 key sta hs ▸ queueOk_nil, List.forall_mem_nil _⟩
  exact (run_inv DataRun.inv_step _ es hI hm).joined

/-- a first fragment under CCMP, its packet number 7 -/
def ccmpFirst : RecvFrame :=
  apFrame [0x08, 0x46] myMac [0x50, 0] ([7, 0, 0, 0x20, 0, 0, 0, 0] ++ [1, 2] ++ List.replicate 8 0)

def ccmpLast : RecvFrame :=
  apFrame [0x08, 0x42] myMac [0x51, 0] ([8, 0, 0, 0x20, 0, 0, 0, 0] ++ [3, 4] ++ List.replicate 8 0)

/-- a plaintext fragment in its place, with `0x888e` where the EtherType would be -/
def plainLast : RecvFrame :=
  apFrame [0x08, 0x02] myMac [0x51, 0] [0, 0, 0, 0, 0, 0, 0x88, 0x8e, 3, 4]

theorem defrag_run_samePrivacy_two :
    let r := run DataRun.step (DataRun.init (staAdapter .aes false))
      [.recv acceptAll (fun _ _ => true) ccmpFirst, .recv acceptAll (fun _ _ => true) ccmpLast]
    r.joined.length = 1 ∧ ∀ x ∈ r.joined, x.1.Pairwise SamePrivacy :=
  ⟨by decide, defrag_run_samePrivacy _ _ staAdapter_defragQ (by decide)⟩

/-- the plaintext fragment is let through as EAPOL and joins the protected one -/
theorem defrag_run_mixed :
    ¬ ∀ (a : Adapter) (es : List DataEvent), a.sec.dot11AuthAlgrthm = .ieee8021x →
      a.sec.dot11PrivacyAlgrthm ≠ .noPrivacy →
      (∀ key sta, a.stations key = some sta → sta.defragQ = []) →
      ∀ x ∈ (run DataRun.step (DataRun.init a) es).joined, x.1.Pairwise SamePrivacy := by
  intro h
  have h' := h (staAdapter .aes false)
    [.recv acceptAll (fun _ _ => true) ccmpFirst, .recv acceptAll (fun _ _ => true) plainLast]
    rfl (by decide) staAdapter_defragQ
  exact absurd h' (by decide)

end Rtl8192eu
