import Rtl8192eu.Lib.Run
import Rtl8192eu.Xmit.DataPath

/-!
# The order of the frames of one station and priority

Between entry and bus a frame is with the transmit entry of its station, in its queue, or with the
tasklet.  Read from the bus backwards (`Xmit.flow`), these hold the frames of one station and
priority in the order in which they entered; every step moves them on.

* `XmitOk`       the invariant;
* `aggregate_spec`   the tasklet takes frames from the head of a queue and numbers them;
* `FastPathOk`   a frame is not sent directly past one that the tasklet holds;
* `xmit_in_order`   every run in which this is so.

The fast path looks at the queue only.  A frame that the tasklet has taken out of it and still
copies is overtaken.
-/

namespace Rtl8192eu

open Run

/-! ## where the frames are -/

def OsCtx.frames : OsCtx → List XmitFrame
  | .idle => []
  | .entered f => [f]
  | .direct f => [f]
  | .packed h => [h.frame]

/-- on the fast path -/
def OsCtx.onDirect : OsCtx → List XmitFrame
  | .idle => []
  | .entered _ => []
  | .direct f => [f]
  | .packed h => [h.frame]

/-- before the decision -/
def OsCtx.waiting : OsCtx → List XmitFrame
  | .entered f => [f]
  | _ => []

def OsCtx.hdrs : OsCtx → List TxHdr
  | .packed h => [h]
  | _ => []

def TaskCtx.frames : TaskCtx → List XmitFrame
  | .idle => []
  | .hasBuf => []
  | .got f => [f]
  | .first h => [h.frame]
  | .packed hs => hs.map TxHdr.frame

def TaskCtx.hdrs : TaskCtx → List TxHdr
  | .first h => [h]
  | .packed hs => hs
  | _ => []

def ofKey (k : Nat × Nat) (l : List XmitFrame) : List XmitFrame := l.filter fun f => f.key = k

def hdrsOfKey (k : Nat × Nat) (l : List TxHdr) : List TxHdr := l.filter fun h => h.frame.key = k

namespace Xmit

/-- the frames of one station and priority, from the bus backwards -/
def flow (s : Xmit) (k : Nat × Nat) : List XmitFrame :=
  ofKey k (s.written.map TxHdr.frame) ++ (ofKey k s.task.frames
    ++ (ofKey k (s.servq (k.1, acOf k.2)) ++ ofKey k (s.os k.1).frames))

/-- those that have a sequence number -/
def numbered (s : Xmit) (k : Nat × Nat) : List TxHdr :=
  hdrsOfKey k s.written ++ (hdrsOfKey k s.task.hdrs ++ hdrsOfKey k (s.os k.1).hdrs)

end Xmit

structure XmitOk (s : Xmit) : Prop where
  own : ∀ q, ∀ f ∈ s.servq q, f.servq = q
  osOwn : ∀ sta, ∀ f ∈ (s.os sta).frames, f.sta = sta
  alone : ∀ sta, ∀ f ∈ (s.os sta).onDirect, s.servq f.servq = [] ∧ ofKey f.key s.task.frames = []
  flow : ∀ k, (s.flow k).Sublist (ofKey k s.entered)
  pn : ∀ k, (ofKey k s.entered).Pairwise fun f g => f.pn < g.pn
  pnLe : ∀ f ∈ s.entered, f.pn ≤ s.dot11txpn f.sta
  seq : ∀ k, (s.numbered k).Pairwise fun g h => g.seq < h.seq
  seqLe : ∀ k, ∀ h ∈ s.numbered k, h.seq ≤ s.txseqTid k

/-! ## filters -/

section

variable {k : Nat × Nat} {l l' : List XmitFrame} {f : XmitFrame}

theorem ofKey_append : ofKey k (l ++ l') = ofKey k l ++ ofKey k l' := List.filter_append ..

theorem ofKey_cons : ofKey k (f :: l) = ofKey k [f] ++ ofKey k l := by
  rw [← ofKey_append]
  rfl

theorem ofKey_sublist (h : l.Sublist l') : (ofKey k l).Sublist (ofKey k l') := h.filter _

theorem ofKey_singleton_ne (h : f.key ≠ k) : ofKey k [f] = [] := by simp [ofKey, h]

theorem mem_ofKey : f ∈ ofKey k l ↔ f ∈ l ∧ f.key = k := by simp [ofKey]

theorem hdrsOfKey_append {l l' : List TxHdr} :
    hdrsOfKey k (l ++ l') = hdrsOfKey k l ++ hdrsOfKey k l' :=
  List.filter_append ..

theorem mem_hdrsOfKey {l : List TxHdr} {h : TxHdr} : h ∈ hdrsOfKey k l ↔ h ∈ l ∧ h.frame.key = k := by
  simp [hdrsOfKey]

theorem hdrsOfKey_singleton_sorted {h : TxHdr} : (hdrsOfKey k [h]).Pairwise fun g h => g.seq < h.seq :=
  (List.pairwise_singleton _ h).sublist List.filter_sublist

theorem map_hdrsOfKey {l : List TxHdr} :
    (hdrsOfKey k l).map TxHdr.frame = ofKey k (l.map TxHdr.frame) := by
  simp only [hdrsOfKey, ofKey, List.filter_map]
  rfl

end

/-! ## aggregation -/

section

variable {conf : XmitConf} {qsel : Nat}

theorem coalesce_seq (seq : Nat × Nat → Nat) (f : XmitFrame) (c : Coalesce) (k : Nat × Nat) :
    seq k ≤ (coalesce seq f c).1 k := by
  have hmake : seq k ≤ makeWlanhdr seq f k := by
    unfold makeWlanhdr
    by_cases hk : k = f.key
    · rw [hk, Function.update_self]
      exact Nat.le_succ _
    · exact Nat.le_of_eq (Function.update_of_ne hk ..).symm
  unfold coalesce
  split
  · exact hmake
  · exact hmake
  · exact Nat.le_refl _

theorem coalesce_some {seq seq' : Nat × Nat → Nat} {f : XmitFrame} {c : Coalesce} {h : TxHdr}
    (hc : coalesce seq f c = (seq', some h)) :
    h.frame = f ∧ seq h.frame.key < h.seq ∧ h.seq = seq' h.frame.key := by
  unfold coalesce at hc
  split at hc
  · obtain ⟨rfl, hs⟩ := Prod.mk.inj hc
    obtain rfl := Option.some.inj hs
    refine ⟨rfl, Nat.lt_succ_self _, ?_⟩
    rw [makeWlanhdr, Function.update_self]
  · cases (Prod.mk.inj hc).2
  · cases (Prod.mk.inj hc).2

/-- frames leave the queue at its head, some may be lost; those that are left get the next numbers -/
structure AggOk (seq : Nat × Nat → Nat) (q : List XmitFrame) (r : Agg) : Prop where
  order : (r.taken.map TxHdr.frame ++ r.rest).Sublist q
  mono : ∀ k, seq k ≤ r.seq k
  above : ∀ h ∈ r.taken, seq h.frame.key < h.seq ∧ h.seq ≤ r.seq h.frame.key
  sorted : ∀ k, (hdrsOfKey k r.taken).Pairwise fun g h => g.seq < h.seq

namespace AggOk

variable {seq seq' : Nat × Nat → Nat} {f : XmitFrame} {q : List XmitFrame} {r : Agg} {h : TxHdr}

theorem stop (seq : Nat × Nat → Nat) (q : List XmitFrame) : AggOk seq q ⟨[], q, seq⟩ where
  order := List.Sublist.refl _
  mono := fun _ => Nat.le_refl _
  above := List.forall_mem_nil _
  sorted := fun _ => List.Pairwise.nil

/-- a frame that cannot be copied -/
theorem skip (hmono : ∀ k, seq k ≤ seq' k) (ok : AggOk seq' q r) : AggOk seq (f :: q) r where
  order := ok.order.cons f
  mono := fun k => Nat.le_trans (hmono k) (ok.mono k)
  above := by
    intro g hg
    obtain ⟨h1, h2⟩ := ok.above g hg
    exact ⟨Nat.lt_of_le_of_lt (hmono g.frame.key) h1, h2⟩
  sorted := ok.sorted

/-- a frame that goes into the buffer: what follows has higher numbers -/
theorem take (hmono : ∀ k, seq k ≤ seq' k) (hf : h.frame = f) (hlt : seq h.frame.key < h.seq)
    (heq : h.seq = seq' h.frame.key) (ok : AggOk seq' q r) :
    AggOk seq (f :: q) ⟨h :: r.taken, r.rest, r.seq⟩ where
  order := by
    rw [List.map_cons, hf]
    exact ok.order.cons_cons f
  mono := fun k => Nat.le_trans (hmono k) (ok.mono k)
  above := by
    intro g hg
    rcases List.mem_cons.mp hg with rfl | hg
    · exact ⟨hlt, heq ▸ ok.mono _⟩
    · exact (ok.skip (f := f) hmono).above g hg
  sorted := by
    intro k
    by_cases hk : h.frame.key = k
    · rw [hdrsOfKey, List.filter_cons_of_pos (by simpa using hk)]
      refine List.Pairwise.cons ?_ (ok.sorted k)
      intro g hg
      obtain ⟨hg, hgk⟩ := mem_hdrsOfKey.mp hg
      have := (ok.above g hg).1
      rw [hgk, ← hk, ← heq] at this
      exact this
    · rw [hdrsOfKey, List.filter_cons_of_neg (by simpa using hk)]
      exact ok.sorted k

end AggOk

theorem aggregate_spec (st : AggState) (seq : Nat × Nat → Nat) (q : List XmitFrame)
    (cs : List Coalesce) : AggOk seq q (aggregate conf qsel st seq q cs) := by
  induction q generalizing st seq cs with
  | nil => exact AggOk.stop seq []
  | cons f q ih =>
    unfold aggregate
    dsimp only
    split
    · exact AggOk.stop seq (f :: q)
    split
    · exact AggOk.stop seq (f :: q)
    have hmono := coalesce_seq seq f (cs.headD .ok)
    split
    · rename_i seq' hc
      rw [hc] at hmono
      exact (ih st seq' cs.tail).skip hmono
    · rename_i seq' h hc
      rw [hc] at hmono
      obtain ⟨hf, hlt, heq⟩ := coalesce_some hc
      split
      · exact (AggOk.stop seq' q).take hmono hf hlt heq
      · rename_i st' _
        exact (ih st' seq' cs.tail).take hmono hf hlt heq

end

/-! ## moves -/

theorem ofKey_eq_nil {k : Nat × Nat} {l : List XmitFrame} (h : ∀ f ∈ l, f.key ≠ k) :
    ofKey k l = [] := by
  simpa [ofKey] using h

/-- the numbers that follow -/
theorem pairwise_snoc {l l' : List TxHdr} {n : Nat} (hl : l.Pairwise fun g h => g.seq < h.seq)
    (hle : ∀ h ∈ l, h.seq ≤ n) (hl' : l'.Pairwise fun g h => g.seq < h.seq)
    (hlt : ∀ h ∈ l', n < h.seq) : (l ++ l').Pairwise fun g h => g.seq < h.seq := by
  rw [List.pairwise_append]
  exact ⟨hl, hl', fun g hg h hh => Nat.lt_of_le_of_lt (hle g hg) (hlt h hh)⟩

theorem servq_of_key {f : XmitFrame} {k : Nat × Nat} (h : f.key = k) : f.servq = (k.1, acOf k.2) := by
  rw [← h]
  rfl

/-- numbered frames are held -/
theorem TaskCtx.hdrs_nil {c : TaskCtx} {k : Nat × Nat} (h : ofKey k c.frames = []) :
    hdrsOfKey k c.hdrs = [] := by
  have hm : ofKey k (c.hdrs.map TxHdr.frame) = [] := by
    cases c with
    | idle => rfl
    | hasBuf => rfl
    | got f => rfl
    | first h' => exact h
    | packed hs => exact h
  rw [← map_hdrsOfKey] at hm
  exact List.map_eq_nil_iff.mp hm

theorem OsCtx.hdrs_nil {c : OsCtx} {k : Nat × Nat} (h : ∀ f ∈ c.onDirect, f.key ≠ k) :
    hdrsOfKey k c.hdrs = [] := by
  cases c with
  | idle => rfl
  | entered f => rfl
  | direct f => rfl
  | packed h' => simpa [hdrsOfKey, hdrs, onDirect] using h

theorem OsCtx.onDirect_frames {c : OsCtx} {f : XmitFrame} (h : f ∈ c.onDirect) : f ∈ c.frames := by
  cases c with
  | idle => exact h
  | entered f => cases h
  | direct f => exact h
  | packed h' => exact h

namespace XmitOk

variable {conf : XmitConf} {s s' : Xmit} {f : XmitFrame} {sta : Nat}

/-- the context of a station is replaced -/
theorem osOwn_update {c : OsCtx} (h : XmitOk s) (hc : ∀ g ∈ c.frames, g.sta = sta) (p : Nat) :
    ∀ g ∈ (Function.update s.os sta c p).frames, g.sta = p := by
  by_cases hp : p = sta
  · rw [hp, Function.update_self]
    exact hc
  · rw [Function.update_of_ne hp]
    exact h.osOwn p

theorem alone_update_os {c : OsCtx} (h : XmitOk s)
    (hc : ∀ g ∈ c.onDirect, s.servq g.servq = [] ∧ ofKey g.key s.task.frames = []) (p : Nat) :
    ∀ g ∈ (Function.update s.os sta c p).onDirect,
      s.servq g.servq = [] ∧ ofKey g.key s.task.frames = [] := by
  by_cases hp : p = sta
  · rw [hp, Function.update_self]
    exact hc
  · rw [Function.update_of_ne hp]
    exact h.alone p

/-- a new frame is the last one -/
theorem enter_frame (h : XmitOk s) (hidle : s.os f.sta = .idle) (hpn : f.pn = s.dot11txpn f.sta + 1)
    (hservq : s'.servq = s.servq) (htask : s'.task = s.task) (hwr : s'.written = s.written)
    (hseq : s'.txseqTid = s.txseqTid) (hos : s'.os = Function.update s.os f.sta (.entered f))
    (hent : s'.entered = s.entered ++ [f])
    (hpn' : s'.dot11txpn = Function.update s.dot11txpn f.sta f.pn) : XmitOk s' := by
  -- what the context of a station has besides the new frame
  have hframes : ∀ k : Nat × Nat,
      ofKey k (s'.os k.1).frames = ofKey k (s.os k.1).frames ++ ofKey k [f] := by
    intro k
    rw [hos]
    by_cases hk : k.1 = f.sta
    · rw [hk, Function.update_self, hidle]
      rfl
    · rw [Function.update_of_ne hk, ofKey_singleton_ne fun e => hk (congrArg Prod.fst e).symm,
        List.append_nil]
  have hflow : ∀ k, s'.flow k = s.flow k ++ ofKey k [f] := by
    intro k
    rw [Xmit.flow, Xmit.flow, hservq, htask, hwr, hframes]
    simp only [List.append_assoc]
  have hnum : ∀ k, s'.numbered k = s.numbered k := by
    intro k
    have : (s'.os k.1).hdrs = (s.os k.1).hdrs := by
      rw [hos]
      by_cases hk : k.1 = f.sta
      · rw [hk, Function.update_self, hidle]
        rfl
      · rw [Function.update_of_ne hk]
    rw [Xmit.numbered, Xmit.numbered, htask, hwr, this]
  have hle : ∀ g ∈ s.entered, g.sta = f.sta → g.pn < f.pn := by
    intro g hg hs
    have := h.pnLe g hg
    rw [hs] at this
    omega
  refine ⟨?_, ?_, ?_, ?_, ?_, ?_, ?_, ?_⟩
  · rw [hservq]
    exact h.own
  · rw [hos]
    exact h.osOwn_update fun g hg => by rw [List.mem_singleton.mp hg]
  · rw [hos, hservq, htask]
    exact h.alone_update_os fun g hg => by cases hg
  · intro k
    rw [hflow, hent, ofKey_append]
    exact (h.flow k).append (List.Sublist.refl _)
  · intro k
    rw [hent, ofKey_append, List.pairwise_append]
    refine ⟨h.pn k, (List.pairwise_singleton _ f).sublist List.filter_sublist, ?_⟩
    intro g hg x hx
    obtain ⟨hg, hgk⟩ := mem_ofKey.mp hg
    obtain ⟨hx, hxk⟩ := mem_ofKey.mp hx
    rw [List.mem_singleton.mp hx] at hxk ⊢
    exact hle g hg (congrArg Prod.fst (hgk.trans hxk.symm))
  · rw [hent, hpn']
    intro g hg
    by_cases hs : g.sta = f.sta
    · rw [hs, Function.update_self]
      rcases List.mem_append.mp hg with hg | hg
      · exact Nat.le_of_lt (hle g hg hs)
      · exact Nat.le_of_eq (congrArg XmitFrame.pn (List.mem_singleton.mp hg))
    · rw [Function.update_of_ne hs]
      rcases List.mem_append.mp hg with hg | hg
      · exact h.pnLe g hg
      · exact absurd (by rw [List.mem_singleton.mp hg]) hs
  · intro k
    rw [hnum]
    exact h.seq k
  · intro k
    rw [hnum, hseq]
    exact h.seqLe k

theorem enter (h : XmitOk s) (req : XmitReq) : XmitOk (s.enter req) := by
  unfold Xmit.enter
  split
  · rename_i hidle
    exact h.enter_frame
      (f := ⟨req.sta, req.priority, s.dot11txpn req.sta + 1, req.pktSize, req.qsel⟩) hidle rfl rfl rfl
      rfl rfl rfl rfl rfl
  · exact h

/-- no frame enters; the frames of `new` get their numbers -/
theorem move_number (new : List TxHdr) (h : XmitOk s) (hent : s'.entered = s.entered)
    (hpn : s'.dot11txpn = s.dot11txpn) (hown : ∀ q, ∀ f ∈ s'.servq q, f.servq = q)
    (hos : ∀ sta, ∀ f ∈ (s'.os sta).frames, f.sta = sta)
    (halone : ∀ sta, ∀ f ∈ (s'.os sta).onDirect,
      s'.servq f.servq = [] ∧ ofKey f.key s'.task.frames = [])
    (hflow : ∀ k, (s'.flow k).Sublist (s.flow k)) (hmono : ∀ k, s.txseqTid k ≤ s'.txseqTid k)
    (hnum : ∀ k, s'.numbered k = s.numbered k ++ hdrsOfKey k new)
    (hnew : ∀ h ∈ new, s.txseqTid h.frame.key < h.seq ∧ h.seq ≤ s'.txseqTid h.frame.key)
    (hsorted : ∀ k, (hdrsOfKey k new).Pairwise fun g h => g.seq < h.seq) : XmitOk s' := by
  refine ⟨hown, hos, halone, ?_, ?_, ?_, ?_, ?_⟩
  · rw [hent]
    exact fun k => (hflow k).trans (h.flow k)
  · rw [hent]
    exact h.pn
  · rw [hent, hpn]
    exact h.pnLe
  · intro k
    rw [hnum]
    refine pairwise_snoc (h.seq k) (h.seqLe k) (hsorted k) ?_
    intro g hg
    obtain ⟨hg, hk⟩ := mem_hdrsOfKey.mp hg
    rw [← hk]
    exact (hnew g hg).1
  · intro k g hg
    rw [hnum] at hg
    rcases List.mem_append.mp hg with hg | hg
    · exact Nat.le_trans (h.seqLe k g hg) (hmono k)
    · obtain ⟨hg, hk⟩ := mem_hdrsOfKey.mp hg
      rw [← hk]
      exact (hnew g hg).2

theorem move (h : XmitOk s) (hent : s'.entered = s.entered) (hpn : s'.dot11txpn = s.dot11txpn)
    (hown : ∀ q, ∀ f ∈ s'.servq q, f.servq = q)
    (hos : ∀ sta, ∀ f ∈ (s'.os sta).frames, f.sta = sta)
    (halone : ∀ sta, ∀ f ∈ (s'.os sta).onDirect,
      s'.servq f.servq = [] ∧ ofKey f.key s'.task.frames = [])
    (hflow : ∀ k, (s'.flow k).Sublist (s.flow k)) (hmono : ∀ k, s.txseqTid k ≤ s'.txseqTid k)
    (hnum : ∀ k, s'.numbered k = s.numbered k) : XmitOk s' := by
  refine h.move_number [] hent hpn hown hos halone hflow hmono ?_ ?_ ?_
  · intro k
    rw [hnum]
    exact (List.append_nil _).symm
  · intro g hg
    cases hg
  · intro k
    exact List.Pairwise.nil

/-! ## the transmit entry -/

/-- the context of a station changes, and nothing else that holds frames -/
theorem os_frames {c : OsCtx} (c' : OsCtx) (hc : s.os sta = c) (hsub : c'.frames.Sublist c.frames)
    (k : Nat × Nat) :
    (ofKey k (Function.update s.os sta c' k.1).frames).Sublist (ofKey k (s.os k.1).frames) := by
  by_cases hk : k.1 = sta
  · rw [hk, Function.update_self, hc]
    exact ofKey_sublist hsub
  · rw [Function.update_of_ne hk]

theorem flow_os {c : OsCtx} (c' : OsCtx) (hc : s.os sta = c) (hsub : c'.frames.Sublist c.frames)
    (k : Nat × Nat) : ((s.setOs sta c').flow k).Sublist (s.flow k) :=
  (List.Sublist.refl _).append ((List.Sublist.refl _).append
    ((List.Sublist.refl _).append (os_frames c' hc hsub k)))

theorem os_hdrs {c : OsCtx} (c' : OsCtx) (hc : s.os sta = c) (hh : c'.hdrs = c.hdrs)
    (k : Nat × Nat) :
    (Function.update s.os sta c' k.1).hdrs = (s.os k.1).hdrs := by
  by_cases hk : k.1 = sta
  · rw [hk, Function.update_self, hc, hh]
  · rw [Function.update_of_ne hk]

theorem preEnqueue (h : XmitOk s) (hf : s.os sta = .entered f) :
    XmitOk ((s.rtwXmitframeEnqueue f).setOs sta .idle) := by
  have hsta : f.sta = sta := h.osOwn sta f (by rw [hf]; exact List.mem_singleton_self f)
  have hnum : ∀ k, ((s.rtwXmitframeEnqueue f).setOs sta .idle).numbered k = s.numbered k := by
    intro k
    show _ ++ (_ ++ hdrsOfKey k (Function.update s.os sta .idle k.1).hdrs) = _
    rw [os_hdrs .idle hf rfl]
    rfl
  refine h.move rfl rfl ?_ ?_ ?_ ?_ (fun _ => Nat.le_refl _) hnum
  · intro q g hg
    replace hg : g ∈ Function.update s.servq f.servq (s.servq f.servq ++ [f]) q := hg
    by_cases hq : q = f.servq
    · rw [hq, Function.update_self] at hg
      rcases List.mem_append.mp hg with hg | hg
      · rw [hq]
        exact h.own _ g hg
      · rw [hq, List.mem_singleton.mp hg]
    · rw [Function.update_of_ne hq] at hg
      exact h.own q g hg
  · exact h.osOwn_update fun g hg => by cases hg
  · intro p g hg
    replace hg : g ∈ (Function.update s.os sta .idle p).onDirect := hg
    by_cases hp : p = sta
    · rw [hp, Function.update_self] at hg
      cases hg
    · rw [Function.update_of_ne hp] at hg
      obtain ⟨h1, h2⟩ := h.alone p g hg
      refine ⟨?_, h2⟩
      have hne : g.servq ≠ f.servq := by
        intro e
        apply hp
        rw [← h.osOwn p g (OsCtx.onDirect_frames hg), ← hsta]
        exact congrArg Prod.fst e
      show Function.update s.servq f.servq _ g.servq = []
      rw [Function.update_of_ne hne]
      exact h1
  · intro k
    refine (List.Sublist.refl _).append ((List.Sublist.refl _).append ?_)
    show (ofKey k (Function.update s.servq f.servq _ (k.1, acOf k.2))
      ++ ofKey k (Function.update s.os sta .idle k.1).frames).Sublist _
    by_cases hk : f.key = k
    · -- the frame goes from the context to the end of the queue
      have hk1 : k.1 = sta := by rw [← hk]; exact hsta
      rw [← servq_of_key hk, Function.update_self, hk1, Function.update_self, hf, ofKey_append]
      simp [OsCtx.frames, ofKey]
    · refine List.Sublist.append ?_ (os_frames .idle hf (List.nil_sublist _) k)
      by_cases hq : (k.1, acOf k.2) = f.servq
      · rw [hq, Function.update_self, ofKey_append, ofKey_singleton_ne hk, List.append_nil]
      · rw [Function.update_of_ne hq]

theorem preDirect {n : Nat} (h : XmitOk s) (hf : s.os sta = .entered f)
    (hempty : s.servq f.servq = []) (htask : ofKey f.key s.task.frames = []) :
    XmitOk ({ s with freeXmitbuf := n }.setOs sta (.direct f)) := by
  have hnum : ∀ k, ({ s with freeXmitbuf := n }.setOs sta (.direct f)).numbered k = s.numbered k := by
    intro k
    show _ ++ (_ ++ hdrsOfKey k (Function.update s.os sta (.direct f) k.1).hdrs) = _
    rw [os_hdrs (.direct f) hf rfl]
    rfl
  refine h.move rfl rfl h.own ?_ ?_ ?_ (fun _ => Nat.le_refl _) hnum
  · exact h.osOwn_update fun g hg => h.osOwn sta g (by rw [hf]; exact hg)
  · apply h.alone_update_os
    intro g hg
    rw [List.mem_singleton.mp hg]
    exact ⟨hempty, htask⟩
  · exact flow_os (.direct f) hf (List.Sublist.refl _)

theorem preXmitframe {o : PreOracle} (h : XmitOk s)
    (hC : ∀ f ∈ (s.os sta).waiting, s.mustEnqueue f o = false → ofKey f.key s.task.frames = []) :
    XmitOk (s.preXmitframe sta o) := by
  unfold Xmit.preXmitframe
  split
  · rename_i f hf
    split
    · exact h.preEnqueue hf
    · rename_i hq
      have hq : s.mustEnqueue f o = false := by simpa using hq
      have hempty : s.servq f.servq = [] := by
        simp only [Xmit.mustEnqueue, Bool.or_eq_false_iff, decide_eq_false_iff_not] at hq
        exact List.length_eq_zero_iff.mp (Nat.eq_zero_of_not_pos hq.1.1.1)
      exact h.preDirect hf hempty (hC f (by rw [hf]; exact List.mem_singleton_self f) hq)
  · exact h

/-- the frame on the fast path goes away, or gets its header -/
theorem osCoalesce (h : XmitOk s) (c : Coalesce) : XmitOk (s.osCoalesce sta c) := by
  unfold Xmit.osCoalesce
  split
  · rename_i f hf
    have hmono := coalesce_seq s.txseqTid f c
    have hsta : f.sta = sta := h.osOwn sta f (by rw [hf]; exact List.mem_singleton_self f)
    split
    · rename_i seq hd hc
      rw [hc] at hmono
      obtain ⟨hfr, hlt, heq⟩ := coalesce_some hc
      have hnum : ∀ k, ({ s with txseqTid := seq }.setOs sta (.packed hd)).numbered k
          = s.numbered k ++ hdrsOfKey k [hd] := by
        intro k
        show hdrsOfKey k s.written ++ (hdrsOfKey k s.task.hdrs
          ++ hdrsOfKey k (Function.update s.os sta (.packed hd) k.1).hdrs) = _
        by_cases hk : k.1 = sta
        · rw [Xmit.numbered, hk, Function.update_self, hf]
          simp [OsCtx.hdrs, hdrsOfKey]
        · have hne : hd.frame.key ≠ k := fun e => hk (by rw [← e, hfr]; exact hsta)
          rw [Xmit.numbered, Function.update_of_ne hk]
          simp [hdrsOfKey, hne]
      refine h.move_number [hd] rfl rfl h.own ?_ ?_ ?_ hmono hnum ?_ fun _ => hdrsOfKey_singleton_sorted
      · apply h.osOwn_update
        intro g hg
        rw [List.mem_singleton.mp hg, hfr, hsta]
      · apply h.alone_update_os
        intro g hg
        rw [List.mem_singleton.mp hg, hfr]
        exact h.alone sta f (by rw [hf]; exact List.mem_singleton_self f)
      · apply flow_os (.packed hd) hf
        show [hd.frame].Sublist [f]
        rw [hfr]
      · intro g hg
        rw [List.mem_singleton.mp hg]
        exact ⟨hlt, Nat.le_of_eq heq⟩
    · rename_i seq hc
      rw [hc] at hmono
      have hnum : ∀ k, ({ s with txseqTid := seq, freeXmitbuf := s.freeXmitbuf + 1 }.setOs sta
          .idle).numbered k = s.numbered k := by
        intro k
        show _ ++ (_ ++ hdrsOfKey k (Function.update s.os sta .idle k.1).hdrs) = _
        rw [os_hdrs .idle hf rfl]
        rfl
      refine h.move rfl rfl h.own ?_ ?_ ?_ hmono hnum
      · exact h.osOwn_update fun g hg => by cases hg
      · exact h.alone_update_os fun g hg => by cases hg
      · exact flow_os .idle hf (List.nil_sublist _)
  · exact h

/-- nothing of the station and priority is between the frame and the bus -/
theorem osWrite (h : XmitOk s) : XmitOk (s.osWrite sta) := by
  unfold Xmit.osWrite
  split
  · rename_i hd hf
    have hsta : hd.frame.sta = sta := h.osOwn sta hd.frame (by rw [hf]; exact List.mem_singleton_self _)
    obtain ⟨hq, ht⟩ := h.alone sta hd.frame (by rw [hf]; exact List.mem_singleton_self _)
    have htask : ∀ k, hd.frame.key = k → ofKey k s.task.frames = [] := by
      rintro k rfl
      exact ht
    have hkey : ∀ k : Nat × Nat, hd.frame.key = k → k.1 = sta := by
      rintro k rfl
      exact hsta
    have hnum : ∀ k, ({ s with written := s.written ++ [hd] }.setOs sta .idle).numbered k
        = s.numbered k := by
      intro k
      show hdrsOfKey k (s.written ++ [hd]) ++ (hdrsOfKey k s.task.hdrs
        ++ hdrsOfKey k (Function.update s.os sta .idle k.1).hdrs) = _
      rw [hdrsOfKey_append, Xmit.numbered]
      by_cases hk : hd.frame.key = k
      · rw [hkey k hk, Function.update_self, hf, TaskCtx.hdrs_nil (htask k hk)]
        simp [OsCtx.hdrs, hdrsOfKey]
      · have hnil : hdrsOfKey k [hd] = [] := by simp [hdrsOfKey, hk]
        have hos : hdrsOfKey k (Function.update s.os sta .idle k.1).hdrs
            = hdrsOfKey k (s.os k.1).hdrs := by
          by_cases hs : k.1 = sta
          · rw [hs, Function.update_self, hf]
            exact hnil.symm
          · rw [Function.update_of_ne hs]
        rw [hnil, hos, List.append_nil]
    refine h.move rfl rfl h.own ?_ ?_ ?_ (fun _ => Nat.le_refl _) hnum
    · exact h.osOwn_update fun g hg => by cases hg
    · exact h.alone_update_os fun g hg => by cases hg
    · intro k
      show (ofKey k ((s.written ++ [hd]).map TxHdr.frame) ++ (ofKey k s.task.frames
        ++ (ofKey k (s.servq (k.1, acOf k.2))
          ++ ofKey k (Function.update s.os sta .idle k.1).frames))).Sublist _
      rw [List.map_append, ofKey_append]
      by_cases hk : hd.frame.key = k
      · rw [Xmit.flow, ← servq_of_key hk, hq, hkey k hk, Function.update_self, hf, htask k hk]
        simp [OsCtx.frames, ofKey]
      · rw [show ofKey k ([hd].map TxHdr.frame) = [] from ofKey_singleton_ne hk, List.append_nil]
        exact (List.Sublist.refl _).append ((List.Sublist.refl _).append
          ((List.Sublist.refl _).append (os_frames .idle hf (List.nil_sublist _) k)))
  · exact h

/-! ## the tasklet -/

/-- no frame with the tasklet, before and after -/
theorem taskEmpty {c : TaskCtx} {n : Nat} (h : XmitOk s) (ht : s.task.frames = [])
    (hc : c.frames = []) : XmitOk { s with task := c, freeXmitbuf := n } := by
  have hnum : ∀ k, { s with task := c, freeXmitbuf := n }.numbered k = s.numbered k := by
    intro k
    have h1 : hdrsOfKey k s.task.hdrs = [] := TaskCtx.hdrs_nil (by rw [ht]; rfl)
    have h2 : hdrsOfKey k c.hdrs = [] := TaskCtx.hdrs_nil (by rw [hc]; rfl)
    rw [Xmit.numbered, Xmit.numbered, h1, h2]
  refine h.move rfl rfl h.own h.osOwn ?_ ?_ (fun _ => Nat.le_refl _) hnum
  · intro p g hg
    refine ⟨(h.alone p g hg).1, ?_⟩
    show ofKey g.key c.frames = []
    rw [hc]
    rfl
  · intro k
    rw [Xmit.flow, Xmit.flow, ht, hc]

theorem taskStart (h : XmitOk s) : XmitOk s.taskStart := by
  unfold Xmit.taskStart
  split
  · rename_i ht
    split
    · exact h
    · exact h.taskEmpty (by rw [ht]; rfl) rfl
  · exact h

theorem rtwDequeueXframe_some {k : Nat × Ac} {q : List XmitFrame}
    (hd : s.rtwDequeueXframe conf = some (k, f, q)) : s.servq k = f :: q := by
  obtain ⟨ac, _, hac⟩ := List.exists_of_findSome?_eq_some hd
  obtain ⟨sta, _, hsta⟩ := List.exists_of_findSome?_eq_some hac
  split at hsta
  · cases hsta
  · rename_i g q' hq
    obtain ⟨rfl, hfq⟩ := Prod.mk.inj (Option.some.inj hsta)
    obtain ⟨rfl, rfl⟩ := Prod.mk.inj hfq
    exact hq

/-- a queue that shrinks -/
theorem own_update {k : Nat × Ac} {q : List XmitFrame} (h : XmitOk s) (hq : q.Sublist (s.servq k)) :
    ∀ q', ∀ g ∈ Function.update s.servq k q q', g.servq = q' := by
  intro q' g hg
  by_cases hk : q' = k
  · rw [hk, Function.update_self] at hg
    rw [hk]
    exact h.own k g (hq.subset hg)
  · rw [Function.update_of_ne hk] at hg
    exact h.own q' g hg

/-- a frame on the fast path has no frame of its station and priority in any queue -/
theorem alone_queue (h : XmitOk s) (hf : f ∈ (s.os sta).onDirect) (q : Nat × Ac) :
    ofKey f.key (s.servq q) = [] := by
  refine ofKey_eq_nil fun g hg e => ?_
  have hq : f.servq = q := by
    rw [← h.own q g hg]
    exact (servq_of_key e).symm
  have hempty := (h.alone sta f hf).1
  rw [hq] at hempty
  rw [hempty] at hg
  cases hg

theorem other_queue {k : Nat × Nat} {q : Nat × Ac} (h : XmitOk s) (hne : (k.1, acOf k.2) ≠ q) :
    ofKey k (s.servq q) = [] := by
  refine ofKey_eq_nil fun g hg e => hne ?_
  rw [← h.own q g hg]
  exact (servq_of_key e).symm

theorem alone_update {k : Nat × Ac} {q : List XmitFrame} (h : XmitOk s) (hq : q.Sublist (s.servq k))
    (hf : f ∈ (s.os sta).onDirect) : Function.update s.servq k q f.servq = [] := by
  have hempty := (h.alone sta f hf).1
  by_cases hk : f.servq = k
  · rw [hk, Function.update_self]
    rw [← hk, hempty] at hq
    exact List.sublist_nil.mp hq
  · rw [Function.update_of_ne hk]
    exact hempty

theorem taskDequeue (h : XmitOk s) : XmitOk (s.taskDequeue conf) := by
  unfold Xmit.taskDequeue
  split
  · rename_i ht
    split
    · exact h.taskEmpty (by rw [ht]; rfl) rfl
    · rename_i k f q hd
      have hq := rtwDequeueXframe_some hd
      have hsub : q.Sublist (s.servq k) := by
        rw [hq]
        exact List.sublist_cons_self f q
      have hf : f.servq = k := h.own k f (by rw [hq]; exact List.mem_cons_self)
      generalize (if q = [] then Xmit.unlinkSta s.staQueue k else s.staQueue) = staQueue
      have hnum : ∀ k', ({ s with task := .got f, servq := Function.update s.servq k q, staQueue } :
          Xmit).numbered k' = s.numbered k' := by
        intro k'
        rw [Xmit.numbered, Xmit.numbered, ht]
        rfl
      refine h.move rfl rfl (h.own_update hsub) h.osOwn ?_ ?_ (fun _ => Nat.le_refl _) hnum
      · intro p g hg
        refine ⟨h.alone_update hsub hg, ofKey_singleton_ne fun e => ?_⟩
        have hmem : f ∈ ofKey g.key (s.servq k) := by
          rw [hq, mem_ofKey]
          exact ⟨List.mem_cons_self, e⟩
        rw [h.alone_queue hg k] at hmem
        cases hmem
      · intro k'
        rw [Xmit.flow, Xmit.flow, ht]
        refine (List.Sublist.refl _).append ?_
        show (ofKey k' [f] ++ (ofKey k' (Function.update s.servq k q (k'.1, acOf k'.2)) ++ _)).Sublist
          (ofKey k' (s.servq (k'.1, acOf k'.2)) ++ _)
        rw [← List.append_assoc]
        refine List.Sublist.append ?_ (List.Sublist.refl _)
        by_cases hk : (k'.1, acOf k'.2) = k
        · rw [hk, Function.update_self, hq, ← ofKey_cons]
        · have hne : f.key ≠ k' := fun e => hk ((servq_of_key e).symm.trans hf)
          rw [Function.update_of_ne hk, ofKey_singleton_ne hne, List.nil_append]
  · exact h

/-- frames that get their numbers with the tasklet: none is of a station and priority on the fast
path -/
theorem numbered_task {new : List TxHdr} (hwr : s'.written = s.written) (hos : s'.os = s.os)
    (ht : s'.task.hdrs = s.task.hdrs ++ new)
    (hnone : ∀ p, ∀ g ∈ (s.os p).onDirect, ofKey g.key (new.map TxHdr.frame) = []) (k : Nat × Nat) :
    s'.numbered k = s.numbered k ++ hdrsOfKey k new := by
  rw [Xmit.numbered, Xmit.numbered, hwr, hos, ht, hdrsOfKey_append]
  by_cases hk : ∃ g ∈ (s.os k.1).onDirect, g.key = k
  · obtain ⟨g, hg, e⟩ := hk
    have hnil : hdrsOfKey k new = [] := by
      have := hnone k.1 g hg
      rw [e, ← map_hdrsOfKey] at this
      exact List.map_eq_nil_iff.mp this
    rw [hnil, List.append_nil, List.append_nil]
  · have hos : hdrsOfKey k (s.os k.1).hdrs = [] := OsCtx.hdrs_nil fun g hg e => hk ⟨g, hg, e⟩
    simp only [hos, List.append_nil, List.append_assoc]

theorem taskCoalesce (h : XmitOk s) (c : Coalesce) : XmitOk (s.taskCoalesce c) := by
  unfold Xmit.taskCoalesce
  split
  · rename_i f ht
    have hmono := coalesce_seq s.txseqTid f c
    split
    · rename_i seq hd hc
      rw [hc] at hmono
      obtain ⟨hfr, hlt, heq⟩ := coalesce_some hc
      have hframes : (TaskCtx.first hd).frames = s.task.frames := by
        rw [ht]
        show [hd.frame] = [f]
        rw [hfr]
      refine h.move_number [hd] rfl rfl h.own h.osOwn ?_ ?_ hmono ?_ ?_
        fun _ => hdrsOfKey_singleton_sorted
      · intro p g hg
        show _ ∧ ofKey g.key (TaskCtx.first hd).frames = []
        rw [hframes]
        exact h.alone p g hg
      · intro k
        show (_ ++ (ofKey k (TaskCtx.first hd).frames ++ _)).Sublist _
        rw [hframes]
        exact List.Sublist.refl _
      · refine numbered_task rfl rfl ?_ ?_
        · rw [ht]
          rfl
        · intro p g hg
          have hno := (h.alone p g hg).2
          rw [← hframes] at hno
          exact hno
      · intro g hg
        rw [List.mem_singleton.mp hg]
        exact ⟨hlt, Nat.le_of_eq heq⟩
    · rename_i seq hc
      rw [hc] at hmono
      refine h.move rfl rfl h.own h.osOwn (fun p g hg => ⟨(h.alone p g hg).1, rfl⟩) ?_ hmono ?_
      · intro k
        refine (List.Sublist.refl _).append ?_
        exact List.Sublist.append (List.nil_sublist _) (List.Sublist.refl _)
      · intro k
        rw [Xmit.numbered, Xmit.numbered, ht]
        rfl
  · exact h

/-- what the tasklet takes and leaves of a queue -/
theorem flow_agg {q : Nat × Ac} {taken rest : List XmitFrame} (h : XmitOk s)
    (hsub : (taken ++ rest).Sublist (s.servq q)) (k : Nat × Nat) :
    (ofKey k taken ++ ofKey k (Function.update s.servq q rest (k.1, acOf k.2))).Sublist
      (ofKey k (s.servq (k.1, acOf k.2))) := by
  by_cases hq : (k.1, acOf k.2) = q
  · rw [hq, Function.update_self, ← ofKey_append]
    exact ofKey_sublist hsub
  · have htaken : ofKey k taken = [] := by
      have := ofKey_sublist (k := k) ((List.sublist_append_left taken rest).trans hsub)
      rw [h.other_queue hq] at this
      exact List.sublist_nil.mp this
    rw [Function.update_of_ne hq, htaken, List.nil_append]

theorem taskAgg (h : XmitOk s) (cs : List Coalesce) : XmitOk (s.taskAgg conf cs) := by
  unfold Xmit.taskAgg
  split
  · rename_i hd ht
    dsimp only
    generalize hr : aggregate conf hd.frame.qsel (aggInit conf hd.frame) s.txseqTid
      (s.servq hd.frame.servq) cs = r
    have hagg : AggOk s.txseqTid (s.servq hd.frame.servq) r := by
      rw [← hr]
      exact aggregate_spec ..
    have hrest : r.rest.Sublist (s.servq hd.frame.servq) :=
      (List.sublist_append_right _ _).trans hagg.order
    have htaken : (r.taken.map TxHdr.frame).Sublist (s.servq hd.frame.servq) :=
      (List.sublist_append_left _ _).trans hagg.order
    -- a station and priority on the fast path has no frame in this queue
    have hnone : ∀ p, ∀ g ∈ (s.os p).onDirect, ofKey g.key (r.taken.map TxHdr.frame) = [] := by
      intro p g hg
      have := ofKey_sublist (k := g.key) htaken
      rw [h.alone_queue hg] at this
      exact List.sublist_nil.mp this
    refine h.move_number r.taken rfl rfl (h.own_update hrest) h.osOwn ?_ ?_ hagg.mono ?_ hagg.above
      hagg.sorted
    · intro p g hg
      refine ⟨h.alone_update hrest hg, ?_⟩
      have hfirst := (h.alone p g hg).2
      rw [ht] at hfirst
      show ofKey g.key (hd.frame :: r.taken.map TxHdr.frame) = []
      rw [ofKey_cons, hnone p g hg, List.append_nil]
      exact hfirst
    · intro k
      rw [Xmit.flow, Xmit.flow, ht]
      refine (List.Sublist.refl _).append ?_
      show (ofKey k (hd.frame :: r.taken.map TxHdr.frame) ++ (ofKey k (Function.update s.servq
        hd.frame.servq r.rest (k.1, acOf k.2)) ++ _)).Sublist (ofKey k [hd.frame] ++ (_ ++ _))
      rw [ofKey_cons, List.append_assoc]
      refine (List.Sublist.refl _).append ?_
      rw [← List.append_assoc]
      exact (h.flow_agg hagg.order k).append (List.Sublist.refl _)
    · refine numbered_task rfl rfl ?_ hnone
      rw [ht]
      rfl
  · exact h

theorem taskWrite (h : XmitOk s) : XmitOk s.taskWrite := by
  unfold Xmit.taskWrite
  split
  · rename_i hs ht
    refine h.move rfl rfl h.own h.osOwn (fun p g hg => ⟨(h.alone p g hg).1, rfl⟩) ?_
      (fun _ => Nat.le_refl _) ?_
    · intro k
      rw [Xmit.flow, Xmit.flow, ht]
      show (ofKey k ((s.written ++ hs).map TxHdr.frame) ++ ([] ++ _)).Sublist
        (_ ++ (ofKey k (hs.map TxHdr.frame) ++ _))
      rw [List.map_append, ofKey_append, List.nil_append, List.append_assoc]
    · intro k
      rw [Xmit.numbered, Xmit.numbered, ht]
      show hdrsOfKey k (s.written ++ hs) ++ ([] ++ _) = _ ++ (hdrsOfKey k hs ++ _)
      rw [hdrsOfKey_append, List.nil_append, List.append_assoc]
  · exact h

theorem bufDone {n : Nat} (h : XmitOk s) : XmitOk { s with freeXmitbuf := n } :=
  h.move rfl rfl h.own h.osOwn h.alone (fun _ => List.Sublist.refl _) (fun _ => Nat.le_refl _)
    fun _ => rfl

end XmitOk

/-! ## runs -/

/-- a frame that is sent directly: the tasklet holds none of the same station and priority -/
def FastPathOk (s : Xmit) : XmitEvent → Prop
  | .pre sta o => ∀ f ∈ (s.os sta).waiting, s.mustEnqueue f o = false → ofKey f.key s.task.frames = []
  | _ => True

instance decidableFastPathOk (s : Xmit) : ∀ e : XmitEvent, Decidable (FastPathOk s e)
  | .pre sta o => inferInstanceAs (Decidable (∀ f ∈ (s.os sta).waiting, s.mustEnqueue f o = false →
      ofKey f.key s.task.frames = []))
  | .enter _ => isTrue trivial
  | .osCoalesce _ _ => isTrue trivial
  | .osWrite _ => isTrue trivial
  | .taskStart => isTrue trivial
  | .taskDequeue => isTrue trivial
  | .taskCoalesce _ => isTrue trivial
  | .taskAgg _ => isTrue trivial
  | .taskWrite => isTrue trivial
  | .bufDone => isTrue trivial

theorem XmitOk.step {conf : XmitConf} {s : Xmit} {e : XmitEvent} (h : XmitOk s) (hC : FastPathOk s e) :
    XmitOk (s.step conf e) := by
  cases e with
  | enter req => exact h.enter req
  | pre sta o => exact h.preXmitframe hC
  | osCoalesce sta c => exact h.osCoalesce c
  | osWrite sta => exact h.osWrite
  | taskStart => exact h.taskStart
  | taskDequeue => exact h.taskDequeue
  | taskCoalesce c => exact h.taskCoalesce c
  | taskAgg cs => exact h.taskAgg cs
  | taskWrite => exact h.taskWrite
  | bufDone => exact h.bufDone

/-- nothing is under way; the counters and the number of buffers are what they are -/
def Xmit.start (freeXmitbuf : Nat) (dot11txpn : Nat → Nat) (txseqTid : Nat × Nat → Nat) : Xmit where
  freeXmitbuf := freeXmitbuf
  dot11txpn := dot11txpn
  txseqTid := txseqTid

theorem XmitOk.start (free : Nat) (pn : Nat → Nat) (seq : Nat × Nat → Nat) :
    XmitOk (Xmit.start free pn seq) where
  own := by
    intro q f hf
    cases hf
  osOwn := by
    intro sta f hf
    cases hf
  alone := by
    intro sta f hf
    cases hf
  flow := fun _ => List.Sublist.refl _
  pn := fun _ => List.Pairwise.nil
  pnLe := by
    intro f hf
    cases hf
  seq := fun _ => List.Pairwise.nil
  seqLe := by
    intro k h hh
    cases hh

/-- what reached the bus of one station and priority: in the order of entry, with increasing packet
and sequence numbers -/
def Xmit.InOrder (s : Xmit) (k : Nat × Nat) : Prop :=
  ((hdrsOfKey k s.written).map TxHdr.frame).Sublist (ofKey k s.entered)
    ∧ (hdrsOfKey k s.written).Pairwise fun g h => g.frame.pn < h.frame.pn ∧ g.seq < h.seq

theorem XmitOk.inOrder {s : Xmit} (h : XmitOk s) (k : Nat × Nat) : s.InOrder k := by
  have hsub : ((hdrsOfKey k s.written).map TxHdr.frame).Sublist (ofKey k s.entered) := by
    rw [map_hdrsOfKey]
    exact (List.sublist_append_left _ _).trans (h.flow k)
  have hpn := List.pairwise_map.mp ((h.pn k).sublist hsub)
  have hseq := (h.seq k).sublist (List.sublist_append_left (hdrsOfKey k s.written) _)
  exact ⟨hsub, hpn.and hseq⟩

/-- **In order.**  As long as no frame is sent directly while the tasklet holds another one of the
same station and priority, the frames reach the bus in the order in which they entered. -/
theorem xmit_in_order (conf : XmitConf) (free : Nat) (pn : Nat → Nat) (seq : Nat × Nat → Nat)
    (es : List XmitEvent) (hC : Along (Xmit.step conf) FastPathOk (Xmit.start free pn seq) es)
    (k : Nat × Nat) : (run (Xmit.step conf) (Xmit.start free pn seq) es).InOrder k := by
  have h := run_inv (fun s e h hC => XmitOk.step h hC) _ es (XmitOk.start free pn seq) hC
  exact h.inOrder k

/-! ## overtaking -/

def xmitReq : XmitReq := ⟨1, 0, 100, 0⟩

/-- a frame waits while the access categories are blocked, and the tasklet takes it -/
def xmitTaken : List XmitEvent :=
  [.enter xmitReq, .pre 1 ⟨true, false⟩, .taskStart, .taskDequeue]

def xmitTaskSends : List XmitEvent := [.taskCoalesce .ok, .taskAgg [], .taskWrite]

def xmitDirectSends : List XmitEvent :=
  [.enter xmitReq, .pre 1 ⟨false, false⟩, .osCoalesce 1 .ok, .osWrite 1]

theorem xmit_in_order_two :
    let s := run (Xmit.step {}) (Xmit.start 4 (fun _ => 0) fun _ => 0)
      (xmitTaken ++ xmitTaskSends ++ xmitDirectSends)
    s.written.map (fun h => h.frame.pn) = [1, 2] ∧ s.InOrder (1, 0) :=
  ⟨by decide, xmit_in_order {} 4 (fun _ => 0) (fun _ => 0) _ (by decide) (1, 0)⟩

/-- the second frame passes the first one, which is still being copied -/
theorem xmit_overtaken :
    ¬ ∀ (conf : XmitConf) (free : Nat) (pn : Nat → Nat) (seq : Nat × Nat → Nat) (es : List XmitEvent)
      (k : Nat × Nat), (run (Xmit.step conf) (Xmit.start free pn seq) es).InOrder k := by
  intro h
  have h' := h {} 4 (fun _ => 0) (fun _ => 0) (xmitTaken ++ xmitDirectSends ++ xmitTaskSends) (1, 0)
  exact absurd h'.1 (by decide)

end Rtl8192eu
