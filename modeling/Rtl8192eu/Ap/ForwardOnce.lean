import Mathlib.Algebra.GroupWithZero.Nat
import Rtl8192eu.Ap.Forward

/-!
# Who a group-addressed packet reaches

The receiver addresses of the frames that `rtw_xmit_posthandle` gets, for the calls of
`Ap.Forward`: the unicast frames whose copy was made, and the group-addressed frame.

* `xmitB2u_posted`, `fwdPktHdl_posted`   the addresses, in each loop over a list;
* `OnceEach ad sa ta da ras`   each other station is addressed once by `ras`;
* `onceEach_group`, `onceEach_copies`   with the group-addressed frame, and without it;
* `forward_once_iff`   when each station is addressed once.
-/

namespace Rtl8192eu

namespace Forward

/-! ## who is addressed -/

section
variable {luck : Luck} {w : World} {fs : List XmitFrame}

theorem posted_free (w : World) (f : XmitFrame) : (w.rtwFreeXmitframe f).posted = w.posted := by
  unfold World.rtwFreeXmitframe
  dsimp only
  split <;> rfl

theorem posted_posthandle (w : World) (luck : Luck) (f : XmitFrame) (n : Nat) :
    (w.rtwXmitPosthandle luck f n).1.posted = w.posted ++ [f.attrib.ra] := by
  unfold World.rtwXmitPosthandle
  dsimp only
  split
  · rfl
  · exact posted_free _ f

theorem posted_recvFree (w : World) (fwdFrame : Option XmitFrame) (fs : List XmitFrame) :
    (recvFreeFwdResource w fwdFrame fs).posted = w.posted := by
  have hall : ∀ (fs : List XmitFrame) (w : World),
      (fs.foldl World.rtwFreeXmitframe w).posted = w.posted := by
    intro fs
    induction fs with
    | nil => exact fun _ => rfl
    | cons f fs ih => exact fun w => (ih _).trans (posted_free w f)
  unfold recvFreeFwdResource
  rw [hall]
  cases fwdFrame with
  | none => rfl
  | some f => exact posted_free w f

/-- the copies that are made, and the answer that a missing one changes -/
theorem xmitB2u_posted (luck : Luck) (w : World) (res : Resolved) (fs : List XmitFrame) :
    (xmitB2u luck w res fs).1.posted = w.posted ++ (fs.map (·.attrib.ra)).filter luck.copy ∧
      (xmitB2u luck w res fs).2 =
        if res = .bmcNoNeed ∧ ¬(fs.map (·.attrib.ra)).all luck.copy then .success else res := by
  induction fs generalizing w res with
  | nil => exact ⟨(List.append_nil _).symm, by simp [xmitB2u]⟩
  | cons f fs ih =>
    unfold xmitB2u World.newPkt
    cases hc : luck.copy f.attrib.ra with
    | true =>
      rw [if_pos rfl, List.map_cons, List.filter_cons_of_pos hc, List.all_cons, hc, Bool.true_and]
      refine ⟨(ih _ _).1.trans ?_, (ih _ _).2⟩
      rw [posted_posthandle, List.append_assoc]
      rfl
    | false =>
      rw [if_neg Bool.false_ne_true, List.map_cons,
        List.filter_cons_of_neg (by rw [hc]; exact Bool.false_ne_true), List.all_cons, hc]
      refine ⟨(ih _ _).1.trans (by rw [posted_free]), (ih _ _).2.trans ?_⟩
      by_cases hr : res = .bmcNoNeed
      · simp [hr]
      · simp [hr]

/-- the last address has the packet itself -/
def copiedButLast (luck : Luck) (ras : List Mac) : List Mac :=
  ras.dropLast.filter luck.copy ++ ras.getLast?.toList

theorem fwdB2u_posted (luck : Luck) (n : Nat) (fwdFrame : Option XmitFrame) (w : World) (fs : List XmitFrame) :
    (fwdB2u luck n fwdFrame w fs).posted = w.posted ++
      if fwdFrame = none then copiedButLast luck (fs.map (·.attrib.ra))
      else (fs.map (·.attrib.ra)).filter luck.copy := by
  induction fs generalizing w with
  | nil =>
    show w.posted = _
    split <;> exact (List.append_nil _).symm
  | cons f fs ih =>
    unfold fwdB2u World.newPkt
    by_cases hlast : (fwdFrame.isNone && fs.isEmpty) = true
    · obtain ⟨h1, h2⟩ := Bool.and_eq_true_iff.mp hlast
      rw [if_pos hlast, if_pos (Option.isNone_iff_eq_none.mp h1), List.isEmpty_iff.mp h2]
      exact posted_posthandle _ _ _ _
    · rw [if_neg hlast]
      -- the head of the list is copied in both cases
      have hhead : (if fwdFrame = none then copiedButLast luck ((f :: fs).map (·.attrib.ra))
          else ((f :: fs).map (·.attrib.ra)).filter luck.copy) =
          [f.attrib.ra].filter luck.copy ++
            if fwdFrame = none then copiedButLast luck (fs.map (·.attrib.ra))
            else (fs.map (·.attrib.ra)).filter luck.copy := by
        by_cases hg : fwdFrame = none
        · have hne : fs.map (·.attrib.ra) ≠ [] := by
            intro hnil
            have := List.map_eq_nil_iff.mp hnil
            subst this
            exact hlast (by rw [hg]; rfl)
          rw [if_pos hg, if_pos hg, List.map_cons]
          unfold copiedButLast
          rw [List.dropLast_cons_of_ne_nil hne, List.getLast?_cons_of_ne_nil hne,
            ← List.append_assoc, ← List.filter_append]
          rfl
        · rw [if_neg hg, if_neg hg, ← List.filter_append]
          rfl
      rw [hhead, ← List.append_assoc]
      cases hc : luck.copy f.attrib.ra with
      | true =>
        rw [if_pos rfl, List.filter_cons_of_pos hc]
        refine (ih _).trans ?_
        rw [posted_posthandle]
        rfl
      | false =>
        rw [if_neg Bool.false_ne_true,
          List.filter_cons_of_neg (by rw [hc]; exact Bool.false_ne_true)]
        refine (ih _).trans ?_
        rw [posted_free, List.filter_nil, List.append_nil]

/-- whom `recv_fwd_pkt_hdl` addresses with a packet -/
def sentOn (luck : Luck) (fwdFrame : Option XmitFrame) (fs : List XmitFrame) : List Mac :=
  match fwdFrame with
  | none => copiedButLast luck (fs.map (·.attrib.ra))
  | some f => (fs.map (·.attrib.ra)).filter luck.copy ++ [f.attrib.ra]

theorem fwdPktHdl_posted (luck : Luck) (w : World) (n : Nat) (fwdFrame : Option XmitFrame)
    (fs : List XmitFrame) :
    (fwdPktHdl luck w n fwdFrame fs).posted = w.posted ++ sentOn luck fwdFrame fs := by
  have hb := fwdB2u_posted luck n fwdFrame w fs
  unfold fwdPktHdl sentOn
  cases fwdFrame with
  | none =>
    rw [if_pos rfl] at hb
    exact hb
  | some f =>
    rw [if_neg (Option.some_ne_none f)] at hb
    refine (posted_posthandle _ _ _ _).trans ?_
    rw [hb, List.append_assoc]

theorem recvFwdPktHdl_posted (luck : Luck) (w : World) (n : Nat) (act : Act)
    (fwdFrame : Option XmitFrame) (fs : List XmitFrame) :
    (recvFwdPktHdl luck w n act fwdFrame fs).posted = w.posted ++
      if act.indicate && !luck.copyFwd then [] else sentOn luck fwdFrame fs := by
  unfold recvFwdPktHdl World.newPkt
  cases act.indicate with
  | false => exact fwdPktHdl_posted luck w n fwdFrame fs
  | true =>
    cases luck.copyFwd with
    | false => exact (posted_recvFree w fwdFrame fs).trans (List.append_nil _).symm
    | true => exact fwdPktHdl_posted luck { w with pkts := w.pkts + 1 } w.pkts fwdFrame fs

end

/-! ## addressed once -/

/-- the frames of `ras` that address a station, or the group -/
def addressed (da mac : Mac) (ras : List Mac) : Nat := ras.countP fun ra => ra == mac || ra == da

/-- each associated station but the source and the transmitter is addressed once -/
def OnceEach (ad : Adapter) (sa : Mac) (ta : Option Mac) (da : Mac) (ras : List Mac) : Prop :=
  ∀ sta ∈ ad.asocList, sta.asoc = true → sta.macAddr ≠ sa → ta ≠ some sta.macAddr →
    sta.macAddr ≠ zeroAddr → addressed da sta.macAddr ras = 1

section
variable {ad : Adapter} {luck : Luck} {da mac : Mac} {l z : List Mac}

theorem mcast_ne_zeroAddr (h : isMcast da = true) : da ≠ zeroAddr := by
  rintro rfl
  exact absurd h (by decide)

theorem addressed_of_individual (hl : l.Nodup) (hda : da ∉ l) :
    addressed da mac l = if mac ∈ l then 1 else 0 := by
  rw [← List.Nodup.count hl]
  refine List.countP_congr fun ra hra => ?_
  have hne : ra ≠ da := fun h => hda (h ▸ hra)
  simp [hne]

theorem addressed_append : addressed da mac (l ++ z) = addressed da mac l + addressed da mac z :=
  List.countP_append

/-- with the group-addressed frame there is to be no copy -/
theorem once_group (hl : l.Nodup) (hda : da ∉ l) : addressed da mac (l ++ [da]) = 1 ↔ mac ∉ l := by
  have hz : addressed da mac [da] = 1 := by simp [addressed]
  rw [addressed_append, hz, addressed_of_individual hl hda]
  split
  · rename_i h
    exact iff_of_false (by decide) (not_not.mpr h)
  · rename_i h
    exact iff_of_true rfl h

/-- and without it there is to be a copy -/
theorem once_copies (hl : l.Nodup) (hda : da ∉ l) (hz : ∀ ra ∈ z, ra ≠ mac ∧ ra ≠ da) :
    addressed da mac (l ++ z) = 1 ↔ mac ∈ l := by
  have hz : addressed da mac z = 0 := by
    refine List.countP_eq_zero.mpr fun ra hra => ?_
    simp [hz ra hra]
  rw [addressed_append, hz, addressed_of_individual hl hda]
  split
  · rename_i h
    exact iff_of_true rfl h
  · rename_i h
    exact iff_of_false (by decide) h

theorem mem_targets {sa : Mac} {ta : Option Mac} {sta : Sta} : sta ∈ targets ad sa ta ↔
    sta ∈ ad.asocList ∧ sta.asoc = true ∧ sta.macAddr ≠ sa ∧ ta ≠ some sta.macAddr ∧
      sta.macAddr ≠ zeroAddr := by
  unfold targets wants
  rw [List.mem_filter]
  refine and_congr_right fun hmem => ?_
  have hb : sta.macAddr ≠ bcastAddr := by
    intro h
    have hi := ad.individual sta hmem
    rw [h] at hi
    exact absurd hi (by decide)
  simp [hb, and_assoc]

theorem onceEach_iff {sa : Mac} {ta : Option Mac} {ras : List Mac} :
    OnceEach ad sa ta da ras ↔ ∀ sta ∈ targets ad sa ta, addressed da sta.macAddr ras = 1 := by
  constructor
  · intro h sta hsta
    obtain ⟨hmem, ha, hsa, hta, hz⟩ := mem_targets.mp hsta
    exact h sta hmem ha hsa hta hz
  · intro h sta hmem ha hsa hta hz
    exact h sta (mem_targets.mpr ⟨hmem, ha, hsa, hta, hz⟩)

theorem nodup_targets (ad : Adapter) (sa : Mac) (ta : Option Mac) :
    ((targets ad sa ta).map Sta.macAddr).Nodup :=
  ad.nodup.sublist (List.filter_sublist.map _)

theorem not_mem_of_sublist {sa : Mac} {ta : Option Mac} (hda : isMcast da = true)
    (hl : l.Sublist ((targets ad sa ta).map Sta.macAddr)) : da ∉ l := by
  intro hmem
  obtain ⟨sta, hsta, rfl⟩ := List.mem_map.mp (hl.subset hmem)
  rw [ad.individual sta (mem_targets.mp hsta).1] at hda
  cases hda

/-- a group-addressed frame behind the copies `l` -/
theorem onceEach_group {sa : Mac} {ta : Option Mac} (hda : isMcast da = true)
    (hl : l.Sublist ((targets ad sa ta).map Sta.macAddr)) :
    OnceEach ad sa ta da (l ++ [da]) ↔ ∀ mac ∈ l, False := by
  have hno := not_mem_of_sublist hda hl
  have hnd := (nodup_targets ad sa ta).sublist hl
  rw [onceEach_iff]
  constructor
  · intro h mac hmem
    obtain ⟨sta, hsta, rfl⟩ := List.mem_map.mp (hl.subset hmem)
    exact (once_group hnd hno).mp (h sta hsta) hmem
  · exact fun h sta _ => (once_group hnd hno).mpr fun hmem => h _ hmem

/-- the copies `l` alone, or with a frame that has no address -/
theorem onceEach_copies {sa : Mac} {ta : Option Mac} (hda : isMcast da = true)
    (hl : l.Sublist ((targets ad sa ta).map Sta.macAddr)) (hz : ∀ ra ∈ z, ra = zeroAddr) :
    OnceEach ad sa ta da (l ++ z) ↔ ∀ sta ∈ targets ad sa ta, sta.macAddr ∈ l := by
  have hno := not_mem_of_sublist hda hl
  have hnd := (nodup_targets ad sa ta).sublist hl
  rw [onceEach_iff]
  refine forall₂_congr fun sta hsta => once_copies hnd hno fun ra hra => ?_
  obtain ⟨-, -, -, -, hne⟩ := mem_targets.mp hsta
  rw [hz ra hra]
  exact ⟨hne.symm, (mcast_ne_zeroAddr hda).symm⟩

/-- what is not sent at all is right if nobody is there -/
theorem onceEach_nil {sa : Mac} {ta : Option Mac} : OnceEach ad sa ta da [] ↔ targets ad sa ta = [] := by
  rw [onceEach_iff, List.eq_nil_iff_forall_not_mem]
  refine forall₂_congr fun sta _ => ?_
  exact iff_of_false (by simp [addressed]) not_false

/-! ### the host's packet -/

/-- the copies of the host's packet that are made -/
def xmitCopies (ad : Adapter) (luck : Luck) (pkt : Packet) : List Mac :=
  ((xmitListed ad luck pkt).map Sta.macAddr).filter luck.copy

theorem rtwXmit_posted (ad : Adapter) (ha : luck.allocFrame = true) {pkt : Packet} (hm : isMcast pkt.da = true)
    (hlen : ¬pkt.len < ethHlen) :
    ∃ z, (rtwXmitEntry ad luck {} pkt).posted = xmitCopies ad luck pkt ++ z ∧
      if xmitNoNeed ad luck pkt then ∀ ra ∈ z, ra = zeroAddr else z = [pkt.da] := by
  obtain ⟨w, xframe, fs, -, hposted, hfor, -, -, hattr, heq⟩ := rtwXmit_eq ad ha hlen
  obtain ⟨hb, hres⟩ := xmitB2u_posted luck w (xmitRes ad luck pkt) fs
  have hentry : (rtwXmitEntry ad luck {} pkt).posted = (rtwXmit ad luck {} pkt).1.posted := by
    unfold rtwXmitEntry
    dsimp only
    split <;> rfl
  rw [hposted, List.nil_append, hfor.ra] at hb
  rw [hentry, heq]
  dsimp only
  by_cases hno : (xmitB2u luck w (xmitRes ad luck pkt) fs).2 = .bmcNoNeed
  · rw [if_pos hno, posted_free, hb]
    refine ⟨[], (List.append_nil _).symm, ?_⟩
    have hneed : xmitNoNeed ad luck pkt = true := by
      rw [hres, xmitRes] at hno
      cases hx : xmitNoNeed ad luck pkt with
      | true => rfl
      | false =>
        rw [hx] at hno
        simp at hno
    rw [if_pos hneed]
    exact fun _ hra => nomatch hra
  · rw [if_neg hno, posted_posthandle, hb]
    refine ⟨_, rfl, ?_⟩
    -- without the addresses of the packet if they were not needed before a copy failed
    dsimp only
    rw [hattr, xmitAttrib]
    split
    · intro ra hra
      exact List.mem_singleton.mp hra
    · rw [fillAddrs, hm]
      rfl

/-- all are copied, or none -/
def XmitOnce (ad : Adapter) (luck : Luck) (pkt : Packet) : Prop :=
  let stas := targets ad pkt.sa none
  if pkt.len < ethHlen then stas = []
  else if srcConverts ad pkt then
    if allListed luck stas then ∀ sta ∈ stas, luck.copy sta.macAddr = true
    else ∀ sta ∈ listed luck stas, luck.copy sta.macAddr = false
  else True

theorem listed_sublist (luck : Luck) (stas : List Sta) :
    ((listed luck stas).map Sta.macAddr).Sublist (stas.map Sta.macAddr) :=
  (List.takeWhile_sublist _).map _

theorem rtwXmit_once (ha : luck.allocFrame = true) {pkt : Packet} (hm : isMcast pkt.da = true) :
    OnceEach ad pkt.sa none pkt.da (rtwXmitEntry ad luck {} pkt).posted ↔ XmitOnce ad luck pkt := by
  unfold XmitOnce
  by_cases hlen : pkt.len < ethHlen
  · have hnone : (rtwXmitEntry ad luck {} pkt).posted = [] := by
      unfold rtwXmitEntry
      rw [rtwXmit_short ha hlen]
      rfl
    rw [hnone, onceEach_nil]
    dsimp only
    rw [if_pos hlen]
  · obtain ⟨z, hposted, hz⟩ := rtwXmit_posted ad ha hm hlen
    rw [hposted]
    dsimp only
    rw [if_neg hlen]
    unfold xmitNoNeed at hz
    unfold xmitCopies xmitListed
    cases hc : srcConverts ad pkt with
    | false =>
      rw [hc, Bool.false_and, if_neg Bool.false_ne_true] at hz
      rw [hz, if_neg Bool.false_ne_true, if_neg Bool.false_ne_true, List.map_nil, List.filter_nil,
        onceEach_group hm (List.nil_sublist _)]
      exact iff_of_true (fun _ h => nomatch h) trivial
    | true =>
      have hsub : (((listed luck (targets ad pkt.sa none)).map Sta.macAddr).filter luck.copy).Sublist
          ((targets ad pkt.sa none).map Sta.macAddr) :=
        List.filter_sublist.trans (listed_sublist luck _)
      rw [hc, Bool.true_and] at hz
      rw [if_pos rfl, if_pos rfl]
      cases hall : allListed luck (targets ad pkt.sa none) with
      | true =>
        rw [hall, if_pos rfl] at hz
        rw [if_pos rfl, onceEach_copies hm hsub hz, listed_of_all hall]
        refine forall₂_congr fun sta hsta => ?_
        rw [List.mem_filter]
        exact and_iff_right (List.mem_map_of_mem hsta)
      | false =>
        rw [hall, if_neg Bool.false_ne_true] at hz
        rw [if_neg Bool.false_ne_true, hz, onceEach_group hm hsub]
        simp

/-! ### what a station sent -/

/-- whom an MSDU, or a subframe, is sent on to, after the answer `r` -/
def msduSent (luck : Luck) (r : World × Act × Option XmitFrame × List XmitFrame) : List Mac :=
  if r.2.1.forward && luck.pkt && !(r.2.1.indicate && !luck.copyFwd) then sentOn luck r.2.2.1 r.2.2.2
  else []

theorem posted_indicatePkt (luck : Luck) (w : World) (cannotRun : Bool) :
    (indicatePkt luck w cannotRun).posted = w.posted := by
  unfold indicatePkt
  split <;> rfl

theorem recvProcessMsdu_posted (ad : Adapter) (luck : Luck) (m : Msdu) (cannotRun : Bool) :
    ∃ r, Checked ad luck m {} r ∧
      (recvProcessMsdu ad luck {} m cannotRun).posted = msduSent luck r := by
  have hc := checked_actCheck ad luck {} m
  refine ⟨_, hc, ?_⟩
  unfold recvProcessMsdu msduSent
  generalize rtwApRxMsduActCheck ad luck {} m = r at hc ⊢
  obtain ⟨w, act, fwdFrame, fs⟩ := r
  have hposted : w.posted = [] := hc.posted
  have hfwd := recvFwdPktHdl_posted luck w 0 act fwdFrame fs
  rw [hposted, List.nil_append] at hfwd
  dsimp only
  cases act.forward with
  | false =>
    cases act.indicate with
    | false => exact hposted
    | true =>
      cases luck.pkt with
      | false => exact hposted
      | true => exact (posted_indicatePkt luck w cannotRun).trans hposted
  | true =>
    cases luck.pkt with
    | false =>
      rw [Bool.not_true, Bool.and_false, if_neg Bool.false_ne_true, Bool.not_false, if_pos rfl]
      exact (posted_recvFree w fwdFrame fs).trans hposted
    | true =>
      rw [Bool.not_true, Bool.and_false, if_neg Bool.false_ne_true, if_neg Bool.false_ne_true]
      have hsent : (recvFwdPktHdl luck w 0 act fwdFrame fs).posted =
          if true && true && !(act.indicate && !luck.copyFwd) then sentOn luck fwdFrame fs else [] := by
        rw [hfwd]
        cases act.indicate && !luck.copyFwd <;> rfl
      rw [if_pos rfl]
      split
      · exact (posted_indicatePkt luck _ cannotRun).trans hsent
      · exact hsent

theorem amsduSubframe_posted (ad : Adapter) (luck : Luck) (w : World) (m : Msdu) :
    ∃ r, Checked ad luck m w r ∧
      (amsduSubframe ad luck w m).1.posted = w.posted ++ msduSent luck r := by
  have hc := checked_actCheck ad luck w m
  refine ⟨_, hc, ?_⟩
  unfold amsduSubframe msduSent World.newPkt
  generalize rtwApRxMsduActCheck ad luck w m = r at hc ⊢
  obtain ⟨w₁, act, fwdFrame, fs⟩ := r
  have hposted : w₁.posted = w.posted := hc.posted
  have hfwd := recvFwdPktHdl_posted luck { w₁ with pkts := w₁.pkts + 1 } w₁.pkts act fwdFrame fs
  have hnone : w₁.posted = w.posted ++ [] := hposted.trans (List.append_nil _).symm
  dsimp only at hfwd ⊢
  cases hf : act.forward with
  | false =>
    cases act.indicate with
    | false => exact hnone
    | true =>
      cases luck.pkt with
      | false => exact hnone
      | true =>
        cases luck.indicate <;> exact hnone
  | true =>
    cases luck.pkt with
    | false =>
      rw [Bool.not_true, Bool.and_false, if_neg Bool.false_ne_true, if_neg Bool.false_ne_true]
      exact (posted_recvFree w₁ fwdFrame fs).trans hnone
    | true =>
      rw [Bool.not_true, Bool.and_false, if_neg Bool.false_ne_true, if_pos rfl]
      have hsent : (recvFwdPktHdl luck { w₁ with pkts := w₁.pkts + 1 } w₁.pkts act fwdFrame fs).posted =
          w.posted ++
            if true && true && !(act.indicate && !luck.copyFwd) then sentOn luck fwdFrame fs
            else [] := by
        rw [hfwd, hposted]
        cases act.indicate && !luck.copyFwd <;> rfl
      dsimp only
      rw [if_pos rfl]
      split
      · exact hsent
      · split
        · exact hsent
        · exact hsent

/-- the packet itself is sent on with the last frame, so only the others need a copy -/
theorem all_copiedButLast (luck : Luck) (hl : l.Nodup) :
    (∀ ra ∈ l, ra ∈ copiedButLast luck l) ↔ ∀ ra ∈ l.dropLast, luck.copy ra = true := by
  unfold copiedButLast
  rcases List.eq_nil_or_concat l with rfl | ⟨l, last, rfl⟩
  · exact iff_of_true (fun _ h => nomatch h) fun _ h => nomatch h
  · rw [List.concat_eq_append] at hl ⊢
    rw [List.dropLast_concat, List.getLast?_concat, Option.toList_some]
    constructor
    · intro h ra hra
      rcases List.mem_append.mp (h ra (List.mem_append_left _ hra)) with hc | hlast
      · exact (List.mem_filter.mp hc).2
      · rw [List.mem_singleton.mp hlast] at hra
        exact absurd rfl (List.nodup_append.mp hl |>.2.2 last hra last (List.mem_singleton.mpr rfl))
    · intro h ra hra
      rcases List.mem_append.mp hra with hra | hlast
      · exact List.mem_append_left _ (List.mem_filter.mpr ⟨hra, h ra hra⟩)
      · exact List.mem_append_right _ hlast

theorem copiedButLast_sublist : (copiedButLast luck l).Sublist l := by
  unfold copiedButLast
  rcases List.eq_nil_or_concat l with rfl | ⟨l, last, rfl⟩
  · exact List.Sublist.refl _
  · rw [List.concat_eq_append, List.dropLast_concat, List.getLast?_concat, Option.toList_some]
    exact List.filter_sublist.append (List.Sublist.refl _)

/-- nobody is there, or the MSDU is sent on and all frames of the list but the last are copied, or
none and there is a group-addressed frame -/
def MsduOnce (ad : Adapter) (luck : Luck) (m : Msdu) : Prop :=
  let stas := targets ad m.sa (some m.ta)
  stas = [] ∨ getsFwdChk ad m = true ∧ luck.pkt = true ∧ luck.copyFwd = true ∧
    if fwdConverts ad m then
      if allListed luck stas then ∀ sta ∈ stas.dropLast, luck.copy sta.macAddr = true
      else luck.allocFrame = true ∧ ∀ sta ∈ listed luck stas, luck.copy sta.macAddr = false
    else luck.allocFrame = true

theorem Checked.sentOn_group {m : Msdu} {w : World}
    {r : World × Act × Option XmitFrame × List XmitFrame} (hc : Checked ad luck m w r)
    (hm : isMcast m.da = true) {f : XmitFrame} (hf : r.2.2.1 = some f) :
    sentOn luck r.2.2.1 r.2.2.2 =
      ((msduListed ad luck m).map Sta.macAddr).filter luck.copy ++ [m.da] := by
  have hra := hc.ra hm f hf
  rw [hf]
  show (r.2.2.2.map (·.attrib.ra)).filter luck.copy ++ [f.attrib.ra] = _
  rw [hra, hc.listFor.ra]

theorem Checked.sentOn_copies {m : Msdu} {w : World}
    {r : World × Act × Option XmitFrame × List XmitFrame} (hc : Checked ad luck m w r)
    (hf : r.2.2.1 = none) :
    sentOn luck r.2.2.1 r.2.2.2 = copiedButLast luck ((msduListed ad luck m).map Sta.macAddr) := by
  rw [hf]
  show copiedButLast luck (r.2.2.2.map (·.attrib.ra)) = _
  rw [hc.listFor.ra]

theorem Checked.once {m : Msdu} {w : World}
    {r : World × Act × Option XmitFrame × List XmitFrame} (hc : Checked ad luck m w r)
    (hm : isMcast m.da = true) :
    OnceEach ad m.sa (some m.ta) m.da (msduSent luck r) ↔ MsduOnce ad luck m := by
  have hforward := hc.forward
  have hgroup := hc.group
  unfold MsduOnce msduSent
  dsimp only
  -- the calls that end without a packet to be sent on
  cases hg : getsFwdChk ad m with
  | false =>
    rw [hforward, hg, Bool.false_and, Bool.false_and, Bool.false_and, if_neg Bool.false_ne_true,
      onceEach_nil]
    simp
  | true =>
  have hi : r.2.1.indicate = true := by
    unfold getsFwdChk at hg
    simp only [Bool.and_eq_true] at hg
    rw [hc.indicate, indicates, hg.1.1.1, hm]
    rfl
  rw [hg, Bool.true_and] at hforward hgroup
  rw [hforward, hi, Bool.true_and, Bool.not_not]
  cases hp : luck.pkt with
  | false =>
    rw [Bool.and_false, Bool.false_and, if_neg Bool.false_ne_true, onceEach_nil]
    simp
  | true =>
  cases hcf : luck.copyFwd with
  | false =>
    rw [Bool.and_false, if_neg Bool.false_ne_true, onceEach_nil]
    simp
  | true =>
  rw [Bool.and_true, Bool.and_true]
  have hsub : (((msduListed ad luck m).map Sta.macAddr).filter luck.copy).Sublist
      ((targets ad m.sa (some m.ta)).map Sta.macAddr) := by
    refine List.filter_sublist.trans ?_
    unfold msduListed
    split
    · exact listed_sublist luck _
    · exact List.nil_sublist _
  cases hn : msduNeed ad luck m with
  | true =>
    rw [hn, Bool.true_and] at hgroup
    rw [Bool.not_true, Bool.false_or]
    have hif : (if fwdConverts ad m then
          if allListed luck (targets ad m.sa (some m.ta)) then
            ∀ sta ∈ (targets ad m.sa (some m.ta)).dropLast, luck.copy sta.macAddr = true
          else luck.allocFrame = true ∧
            ∀ sta ∈ listed luck (targets ad m.sa (some m.ta)), luck.copy sta.macAddr = false
        else luck.allocFrame = true) ↔ luck.allocFrame = true ∧
          ∀ sta ∈ msduListed ad luck m, luck.copy sta.macAddr = false := by
      unfold msduNeed at hn
      unfold msduListed
      rw [hg, Bool.true_and]
      cases hcv : fwdConverts ad m with
      | false => exact (and_iff_left fun _ h => absurd h List.not_mem_nil).symm
      | true =>
        rw [hcv, Bool.true_and, Bool.not_eq_true'] at hn
        rw [hn, if_pos rfl, if_neg Bool.false_ne_true, if_pos rfl]
    rw [hif]
    cases ha : luck.allocFrame with
    | false =>
      rw [if_neg Bool.false_ne_true, onceEach_nil]
      simp
    | true =>
      obtain ⟨f, hf⟩ := Option.isSome_iff_exists.mp (hgroup.trans ha)
      rw [if_pos rfl, hc.sentOn_group hm hf, onceEach_group hm hsub]
      -- if nobody is there nobody is in the list
      have hnil : targets ad m.sa (some m.ta) = [] → msduListed ad luck m = [] := by
        intro h
        unfold msduListed
        rw [h]
        split <;> rfl
      constructor
      · intro h
        refine Or.inr ⟨rfl, rfl, rfl, rfl, fun sta hsta => ?_⟩
        refine Bool.eq_false_iff.mpr fun hcopy => ?_
        exact h _ (List.mem_filter.mpr ⟨List.mem_map_of_mem hsta, hcopy⟩)
      · intro h mac hmac
        obtain ⟨hmem, hcopy⟩ := List.mem_filter.mp hmac
        obtain ⟨sta, hsta, rfl⟩ := List.mem_map.mp hmem
        rcases h with h | ⟨-, -, -, -, h⟩
        · rw [hnil h] at hsta
          cases hsta
        · rw [h sta hsta] at hcopy
          cases hcopy
  | false =>
    rw [hn, Bool.false_and, Option.isSome_eq_false_iff, Option.isNone_iff_eq_none] at hgroup
    unfold msduNeed at hn
    obtain ⟨hcv, hall⟩ := Bool.and_eq_true_iff.mp ((Bool.not_eq_false' (b := _)).mp hn)
    have hlisted : msduListed ad luck m = targets ad m.sa (some m.ta) := by
      unfold msduListed
      rw [hg, hcv, Bool.true_and, if_pos rfl, listed_of_all hall]
    rw [Bool.not_false, Bool.true_or, if_pos rfl, hc.sentOn_copies hgroup, hcv, if_pos rfl, hall,
      if_pos rfl, hlisted]
    have hsub : (copiedButLast luck ((targets ad m.sa (some m.ta)).map Sta.macAddr)).Sublist
        ((targets ad m.sa (some m.ta)).map Sta.macAddr) := copiedButLast_sublist
    have honce := onceEach_copies (z := []) hm hsub fun _ h => absurd h List.not_mem_nil
    rw [List.append_nil] at honce
    have hbut := all_copiedButLast luck (nodup_targets ad m.sa (some m.ta))
    rw [List.forall_mem_map, ← List.map_dropLast, List.forall_mem_map] at hbut
    rw [honce, hbut]
    constructor
    · exact fun h => Or.inr ⟨rfl, rfl, rfl, h⟩
    · rintro (h | ⟨-, -, -, h⟩)
      · rw [h]
        exact fun _ h => absurd h List.not_mem_nil
      · exact h

end

/-! ### the packets -/

/-- a packet from the host or from a station, or a subframe in any round of the loop, and what
succeeds while it is sent -/
inductive Sent where
  | xmit (luck : Luck) (pkt : Packet)
  | msdu (luck : Luck) (m : Msdu) (cannotRun : Bool)
  | subframe (w : World) (luck : Luck) (m : Msdu)

/-- group-addressed, and with a frame of its own if it is the host's -/
def Sent.ToGroup : Sent → Prop
  | xmit luck pkt => isMcast pkt.da = true ∧ luck.allocFrame = true
  | msdu _ m _ => isMcast m.da = true
  | subframe _ _ m => isMcast m.da = true

/-- each station is addressed once by the frames of this packet -/
def Sent.Once (ad : Adapter) : Sent → Prop
  | xmit luck pkt => OnceEach ad pkt.sa none pkt.da (rtwXmitEntry ad luck {} pkt).posted
  | msdu luck m cannotRun =>
    OnceEach ad m.sa (some m.ta) m.da (recvProcessMsdu ad luck {} m cannotRun).posted
  | subframe w luck m => ∃ ras, (amsduSubframe ad luck w m).1.posted = w.posted ++ ras ∧
    OnceEach ad m.sa (some m.ta) m.da ras

def Sent.AllOrNone (ad : Adapter) : Sent → Prop
  | xmit luck pkt => XmitOnce ad luck pkt
  | msdu luck m _ => MsduOnce ad luck m
  | subframe _ luck m => MsduOnce ad luck m

end Forward

open Forward

/-- **each station is addressed once** by the frames of a group-addressed packet, if and only if all
copies are made and there is no group-addressed frame, or there is one and no copy -/
theorem forward_once_iff (ad : Adapter) (s : Sent) (h : s.ToGroup) : s.Once ad ↔ s.AllOrNone ad := by
  cases s with
  | xmit luck pkt => exact rtwXmit_once h.2 h.1
  | msdu luck m cannotRun =>
    obtain ⟨r, hc, hposted⟩ := recvProcessMsdu_posted ad luck m cannotRun
    unfold Sent.Once Sent.AllOrNone
    dsimp only
    rw [hposted]
    exact hc.once h
  | subframe w luck m =>
    obtain ⟨r, hc, hposted⟩ := amsduSubframe_posted ad luck w m
    refine Iff.trans ?_ (hc.once h)
    constructor
    · rintro ⟨ras, hras, honce⟩
      rw [hposted] at hras
      rw [List.append_cancel_left hras]
      exact honce
    · exact fun honce => ⟨_, hposted, honce⟩

/-- a broadcast from the first of two stations is copied for the other -/
theorem forward_once_iff_other : (Sent.msdu {} ⟨[2, 0, 0, 0, 0, 1], bcastAddr, [2, 0, 0, 0, 0, 1],
    false⟩ false).Once twoStations :=
  (forward_once_iff twoStations _ (by show isMcast bcastAddr = true; decide)).mpr
    (Or.inr (by decide))

/-- there is no frame for the second station, and the first is addressed twice -/
theorem forward_once_twice :
    ¬(Sent.xmit { allocCopy := fun ra => ra == [2, 0, 0, 0, 0, 1] }
      ⟨100, bcastAddr, [2, 0, 0, 0, 0, 9]⟩).Once twoStations := by
  unfold Sent.Once OnceEach
  decide

end Rtl8192eu
