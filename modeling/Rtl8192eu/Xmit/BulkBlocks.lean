import Rtl8192eu.Xmit.AggLayout
import Rtl8192eu.Lib.Blocks

/-!
# Descriptors in USB blocks

`UsbTxAggDescNum` is the number of packets that the device takes from one block of `UsbBulkOutSize`
bytes.  The loop of `rtl8192eu_xmitframe_complete` counts them block by block, from the start of the
buffer.  Where the end of the last packet is the end of a block, the 8 bytes in front of the first
packet are removed afterwards, and every other packet moves 8 bytes towards the start.

* `joining`        the lengths of the frames that the loop takes;
* `starts`         where packets of given lengths begin;
* `joining_block`   the count of the loop is right as long as nothing moves;
* `Overfull`       when the move puts one packet too many into a block;
* `usbBlock_iff`   the limit holds in exactly the other transfers.
-/

namespace Rtl8192eu

open Blocks

/-- `rtw_xmitframe_coalesce` will build the frame -/
def buildable (ad : TxAdapter) (sta : TxSta) (att : PktAttrib) : Bool :=
  (hdrAddrs ad att).isSome && sta.asoc && (att.encrypt != .tkip || sta.micKeySet)

def TxFrame.len {ad : TxAdapter} (f : TxFrame ad) : Nat := rtwWlanPktSize f.att + txdescSize

/-- from the state of the count on: the queue up to where the loop stops, without the frames that
cannot be built -/
def joining {ad : TxAdapter} (sta : TxSta) (conf : XmitConf) (qsel : Nat) :
    AggState → List (TxFrame ad) → List Nat
  | _, [] => []
  | st, f :: q =>
    if !busaggQselCheck conf qsel f.qsel then []
    else if maxXmitbufSz < rnd8 (st.pbuf + f.len) then []
    else if buildable ad sta f.att then
      match aggNext conf st f.len with
      | none => [f.len]
      | some st' => f.len :: joining sta conf qsel st' q
    else joining sta conf qsel st q

/-- each packet begins at the next multiple of 8 -/
def starts : Nat → List Nat → List Nat
  | _, [] => []
  | pos, len :: lens => rnd8 pos :: starts (rnd8 pos + len) lens

def tailOf : Nat → List Nat → Nat
  | pos, [] => pos
  | pos, len :: lens => tailOf (rnd8 pos + len) lens

/-- the lengths of all packets, the first with the 8 bytes in front -/
def transferLens {ad : TxAdapter} (sta : TxSta) (conf : XmitConf) (f : TxFrame ad)
    (q : List (TxFrame ad)) : List Nat :=
  (f.len + packetOffsetSz) :: joining sta conf f.qsel (aggInit conf f.queued) q

/-- The last packet ends where a block ends, and a block that is full is followed by a packet at the
first place of the next; its own first place is free, or that of the transfer. -/
def Overfull (conf : XmitConf) (lens : List Nat) : Prop :=
  tailOf 0 lens % conf.bulkSize = 0 ∧ ∃ k, inBlock conf.bulkSize k (starts 0 lens) = conf.usbTxAggDescNum
    ∧ conf.bulkSize * (k + 1) ∈ starts 0 lens ∧ (k = 0 ∨ conf.bulkSize * k ∉ starts 0 lens)

/-! ## positions -/

section

variable {pos len o : Nat} {lens : List Nat}

theorem rnd8_dvd (n : Nat) : 8 ∣ rnd8 n := ⟨(n + 7) / 8, Nat.mul_comm _ _⟩

theorem starts_mem : ∀ o ∈ starts pos lens, 8 ∣ o ∧ pos ≤ o := by
  induction lens generalizing pos with
  | nil => simp [starts]
  | cons len lens ih =>
    intro o ho
    have hge := rnd8_ge pos
    rcases List.mem_cons.mp ho with rfl | ho
    · exact ⟨rnd8_dvd pos, hge⟩
    · have h := ih o ho
      exact ⟨h.1, by omega⟩

theorem starts_rnd8 (h : o ∈ starts pos lens) : rnd8 pos ≤ o := by
  obtain ⟨⟨c, hc⟩, hle⟩ := starts_mem o h
  unfold rnd8
  omega

theorem starts_pairwise {d : Nat} (h : ∀ len ∈ lens, d ≤ len) :
    (starts pos lens).Pairwise fun o o' => o + d ≤ o' := by
  induction lens generalizing pos with
  | nil => exact List.Pairwise.nil
  | cons len lens ih =>
    apply List.pairwise_cons.mpr
    constructor
    · intro o ho
      have hlen := h len List.mem_cons_self
      have hle := (starts_mem o ho).2
      omega
    · exact ih fun x hx => h x (List.mem_cons_of_mem _ hx)

theorem starts_nodup (h : ∀ len ∈ lens, 0 < len) : (starts pos lens).Nodup := by
  apply (starts_pairwise (d := 1) h).imp
  intro o o' hle
  omega

end

/-! ## the loop -/

section

variable {cr : TxCrypto} {ad : TxAdapter} {conf : XmitConf} {sta sta' : TxSta} {att : PktAttrib}

theorem buildable_eq (cr : TxCrypto) (pkt : List UInt8) (bufAddr pktOffset : Nat) (m : Nat → UInt8) :
    buildable ad sta att = (rtwXmitframeCoalesce cr ad sta att pkt bufAddr pktOffset m).isSome := by
  apply Bool.eq_iff_iff.mpr
  rw [rtwXmitframeCoalesce_isSome_iff]
  simp only [buildable, Bool.and_eq_true, Bool.or_eq_true, bne_iff_ne, ne_eq, and_assoc]
  simp only [imp_iff_not_or]

/-- whether a frame can be built does not change with the frames before it -/
theorem buildable_congr (ad : TxAdapter) (ha : sta'.asoc = sta.asoc)
    (hk : sta'.micKeySet = sta.micKeySet) (att : PktAttrib) : buildable ad sta' att = buildable ad sta att := by
  unfold buildable
  rw [ha, hk]

theorem rtwMakeWlanhdr_sta {hdr : List UInt8} (h : rtwMakeWlanhdr ad sta att = some (hdr, sta')) :
    sta'.asoc = sta.asoc ∧ sta'.micKeySet = sta.micKeySet := by
  obtain ⟨⟨ds, addrs⟩, -, h⟩ := Option.bind_eq_some_iff.mp h
  dsimp only at h
  split at h
  · cases h
  · cases h
    exact ⟨rfl, rfl⟩

theorem coalesce_sta {pkt : List UInt8} {bufAddr pktOffset : Nat} {m : Nat → UInt8} {c : Coalesced}
    (h : rtwXmitframeCoalesce cr ad sta att pkt bufAddr pktOffset m = some (c, sta')) :
    sta'.asoc = sta.asoc ∧ sta'.micKeySet = sta.micKeySet := by
  obtain ⟨⟨hdr, sta₁⟩, hmk, h⟩ := Option.bind_eq_some_iff.mp h
  obtain ⟨c₁, -, h⟩ := Option.map_eq_some_iff.mp h
  cases h
  exact rtwMakeWlanhdr_sta hmk

theorem coalesceSta_sta (ad : TxAdapter) (sta : TxSta) (att : PktAttrib) :
    (coalesceSta ad sta att).asoc = sta.asoc
      ∧ (coalesceSta ad sta att).micKeySet = sta.micKeySet := by
  unfold coalesceSta
  cases h : rtwMakeWlanhdr ad sta att with
  | none => exact ⟨rfl, rfl⟩
  | some r =>
    obtain ⟨hdr, s⟩ := r
    exact rtwMakeWlanhdr_sta h

/-- **What the loop packs**: packets begin where `starts` says, for the lengths that join. -/
theorem aggLoop_starts (cr : TxCrypto) (conf : XmitConf) (qsel base : Nat) (q : List (TxFrame ad)) (st : AggState) (tail : Nat)
    (m : Nat → UInt8) (s : TxSta) (ha : s.asoc = sta.asoc) (hk : s.micKeySet = sta.micKeySet)
    (hpbuf : st.pbuf = rnd8 tail) :
    (aggLoop cr ad conf qsel base st tail m s q).pkts.map AggPkt.addr
        = (starts tail (joining sta conf qsel st q)).map (base + ·)
      ∧ (aggLoop cr ad conf qsel base st tail m s q).tail
        = tailOf tail (joining sta conf qsel st q) := by
  induction q generalizing st tail m s with
  | nil => exact ⟨rfl, rfl⟩
  | cons f q ih =>
    have hb := buildable_congr ad ha hk f.att
    rw [aggLoop, joining]
    split
    · exact ⟨rfl, rfl⟩
    have hlen : rtwWlanPktSize f.att + txdescSize = f.len := rfl
    rw [hlen]
    split
    · exact ⟨rfl, rfl⟩
    rw [← hb, buildable_eq cr f.pkt (base + st.pbuf) 0 m]
    dsimp only
    cases hc : rtwXmitframeCoalesce cr ad s f.att f.pkt (base + st.pbuf) 0 m with
    | none =>
      have hsta := coalesceSta_sta ad s f.att
      rw [Option.isSome_none, if_neg Bool.false_ne_true]
      exact ih st tail m _ (hsta.1.trans ha) (hsta.2.trans hk) hpbuf
    | some r =>
      obtain ⟨c, s'⟩ := r
      have hsta := coalesce_sta hc
      rw [Option.isSome_some, if_pos rfl]
      dsimp only
      cases hn : aggNext conf st f.len with
      | none =>
        simp only [starts, tailOf, List.map_cons, List.map_nil, hpbuf, and_self]
      | some st' =>
        have hpbuf' := (aggNext_some hn).1
        have hrest := ih st' (st.pbuf + f.len) c.mem s' (hsta.1.trans ha) (hsta.2.trans hk) hpbuf'
        dsimp only
        rw [List.map_cons, hrest.1, hrest.2, hpbuf]
        exact ⟨rfl, rfl⟩

end

/-! ## the count of the loop -/

section

variable {ad : TxAdapter} {conf : XmitConf} {sta : TxSta}

/-- the count is about the block that the next packet begins in, and it is not full -/
structure CountOk (conf : XmitConf) (st : AggState) (tail : Nat) : Prop where
  pbuf : st.pbuf = rnd8 tail
  ptr : st.bulkPtr = (st.pbuf / conf.bulkSize + 1) * conf.bulkSize
  room : st.descCount < conf.usbTxAggDescNum

theorem CountOk.init (f : TxFrame ad) (hN : 2 ≤ conf.usbTxAggDescNum) :
    CountOk conf (aggInit conf f.queued) (f.len + packetOffsetSz) := by
  unfold aggInit
  dsimp only
  split
  · rename_i hlt
    refine ⟨rfl, ?_, hN⟩
    show conf.bulkSize = (_ / conf.bulkSize + 1) * conf.bulkSize
    rw [Nat.div_eq_of_lt hlt, Nat.zero_add, Nat.one_mul]
  · exact ⟨rfl, rfl, Nat.lt_of_lt_of_le Nat.zero_lt_two hN⟩

theorem CountOk.next {st st' : AggState} {tail len : Nat} (hb : 0 < conf.bulkSize)
    (h : CountOk conf st tail)
    (hn : aggNext conf st len = some st') :
    CountOk conf st' (rnd8 tail + len)
      ∧ (st'.pbuf / conf.bulkSize = st.pbuf / conf.bulkSize ∧ st'.descCount = st.descCount + 1
        ∨ st.pbuf / conf.bulkSize < st'.pbuf / conf.bulkSize ∧ st'.descCount = 0) := by
  have hroom := h.room
  have hptr := h.ptr
  rw [← h.pbuf]
  unfold aggNext at hn
  dsimp only at hn
  split at hn
  · cases hn
  have hge : st.pbuf ≤ rnd8 (st.pbuf + len) :=
    Nat.le_trans (Nat.le_add_right _ _) (rnd8_ge (st.pbuf + len))
  have hmono := Nat.div_le_div_right (c := conf.bulkSize) hge
  split at hn
  · rename_i hin
    have hsame : rnd8 (st.pbuf + len) / conf.bulkSize = st.pbuf / conf.bulkSize := by
      rw [hptr] at hin
      have hlt := Nat.div_lt_of_lt_mul (Nat.mul_comm _ _ ▸ hin)
      omega
    split at hn
    · cases hn
    · rename_i hne
      cases hn
      refine ⟨⟨rfl, ?_, by show st.descCount + 1 < _; omega⟩, Or.inl ⟨hsame, rfl⟩⟩
      show st.bulkPtr = (rnd8 (st.pbuf + len) / conf.bulkSize + 1) * conf.bulkSize
      rw [hsame, hptr]
  · rename_i hout
    cases hn
    refine ⟨⟨rfl, rfl, Nat.lt_of_le_of_lt (Nat.zero_le _) hroom⟩, Or.inr ⟨?_, rfl⟩⟩
    apply (Nat.le_div_iff_mul_le hb).mpr
    rw [hptr] at hout
    exact Nat.le_of_not_lt hout

/-- **The count is right** before anything moves: it is that of the packets in the block where the next
packet begins, so no block gets more than the limit. -/
theorem joining_block (sta : TxSta) (hb : 0 < conf.bulkSize) (qsel : Nat) (q : List (TxFrame ad)) (st : AggState)
    (tail : Nat) (h : CountOk conf st tail) (k : Nat) :
    (if st.pbuf / conf.bulkSize = k then st.descCount else 0)
        + inBlock conf.bulkSize k (starts tail (joining sta conf qsel st q))
      ≤ conf.usbTxAggDescNum := by
  have hroom := h.room
  have hstop : (if st.pbuf / conf.bulkSize = k then st.descCount else 0) + 0
      ≤ conf.usbTxAggDescNum := by
    split <;> omega
  induction q generalizing st tail with
  | nil => exact hstop
  | cons f q ih =>
    rw [joining]
    by_cases hqsel : (!busaggQselCheck conf qsel f.qsel) = true
    · rw [if_pos hqsel]
      exact hstop
    rw [if_neg hqsel]
    by_cases hfull : maxXmitbufSz < rnd8 (st.pbuf + f.len)
    · rw [if_pos hfull]
      exact hstop
    rw [if_neg hfull]
    by_cases hbuild : buildable ad sta f.att = true
    swap
    · rw [if_neg hbuild]
      exact ih st tail h hroom hstop
    rw [if_pos hbuild]
    cases hn : aggNext conf st f.len with
    | none =>
      show _ + inBlock conf.bulkSize k [rnd8 tail] ≤ _
      rw [← h.pbuf, inBlock_cons, inBlock_nil]
      split <;> omega
    | some st' =>
      obtain ⟨hok, hblock⟩ := h.next hb hn
      have hroom' := hok.room
      have hrest := ih st' (rnd8 tail + f.len) hok hroom' (by split <;> omega)
      show _ + inBlock conf.bulkSize k (rnd8 tail :: starts (rnd8 tail + f.len) _) ≤ _
      rw [← h.pbuf, inBlock_cons]
      rcases hblock with ⟨hsame, hcount⟩ | ⟨hlater, hcount⟩
      · rw [hsame, hcount, h.pbuf] at hrest
        rw [h.pbuf]
        split at hrest <;> rename_i hk
        · rw [if_pos hk, if_pos hk]
          omega
        · rw [if_neg hk, if_neg hk]
          omega
      · by_cases hk : st.pbuf / conf.bulkSize = k
        · -- the rest begins in later blocks
          have hnone : inBlock conf.bulkSize k
              (starts (st.pbuf + f.len) (joining sta conf qsel st' q)) = 0 := by
            apply inBlock_eq_zero
            intro o ho
            have hge : st'.pbuf ≤ o := by
              rw [hok.pbuf, ← h.pbuf]
              exact starts_rnd8 ho
            have hmono := Nat.div_le_div_right (c := conf.bulkSize) hge
            omega
          rw [if_pos hk, if_pos hk, hnone]
          omega
        · rw [h.pbuf] at hk
          rw [h.pbuf, if_neg hk, if_neg hk]
          omega

theorem starts_transferLens (f : TxFrame ad) (q : List (TxFrame ad)) :
    starts 0 (transferLens sta conf f q) = 0 :: starts (f.len + packetOffsetSz)
      (joining sta conf f.qsel (aggInit conf f.queued) q) := by
  have hpos : rnd8 0 + (f.len + packetOffsetSz) = f.len + packetOffsetSz := Nat.zero_add _
  show rnd8 0 :: starts (rnd8 0 + (f.len + packetOffsetSz)) _ = _
  rw [hpos]
  rfl

theorem transfer_block (sta : TxSta) (hb : 0 < conf.bulkSize) (hN : 2 ≤ conf.usbTxAggDescNum) (f : TxFrame ad)
    (q : List (TxFrame ad)) (k : Nat) :
    inBlock conf.bulkSize k (starts 0 (transferLens sta conf f q)) ≤ conf.usbTxAggDescNum := by
  have hok := CountOk.init f hN
  have hcount := joining_block sta hb f.qsel q _ _ hok k
  rw [starts_transferLens, inBlock_cons, Nat.zero_div]
  by_cases hlt : (aggInit conf f.queued).pbuf < conf.bulkSize
  · have hone : (aggInit conf f.queued).descCount = 1 := by
      unfold aggInit at hlt ⊢
      dsimp only at hlt ⊢
      split at hlt
      · rename_i h
        rw [if_pos h]
      · rename_i h
        exact absurd hlt h
    rw [Nat.div_eq_of_lt hlt, hone] at hcount
    exact hcount
  · by_cases hk : 0 = k
    · have hnone : inBlock conf.bulkSize k (starts (f.len + packetOffsetSz)
          (joining sta conf f.qsel (aggInit conf f.queued) q)) = 0 := by
        apply inBlock_eq_zero
        intro o ho
        have hge := starts_rnd8 ho
        rw [← hok.pbuf] at hge
        have hpos := Nat.div_pos (Nat.le_trans (Nat.le_of_not_lt hlt) hge) hb
        omega
      rw [if_pos hk, hnone]
      omega
    · rw [if_neg hk]
      omega

/-! ## after the move -/

/-- a descriptor, a header and the LLC header -/
theorem TxFrame.len_ge (f : TxFrame ad) : 72 ≤ f.len := by
  have hhdr := f.ok.hdrlen_eq
  have hdesc : f.len = rtwWlanPktSize f.att + 40 := rfl
  rw [hdesc]
  unfold rtwWlanPktSize
  split at hhdr <;> omega

theorem joining_len_ge {qsel : Nat} {st : AggState} {q : List (TxFrame ad)} :
    ∀ len ∈ joining sta conf qsel st q, 72 ≤ len := by
  induction q generalizing st with
  | nil => simp [joining]
  | cons f q ih =>
    rw [joining]
    split
    · simp
    split
    · simp
    split
    · cases aggNext conf st f.len with
      | none => simpa using f.len_ge
      | some st' => exact List.forall_mem_cons.mpr ⟨f.len_ge, ih⟩
    · exact ih

theorem transferLens_ge (f : TxFrame ad) (q : List (TxFrame ad)) :
    ∀ len ∈ transferLens sta conf f q, 72 ≤ len :=
  List.forall_mem_cons.mpr ⟨Nat.le_trans f.len_ge (Nat.le_add_right _ _), joining_len_ge⟩

/-- one packet at most at each place -/
theorem count_starts (sta : TxSta) (conf : XmitConf) (f : TxFrame ad) (q : List (TxFrame ad)) (o : Nat) :
    (starts 0 (transferLens sta conf f q)).count o
      = if o ∈ starts 0 (transferLens sta conf f q) then 1 else 0 := by
  have hn : (starts 0 (transferLens sta conf f q)).Nodup := by
    apply starts_nodup
    intro len hlen
    exact Nat.lt_of_lt_of_le (by decide) (transferLens_ge f q len hlen)
  split
  · rename_i ho
    exact List.count_eq_one_of_mem hn ho
  · rename_i ho
    exact List.count_eq_zero_of_not_mem ho

/-- The first packet stays at the start of the transfer; the others move by 8 bytes. -/
theorem moved_block (sta : TxSta) (hdvd : 8 ∣ conf.bulkSize) (hb : 0 < conf.bulkSize) (f : TxFrame ad)
    (q : List (TxFrame ad)) (k : Nat) :
    inBlock conf.bulkSize k ((starts 0 (transferLens sta conf f q)).map (· - packetOffsetSz))
        + (if k ≠ 0 ∧ conf.bulkSize * k ∈ starts 0 (transferLens sta conf f q) then 1 else 0)
      = inBlock conf.bulkSize k (starts 0 (transferLens sta conf f q))
        + if conf.bulkSize * (k + 1) ∈ starts 0 (transferLens sta conf f q) then 1 else 0 := by
  have hc0 := count_starts sta conf f q (conf.bulkSize * k)
  have hc1 := count_starts sta conf f q (conf.bulkSize * (k + 1))
  rw [← hc1]
  rw [starts_transferLens] at hc0 ⊢
  have hshift := inBlock_shift (b := conf.bulkSize) (k := k) (s := packetOffsetSz) (by decide) hdvd hb
    (l := starts (f.len + packetOffsetSz) (joining sta conf f.qsel (aggInit conf f.queued) q))
    fun o ho => by
      have h := starts_mem o ho
      exact ⟨h.1, Nat.le_trans (Nat.le_add_left _ _) h.2⟩
  have hzero : ∀ j, j ≠ 0 → (0 == conf.bulkSize * j) = false := by
    intro j hj
    exact beq_eq_false_iff_ne.mpr (Nat.mul_ne_zero (Nat.ne_of_gt hb) hj).symm
  rw [List.map_cons, inBlock_cons, inBlock_cons, List.count_cons, hzero (k + 1) (Nat.succ_ne_zero k),
    Nat.zero_sub]
  by_cases hk : k = 0
  · have hnone : ¬ (k ≠ 0 ∧ conf.bulkSize * k ∈ 0 :: starts (f.len + packetOffsetSz)
        (joining sta conf f.qsel (aggInit conf f.queued) q)) := fun h => h.1 hk
    have hfirst : (starts (f.len + packetOffsetSz)
        (joining sta conf f.qsel (aggInit conf f.queued) q)).count (conf.bulkSize * k) = 0 := by
      apply List.count_eq_zero_of_not_mem
      intro h
      have hle := (starts_mem _ h).2
      rw [hk, Nat.mul_zero] at hle
      exact absurd hle (by unfold packetOffsetSz; omega)
    rw [if_neg hnone, if_neg Bool.false_ne_true]
    omega
  · rw [List.count_cons, hzero k hk, if_neg Bool.false_ne_true] at hc0
    rw [if_neg Bool.false_ne_true]
    simp only [ne_eq, hk, not_false_eq_true, true_and]
    omega

end

/-! ## the transfer -/

section

variable {cr : TxCrypto} {ad : TxAdapter} {conf : XmitConf} {sta sta' : TxSta} {f : TxFrame ad}
  {q : List (TxFrame ad)} {buf : XmitBufMem} {c : Coalesced}

/-- where the packets begin, counted from the start of the transfer -/
def AggTransfer.offsets (t : AggTransfer ad) : List Nat := t.pkts.map fun p => p.addr - t.start

theorem tailOf_transferLens (sta : TxSta) (conf : XmitConf) (f : TxFrame ad) (q : List (TxFrame ad)) :
    tailOf 0 (transferLens sta conf f q) = tailOf (f.len + packetOffsetSz)
      (joining sta conf f.qsel (aggInit conf f.queued) q) := by
  have hpos : rnd8 0 + (f.len + packetOffsetSz) = f.len + packetOffsetSz := Nat.zero_add _
  show tailOf (rnd8 0 + (f.len + packetOffsetSz)) _ = _
  rw [hpos]

theorem offsets_eq (ha : sta'.asoc = sta.asoc) (hk : sta'.micKeySet = sta.micKeySet) :
    (xmitframeComplete cr ad conf buf f c sta' q).offsets
      = if tailOf 0 (transferLens sta conf f q) % conf.bulkSize = 0
        then (starts 0 (transferLens sta conf f q)).map (· - packetOffsetSz)
        else starts 0 (transferLens sta conf f q) := by
  have hpack := aggLoop_starts cr conf f.qsel buf.pbuf q
    (aggInit conf f.queued) (f.len + packetOffsetSz) c.mem sta' ha hk (aggInit_pbuf conf f).1
  rw [starts_transferLens, tailOf_transferLens, ← hpack.2]
  have hmap := hpack.1
  have hlen : rtwWlanPktSize f.att + txdescSize + packetOffsetSz = f.len + packetOffsetSz := rfl
  unfold xmitframeComplete AggTransfer.offsets
  dsimp only
  rw [hlen]
  split
  · rw [List.map_cons, List.map_cons, Nat.sub_self]
    congr 1
    have hcomp := congrArg (List.map (· - (buf.pbuf + packetOffsetSz))) hmap
    rw [List.map_map, List.map_map] at hcomp
    refine hcomp.trans (List.map_congr_left fun o _ => ?_)
    show buf.pbuf + o - (buf.pbuf + packetOffsetSz) = o - packetOffsetSz
    omega
  · rw [List.map_cons, Nat.sub_self]
    congr 1
    have hcomp := congrArg (List.map (· - buf.pbuf)) hmap
    rw [List.map_map, List.map_map] at hcomp
    refine hcomp.trans (List.map_id'' (fun o => ?_) _)
    show buf.pbuf + o - buf.pbuf = o
    omega

theorem countP_offsets (conf : XmitConf) (t : AggTransfer ad) (k : Nat) :
    (t.pkts.countP fun p => (p.addr - t.start) / conf.bulkSize = k)
      = inBlock conf.bulkSize k t.offsets := by
  unfold inBlock AggTransfer.offsets
  rw [List.countP_map]
  rfl

/-- the limit, over the positions: a transfer whose packets do not move keeps it -/
theorem inBlock_iff (hdvd : 8 ∣ conf.bulkSize) (hb : 0 < conf.bulkSize)
    (hN : 2 ≤ conf.usbTxAggDescNum) (ha : sta'.asoc = sta.asoc)
    (hk : sta'.micKeySet = sta.micKeySet) :
    (∀ k, inBlock conf.bulkSize k (xmitframeComplete cr ad conf buf f c sta' q).offsets
        ≤ conf.usbTxAggDescNum)
      ↔ ¬ Overfull conf (transferLens sta conf f q) := by
  rw [offsets_eq ha hk]
  by_cases hz : tailOf 0 (transferLens sta conf f q) % conf.bulkSize = 0
  swap
  · rw [if_neg hz]
    exact iff_of_true (transfer_block sta hb hN f q) fun h => hz h.1
  rw [if_pos hz]
  constructor
  · intro h ⟨_, k, hfull, hnext, hfirst⟩
    have hmoved := moved_block sta hdvd hb f q k
    have hfree : ¬ (k ≠ 0 ∧ conf.bulkSize * k ∈ starts 0 (transferLens sta conf f q)) :=
      fun ⟨h0, hmem⟩ => hfirst.elim h0 fun hn => hn hmem
    rw [if_neg hfree, if_pos hnext] at hmoved
    have hle := h k
    omega
  · intro h k
    have hmoved := moved_block sta hdvd hb f q k
    have hle := transfer_block sta hb hN f q k
    by_contra hover
    apply h
    refine ⟨hz, k, ?_⟩
    split at hmoved <;> split at hmoved
    · omega
    · omega
    · rename_i hfree hnext
      refine ⟨by omega, hnext, ?_⟩
      by_cases h0 : k = 0
      · exact Or.inl h0
      · exact Or.inr fun hmem => hfree ⟨h0, hmem⟩
    · omega

/-- **Descriptors in USB blocks.**  The limit holds in every transfer but those that end with a block
and move a packet into a full one. -/
theorem usbBlock_iff (cr : TxCrypto) (ad : TxAdapter) (conf : XmitConf) (speed : UsbSpeed)
    (buf : XmitBufMem) (f : TxFrame ad) (q : List (TxFrame ad)) (sta sta' : TxSta) (m : Nat → UInt8)
    (c : Coalesced) (hbulk : conf.bulkSize = speed.bulkOutSize) (hN : 2 ≤ conf.usbTxAggDescNum)
    (hc : rtwXmitframeCoalesce cr ad sta f.att f.pkt buf.pbuf 1 m = some (c, sta')) :
    let t := xmitframeComplete cr ad conf buf f c sta' q
    (∀ k, (t.pkts.countP fun p => (p.addr - t.start) / conf.bulkSize = k) ≤ conf.usbTxAggDescNum)
      ↔ ¬ Overfull conf (transferLens sta conf f q) := by
  intro t
  have hdvd : 8 ∣ conf.bulkSize := by
    rw [hbulk]
    cases speed <;> decide
  have hb : 0 < conf.bulkSize := by
    rw [hbulk]
    cases speed <;> decide
  have hsta := coalesce_sta hc
  simp only [countP_offsets]
  exact inBlock_iff hdvd hb hN hsta.1 hsta.2

end

theorem usbBlock_two :
    ∃ c sta', ∀ k, ((xmitframeComplete idleCrypto txStation {} txBuf arpFrame c sta' [arpFrame]).pkts.countP
      fun p => (p.addr - (xmitframeComplete idleCrypto txStation {} txBuf arpFrame c sta'
        [arpFrame]).start) / 512 = k) ≤ 3 := by
  refine ⟨_, _, (usbBlock_iff idleCrypto txStation {} .high txBuf arpFrame [arpFrame] {} _ (fun _ => 0) _
    rfl (by decide) (Option.some_get arpFrame_coalesce).symm).mpr fun h => ?_⟩
  have htail := h.1
  revert htail
  decide

/-- an ARP frame with `n` bytes -/
def arpFrameOf (n : Nat) : TxFrame txStation :=
  TxFrame.ofEth (Option.some_get (x := updateAttrib txStation {}
    { arpEth with payload := List.replicate n 0 } .nonEapol) rfl).symm 0

theorem arpFrameOf_pktSize (n : Nat) : rtwWlanPktSize (arpFrameOf n).att = n + 32 := by
  have hlen : (arpFrameOf n).att.pktlen = n :=
    (arpFrameOf n).pktlen_eq.trans (List.length_replicate ..)
  show 24 + 0 + 8 + (arpFrameOf n).att.pktlen + 0 + 0 = n + 32
  rw [hlen]
  omega

/-- Three packets fill the first block, with the 8 bytes in front; the fourth fills the second.  It
moves into the first block. -/
theorem usbBlock_four :
    ∃ c sta', rtwXmitframeCoalesce idleCrypto txStation {} (arpFrameOf 96).att (arpFrameOf 96).pkt
        txBuf.pbuf 1 (fun _ => 0) = some (c, sta')
      ∧ 3 < ((xmitframeComplete idleCrypto txStation {} txBuf (arpFrameOf 96) c sta'
          [arpFrameOf 96, arpFrameOf 96, arpFrameOf 440]).pkts.countP
        fun p => (p.addr - (xmitframeComplete idleCrypto txStation {} txBuf (arpFrameOf 96) c sta'
          [arpFrameOf 96, arpFrameOf 96, arpFrameOf 440]).start) / 512 = 0) := by
  have hbuilt : (rtwXmitframeCoalesce idleCrypto txStation {} (arpFrameOf 96).att (arpFrameOf 96).pkt
      txBuf.pbuf 1 fun _ => 0).isSome = true :=
    (rtwXmitframeCoalesce_isSome_iff ..).mpr ⟨by decide, rfl, fun _ => rfl⟩
  refine ⟨_, _, (Option.some_get hbuilt).symm, ?_⟩
  have hsta := coalesce_sta (Option.some_get hbuilt).symm
  have hlens : transferLens {} {} (arpFrameOf 96) [arpFrameOf 96, arpFrameOf 96, arpFrameOf 440]
      = [176, 168, 168, 512] := by
    simp only [transferLens, joining, TxFrame.len, TxFrame.queued, aggInit, arpFrameOf_pktSize]
    decide
  rw [countP_offsets {}, offsets_eq hsta.1 hsta.2, hlens]
  decide

end Rtl8192eu
