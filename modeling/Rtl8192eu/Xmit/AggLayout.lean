import Rtl8192eu.Xmit.Coalesce

/-!
# The layout of transmit transfers

`rtl8192eu_xmitframe_complete` packs frames into one buffer: it reserves room from a predicted size
(`rtw_wlan_pkt_size`), builds each frame there, and may at the end take the packet offset of the
first frame away again.  `rtw_dump_xframe` sends the fragments of one frame.

* `aggLoop`    the loop over the queue, with the buffer;
* `xmitframeComplete`   the transfer, when the first frame was built;
* `dumpLoop`   the transfers of `rtw_dump_xframe`.
-/

namespace Rtl8192eu

open Mem

/-- `RTW_USB_SPEED_1_1`, `2` and `3` -/
inductive UsbSpeed where
  | full | high | super
  deriving DecidableEq, Repr

/-- `UsbBulkOutSize` of `rtl8192eu_interface_configure` -/
def UsbSpeed.bulkOutSize : UsbSpeed → Nat
  | .high => 512
  | .full | .super => 64

/-- the size that `rtw_usb_bulk_size_boundary` tests -/
def UsbSpeed.boundary : UsbSpeed → Nat
  | .full => 64
  | .high => 512
  | .super => 1024

def rtwUsbBulkSizeBoundary (speed : UsbSpeed) (len : Nat) : Bool := len % speed.boundary = 0

/-- `rtw_calculate_wlan_pkt_size_by_attribue` -/
def rtwWlanPktSize (att : PktAttrib) : Nat :=
  att.hdrlen + att.ivLen + 8 + att.pktlen + (if att.encrypt = .tkip then 8 else 0) + swIcv att

/-- an `xmit_frame` of a queue, with its packet -/
structure TxFrame (ad : TxAdapter) where
  att : PktAttrib
  pkt : List UInt8
  qsel : Nat
  ok : att.Ok ad
  pktlen_eq : att.pktlen = pkt.length

/-- the frame that `update_attrib` makes of an Ethernet frame -/
def TxFrame.ofEth {ad : TxAdapter} {sta sta' : TxSta} {eth : EthFrame} {eapol : EapType}
    {att : PktAttrib} (h : updateAttrib ad sta eth eapol = some (att, sta')) (qsel : Nat) :
    TxFrame ad where
  att := att
  pkt := eth.payload
  qsel := qsel
  ok := updateAttrib_ok h
  pktlen_eq := by rw [(updateAttrib_some h).2.2]

/-! ## one frame, `rtw_dump_xframe` -/

/-- a call of `rtw_write_port`: where the transfer starts and how long it is, and the packet size
and offset of its descriptor -/
structure Transfer where
  start : Nat
  len : Nat
  pktSize : Nat
  pktOffset : Nat
  deriving DecidableEq, Repr

/-- where the packet starts behind the descriptor -/
def Transfer.mpduAddr (t : Transfer) : Nat := t.start + hwHdrOffset t.pktOffset

/-- `update_txdesc` of a frame that is not aggregated pulls the descriptor -/
def txdescPull (ad : TxAdapter) (speed : UsbSpeed) (sz : Nat) : Bool :=
  !ad.mpMode && !rtwUsbBulkSizeBoundary speed (txdescSize + sz)

/-- the declared size of a fragment that is not the last -/
def dumpFragSz (ad : TxAdapter) (att : PktAttrib) : Nat :=
  ad.fragLen - 4 - if ad.sec.swEncrypt then 0 else att.icvLen

/-- the loop of `rtw_dump_xframe` over `n` fragments -/
def dumpLoop (ad : TxAdapter) (speed : UsbSpeed) (att : PktAttrib) (last : Nat) :
    Nat → Nat → Nat → Nat → List Transfer
  | 0, _, _, _ => []
  | n + 1, memAddr, bufAddr, pktOffset =>
    let sz := if n = 0 then last else dumpFragSz ad att
    if txdescPull ad speed sz then
      let memAddr := memAddr + packetOffsetSz
      ⟨memAddr, sz + txdescSize, sz, pktOffset - 1⟩ ::
        dumpLoop ad speed att last n (rnd4 (memAddr + (sz + txdescSize))) memAddr (pktOffset - 1)
    else
      let wSz := sz + txdescSize + packetOffsetSz
      ⟨bufAddr, wSz, sz, pktOffset⟩ ::
        dumpLoop ad speed att last n (rnd4 (memAddr + wSz)) bufAddr pktOffset

/-- a new frame has `pkt_offset` 1 -/
def rtwDumpXframe (ad : TxAdapter) (speed : UsbSpeed) (att : PktAttrib) (bufAddr : Nat)
    (c : Coalesced) : List Transfer :=
  dumpLoop ad speed att c.lastTxcmdsz c.nrFrags bufAddr bufAddr 1

/-! ## several frames, `rtl8192eu_xmitframe_complete` -/

/-- a packet of an aggregate: its descriptor is at `addr` -/
structure AggPkt (ad : TxAdapter) where
  frame : TxFrame ad
  addr : Nat
  pktOffset : Nat
  /-- `last_txcmdsz`, the declared size -/
  size : Nat

def AggPkt.mpduAddr {ad : TxAdapter} (p : AggPkt ad) : Nat := p.addr + hwHdrOffset p.pktOffset

def AggPkt.ends {ad : TxAdapter} (p : AggPkt ad) : Nat := p.mpduAddr + p.size

structure AggOut (ad : TxAdapter) where
  pkts : List (AggPkt ad)
  /-- `agg_num` of the first frame -/
  aggNum : Nat
  /-- `pbuf_tail` -/
  tail : Nat
  mem : Nat → UInt8

/-- the station after a frame, built or not -/
def coalesceSta (ad : TxAdapter) (sta : TxSta) (att : PktAttrib) : TxSta :=
  ((rtwMakeWlanhdr ad sta att).map Prod.snd).getD sta

/-- the `while` loop.  A frame that cannot be built is dropped; what it leaves in the buffer is
behind `pbuf_tail`. -/
def aggLoop (cr : TxCrypto) (ad : TxAdapter) (conf : XmitConf) (qsel base : Nat) :
    AggState → Nat → (Nat → UInt8) → TxSta → List (TxFrame ad) → AggOut ad
  | st, tail, m, _, [] => ⟨[], st.aggNum, tail, m⟩
  | st, tail, m, sta, f :: q =>
    let len := rtwWlanPktSize f.att + txdescSize
    if !busaggQselCheck conf qsel f.qsel then ⟨[], st.aggNum, tail, m⟩
    else if maxXmitbufSz < rnd8 (st.pbuf + len) then ⟨[], st.aggNum, tail, m⟩
    else
      let addr := base + st.pbuf
      match rtwXmitframeCoalesce cr ad sta f.att f.pkt addr 0 m with
      | none => aggLoop cr ad conf qsel base st tail m (coalesceSta ad sta f.att) q
      | some (c, sta) =>
        let p : AggPkt ad := ⟨f, addr, 0, c.lastTxcmdsz⟩
        match aggNext conf st len with
        | none => ⟨[p], st.aggNum + 1, st.pbuf + len, c.mem⟩
        | some st' =>
          let r := aggLoop cr ad conf qsel base st' (st.pbuf + len) c.mem sta q
          { r with pkts := p :: r.pkts }

structure AggTransfer (ad : TxAdapter) where
  start : Nat
  len : Nat
  pkts : List (AggPkt ad)
  /-- `TXAGG_NUM` of the first descriptor, written when there are several packets -/
  txaggNum : Nat
  mem : Nat → UInt8

/-- what `aggInit` reads of a frame -/
def TxFrame.queued {ad : TxAdapter} (f : TxFrame ad) : XmitFrame :=
  ⟨0, f.att.priority, 0, rtwWlanPktSize f.att, f.qsel⟩

/-- the frames behind the first one, which was built at `buf` with result `c` -/
def xmitframeComplete (cr : TxCrypto) (ad : TxAdapter) (conf : XmitConf) (buf : XmitBufMem)
    (f : TxFrame ad) (c : Coalesced) (sta : TxSta) (q : List (TxFrame ad)) : AggTransfer ad :=
  let r := aggLoop cr ad conf f.qsel buf.pbuf (aggInit conf f.queued)
    (rtwWlanPktSize f.att + txdescSize + packetOffsetSz) c.mem sta q
  let txaggNum := if 1 < r.aggNum then r.aggNum else 0
  if r.tail % conf.bulkSize = 0 then
    ⟨buf.pbuf + packetOffsetSz, r.tail - packetOffsetSz,
      ⟨f, buf.pbuf + packetOffsetSz, 0, c.lastTxcmdsz⟩ :: r.pkts, txaggNum, r.mem⟩
  else
    ⟨buf.pbuf, r.tail, ⟨f, buf.pbuf, 1, c.lastTxcmdsz⟩ :: r.pkts, txaggNum, r.mem⟩

/-! ## what a transfer looks like -/

/-- from the offset `pos` on: each packet starts at the next multiple of 8, and the last one ends
at the offset `tail` -/
def Chained {ad : TxAdapter} (base : Nat) : Nat → List (AggPkt ad) → Nat → Prop
  | pos, [], tail => pos = tail
  | pos, p :: ps, tail => p.addr = base + rnd8 pos ∧ Chained base (p.ends - base) ps tail

structure AggTransfer.Sound {ad : TxAdapter} (conf : XmitConf) (buf : XmitBufMem)
    (t : AggTransfer ad) : Prop where
  size_eq : ∀ p ∈ t.pkts, p.size = rtwWlanPktSize p.frame.att
  chained : Chained t.start 0 t.pkts t.len
  aligned : ∀ p ∈ t.pkts, t.start ≤ p.addr ∧ 8 ∣ p.addr - t.start
  disjoint : t.pkts.Pairwise fun p p' => p.ends ≤ p'.addr
  fits : buf.pbuf ≤ t.start ∧ t.start + t.len ≤ buf.pbuf + maxXmitbufSz
  count : t.pkts.length ≤ maxTxAggPacketNumber
  txagg : t.txaggNum = if t.pkts.length = 1 then 0 else t.pkts.length
  bulk : t.len % conf.bulkSize ≠ 0

theorem rnd8_add {n k : Nat} (h : 8 ∣ k) : rnd8 (n + k) = rnd8 n + k := by
  unfold rnd8
  omega

section chained

variable {ad : TxAdapter} {base pos tail k : Nat} {ps : List (AggPkt ad)}

theorem Chained.mem (h : Chained base pos ps tail) :
    ∀ p ∈ ps, base + pos ≤ p.addr ∧ 8 ∣ p.addr - base := by
  induction ps generalizing pos with
  | nil => simp
  | cons q ps ih =>
    intro p hp
    have hq := h.1
    have hr := rnd8_ge pos
    rcases List.mem_cons.mp hp with rfl | hp
    · refine ⟨by omega, ?_⟩
      rw [hq, Nat.add_sub_cancel_left]
      exact ⟨(pos + 7) / 8, Nat.mul_comm _ _⟩
    · obtain ⟨h1, h2⟩ := ih h.2 p hp
      have he : q.addr ≤ q.ends := Nat.le_trans (Nat.le_add_right _ _) (Nat.le_add_right _ _)
      exact ⟨by omega, h2⟩

theorem Chained.pairwise (h : Chained base pos ps tail) :
    ps.Pairwise fun p p' => p.ends ≤ p'.addr := by
  induction ps generalizing pos with
  | nil => exact List.Pairwise.nil
  | cons q ps ih =>
    refine List.pairwise_cons.mpr ⟨?_, ih h.2⟩
    intro p hp
    have := (Chained.mem h.2 p hp).1
    omega

theorem Chained.le (h : Chained base pos ps tail) : pos ≤ tail := by
  induction ps generalizing pos with
  | nil => exact Nat.le_of_eq h
  | cons q ps ih =>
    have hq := h.1
    have hr := rnd8_ge pos
    have he : q.addr ≤ q.ends := Nat.le_trans (Nat.le_add_right _ _) (Nat.le_add_right _ _)
    exact Nat.le_trans (by omega) (ih h.2)

/-- the same packets, seen from another start -/
theorem Chained.shift (hk : 8 ∣ k) (hpos : k ≤ pos) (h : Chained base pos ps tail) :
    Chained (base + k) (pos - k) ps (tail - k) := by
  induction ps generalizing pos with
  | nil =>
    show pos - k = tail - k
    rw [show pos = tail from h]
  | cons q ps ih =>
    obtain ⟨hq, h⟩ := h
    have he : q.addr ≤ q.ends := Nat.le_trans (Nat.le_add_right _ _) (Nat.le_add_right _ _)
    have hr := rnd8_ge pos
    have hp : rnd8 pos = rnd8 (pos - k) + k := by
      rw [← rnd8_add hk, Nat.sub_add_cancel hpos]
    refine ⟨by omega, ?_⟩
    rw [← Nat.sub_sub]
    exact ih (by omega) h

end chained

/-! ## the size that was predicted -/

theorem coalesce_size {cr : TxCrypto} {ad : TxAdapter} {sta sta' : TxSta} {f : TxFrame ad}
    {bufAddr pktOffset : Nat} {m : Nat → UInt8} {c : Coalesced} (hs : 4 ∣ bufAddr)
    (hfit : isMcast f.att.ra = true ∨ Unfragmented ad f.att f.pkt.length)
    (h : rtwXmitframeCoalesce cr ad sta f.att f.pkt bufAddr pktOffset m = some (c, sta')) :
    c.lastTxcmdsz = rtwWlanPktSize f.att := by
  obtain ⟨hdr, -, -, -, -, hlast⟩ := rtwXmitframeCoalesce_single f.ok f.pktlen_eq hs hfit h
  rw [hlast, length_sentText f.ok, length_msduText, rtwWlanPktSize, f.pktlen_eq]
  omega

structure AggInv {ad : TxAdapter} (base tail n : Nat) (r : AggOut ad) : Prop where
  chained : Chained base tail r.pkts r.tail
  size_eq : ∀ p ∈ r.pkts, p.size = rtwWlanPktSize p.frame.att
  num : r.aggNum = n + r.pkts.length
  num_le : r.aggNum ≤ maxTxAggPacketNumber
  fits : r.tail ≤ maxXmitbufSz

theorem AggInv.stop {ad : TxAdapter} {base tail n : Nat} {m : Nat → UInt8}
    (hn : n ≤ maxTxAggPacketNumber) (ht : tail ≤ maxXmitbufSz) :
    @AggInv ad base tail n ⟨[], n, tail, m⟩ :=
  ⟨rfl, by simp, rfl, hn, ht⟩

theorem AggInv.cons {ad : TxAdapter} {base tail n : Nat} {r : AggOut ad} {p : AggPkt ad}
    (hp : p.addr = base + rnd8 tail) (hsz : p.size = rtwWlanPktSize p.frame.att)
    (h : AggInv base (p.ends - base) (n + 1) r) :
    AggInv base tail n { r with pkts := p :: r.pkts } where
  chained := ⟨hp, h.chained⟩
  size_eq := List.forall_mem_cons.mpr ⟨hsz, h.size_eq⟩
  num := by
    have := h.num
    show r.aggNum = n + (r.pkts.length + 1)
    omega
  num_le := h.num_le
  fits := h.fits

theorem aggNext_some {conf : XmitConf} {st st' : AggState} {len : Nat}
    (h : aggNext conf st len = some st') :
    st'.pbuf = rnd8 (st.pbuf + len) ∧ st'.aggNum = st.aggNum + 1
      ∧ st.aggNum + 1 ≠ maxTxAggPacketNumber := by
  unfold aggNext at h
  dsimp only at h
  split at h
  · cases h
  · rename_i hne
    split at h
    · split at h
      · cases h
      · cases h
        exact ⟨rfl, rfl, hne⟩
    · cases h
      exact ⟨rfl, rfl, hne⟩

/-- **The loop keeps the layout**: the next free place is `rnd8` of the last end. -/
theorem aggLoop_inv (cr : TxCrypto) {ad : TxAdapter} (conf : XmitConf) (qsel : Nat) {base : Nat}
    (hbase : 8 ∣ base) (q : List (TxFrame ad)) (hq : ∀ f ∈ q, Unfragmented ad f.att f.pkt.length)
    (st : AggState) (tail : Nat) (m : Nat → UInt8) (sta : TxSta) (hpbuf : st.pbuf = rnd8 tail)
    (hnum : st.aggNum < maxTxAggPacketNumber) (htail : tail ≤ maxXmitbufSz) :
    AggInv base tail st.aggNum (aggLoop cr ad conf qsel base st tail m sta q) := by
  induction q generalizing st tail m sta with
  | nil => exact AggInv.stop (Nat.le_of_lt hnum) htail
  | cons f q ih =>
    have hq' := fun g hg => hq g (List.mem_cons_of_mem f hg)
    rw [aggLoop]
    split
    · exact AggInv.stop (Nat.le_of_lt hnum) htail
    · split
      · exact AggInv.stop (Nat.le_of_lt hnum) htail
      · rename_i hroom
        have halign : 4 ∣ base + st.pbuf := by
          rw [hpbuf]
          unfold rnd8
          omega
        have haddr : base + st.pbuf = base + rnd8 tail := by rw [hpbuf]
        dsimp only
        cases hc : rtwXmitframeCoalesce cr ad sta f.att f.pkt (base + st.pbuf) 0 m with
        | none => exact ih hq' st tail m _ hpbuf hnum htail
        | some r =>
          obtain ⟨c, sta'⟩ := r
          have hsz := coalesce_size halign (Or.inr (hq f List.mem_cons_self)) hc
          have hge := rnd8_ge (st.pbuf + (rtwWlanPktSize f.att + txdescSize))
          have hend : (⟨f, base + st.pbuf, 0, c.lastTxcmdsz⟩ : AggPkt ad).ends - base
              = st.pbuf + (rtwWlanPktSize f.att + txdescSize) := by
            simp only [AggPkt.ends, AggPkt.mpduAddr, hwHdrOffset, hsz]
            omega
          dsimp only
          cases hn : aggNext conf st (rtwWlanPktSize f.att + txdescSize) with
          | none =>
            refine AggInv.cons (p := ⟨f, base + st.pbuf, 0, _⟩) (r := ⟨[], _, _, _⟩) haddr hsz ?_
            rw [hend]
            exact AggInv.stop hnum (by omega)
          | some st' =>
            obtain ⟨h1, h2, h3⟩ := aggNext_some hn
            refine AggInv.cons (p := ⟨f, base + st.pbuf, 0, _⟩) haddr hsz ?_
            rw [hend, ← h2]
            exact ih hq' st' _ c.mem sta' h1 (by omega) (by omega)

/-- less than a block from a multiple of the block size is none -/
theorem mod_sub_ne_zero {n b k : Nat} (hk : 0 < k) (hb : k < b) (hn : k ≤ n) (h : n % b = 0) :
    (n - k) % b ≠ 0 := by
  intro h'
  have hd : b ∣ n - (n - k) := Nat.dvd_sub (Nat.dvd_of_mod_eq_zero h) (Nat.dvd_of_mod_eq_zero h')
  rw [Nat.sub_sub_self hn] at hd
  exact absurd (Nat.le_of_dvd hk hd) (Nat.not_le.mpr hb)

theorem dumpLoop_bulk {ad : TxAdapter} {speed : UsbSpeed} {att : PktAttrib} (last : Nat)
    (hmp : ad.mpMode = false) (hsp : speed ≠ .super) (n memAddr bufAddr pktOffset : Nat) :
    ∀ t ∈ dumpLoop ad speed att last n memAddr bufAddr pktOffset, t.len % speed.bulkOutSize ≠ 0 := by
  have hbd : speed.boundary = speed.bulkOutSize := by
    cases speed with
    | full => rfl
    | high => rfl
    | super => exact absurd rfl hsp
  have h16 : 16 ≤ speed.bulkOutSize := by cases speed <;> decide
  induction n generalizing memAddr bufAddr pktOffset with
  | zero => simp [dumpLoop]
  | succ n ih =>
    intro t ht
    rw [dumpLoop] at ht
    dsimp only at ht
    generalize (if n = 0 then last else dumpFragSz ad att) = sz at ht
    split at ht
    · rename_i hpull
      rcases List.mem_cons.mp ht with rfl | ht
      · simp only [txdescPull, rtwUsbBulkSizeBoundary, hbd, Bool.and_eq_true, Bool.not_eq_true',
          decide_eq_false_iff_not] at hpull
        rw [Nat.add_comm] at hpull
        exact hpull.2
      · exact ih _ _ _ t ht
    · rename_i hpull
      rcases List.mem_cons.mp ht with rfl | ht
      · -- the descriptor and the packet fill whole blocks, the 8 bytes in front come on top
        have hz : (txdescSize + sz) % speed.bulkOutSize = 0 := by
          by_contra hz
          exact hpull (by simp [txdescPull, rtwUsbBulkSizeBoundary, hbd, hmp, hz])
        show (sz + txdescSize + packetOffsetSz) % speed.bulkOutSize ≠ 0
        rw [Nat.add_comm sz, Nat.add_mod, hz, Nat.zero_add, Nat.mod_mod,
          Nat.mod_eq_of_lt (by unfold packetOffsetSz; omega)]
        decide
      · exact ih _ _ _ t ht

/-- `MAX_FRAG_THRESHOLD` -/
def maxFragThreshold : Nat := 2346

theorem rtwWlanPktSize_le {ad : TxAdapter} {f : TxFrame ad} (hfrag : ad.fragLen ≤ maxFragThreshold)
    (hf : Unfragmented ad f.att f.pkt.length) : rtwWlanPktSize f.att ≤ maxFragThreshold + 4 := by
  unfold Unfragmented at hf
  unfold rtwWlanPktSize
  rw [f.pktlen_eq]
  split <;> omega

/-- the first packet is at the start of the buffer, or `k` bytes behind it -/
theorem AggInv.sound {ad : TxAdapter} {conf : XmitConf} {buf : XmitBufMem} {p : AggPkt ad}
    {r : AggOut ad} {tail k : Nat} (hk : 8 ∣ k) (haddr : p.addr = buf.pbuf + k)
    (hend : p.ends = buf.pbuf + tail) (hkt : k ≤ tail) (hsz : p.size = rtwWlanPktSize p.frame.att)
    (hbulk : (r.tail - k) % conf.bulkSize ≠ 0) (hI : AggInv buf.pbuf tail 1 r) :
    (⟨buf.pbuf + k, r.tail - k, p :: r.pkts, if 1 < r.aggNum then r.aggNum else 0, r.mem⟩
      : AggTransfer ad).Sound conf buf := by
  have hch : Chained (buf.pbuf + k) 0 (p :: r.pkts) (r.tail - k) := by
    refine ⟨haddr, ?_⟩
    have he : p.ends - (buf.pbuf + k) = tail - k := by omega
    rw [he]
    exact hI.chained.shift hk hkt
  have hle := hI.chained.le
  have hfit := hI.fits
  have hn := hI.num
  have hnle := hI.num_le
  refine ⟨List.forall_mem_cons.mpr ⟨hsz, hI.size_eq⟩, hch, hch.mem, hch.pairwise, ?_, ?_, ?_, hbulk⟩
  · exact ⟨Nat.le_add_right _ _, by dsimp only; omega⟩
  · show r.pkts.length + 1 ≤ maxTxAggPacketNumber
    omega
  · show (if 1 < r.aggNum then r.aggNum else 0)
      = if r.pkts.length + 1 = 1 then 0 else r.pkts.length + 1
    split <;> split <;> omega

theorem aggInit_pbuf {ad : TxAdapter} (conf : XmitConf) (f : TxFrame ad) :
    (aggInit conf f.queued).pbuf = rnd8 (rtwWlanPktSize f.att + txdescSize + packetOffsetSz)
      ∧ (aggInit conf f.queued).aggNum = 1 := by
  unfold aggInit
  dsimp only
  split <;> exact ⟨rfl, rfl⟩

/-- **Aggregates are laid out soundly**, and no transfer needs a zero-length packet. -/
theorem xmitframeComplete_sound (cr : TxCrypto) (ad : TxAdapter) (conf : XmitConf) (speed : UsbSpeed)
    (buf : XmitBufMem) (f : TxFrame ad) (q : List (TxFrame ad)) (sta sta' : TxSta) (m : Nat → UInt8)
    (c : Coalesced) (hbulk : conf.bulkSize = speed.bulkOutSize)
    (hfrag : ad.fragLen ≤ maxFragThreshold) (hf : Unfragmented ad f.att f.pkt.length)
    (hq : ∀ g ∈ q, Unfragmented ad g.att g.pkt.length)
    (hc : rtwXmitframeCoalesce cr ad sta f.att f.pkt buf.pbuf 1 m = some (c, sta')) :
    (xmitframeComplete cr ad conf buf f c sta' q).Sound conf buf
      ∧ (ad.mpMode = false → speed ≠ .super → ∀ (att : PktAttrib) (bufAddr : Nat) (c' : Coalesced),
        ∀ t ∈ rtwDumpXframe ad speed att bufAddr c', t.len % conf.bulkSize ≠ 0) := by
  refine ⟨?_, ?_⟩
  swap
  · intro hmp hsp att bufAddr c'
    rw [hbulk]
    exact dumpLoop_bulk _ hmp hsp _ _ _ _
  have hb512 := buf.aligned
  have hle := rtwWlanPktSize_le hfrag hf
  have hsz := coalesce_size (by omega) (Or.inr hf) hc
  obtain ⟨hpbuf, hnum⟩ := aggInit_pbuf conf f
  have hmax : rtwWlanPktSize f.att + txdescSize + packetOffsetSz ≤ maxXmitbufSz := by
    unfold txdescSize packetOffsetSz maxXmitbufSz
    unfold maxFragThreshold at hle
    omega
  have hI := aggLoop_inv cr conf f.qsel (show 8 ∣ buf.pbuf by omega) q hq (aggInit conf f.queued) _
    c.mem sta' hpbuf (by rw [hnum]; decide) hmax
  rw [hnum] at hI
  have hle' := hI.chained.le
  have h16 : 16 ≤ conf.bulkSize := by
    rw [hbulk]
    cases speed <;> decide
  have hend : ∀ k po, k + hwHdrOffset po = txdescSize + packetOffsetSz →
      (⟨f, buf.pbuf + k, po, c.lastTxcmdsz⟩ : AggPkt ad).ends
        = buf.pbuf + (rtwWlanPktSize f.att + txdescSize + packetOffsetSz) := by
    intro k po h
    simp only [AggPkt.ends, AggPkt.mpduAddr, hsz]
    omega
  unfold xmitframeComplete
  dsimp only
  split
  · rename_i hz
    refine AggInv.sound (p := ⟨f, buf.pbuf + packetOffsetSz, 0, c.lastTxcmdsz⟩) (by decide) rfl
      (hend _ _ (by decide)) (Nat.le_add_left _ _) hsz ?_ hI
    exact mod_sub_ne_zero (by decide) (by unfold packetOffsetSz; omega) (by omega) hz
  · rename_i hz
    exact AggInv.sound (p := ⟨f, buf.pbuf + 0, 1, c.lastTxcmdsz⟩) (by decide) rfl
      (hend _ _ (by decide)) (Nat.zero_le _) hsz hz hI

/-- for frames that no cipher touches -/
def idleCrypto : TxCrypto where
  mic _ := List.replicate 8 0
  enc t _ p := p ++ List.replicate (ivIcvLen t).2 0
  dec t _ c := c.take (c.length - (ivIcvLen t).2)
  mic_length _ := List.length_replicate
  enc_length t h p := by rw [List.length_append, List.length_replicate]
  dec_length t h c := by
    rw [List.length_take]
    omega
  dec_enc t h p := by
    rw [List.length_append, List.length_replicate, Nat.add_sub_cancel, List.take_left' rfl]

def txBuf : XmitBufMem := ⟨512, by decide⟩

/-- a station without encryption -/
def txStation : TxAdapter where
  macAddr := [2, 0, 0, 0, 0, 1]
  bssid := [2, 0, 0, 0, 0, 2]
  mode := .station

def arpEth : EthFrame where
  dst := [2, 0, 0, 0, 0, 3]
  src := [2, 0, 0, 0, 0, 1]
  etherType := 0x0806
  payload := [0, 1, 8, 0, 6, 4, 0, 1]

def arpFrame : TxFrame txStation :=
  TxFrame.ofEth (Option.some_get (x := updateAttrib txStation {} arpEth .nonEapol) rfl).symm 0

theorem arpFrame_coalesce :
    (rtwXmitframeCoalesce idleCrypto txStation {} arpFrame.att arpFrame.pkt txBuf.pbuf 1
      fun _ => 0).isSome = true := by decide

theorem xmitframeComplete_sound_two :
    ∃ c sta', (xmitframeComplete idleCrypto txStation {} txBuf arpFrame c sta' [arpFrame]).Sound {} txBuf
      ∧ (xmitframeComplete idleCrypto txStation {} txBuf arpFrame c sta' [arpFrame]).pkts.length = 2 := by
  refine ⟨((rtwXmitframeCoalesce idleCrypto txStation {} arpFrame.att arpFrame.pkt txBuf.pbuf 1
    fun _ => 0).get arpFrame_coalesce).1, _, (xmitframeComplete_sound idleCrypto txStation {} .high txBuf
      arpFrame [arpFrame] {} _ (fun _ => 0) _ rfl (by decide) (by decide) (by decide)
      (Option.some_get arpFrame_coalesce).symm).1, by decide⟩

/-- a single packet has no aggregation number -/
theorem xmitframeComplete_txaggNum_one :
    ∃ c sta', rtwXmitframeCoalesce idleCrypto txStation {} arpFrame.att arpFrame.pkt txBuf.pbuf 1
        (fun _ => 0) = some (c, sta')
      ∧ (xmitframeComplete idleCrypto txStation {} txBuf arpFrame c sta' []).txaggNum
        ≠ (xmitframeComplete idleCrypto txStation {} txBuf arpFrame c sta' []).pkts.length :=
  ⟨_, _, (Option.some_get arpFrame_coalesce).symm, by decide⟩

end Rtl8192eu
