import Rtl8192eu.Recv.Indicate

/-!
# The length of a received MSDU

`recv_process_mpdu` of `core/rtw_recv.c` takes header, IV and ICV from the length of the frame, in
a `u16`.  The lengths of the header and of the IV come from flags in the header itself, and nothing
compares them with the length of the frame.

* `rtwRecvLlcParseIn`   `rtw_recv_llc_parse`, `none` when it reads behind the frame;
* `wlanhdrToEthhdrFrame`   `wlanhdr_to_ethhdr` on the frame itself;
* `MsduLenOk`      no wrap, no read behind the frame, and the length that comes out;
* `msdu_len_iff`   that is so exactly for a frame that is long enough.
-/

namespace Rtl8192eu

/-- `icv_len`, if the frame is encrypted -/
def icvLenOf (f : RecvFrame) : Nat := if f.attrib.encrypt ≠ .noPrivacy then f.attrib.icvLen else 0

/-- a read of `n` bytes at offset `i` that stays in the frame -/
def readIn (f : RecvFrame) (i n : Nat) : Option (List UInt8) :=
  if i + n ≤ f.len then some (f.bytes i n) else none

def rtwRecvLlcParseIn (f : RecvFrame) (off msduLen : Nat) : Option LlcHdl :=
  if msduLen < 8 then some .keep
  else do
    let proto ← readIn f (off + snapSize) 2
    let hdr ← readIn f off snapSize
    let ethType := 256 * (proto.getD 0 0).toNat + (proto.getD 1 0).toNat
    if (hdr = rtwRfc1042Header ∧ ethType ≠ ethPAarp ∧ ethType ≠ ethPIpx)
        ∨ hdr = rtwBridgeTunnelHeader then some .remove
    else some .keep

/-- `bs` is written at `rx_data` -/
def putFront (f : RecvFrame) (bs : List UInt8) : RecvFrame :=
  let buf := bs ++ (f.data ++ f.room).drop bs.length
  { f with data := buf.take f.len, room := buf.drop f.len }

/-- the addresses, and the length in the place of the EtherType if the LLC header is kept -/
def ethHdrBytes (f : RecvFrame) : LlcHdl → List UInt8
  | .keep => f.attrib.dst ++ f.attrib.src ++ be16Bytes (keptLen f)
  | .remove => f.attrib.dst ++ f.attrib.src

/-- whether it succeeds, and the frame it leaves -/
def wlanhdrToEthhdrFrame (f : RecvFrame) (llc : LlcHdl) : Bool × RecvFrame :=
  match recvframePull (pullIcv f) (ethPullLen f llc) with
  | none => (false, pullIcv f)
  | some g => (true, putFront g (ethHdrBytes f llc))

/-! ## what should come out -/

def msduBytes (f : RecvFrame) : List UInt8 :=
  (f.data.drop (f.attrib.hdrlen + f.attrib.ivLen)).take
    (f.len - f.attrib.hdrlen - f.attrib.ivLen - icvLenOf f)

/-- what follows the EtherType, or the length -/
def ethPayload (f : RecvFrame) : LlcHdl → List UInt8
  | .keep => msduBytes f
  | .remove => (msduBytes f).drop (snapSize + 2)

def msduLlc (f : RecvFrame) : LlcHdl :=
  rtwRecvLlcParse f (f.attrib.hdrlen + f.attrib.ivLen) (msduLen f)

structure MsduLenOk (f : RecvFrame) : Prop where
  noWrap : (msduLen f : Int) = (f.len : Int) - f.attrib.hdrlen - f.attrib.ivLen - icvLenOf f
  reads : (rtwRecvLlcParseIn f (f.attrib.hdrlen + f.attrib.ivLen) (msduLen f)).isSome = true
  ethhdr : (wlanhdrToEthhdrFrame f (msduLlc f)).1 = false ∧ (wlanhdrToEthhdrFrame f (msduLlc f)).2 = f ∨
    (wlanhdrToEthhdrFrame f (msduLlc f)).1 = true
      ∧ (wlanhdrToEthhdrFrame f (msduLlc f)).2.len = ethHlen + (ethPayload f (msduLlc f)).length

/-- header, IV and ICV are in the frame, and the rest fits a `u16` -/
def MsduFits (f : RecvFrame) : Prop :=
  f.attrib.hdrlen + f.attrib.ivLen + icvLenOf f ≤ f.len
    ∧ f.len < f.attrib.hdrlen + f.attrib.ivLen + icvLenOf f + 65536

instance (f : RecvFrame) : Decidable (MsduFits f) := inferInstanceAs (Decidable (_ ∧ _))

variable {f g : RecvFrame} {llc : LlcHdl}

theorem msduLen_eq (f : RecvFrame) :
    msduLen f = (((f.len : Int) - f.attrib.hdrlen - f.attrib.ivLen - icvLenOf f) % 65536).toNat := by
  unfold msduLen icvLenOf
  split <;> rfl

theorem MsduFits.msduLen (h : MsduFits f) :
    msduLen f = f.len - f.attrib.hdrlen - f.attrib.ivLen - icvLenOf f := by
  obtain ⟨hle, hlt⟩ := h
  rw [msduLen_eq]
  omega

/-- the checked reads see what the frame holds -/
theorem rtwRecvLlcParseIn_eq {off n : Nat} (h : n < 8 ∨ off + 8 ≤ f.len) :
    rtwRecvLlcParseIn f off n = some (rtwRecvLlcParse f off n) := by
  unfold rtwRecvLlcParseIn rtwRecvLlcParse
  split
  · rfl
  · rename_i hn
    have hlen : off + 8 ≤ f.len := h.resolve_left hn
    have hs : snapSize = 6 := rfl
    have hproto : readIn f (off + snapSize) 2 = some (f.bytes (off + snapSize) 2) :=
      if_pos (by omega)
    have hhdr : readIn f off snapSize = some (f.bytes off snapSize) := if_pos (by omega)
    have htype : 256 * ((f.bytes (off + snapSize) 2).getD 0 0).toNat
        + ((f.bytes (off + snapSize) 2).getD 1 0).toNat = be16 f (off + snapSize) := rfl
    rw [hproto, hhdr]
    simp only [Option.bind_eq_bind, Option.bind_some, htype]
    split <;> rfl

theorem length_putFront (f : RecvFrame) (bs : List UInt8) : (putFront f bs).len = f.len := by
  have hlen : f.len = f.data.length := rfl
  show (List.take f.len (bs ++ (f.data ++ f.room).drop bs.length)).length = f.len
  rw [List.length_take, List.length_append, List.length_drop, List.length_append]
  omega

theorem pullIcv_len (h : icvLenOf f ≤ f.len) : (pullIcv f).len = f.len - icvLenOf f := by
  have hlen : f.len = f.data.length := rfl
  unfold pullIcv icvLenOf at *
  split
  · rename_i he
    rw [if_pos he] at h
    rw [recvframePullTail, if_neg (by omega), Option.getD_some]
    show (List.take _ f.data).length = _
    rw [List.length_take]
    omega
  · rfl

theorem MsduFits.length_msduBytes (h : MsduFits f) : (msduBytes f).length = Rtl8192eu.msduLen f := by
  have hlen : f.len = f.data.length := rfl
  have hfits := h.1
  rw [h.msduLen]
  unfold msduBytes
  rw [List.length_take, List.length_drop]
  omega

/-- an LLC header is removed only where there is one -/
theorem le_of_msduLlc_remove (h : msduLlc f = .remove) : 8 ≤ msduLen f := by
  by_contra hlt
  unfold msduLlc rtwRecvLlcParse at h
  rw [if_pos (by omega)] at h
  cases h

theorem MsduFits.ethPullLen_le (h : MsduFits f) (hh : ethHlen ≤ f.attrib.hdrlen) :
    ethPullLen f (msduLlc f) ≤ (pullIcv f).len
      ∧ (pullIcv f).len - ethPullLen f (msduLlc f) = ethHlen + (ethPayload f (msduLlc f)).length := by
  have hfits := h.1
  have hm := h.msduLen
  have hb := h.length_msduBytes
  have he : ethHlen = 14 := rfl
  rw [pullIcv_len (by omega)]
  cases hl : msduLlc f with
  | keep =>
    show f.attrib.hdrlen + f.attrib.ivLen - ethHlen ≤ _ ∧
      _ - (f.attrib.hdrlen + f.attrib.ivLen - ethHlen) = ethHlen + (msduBytes f).length
    omega
  | remove =>
    have h8 := le_of_msduLlc_remove hl
    have hs : snapSize = 6 := rfl
    have hd : (ethPayload f .remove).length = (msduBytes f).length - (snapSize + 2) :=
      List.length_drop
    show f.attrib.hdrlen + f.attrib.ivLen + snapSize - ethHlen + 2 ≤ _ ∧
      _ - (f.attrib.hdrlen + f.attrib.ivLen + snapSize - ethHlen + 2) = _
    omega

/-- a frame that is long enough comes out right -/
theorem MsduFits.ok (h : MsduFits f) (hh : ethHlen ≤ f.attrib.hdrlen) : MsduLenOk f where
  noWrap := by
    have hfits := h.1
    rw [h.msduLen]
    omega
  reads := by
    have hfits := h.1
    have hm := h.msduLen
    rw [rtwRecvLlcParseIn_eq (by omega)]
    rfl
  ethhdr := by
    obtain ⟨hle, hlen⟩ := h.ethPullLen_le hh
    refine Or.inr ?_
    unfold wlanhdrToEthhdrFrame recvframePull
    rw [if_neg (Nat.not_lt.mpr hle)]
    refine ⟨rfl, ?_⟩
    show (putFront _ _).len = _
    rw [length_putFront]
    show ((pullIcv f).data.drop _).length = _
    rw [List.length_drop]
    exact hlen

/-- a length that does not wrap is one that fits -/
theorem MsduLenOk.fits (h : MsduLenOk f) : MsduFits f := by
  have hw := h.noWrap
  have hlt : msduLen f < 65536 := by
    rw [msduLen_eq]
    omega
  unfold MsduFits
  omega

/-- the header of an accepted data frame has three addresses -/
theorem acceptFrame_hdrlen {dec : SwDecrypt} {a a' : Adapter} (h : acceptFrame dec a f = (a', some g)) :
    wlanHdrA3Len ≤ g.attrib.hdrlen := by
  unfold acceptFrame at h
  split at h
  · rename_i a₁ f₁ hv
    obtain ⟨rfl, hd⟩ := Prod.mk.inj h
    obtain ⟨sta, sta', v, dst, src, bssid, -, -, -, rfl, -⟩ := validateRecvDataFrame_accepted hv
    obtain ⟨bs, k, rfl⟩ := decryptor_some hd
    obtain ⟨e, i, c, he⟩ := setEncrypt_eq a.sec sta (dataAttrib (parseFc f) dst src bssid)
    rw [he]
    show wlanHdrA3Len ≤ (dataAttrib (parseFc f) dst src bssid).hdrlen
    rw [dataAttrib_hdrlen]
    unfold dataHdrlen
    have hq : wlanHdrA3Len ≤ wlanHdrA3QosLen := by decide
    split <;> omega
  · cases h

/-- **When the length of an MSDU is right**: header, IV and ICV have to be in the frame. -/
theorem msdu_len_iff (dec : SwDecrypt) (a a' : Adapter) (f g : RecvFrame)
    (hacc : portAccepted dec a f = some (a', g)) : MsduLenOk g ↔ MsduFits g := by
  refine ⟨MsduLenOk.fits, fun h => h.ok ?_⟩
  unfold portAccepted at hacc
  split at hacc
  · cases hacc
  · rename_i a₁ g₁ hf
    obtain ⟨g₂, hp, e⟩ := Option.map_eq_some_iff.mp hacc
    obtain ⟨rfl, rfl⟩ := Prod.mk.inj e
    obtain rfl := portctrl_eq hp
    exact Nat.le_trans (by decide) (acceptFrame_hdrlen hf)

/-! ## a header without a body -/

/-- a station of an open network -/
def openAdapter : Adapter where
  macAddr := myMac
  bssid := apMac
  asoc := true
  stations := fun m => if m = apMac then some {} else none

/-- a QoS frame with its 26 bytes of header; the Order bit says that there are 30 -/
def orderFrame : RecvFrame := apFrame [0x88, 0x82] myMac [0x50, 0] [0, 0]

theorem orderFrame_accepted :
    (portAccepted acceptAll openAdapter orderFrame).isSome = true := by decide

theorem eapolFrame_open : (portAccepted acceptAll openAdapter eapolFrame).isSome = true := by decide

theorem msdu_len_iff_order :
    (∃ a' g, portAccepted acceptAll openAdapter orderFrame = some (a', g)
        ∧ g.attrib.amsdu = false ∧ ¬MsduLenOk g)
      ∧ ∃ a' g, portAccepted acceptAll openAdapter eapolFrame = some (a', g) ∧ g.attrib.amsdu = false ∧ MsduLenOk g := by
  have hacc := (Option.some_get orderFrame_accepted).symm
  have hacc' := (Option.some_get eapolFrame_open).symm
  refine ⟨⟨_, _, hacc, by decide, ?_⟩, _, _, hacc', by decide, ?_⟩
  · have h := msdu_len_iff acceptAll openAdapter _ orderFrame _ hacc
    exact fun hok => absurd (h.mp hok) (by decide)
  · exact (msdu_len_iff acceptAll openAdapter _ eapolFrame _ hacc').mpr (by decide)

theorem msdu_len_wraps :
    ¬ ∀ (dec : SwDecrypt) (a a' : Adapter) (f g : RecvFrame),
      portAccepted dec a f = some (a', g) → g.attrib.amsdu = false → MsduLenOk g := by
  intro h
  have hok := h acceptAll openAdapter _ orderFrame _ (Option.some_get orderFrame_accepted).symm
    (by decide)
  exact absurd hok.fits (by decide)

end Rtl8192eu
