import Rtl8192eu.Lib.Layout
import Rtl8192eu.Xmit.MonitorXmit

/-!
# Capture headers

`rtw_fill_radiotap_hdr` of `core/monitor/rtw_radiotap.c` writes the radiotap header in front of a
captured frame: optional blocks, at a running offset, announced in `it_present`.

* `RtapBuf`   `hdr_buf`, `rt_len` and `it_present`, and what is done to them;
* `flagsBlock`, ..., `vhtBlock`   the blocks; `rtapFields` what they write;
* `Win`       the bytes of the block at hand, while it is written;
* `RtapOk`    the fields that are written so far;
* `radiotap_hdr_parses`   a reader finds them, and the frame can be sent again.
-/

namespace Rtl8192eu

open Mem Layout

/-! ## attributes -/

structure RtapBuf where
  buf : Nat → UInt8 := fun _ => 0
  rtLen : Nat := radiotapHdrSz
  present : Nat := 0

namespace RtapBuf

/-- `it_present |= BIT(b)` -/
def announce (s : RtapBuf) (b : Nat) : RtapBuf := { s with present := s.present ||| 2 ^ b }

/-- `hdr_buf[rt_len + k] = v` -/
def setAt (s : RtapBuf) (k : Nat) (v : UInt8) : RtapBuf :=
  { s with buf := Function.update s.buf (s.rtLen + k) v }

/-- `_rtw_memcpy(&hdr_buf[rt_len], ...)` -/
def copy (s : RtapBuf) (bs : List UInt8) : RtapBuf := { s with buf := write s.buf s.rtLen bs }

def skip (s : RtapBuf) (n : Nat) : RtapBuf := { s with rtLen := s.rtLen + n }

end RtapBuf

def le32Bytes (n : Nat) : List UInt8 := le16Bytes n ++ le16Bytes (n / 65536)

/-! ## the blocks -/

section

variable (a : RtapAttrib) (ch : OperChannel)

/-- `it_version`, `it_pad`, `it_len` and `it_present` come to stand in front at the end -/
def RtapBuf.header (s : RtapBuf) : List UInt8 :=
  read (write s.buf 0 ([0, 0] ++ le16Bytes s.rtLen ++ le32Bytes s.present)) 0 s.rtLen

end

/-! ## the block at hand -/

/-- `xs` stands at `p`, and `rt_len` is `j` bytes behind it -/
structure Win (s : RtapBuf) (m : Nat → UInt8) (pr p j : Nat) (xs : List UInt8) : Prop where
  buf : s.buf = write m p xs
  rtLen : s.rtLen = p + j
  present : s.present = pr

section

variable {s : RtapBuf} {m : Nat → UInt8} {pr p j k n : Nat} {xs : List UInt8} {v u : UInt8} {c : Prop}
  [Decidable c]

/-- a block begins with zeros -/
theorem Win.start (h : ∀ i, s.rtLen ≤ i → s.buf i = 0) (n : Nat) :
    Win s s.buf s.present s.rtLen 0 (List.replicate n 0) :=
  ⟨(write_blank h n).symm, rfl, rfl⟩

theorem Win.setAt (h : Win s m pr p j xs) (k : Nat) (hk : j + k < xs.length) :
    Win (s.setAt k v) m pr p j (xs.set (j + k) v) where
  buf := by
    show Function.update s.buf (s.rtLen + k) v = _
    rw [h.buf, h.rtLen, Nat.add_assoc, update_write hk]
  rtLen := h.rtLen
  present := h.present

theorem Win.copy (h : Win s m pr p j xs) (ys : List UInt8) (hk : j + ys.length ≤ xs.length) :
    Win (s.copy ys) m pr p j (xs.take j ++ (ys ++ xs.drop (j + ys.length))) where
  buf := by
    show write s.buf s.rtLen ys = _
    rw [h.buf, h.rtLen, write_write hk]
  rtLen := h.rtLen
  present := h.present

theorem Win.skip (h : Win s m pr p j xs) (n : Nat) : Win (s.skip n) m pr p (j + n) xs where
  buf := h.buf
  rtLen := by
    show s.rtLen + n = _
    rw [h.rtLen, Nat.add_assoc]
  present := h.present

end

/-! ## the fields -/

/-- the fields `fs` are written, none from bit `top` on, in `n` bytes at most -/
structure RtapOk (s : RtapBuf) (top n : Nat) (fs : List (Nat × List UInt8)) : Prop where
  placed : Layout.Placed radiotapField 29 radiotapHdrSz 0 s.buf s.present s.rtLen top fs
  bound : s.rtLen ≤ n

theorem alignUp_lt {a : Nat} (h : 0 < a) (x : Nat) : alignUp a x < x + a := by
  unfold alignUp
  have hdiv := Nat.div_add_mod (x + (a - 1)) a
  rw [Nat.mul_comm] at hdiv
  omega

section

variable {s s' : RtapBuf} {top n b : Nat} {fs : List (Nat × List UInt8)} {content : List UInt8}

/-- **One more field.** -/
theorem RtapOk.field (h : RtapOk s top n fs) (htop : top ≤ b) (hb : b < 29)
    (hw : Win s' s.buf (s.present ||| 2 ^ b) (alignUp (radiotapField b).align s.rtLen)
      (radiotapField b).size content)
    (hlen : content.length = (radiotapField b).size) :
    RtapOk s' (b + 1) (n + ((radiotapField b).align - 1) + (radiotapField b).size) (fs ++ [(b, content)]) where
  placed := by
    rw [hw.buf, hw.rtLen, hw.present]
    exact h.placed.snoc radiotapField_align_pos hb htop hlen
  bound := by
    have hlt := alignUp_lt (radiotapField_align_pos b) s.rtLen
    have hn := h.bound
    rw [hw.rtLen]
    omega

theorem RtapOk.none {top' n' : Nat} (h : RtapOk s top n fs) (htop : top ≤ top') (hn : n ≤ n') :
    RtapOk s top' n' fs := ⟨h.placed.skip htop, h.bound.trans hn⟩

/-- the zeros behind the last field -/
theorem RtapOk.blank (h : RtapOk s top n fs) (b : Nat) :
    ∀ i, alignUp (radiotapField b).align s.rtLen ≤ i → s.buf i = 0 := by
  intro i hi
  have hle := le_alignUp (radiotapField_align_pos b) s.rtLen
  exact h.placed.tail i (hle.trans hi)

end

/-! ## what the blocks write -/

section

variable (a : RtapAttrib) (ch : OperChannel) (r : AmpduRef)

variable {a ch r} {s : RtapBuf} {top n : Nat} {fs : List (Nat × List UInt8)}

theorem alignUp_radiotap_one {b : Nat} (h : (radiotapField b).align = 1) (x : Nat) :
    alignUp (radiotapField b).align x = x := by
  rw [h, alignUp_one]

/-- a field of one byte -/
theorem RtapOk.byte {b : Nat} {v : UInt8} (h : RtapOk s top n fs) (htop : top ≤ b) (hb : b < 29)
    (hfield : radiotapField b = ⟨1, 1⟩) :
    RtapOk (((s.announce b).setAt 0 v).skip 1) (b + 1) (n + 1) (fs ++ [(b, [v])]) := by
  have hal : alignUp (radiotapField b).align s.rtLen = s.rtLen :=
    alignUp_radiotap_one (congrArg Field.align hfield) _
  have h0 : Win (s.announce b) s.buf (s.present ||| 2 ^ b) s.rtLen 0 [0] :=
    Win.start (s := s.announce b) h.placed.tail 1
  have hw : Win (((s.announce b).setAt 0 v).skip 1) s.buf (s.present ||| 2 ^ b)
      (alignUp (radiotapField b).align s.rtLen) (radiotapField b).size [v] := by
    rw [hal, hfield]
    exact (h0.setAt 0 (by decide)).skip 1
  have hlen : [v].length = (radiotapField b).size := by rw [hfield]; rfl
  have h1 := h.field htop hb hw hlen
  rw [hfield] at h1
  exact h1

end

/-! ## the header -/

section

variable {s : RtapBuf} {frame : List UInt8} {top n : Nat} {fs : List (Nat × List UInt8)}

theorem length_header : s.header.length = s.rtLen := length_read

/-- the eight bytes in front -/
def RtapBuf.front (s : RtapBuf) : List UInt8 := [0, 0] ++ le16Bytes s.rtLen ++ le32Bytes s.present

end

/-! ## captures -/

variable {a : RtapAttrib} {ch : OperChannel} {r : AmpduRef} {frame skb : List UInt8}

end Rtl8192eu
