import Rtl8192eu.Recv.Frame

/-!
# Information elements

The element walkers of `core/rtw_ieee80211.c` that the access point applies to a request: an
element is an id, a length and that many bytes.

* `rtwGetIe`   the first element with an id, by its offset;
* `rtwIeee80211ParseElems`   the elements of a request that are read afterwards;
* `rtwIesGetSupportedRate`   the rates of the two rate elements;
* `rtwRsneInfoParse`   the fields of an RSN element, which may end after any of them;
* `rtwParseWpa2Ie`, `rtwParseWpaIe`   ciphers, key management and options as bit sets.
-/

namespace Rtl8192eu

/-- a little-endian 16-bit word at the head -/
def getLe16 (l : List UInt8) : Nat := (l.getD 0 0).toNat + 256 * (l.getD 1 0).toNat

/-! ## walkers -/

/-- the loop of `rtw_get_ie`; every round moves on by two at least -/
def getIeLoop (buf : Nat → UInt8) (index : UInt8) (limit : Nat) : Nat → Nat → Option Nat
  | 0, _ => none
  | n + 1, i =>
    if buf i = index then some i
    else
      let i := i + (buf (i + 1)).toNat + 2
      if limit ≤ i then none else getIeLoop buf index limit n i

/-- the offset of the element and its length byte -/
def rtwGetIe (buf : Nat → UInt8) (index : UInt8) (limit : Nat) : Option (Nat × Nat) :=
  if limit < 1 then none
  else (getIeLoop buf index limit limit 0).map fun i => (i, (buf (i + 1)).toNat)

/-- `struct rtw_ieee802_11_elems`, the elements that `OnAssocReq` decides by -/
structure Elems where
  ssid : Option (List UInt8) := none
  rsnIe : Option (List UInt8) := none
  wpaIe : Option (List UInt8) := none
  wpsIe : Option (List UInt8) := none
  deriving DecidableEq, Repr

def parseVendorSpecific (e : Elems) (body : List UInt8) : Elems :=
  if body.length < 4 then e
  else if body.take 3 = [0x00, 0x50, 0xf2] then
    match body.getD 3 0 with
    | 1 => { e with wpaIe := some body }
    | 4 => { e with wpsIe := some body }
    | _ => e
  else e

def Elems.put (e : Elems) (id : UInt8) (body : List UInt8) : Elems :=
  match id with
  | 0 => { e with ssid := some body }
  | 48 => { e with rsnIe := some body }
  | 221 => parseVendorSpecific e body
  | _ => e

/-- `none` is `ParseFailed`; the first argument is at least the number of elements -/
def parseElemsLoop : Nat → Elems → List UInt8 → Option Elems
  | _, e, [] => some e
  | _, _, [_] => none
  | 0, _, _ => none
  | n + 1, e, id :: elen :: rest =>
    if rest.length < elen.toNat then none
    else parseElemsLoop n (e.put id (rest.take elen.toNat)) (rest.drop elen.toNat)

def rtwIeee80211ParseElems (l : List UInt8) : Option Elems := parseElemsLoop l.length {} l

/-! ## rates -/

def supportRateTbl : List UInt8 :=
  [0x02, 0x04, 0x0b, 0x16, 0x0c, 0x12, 0x18, 0x24, 0x30, 0x48, 0x60, 0x6c]

def ieBody (buf : Nat → UInt8) (index : UInt8) (limit : Nat) : List UInt8 :=
  match rtwGetIe buf index limit with
  | none => []
  | some (i, n) => (List.range n).map fun j => buf (i + 2 + j)

/-- the known rates among those of the two elements, in the order of the table; a rate is basic
when one of its bytes is -/
def rtwIesGetSupportedRate (buf : Nat → UInt8) (limit : Nat) : List UInt8 :=
  let rates := ieBody buf 1 limit ++ ieBody buf 50 limit
  supportRateTbl.filterMap fun r =>
    if rates.any fun b => b &&& 0x7f == r then
      some (if rates.any fun b => b == r ||| 0x80 then r ||| 0x80 else r)
    else none

/-! ## ciphers and key management -/

def wpaCipherSuite (s : List UInt8) : Nat :=
  if s.take 3 = [0x00, 0x50, 0xf2] then
    match s.getD 3 0 with
    | 0 => 1
    | 1 => 2
    | 2 => 8
    | 4 => 16
    | 5 => 4
    | _ => 0
  else 0

def wpaCipherBipCmac128 : Nat := 256

def rsnCipherSuite (s : List UInt8) : Nat :=
  if s.take 3 = [0x00, 0x0f, 0xac] then
    match s.getD 3 0 with
    | 0 => 1
    | 1 => 2
    | 2 => 8
    | 4 => 16
    | 8 => 32
    | 9 => 64
    | 10 => 128
    | 5 => 4
    | 6 => 256
    | 11 => 512
    | 12 => 1024
    | 13 => 2048
    | _ => 0
  else 0

def akmTypeSae : Nat := 128

def akmSuiteBitmap (s : List UInt8) : Nat :=
  if s.take 3 = [0x00, 0x0f, 0xac] then
    match s.getD 3 0 with
    | 1 => 1
    | 2 => 2
    | 3 => 4
    | 4 => 8
    | 5 => 16
    | 6 => 32
    | 7 => 64
    | 8 => 128
    | 9 => 256
    | 11 => 512
    | 12 => 1024
    | 14 => 2048
    | 15 => 4096
    | 16 => 8192
    | 17 => 16384
    | _ => 0
  else 0

/-- the selectors of four bytes in a list -/
def suites (n : Nat) (l : List UInt8) : List (List UInt8) :=
  (List.range n).map fun i => (l.drop (4 * i)).take 4

/-- `struct rsne_info`; of the PMKIDs only the length matters -/
structure RsneInfo where
  gcs : Option (List UInt8) := none
  pcsList : List (List UInt8) := []
  akmList : List (List UInt8) := []
  cap : Option Nat := none
  gmcs : Option (List UInt8) := none
  deriving DecidableEq, Repr

/-- a field is not there: the element must end here -/
def rsneEnd (info : RsneInfo) (l : List UInt8) : Option RsneInfo :=
  if l.isEmpty then some info else none

def rsneGmcs (info : RsneInfo) (l : List UInt8) : Option RsneInfo :=
  if l.length < 4 then rsneEnd info l else some { info with gmcs := some (l.take 4) }

def rsnePmkid (info : RsneInfo) (l : List UInt8) : Option RsneInfo :=
  if l.length < 2 then rsneEnd info l
  else if (l.drop 2).length < 16 * getLe16 l then rsneEnd info (l.drop 2)
  else rsneGmcs info ((l.drop 2).drop (16 * getLe16 l))

def rsneCap (info : RsneInfo) (l : List UInt8) : Option RsneInfo :=
  if l.length < 2 then rsneEnd info l
  else rsnePmkid { info with cap := some (getLe16 l) } (l.drop 2)

def rsneAkm (info : RsneInfo) (l : List UInt8) : Option RsneInfo :=
  if l.length < 2 then rsneEnd info l
  else if (l.drop 2).length < 4 * getLe16 l then rsneEnd info (l.drop 2)
  else
    rsneCap { info with akmList := suites (getLe16 l) (l.drop 2) } ((l.drop 2).drop (4 * getLe16 l))

def rsnePcs (info : RsneInfo) (l : List UInt8) : Option RsneInfo :=
  if l.length < 2 then rsneEnd info l
  else if (l.drop 2).length < 4 * getLe16 l then rsneEnd info (l.drop 2)
  else
    rsneAkm { info with pcsList := suites (getLe16 l) (l.drop 2) } ((l.drop 2).drop (4 * getLe16 l))

def rsneGcs (info : RsneInfo) (l : List UInt8) : Option RsneInfo :=
  if l.length < 4 then rsneEnd info l
  else rsnePcs { info with gcs := some (l.take 4) } (l.drop 4)

def rtwRsneInfoParse (ie : List UInt8) : Option RsneInfo :=
  if ie.length < 4 then none
  else if ie.getD 0 0 ≠ 0x30 || (ie.getD 1 0).toNat ≠ ie.length - 2 then none
  else rsneGcs {} (ie.drop 4)

/-- what a request asks for -/
structure SuiteSel where
  groupCipher : Nat := 0
  pairwiseCipher : Nat := 0
  gmcs : Nat := 0
  akm : Nat := 0
  mfpOpt : Nat := 0
  sppOpt : Nat := 0
  deriving DecidableEq, Repr

def orAll (l : List Nat) : Nat := l.foldl (· ||| ·) 0

def rtwParseWpa2Ie (ie : List UInt8) : Option SuiteSel :=
  (rtwRsneInfoParse ie).map fun info =>
    { groupCipher := (info.gcs.map rsnCipherSuite).getD 0
      pairwiseCipher := orAll (info.pcsList.map rsnCipherSuite)
      gmcs := (info.gmcs.map rsnCipherSuite).getD wpaCipherBipCmac128
      akm := orAll (info.akmList.map akmSuiteBitmap)
      mfpOpt := (info.cap.getD 0 / 64) % 4
      sppOpt := (info.cap.getD 0 / 1024) % 4 }

def wpaPairwise (sel : SuiteSel) (l : List UInt8) : Option SuiteSel :=
  if 2 ≤ l.length then
    let count := getLe16 l
    if count = 0 || (l.drop 2).length < 4 * count then none
    else some { sel with pairwiseCipher := orAll ((suites count (l.drop 2)).map wpaCipherSuite) }
  else if l.length = 1 then none
  else some sel

def rtwParseWpaIe (ie : List UInt8) : Option SuiteSel :=
  if ie.getD 0 0 ≠ 0xdd || (ie.getD 1 0).toNat ≠ (ie.length - 2) % 256
      || (ie.drop 2).take 4 ≠ [0x00, 0x50, 0xf2, 1] then none
  else
    let l := ie.drop 8
    if 4 ≤ l.length then wpaPairwise { groupCipher := wpaCipherSuite (l.take 4) } (l.drop 4)
    else if 0 < l.length then none
    else some {}

end Rtl8192eu
