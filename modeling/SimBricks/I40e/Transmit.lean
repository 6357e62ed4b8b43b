import Mathlib.Algebra.BigOperators.Group.Finset.Basic
import SimBricks.Library.Bytes

/-!
# The transmit queue

Transmit descriptors are collected until a packet or a segmentation unit is
complete, and sent from the packet buffer; see `lan_queue_tx` in `i40e_lan.cc`
and the checksums in `xsums.cc`. An `abort()` or a failed assertion is `none`.

Lengths and offsets are 32-bit in the source. There are at most 128 descriptors
with less than `2^14` bytes each, so their sums are far from wrapping; the
subtractions that can wrap are written out.
-/

set_option autoImplicit false

namespace SimBricks.I40eTx

open Library.Bytes

/-! ### Checksums -/

/-- `__rte_raw_cksum` from zero: 16-bit words in the byte order of the host, and
a last odd byte. -/
def rawSum (m : Memory) (o len : ℕ) : ℕ := (∑ i ∈ Finset.range (len/2), natAt m 2 (o+2*i)+
    if len % 2 = 1 then (m (o+(len-1))).toNat else 0) % 2^32

def fold16 (sum : ℕ) : ℕ := sum/2^16+sum % 2^16

def rteRawCksum (m : Memory) (o len : ℕ) : ℕ := fold16 (fold16 (rawSum m o len)) % 2^16

/-- The checksum field for a sum: folded once more and inverted. -/
def cksumField (sum : ℕ) : List UInt8 := natBytes 2 (0xffff-fold16 sum % 2^16)

def rteIpv4PhdrCksum (m : Memory) (ip : ℕ) : ℕ :=
  let psdHdr := load m (ip+12) 8++[0,m (ip+9)]++beBytes 2 (beAt m 2 (ip+2)+2^16-20)
  rteRawCksum (view psdHdr fun _ => 0) 0 12

def xsumUdp (m : Memory) (o l4Len : ℕ) : Memory :=
  store m (o+6) (cksumField (rteRawCksum m o l4Len))

def xsumTcp (m : Memory) (o l4Len : ℕ) : Memory :=
  store m (o+16) (cksumField (rteRawCksum m o l4Len))

/-- The TCP checksum field counts as zero in its own sum, and so does the one
of the IP header. -/
def xsumTcpipTso (m : Memory) (ip iplen l4len paylen : ℕ) : Memory :=
  let tcp := ip+iplen
  let m := store m (ip+2) (beBytes 2 (iplen+l4len+paylen))
  let m := store m (ip+10) [0,0]
  let m := store m (ip+10) (cksumField (rteRawCksum m ip iplen))
  let m := store m (tcp+16) [0,0]
  store m (tcp+16) (cksumField (rteRawCksum m tcp (l4len+paylen)+rteIpv4PhdrCksum m ip))

def tsoPostupdateHeader (m : Memory) (ip iplen paylen : ℕ) : Memory :=
  let tcp := ip+iplen
  let m := store m (tcp+4) (beBytes 4 (beAt m 4 (tcp+4)+paylen))
  store m (ip+4) (beBytes 2 (beAt m 2 (ip+4)+1))

/-! ### Descriptors -/

def bits (shift width d1 : ℕ) : ℕ := d1/2^shift % 2^width

def dtypeData : ℕ := 0
def dtypeContext : ℕ := 1

/-- A descriptor that is ready: its second quadword and the data fetched for it. -/
structure Desc where
  index : ℕ
  d1 : ℕ
  data : List UInt8
  length_data : bits 0 4 d1 = dtypeData → data.length = bits 34 14 d1

namespace Desc

variable (d : Desc)

def dtype : ℕ := bits 0 4 d.d1

-- data descriptors
def cmd : ℕ := bits 4 10 d.d1
def eop : Bool := d.cmd.testBit 0
def l4t : ℕ := d.cmd &&& 0x300
def offset : ℕ := bits 16 18 d.d1
def maclen : ℕ := bits 0 7 d.offset*2
def iplen : ℕ := bits 7 7 d.offset*4
def l4len : ℕ := bits 14 4 d.offset*4
def bufSz : ℕ := bits 34 14 d.d1

-- context descriptors
def ctxCmd : ℕ := bits 4 16 d.d1
def tso : Bool := d.ctxCmd.testBit 0
def tsyn : Bool := d.ctxCmd.testBit 1
def mss : ℕ := bits 50 14 d.d1

end Desc

/-! ### Sending -/

def mtu : ℕ := 9024

inductive Output
  /-- A frame passed to `EthSend`. -/
  | frame (bytes : List UInt8)
  /-- The PTP transmit time stamp is taken. -/
  | timestamp
  /-- `processed()` on a descriptor. -/
  | processed (index : ℕ)
deriving DecidableEq

structure Tx where
  pktbuf : Memory
  tsoOff : ℕ
  tsoLen : ℕ
  readySegments : List Desc
  out : List Output

structure Scan where
  eop : Bool := false
  totalLen : ℕ := 0
  maclen : ℕ := 0
  iplen : ℕ := 0
  l4len : ℕ := 0
  l4t : ℕ := 0

def Scan.add (s : Scan) (d : Desc) : Scan :=
  let s := { s with eop := d.eop, totalLen := s.totalLen+d.bufSz, l4t := d.l4t }
  if d.eop then { s with maclen := d.maclen, iplen := d.iplen, l4len := d.l4len } else s

def findEop : List Desc → Scan → Option Scan
  | [], s => some s
  | d::ds, s =>
    if s.eop then some s
    else if d.dtype ≠ dtypeData then none
    else findEop ds (s.add d)

namespace Tx

def copy (t : Tx) (limit off : ℕ) (d : Desc) : Tx :=
  if off ≤ t.tsoOff ∧ t.tsoOff < off+d.bufSz then
    let stop := min (off+d.bufSz) limit
    { t with
      pktbuf := store t.pktbuf t.tsoLen
        ((d.data.drop (t.tsoOff-off)).take (stop-t.tsoOff))
      tsoOff := stop
      tsoLen := t.tsoLen+(stop-t.tsoOff) }
  else t

def copyLoop (limit : ℕ) : List Desc → ℕ → ℕ → Tx → Tx × ℕ
  | [], _, dcnt, t => (t,dcnt)
  | d::ds, off, dcnt, t =>
    if off < limit then copyLoop limit ds (off+d.bufSz) (dcnt+1) (t.copy limit off d)
    else (t,dcnt)

def send (t : Tx) : Tx := { t with out := t.out++[.frame (load t.pktbuf 0 t.tsoLen)] }

def unitDone (t : Tx) (tsyn : Bool) (dcnt : ℕ) : Tx := { t with
    out := t.out++(if tsyn then [.timestamp] else [])++
      (t.readySegments.take dcnt).map fun d => .processed d.index
    readySegments := t.readySegments.drop dcnt
    tsoLen := 0
    tsoOff := 0 }

def sub32 (a b : ℕ) : ℕ := (a+2^32-b) % 2^32

def sendPlain (t : Tx) (s : Scan) : Tx :=
  let l4 := s.maclen+s.iplen
  if s.l4t = 0x100 then
    { t with pktbuf := xsumTcp t.pktbuf l4 (sub32 t.tsoLen l4) }.send
  else if s.l4t = 0x300 then
    { t with pktbuf := xsumUdp t.pktbuf l4 (sub32 t.tsoLen l4) }.send
  else t.send

-- the header lengths are passed on as bytes, the payload length as 16 bits
def sendSegment (t : Tx) (s : Scan) (mss : ℕ) : Tx :=
  let hdrlen := s.maclen+s.iplen+s.l4len
  let paylen := min (sub32 t.tsoLen hdrlen) mss
  let buf := xsumTcpipTso t.pktbuf s.maclen (s.iplen % 2^8) (s.l4len % 2^8) (paylen % 2^16)
  { { t with pktbuf := buf }.send with
    pktbuf := tsoPostupdateHeader buf s.maclen (s.iplen % 2^8) (paylen % 2^16) }

def sendUnit (t : Tx) (s : Scan) (ds : List Desc) (skip : ℕ) (tso tsyn : Bool) (mss : ℕ) :
    Option (Bool × Tx) :=
  let hdrlen := s.maclen+s.iplen+s.l4len
  if tso then
    let limit := min (if t.tsoOff = 0 then hdrlen+mss else t.tsoOff+mss) s.totalLen
    let copied := t.copyLoop limit ds 0 skip
    if mtu < copied.1.tsoLen then none
    else
      let t := copied.1.sendSegment s mss
      if t.tsoOff < s.totalLen then some (true,{ t with tsoLen := hdrlen })
      else some (true,t.unitDone tsyn copied.2)
  else if mtu < s.totalLen then none
  else
    let copied := t.copyLoop s.totalLen ds 0 skip
    if mtu < copied.1.tsoLen then none
    else some (true,(copied.1.sendPlain s).unitDone tsyn copied.2)

def triggerTxPacket (t : Tx) : Option (Bool × Tx) :=
  match t.readySegments with
  | [] => some (false,t)
  | d::ds =>
    let context := d.dtype = dtypeContext
    let rest := if context then ds else d::ds
    do
      let s ← findEop rest {}
      if s.eop then
        t.sendUnit s rest (if context then 1 else 0) (decide context && d.tso)
          (decide context && d.tsyn) (if context then d.mss else 0)
      else some (false,t)

/-- The loop of `trigger_tx`. A unit with an `mss` of zero keeps it going for
ever, so the number of rounds is bounded. -/
def triggerTx : ℕ → Tx → Option Tx
  | 0, _ => none
  | fuel+1, t =>
    match t.triggerTxPacket with
    | none => none
    | some (true,t) => triggerTx fuel t
    | some (false,t) => some t

def process (fuel : ℕ) (t : Tx) (d : Desc) : Option Tx :=
  { t with readySegments := t.readySegments++[d] }.triggerTx fuel

end Tx

end SimBricks.I40eTx
