import Mathlib.Tactic

/-!
# Messages of the memory simulators

Requests and completions between a host and a memory (`mem/proto.h`), and
the Ethernet frames that carry them over the network (`netproto.h`). A frame
is the packet buffer read through its header structs; the data behind the
memory operation are the bytes up to the packet's length. Header fields that
no simulator writes are left out.
-/

set_option autoImplicit false

namespace SimBricks.NetProto

def kH2MRead : UInt8 := 0x60
def kH2MWrite : UInt8 := 0x61
def kM2HReadcomp : UInt8 := 0x40
def kM2HWritecomp : UInt8 := 0x41

/-- A host request; a write carries as many bytes as its length says. -/
inductive H2M where
  | read (reqId asId addr : UInt64) (len : UInt16)
  | write (reqId asId addr : UInt64) (data : List UInt8)
  | writePosted (reqId asId addr : UInt64) (data : List UInt8)
  deriving DecidableEq, Repr

namespace H2M

def posted : H2M → Bool
  | .writePosted _ _ _ _ => true
  | _ => false

def reqId : H2M → UInt64
  | .read reqId _ _ _ | .write reqId _ _ _ | .writePosted reqId _ _ _ => reqId

def asId : H2M → UInt64
  | .read _ asId _ _ | .write _ asId _ _ | .writePosted _ asId _ _ => asId

def addr : H2M → UInt64
  | .read _ _ addr _ | .write _ _ addr _ | .writePosted _ _ addr _ => addr

def len : H2M → ℕ
  | .read _ _ _ len => len.toNat
  | .write _ _ _ data | .writePosted _ _ _ data => data.length

end H2M

inductive M2H where
  | readcomp (reqId : UInt64) (data : List UInt8)
  | writecomp (reqId : UInt64)
  deriving DecidableEq, Repr

def M2H.reqId : M2H → UInt64
  | .readcomp reqId _ | .writecomp reqId => reqId

abbrev Mac := Vector UInt8 6

structure EthHdr where
  dest : Mac
  source : Mac
  proto : UInt16
  deriving DecidableEq, Repr

structure IpHdr where
  saddr : UInt32
  daddr : UInt32
  totLen : UInt16
  deriving DecidableEq, Repr

structure UdpHdr where
  sport : UInt16
  dport : UInt16
  ulen : UInt16
  deriving DecidableEq, Repr

structure MemOp where
  opType : UInt8
  reqId : UInt64
  addr : UInt64
  len : UInt16
  asId : UInt64
  deriving DecidableEq, Repr

structure Frame where
  eth : EthHdr
  ip : IpHdr
  udp : UdpHdr
  memop : MemOp
  data : List UInt8
  deriving DecidableEq, Repr

def sizeofEth : ℕ := 14
def sizeofIp : ℕ := 20
def sizeofUdp : ℕ := 8
def sizeofMemOp : ℕ := 64

def Frame.length (f : Frame) : ℕ := sizeofEth+sizeofIp+sizeofUdp+sizeofMemOp+f.data.length

def htons (x : UInt16) : UInt16 := (x <<< 8) ||| (x >>> 8)

end SimBricks.NetProto
