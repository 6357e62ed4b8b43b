import SimBricks.Library.Bytes

/-!
# HCOP frames

The packet format of `hcop_proto.h`: an Ethernet header with EtherType
`0x88B5`, the packed little-endian `HcopHeader` and a payload. The tiers
edit frames in place; here a frame is read, edited by field and written back,
and `ofBytes_bytes` says that a frame is read as it was written.
-/

set_option autoImplicit false

namespace SimBricks.HcopProto
open Library.Bytes Nat

inductive Primitive where
  | paxos | lock | barrier
  deriving DecidableEq, Repr

namespace Primitive

def code : Primitive → UInt16
  | .paxos => 1
  | .lock => 2
  | .barrier => 3

def ofCode (c : UInt16) : Option Primitive :=
  if c = 1 then some .paxos
  else if c = 2 then some .lock
  else if c = 3 then some .barrier
  else none

lemma ofCode_code (p : Primitive) : ofCode p.code = some p := by
  cases p <;> rfl

end Primitive

def kPaxosStateOverflow : UInt16 := 2
def kLockContention : UInt16 := 1
def kLockStateOverflow : UInt16 := 2
def kBarrierGenerationOverflow : UInt16 := 1
def kBarrierLateArrival : UInt16 := 2
def kDpuCoreExhausted : UInt16 := 0x0100

def kTierSwitch : UInt8 := 0
def kTierDpu : UInt8 := 1
def kTierHost : UInt8 := 2

def kHcopEtherType : UInt16 := 0x88B5

def kMinHcopFrameLen : ℕ := 30

structure HcopHeader where
  primitiveType : UInt16
  exceptionType : UInt16
  operationId : UInt32
  sourceTier : UInt8
  numTierCrossings : UInt8
  tierPath : UInt32
  payloadLen : UInt16
  deriving DecidableEq, Repr

namespace HcopHeader

def bytes (h : HcopHeader) : List UInt8 :=
  u16Bytes h.primitiveType ++ (u16Bytes h.exceptionType ++ (u32Bytes h.operationId ++
    ([h.sourceTier,h.numTierCrossings] ++ (u32Bytes h.tierPath ++ u16Bytes h.payloadLen))))

def read (m : Memory) (o : ℕ) : HcopHeader :=
  ⟨u16At m o,u16At m (o+2),u32At m (o+4),m (o+8),m (o+9),u32At m (o+10),u16At m (o+14)⟩

def appendPath (h : HcopHeader) (tier : UInt8) : HcopHeader := { h with
    tierPath := (h.tierPath <<< 4) ||| (tier &&& 0x0F).toUInt32
    numTierCrossings := h.numTierCrossings+1 }

end HcopHeader

structure Mac where
  (b0 b1 b2 b3 b4 b5 : UInt8)
  deriving DecidableEq, Repr

namespace Mac

def bytes (a : Mac) : List UInt8 := [a.b0,a.b1,a.b2,a.b3,a.b4,a.b5]

def read (m : Memory) (o : ℕ) : Mac := ⟨m o,m (o+1),m (o+2),m (o+3),m (o+4),m (o+5)⟩

def broadcast : Mac := ⟨0xFF,0xFF,0xFF,0xFF,0xFF,0xFF⟩

end Mac

def etherType (pkt : List UInt8) : UInt16 :=
  (pkt.getD 12 0).toUInt16 <<< 8 ||| (pkt.getD 13 0).toUInt16

structure Frame where
  dst : Mac
  src : Mac
  hdr : HcopHeader
  payload : List UInt8
  deriving DecidableEq, Repr

namespace Frame

def head (f : Frame) : List UInt8 := f.dst.bytes ++ (f.src.bytes ++ ([0x88,0xB5] ++ f.hdr.bytes))

def bytes (f : Frame) : List UInt8 := f.head ++ f.payload

/-- The frame a packet holds, if it is long enough and of the HCOP type. -/
def ofBytes (pkt : List UInt8) : Option Frame :=
  if pkt.length < kMinHcopFrameLen then none
  else if etherType pkt ≠ kHcopEtherType then none
  else some
    { dst := .read (view pkt fun _ => 0) 0
      src := .read (view pkt fun _ => 0) 6
      hdr := .read (view pkt fun _ => 0) 14
      payload := pkt.drop kMinHcopFrameLen }

def appendPath (f : Frame) (tier : UInt8) : Frame := { f with hdr := f.hdr.appendPath tier }

def withException (f : Frame) (exceptionType : UInt16) : Frame :=
  { f with hdr := { f.hdr with exceptionType } }

def request (p : Primitive) (payload : List UInt8) : Frame where
  dst := .broadcast
  src := ⟨0x02,0x00,0x00,0x00,0x00,0x01⟩
  hdr := ⟨p.code,0,0,kTierHost,0,0,UInt16.ofNat payload.length⟩
  payload

lemma length_head (f : Frame) : f.head.length = kMinHcopFrameLen := rfl

lemma length_bytes (f : Frame) : f.bytes.length = kMinHcopFrameLen+f.payload.length := by
  rw [bytes, List.length_append, length_head]

section
variable (f : Frame) (z : Memory)

lemma read_hdr : HcopHeader.read (view f.bytes z) 14 = f.hdr := by
  have h0 : u16At (view f.bytes z) 14 = f.hdr.primitiveType :=
    u16At_of_bytes (fun i hi => by interval_cases i <;> rfl)
  have h2 : u16At (view f.bytes z) 16 = f.hdr.exceptionType :=
    u16At_of_bytes (fun i hi => by interval_cases i <;> rfl)
  have h4 : u32At (view f.bytes z) 18 = f.hdr.operationId :=
    u32At_of_bytes (fun i hi => by interval_cases i <;> rfl)
  have h10 : u32At (view f.bytes z) 24 = f.hdr.tierPath :=
    u32At_of_bytes (fun i hi => by interval_cases i <;> rfl)
  have h14 : u16At (view f.bytes z) 28 = f.hdr.payloadLen :=
    u16At_of_bytes (fun i hi => by interval_cases i <;> rfl)
  rw [HcopHeader.read, h0, h2, h4, h10, h14]
  rfl

end

lemma ofBytes_bytes (f : Frame) : ofBytes f.bytes = some f := by
  have hlen : ¬ f.bytes.length < kMinHcopFrameLen := by
    rw [length_bytes]
    omega
  have htype : ¬ etherType f.bytes ≠ kHcopEtherType := by
    have h12 : f.bytes.getD 12 0 = 0x88 := rfl
    have h13 : f.bytes.getD 13 0 = 0xB5 := rfl
    rw [not_not, etherType, h12, h13]
    decide
  have hpay : f.bytes.drop kMinHcopFrameLen = f.payload := List.drop_left' f.length_head
  rw [ofBytes, if_neg hlen, if_neg htype, read_hdr, hpay]
  rfl

end Frame

end SimBricks.HcopProto
