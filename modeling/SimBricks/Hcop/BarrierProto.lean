import SimBricks.Library.Bytes

/-!
# Barrier wire messages

Packed little-endian structures of `barrier_proto.h`: the header is the
whole message. A barrier manager reads ARRIVE only.
-/

set_option autoImplicit false

namespace SimBricks.BarrierProto
open Library.Bytes

structure MsgHeader where
  senderId : UInt8
  generation : UInt16
  barrierId : UInt32
  deriving DecidableEq, Repr

inductive Msg where
  | arrive (hdr : MsgHeader)
  | release (hdr : MsgHeader)
  deriving DecidableEq, Repr

namespace Msg

def hdr : Msg → MsgHeader
  | .arrive h => h
  | .release h => h

def tag : Msg → UInt8
  | .arrive _ => 1
  | .release _ => 2

def serialize (m : Msg) : List UInt8 :=
  [m.tag,m.hdr.senderId] ++ (u16Bytes m.hdr.generation ++ u32Bytes m.hdr.barrierId)

end Msg

def headerAt (m : Memory) : MsgHeader := ⟨m 1,u16At m 2,u32At m 4⟩

/-- The ARRIVE a manager dispatches on; everything else is invalid. -/
def parse (m : Memory) (len : ℕ) : Option MsgHeader :=
  if len < 8 then none
  else if m 0 = 1 then some (headerAt m) else none

lemma headerAt_serialize (m : Msg) (beyond : Memory) :
    headerAt (view m.serialize beyond) = m.hdr := by
  have h2 : u16At (view m.serialize beyond) 2 = m.hdr.generation :=
    u16At_of_bytes (fun i hi => by interval_cases i <;> rfl)
  have h4 : u32At (view m.serialize beyond) 4 = m.hdr.barrierId :=
    u32At_of_bytes (fun i hi => by interval_cases i <;> rfl)
  rw [headerAt, h2, h4]
  rfl

lemma parse_serialize (m : Msg) (beyond : Memory) :
    parse (view m.serialize beyond) m.serialize.length =
      match m with
      | .arrive hdr => some hdr
      | .release _ => none := by
  have hh := headerAt_serialize m beyond
  cases m with
  | arrive hdr =>
    have hl : (Msg.arrive hdr).serialize.length = 8 := rfl
    have h0 : view (Msg.arrive hdr).serialize beyond 0 = 1 := rfl
    rw [parse, hl, h0, hh]
    rfl
  | release hdr =>
    have hl : (Msg.release hdr).serialize.length = 8 := rfl
    have h0 : view (Msg.release hdr).serialize beyond 0 = 2 := rfl
    rw [parse, hl, h0]
    rfl

lemma parse_beyond (payload : List UInt8) (beyond beyond' : Memory) :
    parse (view payload beyond) payload.length = parse (view payload beyond') payload.length := by
  unfold parse
  split_ifs with hlen h0 h0' h0'
  · rfl
  · have hin : ∀ i < 8, view payload beyond i = view payload beyond' i :=
      fun i hi => view_inside _ _ (by omega)
    have h2 : natAt (view payload beyond) 2 2 = natAt (view payload beyond') 2 2 :=
      natAt_congr fun i hi => hin _ (by omega)
    have h4 : natAt (view payload beyond) 4 4 = natAt (view payload beyond') 4 4 :=
      natAt_congr fun i hi => hin _ (by omega)
    rw [headerAt, headerAt, hin 1 (by omega), u16At, u16At, h2, u32At, u32At, h4]
  · rw [view_inside beyond beyond' (by omega)] at h0
    exact absurd h0 h0'
  · rw [view_inside beyond beyond' (by omega)] at h0
    exact absurd h0' h0
  · rfl

end SimBricks.BarrierProto
