import SimBricks.Library.Bytes

/-!
# Lock wire messages

Packed little-endian structures of `lock_proto.h`. Builders zero the padding
and readers skip it. A lock manager reads two of the five message types.
-/

set_option autoImplicit false

namespace SimBricks.LockProto
open Library.Bytes

structure MsgHeader where
  requesterId : UInt8
  lockKey : UInt64
  deriving DecidableEq, Repr

inductive Msg where
  | acquire (hdr : MsgHeader) (leaseDurationNs : UInt64)
  | grant (hdr : MsgHeader) (leaseExpiryNs : UInt64)
  | release (hdr : MsgHeader)
  | deny (hdr : MsgHeader) (holderId : UInt8)
  | timeout (hdr : MsgHeader)
  deriving DecidableEq, Repr

namespace Msg

def hdr : Msg → MsgHeader
  | .acquire h _ => h
  | .grant h _ => h
  | .release h => h
  | .deny h _ => h
  | .timeout h => h

def tag : Msg → UInt8
  | .acquire _ _ => 1
  | .grant _ _ => 2
  | .release _ => 3
  | .deny _ _ => 4
  | .timeout _ => 5

def body : Msg → List UInt8
  | .acquire _ lease => u64Bytes lease
  | .grant _ expiry => u64Bytes expiry
  | .release _ => []
  | .deny _ holder => [holder,0,0,0,0,0,0,0]
  | .timeout _ => []

def serialize (m : Msg) : List UInt8 :=
  [m.tag,m.hdr.requesterId,0,0] ++ (u64Bytes m.hdr.lockKey ++ m.body)

end Msg

def headerAt (m : Memory) : MsgHeader := ⟨m 1,u64At m 4⟩

/-- The requests a manager dispatches on; everything else is invalid. -/
def parse (m : Memory) (len : ℕ) : Option Msg :=
  if len < 12 then none
  else match m 0 with
  | 1 => if 20 ≤ len then some (.acquire (headerAt m) (u64At m 12)) else none
  | 3 => if 12 ≤ len then some (.release (headerAt m)) else none
  | _ => none

lemma headerAt_serialize (m : Msg) (beyond : Memory) :
    headerAt (view m.serialize beyond) = m.hdr := by
  have h4 : u64At (view m.serialize beyond) 4 = m.hdr.lockKey :=
    u64At_of_bytes (fun i hi => by interval_cases i <;> rfl)
  rw [headerAt, h4]
  rfl

lemma parse_cases {m : Memory} {len : ℕ} {r : Msg} (h : parse m len = some r) :
    12 ≤ len ∧ ((m 0 = 1 ∧ ∃ lease, r = .acquire (headerAt m) lease) ∨
      (m 0 = 3 ∧ r = .release (headerAt m))) := by
  unfold parse at h
  by_cases hl : len < 12
  · simp [hl] at h
  · rw [if_neg hl] at h
    refine ⟨not_lt.mp hl,?_⟩
    split at h
    · next h0 =>
      split_ifs at h
      exact .inl ⟨h0,_,(Option.some.inj h).symm⟩
    · next h0 =>
      split_ifs at h
      exact .inr ⟨h0,(Option.some.inj h).symm⟩
    · cases h

end SimBricks.LockProto
