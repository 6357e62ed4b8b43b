import SimBricks.Library.Bytes

/-!
# Paxos wire messages

Packed little-endian structures of `paxos_proto.h`. A message type is a
constructor, so its tag byte is written by `serialize` and read by `parse`.
The parser checks the length only up to the value array, as the dispatcher
does; the array itself is read from memory whatever the length says.
-/

set_option autoImplicit false

namespace SimBricks.PaxosProto
open Library.Bytes List

def kMaxValueSize : ℕ := 128

abbrev Value := Fin kMaxValueSize → UInt8

def zeroValue : Value := fun _ => 0

def memcpy (dst src : Value) (n : ℕ) : Value := fun i => if i.val < n then src i else dst i

def clampLen (len : UInt16) : UInt16 := if len.toNat ≤ kMaxValueSize then len else 128

lemma clampLen_le (len : UInt16) : (clampLen len).toNat ≤ 128 := by
  unfold clampLen kMaxValueSize
  split_ifs with h
  · exact h
  · decide

lemma clampLen_of_le {len : UInt16} (h : len.toNat ≤ 128) : clampLen len = len := if_pos h

@[simp] lemma clampLen_idem (len : UInt16) : clampLen (clampLen len) = clampLen len :=
  clampLen_of_le (clampLen_le len)

lemma memcpy_memcpy (a b src : Value) (n : ℕ) : memcpy a (memcpy b src n) n = memcpy a src n := by
  funext i
  by_cases h : i.val < n <;> simp [memcpy, h]

structure ProposalNum where
  round : UInt32
  nodeId : UInt16
  pad : UInt16
  deriving DecidableEq, Repr

namespace ProposalNum

instance : LT ProposalNum where
  lt p q := p.round < q.round ∨ (p.round = q.round ∧ p.nodeId < q.nodeId)

instance (p q : ProposalNum) : Decidable (p < q) :=
  inferInstanceAs (Decidable (_ ∨ _))

instance : LE ProposalNum where
  le p q := ¬ q < p

instance (p q : ProposalNum) : Decidable (p ≤ q) := inferInstanceAs (Decidable (¬ _))

/-- `operator==`: the padding is not compared. -/
def same (p q : ProposalNum) : Prop := p.round = q.round ∧ p.nodeId = q.nodeId
  deriving Decidable

def null : ProposalNum := ⟨0,0,0⟩

def isNull (p : ProposalNum) : Prop := p.round = 0 ∧ p.nodeId = 0
  deriving Decidable

/-- The lexicographic order as one number. -/
def key (p : ProposalNum) : ℕ := p.round.toNat*65536+p.nodeId.toNat

lemma lt_iff_key (p q : ProposalNum) : p < q ↔ p.key < q.key := by
  change (p.round < q.round ∨ (p.round = q.round ∧ p.nodeId < q.nodeId)) ↔ _
  have hp := p.nodeId.toNat_lt
  have hq := q.nodeId.toNat_lt
  rw [UInt32.lt_iff_toNat_lt, ← UInt32.toNat_inj, UInt16.lt_iff_toNat_lt]
  unfold key
  omega

lemma le_iff_key (p q : ProposalNum) : p ≤ q ↔ p.key ≤ q.key := by
  change ¬ q < p ↔ _
  rw [lt_iff_key, not_lt]

lemma same_iff_key (p q : ProposalNum) : same p q ↔ p.key = q.key := by
  have hp := p.nodeId.toNat_lt
  have hq := q.nodeId.toNat_lt
  rw [same, ← UInt32.toNat_inj, ← UInt16.toNat_inj]
  unfold key
  omega

lemma isNull_iff_key (p : ProposalNum) : p.isNull ↔ p.key = 0 := by
  rw [isNull, ← UInt32.toNat_inj, ← UInt16.toNat_inj]
  unfold key
  simp only [UInt32.toNat_zero, UInt16.toNat_zero]
  omega

instance : Preorder ProposalNum where
  le p q := p ≤ q
  lt p q := p < q
  le_refl p := (le_iff_key p p).mpr le_rfl
  le_trans p q r h k := (le_iff_key p r).mpr
    (((le_iff_key p q).mp h).trans ((le_iff_key q r).mp k))
  lt_iff_le_not_ge p q := by
    rw [lt_iff_key, le_iff_key, le_iff_key]
    omega

def bytes (p : ProposalNum) : List UInt8 :=
  u32Bytes p.round ++ (u16Bytes p.nodeId ++ u16Bytes p.pad)

def read (m : Memory) (o : ℕ) : ProposalNum := ⟨u32At m o,u16At m (o+4),u16At m (o+6)⟩

end ProposalNum

structure MsgHeader where
  senderId : UInt8
  numReplicas : UInt16
  instanceId : UInt32
  deriving DecidableEq, Repr

inductive Msg where
  | prepare (hdr : MsgHeader) (proposal : ProposalNum)
  | promise (hdr : MsgHeader) (promised acceptedProposal : ProposalNum)
      (acceptedValueLen : UInt16) (acceptedValue : Value)
  | accept (hdr : MsgHeader) (proposal : ProposalNum) (valueLen : UInt16) (value : Value)
  | accepted (hdr : MsgHeader) (proposal : ProposalNum) (valueLen : UInt16) (value : Value)
  | learn (hdr : MsgHeader) (valueLen : UInt16) (value : Value)
  | nack (hdr : MsgHeader) (highestSeen : ProposalNum)
  deriving DecidableEq

namespace Msg

def hdr : Msg → MsgHeader
  | .prepare h _ => h
  | .promise h _ _ _ _ => h
  | .accept h _ _ _ => h
  | .accepted h _ _ _ => h
  | .learn h _ _ => h
  | .nack h _ => h

def tag : Msg → UInt8
  | .prepare _ _ => 1
  | .promise _ _ _ _ _ => 2
  | .accept _ _ _ _ => 3
  | .accepted _ _ _ _ => 4
  | .learn _ _ _ => 5
  | .nack _ _ => 6

def headerBytes (m : Msg) : List UInt8 :=
  [m.tag,m.hdr.senderId] ++ (u16Bytes m.hdr.numReplicas ++ u32Bytes m.hdr.instanceId)

def body : Msg → List UInt8
  | .prepare _ p => p.bytes
  | .promise _ p a n v => p.bytes ++ (a.bytes ++ (u16Bytes n ++ ofFn v))
  | .accept _ p n v => p.bytes ++ (u16Bytes n ++ ofFn v)
  | .accepted _ p n v => p.bytes ++ (u16Bytes n ++ ofFn v)
  | .learn _ n v => u16Bytes n ++ ofFn v
  | .nack _ p => p.bytes

def serialize (m : Msg) : List UInt8 := m.headerBytes ++ m.body

end Msg

def headerAt (m : Memory) : MsgHeader := ⟨m 1,u16At m 2,u32At m 4⟩

def valueAt (m : Memory) (o : ℕ) : Value := fun i => m (o+i.val)

def parse (m : Memory) (len : ℕ) : Option Msg :=
  if len < 8 then none
  else match m 0 with
  | 1 => if 16 ≤ len then some (.prepare (headerAt m) (.read m 8)) else none
  | 2 => if 154-kMaxValueSize ≤ len then
      some (.promise (headerAt m) (.read m 8) (.read m 16) (u16At m 24) (valueAt m 26)) else none
  | 3 => if 146-kMaxValueSize ≤ len then
      some (.accept (headerAt m) (.read m 8) (u16At m 16) (valueAt m 18)) else none
  | 4 => if 146-kMaxValueSize ≤ len then
      some (.accepted (headerAt m) (.read m 8) (u16At m 16) (valueAt m 18)) else none
  | 5 => if 138-kMaxValueSize ≤ len then
      some (.learn (headerAt m) (u16At m 8) (valueAt m 10)) else none
  | 6 => if 16 ≤ len then some (.nack (headerAt m) (.read m 8)) else none
  | _ => none

section
variable (m : Msg) (beyond : Memory)

lemma headerAt_serialize : headerAt (view m.serialize beyond) = m.hdr := by
  have h2 : u16At (view m.serialize beyond) 2 = m.hdr.numReplicas :=
    u16At_of_bytes (fun i hi => by interval_cases i <;> rfl)
  have h4 : u32At (view m.serialize beyond) 4 = m.hdr.instanceId :=
    u32At_of_bytes (fun i hi => by interval_cases i <;> rfl)
  rw [headerAt, h2, h4]
  rfl

variable {a c : List UInt8} {o : ℕ}

lemma body_field {b : List UInt8} (hb : m.body = a++(b++c)) (ho : 8+a.length = o) (i : ℕ)
    (hi : i < b.length) : view m.serialize beyond (o+i) = b.getD i 0 := by
  have hs : m.serialize = (m.headerBytes++a)++(b++c) := by
    rw [Msg.serialize, hb, append_assoc]
  have hl : (m.headerBytes++a).length = o := by
    rw [← ho, length_append]
    rfl
  rw [hs, ← hl]
  exact view_middle _ _ _ beyond i hi

lemma body_len {n : UInt16} (hb : m.body = a++(u16Bytes n++c)) (ho : 8+a.length = o) :
    u16At (view m.serialize beyond) o = n :=
  u16At_of_bytes (fun i hi => body_field m beyond hb ho i (by simpa using hi))

lemma body_proposal {p : ProposalNum} (hb : m.body = a++(p.bytes++c)) (ho : 8+a.length = o) :
    ProposalNum.read (view m.serialize beyond) o = p := by
  have hr : m.body = a++(u32Bytes p.round++(u16Bytes p.nodeId++(u16Bytes p.pad++c))) := by
    simp [hb, ProposalNum.bytes]
  have hn : m.body = (a++u32Bytes p.round)++(u16Bytes p.nodeId++(u16Bytes p.pad++c)) := by
    simp [hr]
  have hp : m.body = (a++u32Bytes p.round++u16Bytes p.nodeId)++(u16Bytes p.pad++c) := by
    simp [hr]
  have h0 : u32At (view m.serialize beyond) o = p.round :=
    u32At_of_bytes (fun i hi => body_field m beyond hr ho i (by simpa using hi))
  rw [ProposalNum.read, h0, body_len m beyond hn (by simp [← ho]; omega),
    body_len m beyond hp (by simp [← ho]; omega)]

lemma body_value {v : Value} (hb : m.body = a++ofFn v) (ho : 8+a.length = o) :
    valueAt (view m.serialize beyond) o = v := by
  have hb' : m.body = a++(ofFn v++[]) := by simp [hb]
  funext i
  rw [valueAt, body_field m beyond hb' ho i (by simp)]
  simp

lemma parse_serialize : parse (view m.serialize beyond) m.serialize.length = some m := by
  have hh := headerAt_serialize m beyond
  have ht : view m.serialize beyond 0 = m.tag := rfl
  have hl : m.serialize.length = 8+m.body.length := by
    rw [Msg.serialize, length_append]
    rfl
  have h8 : ¬ m.serialize.length < 8 := by omega
  unfold parse
  rw [if_neg h8, ht, hh, hl]
  cases m with
  | prepare h p =>
    have hp := body_proposal (.prepare h p) beyond (a := []) (c := []) (p := p)
      (by simp [Msg.body]) (o := 8) rfl
    simp [Msg.tag, Msg.hdr, Msg.body, ProposalNum.bytes, hp]
  | promise h p q n v =>
    have hp := body_proposal (.promise h p q n v) beyond (a := []) (p := p) rfl (o := 8) rfl
    have hq := body_proposal (.promise h p q n v) beyond (a := p.bytes) (p := q) rfl (o := 16) rfl
    have hn := body_len (.promise h p q n v) beyond (a := p.bytes++q.bytes) (n := n)
      (c := ofFn v) (by simp [Msg.body]) (o := 24) rfl
    have hv := body_value (.promise h p q n v) beyond (a := p.bytes++q.bytes++u16Bytes n) (v := v)
      (by simp [Msg.body]) (o := 26) rfl
    simp [Msg.tag, Msg.hdr, Msg.body, kMaxValueSize, ProposalNum.bytes, hp, hq, hn, hv]
    omega
  | accept h p n v =>
    have hp := body_proposal (.accept h p n v) beyond (a := []) (p := p) rfl (o := 8) rfl
    have hn := body_len (.accept h p n v) beyond (a := p.bytes) (n := n) rfl (o := 16) rfl
    have hv := body_value (.accept h p n v) beyond (a := p.bytes++u16Bytes n) (v := v)
      (by simp [Msg.body]) (o := 18) rfl
    simp [Msg.tag, Msg.hdr, Msg.body, kMaxValueSize, ProposalNum.bytes, hp, hn, hv]
    omega
  | accepted h p n v =>
    have hp := body_proposal (.accepted h p n v) beyond (a := []) (p := p) rfl (o := 8) rfl
    have hn := body_len (.accepted h p n v) beyond (a := p.bytes) (n := n) rfl (o := 16) rfl
    have hv := body_value (.accepted h p n v) beyond (a := p.bytes++u16Bytes n) (v := v)
      (by simp [Msg.body]) (o := 18) rfl
    simp [Msg.tag, Msg.hdr, Msg.body, kMaxValueSize, ProposalNum.bytes, hp, hn, hv]
    omega
  | learn h n v =>
    have hn := body_len (.learn h n v) beyond (a := []) (n := n) rfl (o := 8) rfl
    have hv := body_value (.learn h n v) beyond (a := u16Bytes n) (v := v) rfl (o := 10) rfl
    simp [Msg.tag, Msg.hdr, Msg.body, kMaxValueSize, hn, hv]
    omega
  | nack h p =>
    have hp := body_proposal (.nack h p) beyond (a := []) (c := []) (p := p)
      (by simp [Msg.body]) (o := 8) rfl
    simp [Msg.tag, Msg.hdr, Msg.body, ProposalNum.bytes, hp]

end

end SimBricks.PaxosProto
