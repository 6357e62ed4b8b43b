import SimBricks.Tiers.Traffic

/-!
# Lock messages in two tiers

Which message a step hands to which lock manager, and that switch and DPU put
no requester into a packet that no client has put there.
-/

set_option autoImplicit false

namespace SimBricks.Tiers
open Library Library.Bytes HcopProto PrimitiveEngine
open DpuDevice (Device ProcessingEvent Receipt Reply buildFrame)
open LockState (LockManager kFree)

def System.locks (s : System) : Tier → LockManager
  | .switch => s.switch.locks
  | .dpu => s.dpu.locks

structure LockCall where
  tier : Tier
  data : Memory
  len : ℕ
  nowNs : UInt64

def switchCall (e : Engine) (a : Arrival) : Option LockCall :=
  match e.target a with
  | some (.lock,f) => some ⟨.switch,view f.payload a.beyond,f.payload.length,a.nowNs⟩
  | _ => none

def dpuCall (e : ProcessingEvent) (beyond : Memory) : Option LockCall :=
  match e.primitive with
  | .lock => some ⟨.dpu,view e.frame.payload beyond,e.frame.payload.length,0⟩
  | _ => none

def System.lockCall (s : System) (ev : Event) : Option LockCall :=
  match s.arrival ev, s.fired ev with
  | some a, _ => switchCall s.switch a
  | none, some (e,beyond) => dpuCall e beyond
  | none, none => none

def answer (locks : Tier → LockManager) : Option LockCall → Tier → LockManager
  | none => locks
  | some c =>
    Function.update locks c.tier ((locks c.tier).handleMessage c.data c.len c.nowNs).mgr

/-! ## The managers move with the calls -/

lemma switchIn_locks (s : System) (a : Arrival) (n : ℕ) :
    (s.switchIn a n).locks = answer s.locks (switchCall s.switch a) := by
  have hs : (s.switchIn a n).locks .switch = (s.switch.step a).locks := rfl
  funext t
  unfold switchCall
  cases t with
  | switch =>
    rw [hs, PrimitiveEngine.step_locks]
    cases ht : s.switch.target a with
    | none => rfl
    | some pf =>
      obtain ⟨p,f⟩ := pf
      cases p <;> rfl
  | dpu =>
    cases ht : s.switch.target a with
    | none => rfl
    | some pf =>
      obtain ⟨p,f⟩ := pf
      cases p <;> rfl

lemma dpuIn_locks (s : System) (x : Flight) : (s.dpuIn x).locks = s.locks := by
  funext t
  cases t with
  | switch => rfl
  | dpu => exact (dpuIn_machines s x).1

lemma dpuTimed_locks (s : System) (e : ProcessingEvent) (n : ℕ) (beyond : Memory) :
    (s.dpuTimed e n beyond).locks = answer s.locks (dpuCall e beyond) := by
  have hl : (s.dpuTimed e n beyond).locks .dpu = (s.dpu.handlePacket e beyond).1.locks := rfl
  unfold dpuCall
  funext t
  cases t with
  | switch => cases e.primitive <;> rfl
  | dpu =>
    rw [hl, Device.handlePacket]
    cases e.primitive <;> rfl

lemma system_locks (s : System) (ev : Event) :
    (s.step ev).locks = answer s.locks (s.lockCall ev) := by
  unfold System.lockCall
  cases step_moved s ev with
  | idle ha hf h =>
    rw [h, ha, hf]
    rfl
  | handled a n down hev _ _ _ h =>
    rw [h, hev]
    exact switchIn_locks { s with down } a n
  | received x up ha hf _ _ h =>
    rw [h, ha, hf]
    exact dpuIn_locks { s with up } x
  | finished e beyond n pending waiting ha hf _ _ h =>
    rw [h, ha, hf]
    exact dpuTimed_locks { s with dpu := { s.dpu with pending }, waiting } e n beyond

/-! ## Requesters -/

/-- A request in the payload is not from the id of a free key. -/
def LegalPayload (payload : List UInt8) : Prop :=
  ∀ beyond, ∀ m ∈ LockProto.parse (view payload beyond) payload.length, m.hdr.requesterId ≠ kFree

def LegalPacket (pkt : List UInt8) : Prop := PacketCarries .lock LegalPayload pkt

def Clean (s : System) : Prop := Underway .lock LegalPayload s

lemma handleMessage_out (s : LockManager) (data : Memory) (len : ℕ) (now : UInt64) :
    ∀ x ∈ (s.handleMessage data len now).out, x.msg.tag ≠ 1 ∧ x.msg.tag ≠ 3 := by
  unfold LockManager.handleMessage
  cases LockProto.parse data len with
  | none => simp
  | some m => exact s.handle_out m now

lemma legal_answer {m : LockProto.Msg} (ht : m.tag ≠ 1 ∧ m.tag ≠ 3) : LegalPayload m.serialize := by
  intro beyond r hr
  have h0 : view m.serialize beyond 0 = m.tag := rfl
  obtain ⟨-,⟨h1,-⟩ | ⟨h3,-⟩⟩ := LockProto.parse_cases hr
  · exact absurd (h0.symm.trans h1) ht.1
  · exact absurd (h0.symm.trans h3) ht.2

lemma legal_answering (s : System) : Answering .lock LegalPayload s where
  switch f beyond now x hx := by
    obtain ⟨m,hm,rfl⟩ := List.mem_map.mp hx
    exact legal_answer (handleMessage_out _ _ _ _ m hm)
  dpu e beyond he x hx := by
    unfold Device.answers at hx
    rw [he] at hx
    obtain ⟨m,hm,rfl⟩ := List.mem_map.mp hx
    exact legal_answer (handleMessage_out _ _ _ _ m hm)

/-- The clients' part: they do not use the id of a free key. -/
def LegalInput (ev : Event) : Prop := ∀ a, ev = .client a → LegalPacket a.pkt

section
variable {s : System} {ev : Event}

lemma Clean.step (h : Clean s) (hev : LegalInput ev) : Clean (s.step ev) :=
  Underway.step h (legal_answering s) fun a ha _ => hev a ha

/-- The call of a lock manager is the call of the state machine with the time. -/
lemma call_of_lockCall {c : LockCall} (hc : c ∈ s.lockCall ev) :
    ∃ k, s.call ev = some k ∧ k.primitive = .lock ∧ c.data = view k.frame.payload k.beyond ∧
      c.len = k.frame.payload.length := by
  unfold System.lockCall at hc
  unfold System.call
  cases ha : s.arrival ev with
  | some a =>
    simp only [ha, switchCall] at hc
    split at hc
    · next ht =>
      cases hc
      exact ⟨_,Option.map_eq_some_iff.mpr ⟨_,ht,rfl⟩,rfl,rfl,rfl⟩
    · cases hc
  | none =>
    cases hf : s.fired ev with
    | none => simp [ha, hf] at hc
    | some x =>
      simp only [ha, hf, dpuCall] at hc
      split at hc
      · next hp =>
        cases hc
        exact ⟨_,rfl,hp,rfl,rfl⟩
      · cases hc

lemma Clean.call (h : Clean s) (hev : LegalInput ev) :
    ∀ c ∈ s.lockCall ev, ∀ m ∈ LockProto.parse c.data c.len, m.hdr.requesterId ≠ kFree := by
  intro c hc m hm
  obtain ⟨k,hk,hp,hdata,hlen⟩ := call_of_lockCall hc
  rw [hdata, hlen] at hm
  exact Underway.call h (fun a ha _ => hev a ha) hk hp k.beyond m hm

end

end SimBricks.Tiers
