import SimBricks.Hcop.PaxosPassive
import SimBricks.Switch.PrimitiveEngine

/-!
# An instance or a barrier belongs to one tier

The switch answers for a Paxos instance or sends its packets up as overflow,
never both, and the same holds for barriers. Its tables only grow: an entry
that fits stays, and one that does not fit finds them full from then on.
-/

set_option autoImplicit false

namespace SimBricks.PrimitiveEngine
open Library Library.Run Library.Table Library.Bytes HcopProto Option
open PaxosState (handle_passive isAnswer)

/-- An HCOP packet without exception that the engine sends to the fallback
port with the given exception. -/
def ForwardedAs (e : Engine) (a : Arrival) (p : Primitive) (exceptionType : UInt16) (f : Frame) :
    Prop :=
  Frame.ofBytes a.pkt = some f ∧ Primitive.ofCode f.hdr.primitiveType = some p ∧
  f.hdr.exceptionType = 0 ∧ (e.handlePacket a).decision.action = .kToFallback ∧
  ∃ g, Frame.ofBytes (e.handlePacket a).pkt = some g ∧ g.hdr.exceptionType = exceptionType

def PaxosOverflow (e : Engine) (a : Arrival) (id : UInt32) : Prop :=
  ∃ f, ForwardedAs e a .paxos kPaxosStateOverflow f ∧
    ∃ m, PaxosProto.parse (view f.payload a.beyond) f.payload.length = some m ∧
      m.hdr.instanceId = id

def PaxosAnswer (e : Engine) (a : Arrival) (id : UInt32) : Prop :=
  ∃ f, e.target a = some (.paxos,f) ∧
    ∃ x ∈ (paxosOutcome e f a.beyond).out, isAnswer x.msg ∧ x.msg.hdr.instanceId = id

def BarrierOverflow (e : Engine) (a : Arrival) (id : UInt32) : Prop :=
  ∃ f, ForwardedAs e a .barrier kBarrierGenerationOverflow f ∧
    ∃ hdr, BarrierProto.parse (view f.payload a.beyond) f.payload.length = some hdr ∧
      hdr.barrierId = id

def BarrierArrival (e : Engine) (a : Arrival) (id : UInt32) : Prop :=
  ∃ f, e.target a = some (.barrier,f) ∧
    ∃ hdr, BarrierProto.parse (view f.payload a.beyond) f.payload.length = some hdr ∧
      hdr.barrierId = id ∧
      ((barrierOutcome e f a.beyond).status = .kOk ∨
      (barrierOutcome e f a.beyond).status = .kRelease)

variable {a : Arrival} {e : Engine} {id : UInt32}

/-- An exception that was not there has been set by the state machine. -/
lemma ForwardedAs.target {p : Primitive} {x : UInt16} {f : Frame} (h : ForwardedAs e a p x f)
    (hx : x ≠ 0) : e.target a = some (p,f.appendPath kTierSwitch) := by
  obtain ⟨hf,hp,h0,hact,g,hg,hgx⟩ := h
  have hp' : Primitive.ofCode (f.appendPath kTierSwitch).hdr.primitiveType = some p := hp
  unfold Engine.target
  simp only [hf]
  rw [handlePacket_frame hf] at hact hg
  unfold Engine.handleFrame at hact hg
  cases hr : route e.cfg (f.appendPath kTierSwitch) a.ingressPort a.beyond with
  | decided =>
    simp only [hr, Frame.ofBytes_bytes, some.injEq] at hg
    rw [← hgx, ← hg] at hx
    exact absurd h0 hx
  | process =>
    rw [(route_process hr).1] at hp'
    rw [some.inj hp']

/-! ## Paxos instances -/

/-- The engine never proposes, so its node has no proposer state. -/
def Idle (e : Engine) : Prop := e.paxos.proposerState = ∅

def instances (e : Engine) : Finset UInt32 := e.paxos.instances.keys

def paxosCapacity (e : Engine) : ℕ := e.paxos.maxInstances.toNat

lemma paxos_step (e : Engine) (a : Arrival) (h : Idle e) :
    Idle (e.step a) ∧ paxosCapacity (e.step a) = paxosCapacity e ∧
    ∃ k, Grows (paxosCapacity e) k (instances e) (instances (e.step a)) := by
  cases ht : e.target a with
  | none =>
    rw [step_untargeted ht]
    exact ⟨h,rfl,0,.inl rfl⟩
  | some pf =>
    obtain ⟨p,f⟩ := pf
    rw [step_target ht]
    cases p with
    | paxos =>
      rcases PaxosState.handleMessage_passive h (view f.payload a.beyond) f.payload.length with
        ⟨-,ho⟩ | ⟨m,-,hp⟩
      · simp only [Idle, paxosCapacity, instances, paxosOutcome, ho]
        exact ⟨h,trivial,0,.inl rfl⟩
      · exact ⟨hp.proposer,congrArg UInt32.toNat hp.capacity,_,hp.grows⟩
    | lock | barrier => exact ⟨h,rfl,0,.inl rfl⟩

lemma paxos_overflow_closed (he : Idle e) (h : PaxosOverflow e a id) :
    Closed (paxosCapacity e) (instances e) id := by
  obtain ⟨f,hf,m,hm,rfl⟩ := h
  have ht := hf.target (by decide)
  have hact := hf.2.2.2.1
  rw [handlePacket_target ht] at hact
  have hov := (handlePaxos_toFallback e (f.appendPath kTierSwitch) a.beyond hf.2.2.1).mp hact
  rcases PaxosState.handleMessage_passive he (view f.payload a.beyond) f.payload.length with
    ⟨hn,-⟩ | ⟨m',hm',hp⟩
  · rw [hn] at hm
    simp at hm
  · rw [hm] at hm'
    rw [some.inj hm']
    exact hp.overflow hov

lemma paxos_answer_tracked (he : Idle e) (h : PaxosAnswer e a id) : id ∈ instances (e.step a) := by
  obtain ⟨f,ht,x,hx,-,rfl⟩ := h
  rw [step_target ht]
  rcases PaxosState.handleMessage_passive he (view f.payload a.beyond) f.payload.length with
    ⟨-,ho⟩ | ⟨m,-,hp⟩
  · rw [paxosOutcome, ho] at hx
    simp at hx
  · obtain ⟨-,hid,hmem⟩ := hp.answers x hx
    rw [hid]
    exact hmem

/-! ## Barriers -/

def barrierIds (e : Engine) : Finset UInt32 := e.barriers.barriers.keys

def barrierCapacity (e : Engine) : ℕ := e.barriers.maxBarriers.toNat

lemma barrier_step (e : Engine) (a : Arrival) :
    barrierCapacity (e.step a) = barrierCapacity e ∧ ∃ k,
    Grows (barrierCapacity e) k (barrierIds e) (barrierIds (e.step a)) := by
  cases ht : e.target a with
  | none =>
    rw [step_untargeted ht]
    exact ⟨rfl,0,.inl rfl⟩
  | some pf =>
    obtain ⟨p,f⟩ := pf
    rw [step_target ht]
    cases p with
    | paxos | lock => exact ⟨rfl,0,.inl rfl⟩
    | barrier =>
      simp only [barrierCapacity, barrierIds, barrierOutcome,
        BarrierState.BarrierManager.handleMessage]
      cases BarrierProto.parse (view f.payload a.beyond) f.payload.length with
      | none => exact ⟨rfl,0,.inl rfl⟩
      | some hdr =>
        obtain ⟨hg,hc⟩ := e.barriers.arrive_grows hdr.barrierId hdr.generation hdr.senderId
        exact ⟨congrArg UInt32.toNat hc,hdr.barrierId,hg⟩

lemma barrier_overflow_closed (h : BarrierOverflow e a id) :
    Closed (barrierCapacity e) (barrierIds e) id := by
  obtain ⟨f,hf,hdr,hp,rfl⟩ := h
  have ht := hf.target (by decide)
  obtain ⟨-,-,h0,hact,g,hg,hgx⟩ := hf
  rw [handlePacket_target ht] at hact hg
  have hout : barrierOutcome e (f.appendPath kTierSwitch) a.beyond =
      e.barriers.arrive hdr.barrierId hdr.generation hdr.senderId := by
    unfold barrierOutcome BarrierState.BarrierManager.handleMessage
    rw [show (f.appendPath kTierSwitch).payload = f.payload from rfl, hp]
  rcases (handleBarrier_toFallback e (f.appendPath kTierSwitch) a.beyond h0).mp hact with hst | hst
  · -- a late arrival carries the other exception
    have hfr : (handleBarrier e (f.appendPath kTierSwitch) a.beyond).frame =
        (f.appendPath kTierSwitch).withException kBarrierLateArrival := by
      simp [handleBarrier, hst, Frame.withException, kBarrierLateArrival]
    simp only [Engine.process, hfr, Frame.ofBytes_bytes, some.injEq] at hg
    rw [← hg] at hgx
    exact absurd hgx (show kBarrierLateArrival ≠ kBarrierGenerationOverflow by decide)
  · rw [hout] at hst
    exact (e.barriers.arrive_overflow_iff hdr.barrierId hdr.generation hdr.senderId).mp hst

lemma barrier_arrival_tracked (h : BarrierArrival e a id) : id ∈ barrierIds (e.step a) := by
  obtain ⟨f,ht,hdr,hp,rfl,hst⟩ := h
  have hout : barrierOutcome e f a.beyond =
      e.barriers.arrive hdr.barrierId hdr.generation hdr.senderId := by
    rw [barrierOutcome, BarrierState.BarrierManager.handleMessage, hp]
  rw [step_target ht]
  simp only [barrierIds, hout]
  rw [hout] at hst
  exact BarrierState.BarrierManager.arrive_keys hst

/-! ## Whole runs -/

/-- A run in which the switch answers for an instance sends no packet for it
up as overflow, whichever comes first, and a barrier at which it counts an
arrival never overflows. -/
theorem tier_sticky (cfg : SwitchConfig) (paxosCap lockCap barrierCap : UInt64)
    (as : List Arrival) (id : UInt32) (i j : Fin as.length) :
    ¬ (PaxosOverflow (run Engine.step (init cfg paxosCap lockCap barrierCap) (as.take i))
        (as.get i) id ∧
      PaxosAnswer (run Engine.step (init cfg paxosCap lockCap barrierCap) (as.take j))
        (as.get j) id) ∧
    ¬ (BarrierOverflow (run Engine.step (init cfg paxosCap lockCap barrierCap) (as.take i))
        (as.get i) id ∧
      BarrierArrival (run Engine.step (init cfg paxosCap lockCap barrierCap) (as.take j))
        (as.get j) id) := by
  constructor
  · have h0 : Idle (init cfg paxosCap lockCap barrierCap) := rfl
    apply never_refused_and_used (A := fun e a => PaxosOverflow e a id)
      (B := fun e a => PaxosAnswer e a id) (N := paxosCapacity) (S := instances) (k := id)
      ?_ ?_ ?_ ?_ h0 as i j
    · intro e a he
      exact (paxos_step e a he).1
    · intro e a he
      exact (paxos_step e a he).2
    · intro e a he ha
      exact paxos_overflow_closed he ha
    · intro e a he hb
      exact paxos_answer_tracked he hb
  · apply never_refused_and_used (I := fun _ => True) (A := fun e a => BarrierOverflow e a id)
      (B := fun e a => BarrierArrival e a id) (N := barrierCapacity) (S := barrierIds) (k := id)
      ?_ ?_ ?_ ?_ trivial as i j
    · intro e a _
      trivial
    · intro e a _
      exact barrier_step e a
    · intro e a _ ha
      exact barrier_overflow_closed ha
    · intro e a _ hb
      exact barrier_arrival_tracked hb

end SimBricks.PrimitiveEngine
