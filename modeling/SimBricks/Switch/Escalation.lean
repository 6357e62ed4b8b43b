import SimBricks.Hcop.BarrierRefusals
import SimBricks.Hcop.LockTable
import SimBricks.Hcop.PaxosPassive
import SimBricks.Switch.PrimitiveEngine

/-!
# Exceptions leave the switch as it was

A packet goes to the fallback tier with an exception when a state machine
reports that it cannot serve it. Every such report is made before anything is
written, and the packet keeps its payload: the next tier sees the request the
switch has seen, and nothing of it has been executed.
-/

set_option autoImplicit false

namespace SimBricks.Escalation
open Library Library.Bytes HcopProto PrimitiveEngine

/-! ## The state machines -/

lemma paxos_overflow_unchanged {s : PaxosState.PaxosNode} {m : Memory} {len : ℕ}
    (h : (s.handleMessage m len).status = .kInstanceOverflow) :
    (s.handleMessage m len).node = s := by
  unfold PaxosState.PaxosNode.handleMessage at h ⊢
  cases hp : PaxosProto.parse m len with
  | none => rfl
  | some msg =>
    simp only [hp] at h ⊢
    have hh := PaxosState.handle_handled s msg
    generalize s.handle msg = o at h hh
    cases hh with
    | full => rfl
    | quiet status hm hs => exact absurd h hs
    | _ => cases h

lemma barrier_exception_unchanged {s : BarrierState.BarrierManager} {m : Memory} {len : ℕ}
    (h : (s.handleMessage m len).status = .kLateArrival ∨
      (s.handleMessage m len).status = .kLayoutOverflow) :
    (s.handleMessage m len).mgr = s := by
  unfold BarrierState.BarrierManager.handleMessage at h ⊢
  cases hp : BarrierProto.parse m len with
  | none => rfl
  | some =>
    simp only [hp] at h ⊢
    rcases (BarrierState.BarrierManager.arrive_exception_iff s _ _ _).mp h with hlate | hclosed
    · obtain ⟨b,hb,hlt⟩ := hlate
      rw [BarrierRefusals.arrive_elsewhere hb (UInt16.ne_of_lt hlt)]
    · rw [BarrierState.BarrierManager.arrive,
        BarrierState.BarrierManager.getOrCreate_of_closed hclosed]

/-! ## The engine -/

def Raised (h : Handled) (e : Engine) (f : Frame) : Prop :=
  h.engine = e ∧ ∃ x, h.frame = f.withException x

section
variable {e : Engine} {f : Frame} {beyond : Memory}

variable (h0 : f.hdr.exceptionType = 0)
include h0

lemma handlePaxos_raised (h : (handlePaxos e f beyond).decision.action = .kToFallback) :
    Raised (handlePaxos e f beyond) e f := by
  have hst := (handlePaxos_toFallback e f beyond h0).mp h
  constructor
  · rw [handlePaxos_engine, paxosOutcome, paxos_overflow_unchanged hst]
  · refine ⟨kPaxosStateOverflow,?_⟩
    simp [handlePaxos, hst, Frame.withException, kPaxosStateOverflow]

lemma handleLock_raised {nowNs : UInt64}
    (h : (handleLock e f beyond nowNs).decision.action = .kToFallback)
    (hexc : (handleLock e f beyond nowNs).frame.hdr.exceptionType ≠ 0) :
    Raised (handleLock e f beyond nowNs) e f := by
  rw [Raised, handleLock_engine]
  have hunchanged : ∀ st, (lockOutcome e f beyond nowNs).status = st → LockTable.Refusal st →
      { e with locks := (lockOutcome e f beyond nowNs).mgr } = e := by
    intro st hst hr
    rw [lockOutcome] at hst
    rw [lockOutcome, LockTable.handleMessage_refused (hst ▸ hr)]
  by_cases hc : (lockOutcome e f beyond nowNs).status = .kContention
  · refine ⟨hunchanged _ hc (by simp [LockTable.Refusal]),kLockContention,?_⟩
    simp [handleLock, hc, Frame.withException, kLockContention]
  by_cases hk : (lockOutcome e f beyond nowNs).status = .kKeyOverflow
  · refine ⟨hunchanged _ hk (by simp [LockTable.Refusal]),kLockStateOverflow,?_⟩
    simp [handleLock, hk, Frame.withException, kLockStateOverflow]
  · -- Left is a release that woke nobody: it goes up without exception.
    have hup := ((handleLock_toFallback e f beyond nowNs h0).mp h).resolve_left hc
    obtain ⟨hout,hrel⟩ := hup.resolve_left hk
    refine absurd ?_ hexc
    simp [handleLock, hc, hk, h0, hout, hrel]

lemma handleBarrier_raised (h : (handleBarrier e f beyond).decision.action = .kToFallback) :
    Raised (handleBarrier e f beyond) e f := by
  have hst := (handleBarrier_toFallback e f beyond h0).mp h
  constructor
  · rw [handleBarrier_engine, barrierOutcome, barrier_exception_unchanged hst]
  · rcases hst with hst | hst
    · refine ⟨kBarrierLateArrival,?_⟩
      simp [handleBarrier, hst, Frame.withException, kBarrierLateArrival]
    · refine ⟨kBarrierGenerationOverflow,?_⟩
      simp [handleBarrier, hst, Frame.withException, kBarrierGenerationOverflow]

lemma process_raised {p : Primitive} {nowNs : UInt64}
    (h : (e.process p f beyond nowNs).decision.action = .kToFallback)
    (hexc : (e.process p f beyond nowNs).frame.hdr.exceptionType ≠ 0) :
    Raised (e.process p f beyond nowNs) e f := by
  cases p with
  | paxos => exact handlePaxos_raised h0 h
  | lock => exact handleLock_raised h0 h hexc
  | barrier => exact handleBarrier_raised h0 h

omit h0

end

/-- A packet without exception that goes up with one is the packet received
but for the exception and the path, and no state machine has moved. -/
theorem escalation_without_effect {e : Engine} {a : Arrival} {f g : Frame}
    (hf : Frame.ofBytes a.pkt = some f) (h0 : f.hdr.exceptionType = 0)
    (hact : (e.handlePacket a).decision.action = .kToFallback)
    (hg : Frame.ofBytes (e.handlePacket a).pkt = some g) (hexc : g.hdr.exceptionType ≠ 0) :
    (e.handlePacket a).engine = e ∧
    g = { f with
      hdr := { f.hdr with
        exceptionType := g.hdr.exceptionType
        numTierCrossings := g.hdr.numTierCrossings
        tierPath := g.hdr.tierPath } } := by
  rw [handlePacket_frame hf] at hact hg ⊢
  rw [Frame.ofBytes_bytes, Option.some.injEq] at hg
  rw [Engine.handleFrame] at hact hg ⊢
  cases hr : route e.cfg (f.appendPath kTierSwitch) a.ingressPort a.beyond with
  | decided =>
    simp only [hr] at hg
    rw [← hg] at hexc
    exact absurd h0 hexc
  | process =>
    simp only [hr] at hact hg ⊢
    rw [← hg] at hexc ⊢
    have hswitch : (f.appendPath kTierSwitch).hdr.exceptionType = 0 := h0
    obtain ⟨he,x,hx⟩ := process_raised hswitch hact hexc
    rw [hx]
    exact ⟨he,rfl⟩

/-- A PREPARE of node 1 for an instance, with its crossings and exception. -/
def prepareFrame (exceptionType : UInt16) (crossings id : UInt8) : Frame :=
  ⟨⟨0,0,0,0,0,0⟩,⟨0,0,0,0,0,0⟩,⟨1,exceptionType,0,0,crossings,0,16⟩,
    [1,1,3,0, id,0,0,0, 1,0,0,0,1,0,0,0]⟩

def prepareArrival (id : UInt8) : Arrival := ⟨(prepareFrame 0 0 id).bytes,0,0,fun _ => 0⟩

/-- A log of one instance is full when the second one is prepared. -/
theorem second_instance_escalated :
    (((init {} 1 1 1).step (prepareArrival 1)).handlePacket (prepareArrival 2)).engine =
        (init {} 1 1 1).step (prepareArrival 1) ∧
      prepareFrame 2 1 2 = { prepareFrame 0 0 2 with
        hdr := { (prepareFrame 0 0 2).hdr with
          exceptionType := 2, numTierCrossings := 1, tierPath := 0 } } :=
  escalation_without_effect
    (Frame.ofBytes_bytes _) rfl (by decide +kernel) (by decide +kernel) (by decide)

end SimBricks.Escalation
