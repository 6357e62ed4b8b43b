import SimBricks.Dpu.DpuDevice
import SimBricks.Hcop.PaxosPassive
import SimBricks.Hcop.Telemetry

/-!
# The hops a DPU leaves in the tier path

The DPU adds itself to the path of a frame when it takes the frame in, and its
handlers add it to every response once more. Frames that are passed on have
one hop.
-/

set_option autoImplicit false

namespace SimBricks.TierHops
open Library Library.Bytes Library.Text HcopProto DpuDevice Telemetry List

/-- The state machine has no room for what the message asks it to track. -/
def Overflows (d : Device) (p : Primitive) (payload : List UInt8) (beyond : Memory) : Prop :=
  match p with
  | .paxos => ∃ m ∈ PaxosProto.parse (view payload beyond) payload.length,
      PaxosState.needsInstance m ∧
      Table.Closed d.paxos.maxInstances.toNat d.paxos.instances.keys m.hdr.instanceId
  | .lock => ∃ hdr lease, LockProto.parse (view payload beyond) payload.length =
      some (.acquire hdr lease) ∧ ¬ d.locks.CanTrack hdr.lockKey
  | .barrier => ∃ hdr ∈ BarrierProto.parse (view payload beyond) payload.length,
      Table.Closed d.barriers.maxBarriers.toNat d.barriers.barriers.keys hdr.barrierId

section
variable (d : Device) (ev : ProcessingEvent) (beyond : Memory)

lemma paxos_overflows_iff :
    (paxosOutcome d ev beyond).status = .kInstanceOverflow ↔
    Overflows d .paxos ev.frame.payload beyond := by
  unfold paxosOutcome PaxosState.PaxosNode.handleMessage Overflows
  cases PaxosProto.parse (view ev.frame.payload beyond) ev.frame.payload.length with
  | none => simp
  | some m => simpa using PaxosState.handle_overflow_iff d.paxos m

lemma lock_overflows_iff :
    (lockOutcome d ev beyond).status = .kKeyOverflow ↔
    Overflows d .lock ev.frame.payload beyond := by
  unfold lockOutcome LockState.LockManager.handleMessage Overflows
  cases hp : LockProto.parse (view ev.frame.payload beyond) ev.frame.payload.length with
  | none => simp
  | some =>
    rcases (LockProto.parse_cases hp).2 with ⟨h0,lease,rfl⟩ | ⟨h0,rfl⟩
    · simpa [LockState.LockManager.handle] using d.locks.acquire_overflow_iff _ _ lease 0
    · rcases d.locks.release_status (LockProto.headerAt (view ev.frame.payload beyond)).lockKey
        (LockProto.headerAt (view ev.frame.payload beyond)).requesterId 0 with hst | hst <;>
        simp [LockState.LockManager.handle, hst]

lemma barrier_overflows_iff :
    (barrierOutcome d ev beyond).status = .kLayoutOverflow ↔
    Overflows d .barrier ev.frame.payload beyond := by
  unfold barrierOutcome BarrierState.BarrierManager.handleMessage Overflows
  cases BarrierProto.parse (view ev.frame.payload beyond) ev.frame.payload.length with
  | none => simp
  | some hdr => simpa using d.barriers.arrive_overflow_iff hdr.barrierId hdr.generation hdr.senderId

lemma reply_cases {overflow : Bool} {c : Prop} (h : overflow ↔ c) (data : List (List UInt8)) :
    reply ev overflow data = .escalated ev.frame ∧ c ∨
    reply ev overflow data = .responses (data.map (buildFrame ev.primitive ev.ctx ev.frame)) ∧
    ¬ c := by
  cases overflow with
  | true => exact .inl ⟨rfl,h.mp rfl⟩
  | false => exact .inr ⟨rfl,fun hc => Bool.false_ne_true (h.mpr hc)⟩

/-- A handler passes its frame on when there is no room, and answers otherwise. -/
lemma handlePacket_reply :
    (d.handlePacket ev beyond).2 = .escalated ev.frame ∧
    Overflows d ev.primitive ev.frame.payload beyond ∨ (d.handlePacket ev beyond).2 = .responses
    ((d.answers ev beyond).map (buildFrame ev.primitive ev.ctx ev.frame)) ∧
    ¬ Overflows d ev.primitive ev.frame.payload beyond := by
  unfold Device.handlePacket Device.answers
  cases hp : ev.primitive with
  | paxos =>
    have h := reply_cases ev (decide_eq_true_iff.trans (paxos_overflows_iff d ev beyond))
      ((paxosOutcome d ev beyond).out.map PaxosState.OutMessage.data)
    rwa [hp] at h
  | lock =>
    have h := reply_cases ev (decide_eq_true_iff.trans (lock_overflows_iff d ev beyond))
      ((lockOutcome d ev beyond).out.map LockState.OutMessage.data)
    rwa [hp] at h
  | barrier =>
    have h := reply_cases ev (decide_eq_true_iff.trans (barrier_overflows_iff d ev beyond))
      ((barrierOutcome d ev beyond).out.map BarrierState.OutMessage.data)
    rwa [hp] at h

end

/-- The frames that leave the DPU for a received one: at once, or when its
event fires in a later state. -/
def traversal (d later : Device) (port : UInt8) (data : List UInt8) (beyond : Memory) :
    List Frame :=
  match d.receive port data with
  | .dropped => []
  | .escalated g => [g]
  | .queued _ ev => (later.handlePacket ev beyond).2.frames

def OneHop (f g : Frame) : Prop := g.hdr.tierPath = (f.hdr.appendPath kTierDpu).tierPath ∧
    g.hdr.numTierCrossings = (f.hdr.appendPath kTierDpu).numTierCrossings

/-- The frame is passed on, for want of a core or of room in its table. -/
def PassedOn (d later : Device) (f : Frame) (beyond : Memory) : Prop :=
  d.corePool.tryAcquire = none ∨
    ∃ p ∈ Primitive.ofCode f.hdr.primitiveType, Overflows later p f.payload beyond

lemma oneHop_iff {d later : Device} {port : UInt8} {data : List UInt8} {beyond : Memory}
    {f g : Frame} (hf : Frame.ofBytes data = some f) (hg : g ∈ traversal d later port data beyond) :
    OneHop f g ↔ PassedOn d later f beyond := by
  unfold traversal Device.receive at hg
  simp only [hf] at hg
  unfold PassedOn
  cases hp : Primitive.ofCode f.hdr.primitiveType with
  | none => simp [hp] at hg
  | some p =>
    simp only [hp] at hg
    cases hcore : d.corePool.tryAcquire with
    | none =>
      rw [hcore] at hg
      rw [mem_singleton.mp hg]
      exact iff_of_true ⟨rfl,rfl⟩ (.inl rfl)
    | some x =>
      simp only [hcore] at hg
      rcases handlePacket_reply later
          ⟨x.1,p,⟨port,f.hdr.operationId,f.hdr.sourceTier⟩,f.appendPath kTierDpu⟩ beyond with
        ⟨hr,ho⟩ | ⟨hr,ho⟩
      · rw [hr] at hg
        rw [mem_singleton.mp hg]
        exact iff_of_true ⟨rfl,rfl⟩ (.inr ⟨p,rfl,ho⟩)
      · rw [hr] at hg
        obtain ⟨_,-,rfl⟩ := mem_map.mp hg
        refine iff_of_false (fun h => ?_) ?_
        · have htwo : f.hdr.numTierCrossings+1+1 = f.hdr.numTierCrossings+1 := h.2
          simp at htwo
        · rintro (hnone | ⟨q,hq,hover⟩)
          · cases hnone
          · cases hq
            exact ho hover

/-- Which routes the decoder prints, and which traversals of the DPU add one
hop: routes of at most eight hops, or with the counter at eight; frames that
are passed on. -/
theorem telemetry_iff (tiers : List SourceTier) (d later : Device) (port : UInt8)
    (data : List UInt8) (beyond : Memory) :
    (decodeTierPath (routed tiers).tierPath (routed tiers).numTierCrossings =
        some (pathText (lastEight tiers)) ↔
      tiers.length ≤ 8 ∨ tiers.length % 256 = 8) ∧
    (∀ f g, Frame.ofBytes data = some f → g ∈ traversal d later port data beyond →
      (OneHop f g ↔ PassedOn d later f beyond)) :=
  ⟨decodes_iff tiers,fun _ _ hf hg => oneHop_iff hf hg⟩

def prepareFrame : Frame := .request .paxos (PaxosProto.Msg.prepare ⟨1,3,7⟩ ⟨1,1,0⟩).serialize

/-- The ninth hop makes the decoder shift by 32, after 256 hops it prints
"Unknown", and the response of a DPU to a fresh packet has two D hops. -/
theorem telemetry_fails :
    decodeTierPath (routed (replicate 9 .switch)).tierPath
      (routed (replicate 9 .switch)).numTierCrossings = none ∧
    decodeTierPath (routed (replicate 256 .switch)).tierPath
      (routed (replicate 256 .switch)).numTierCrossings = some (ascii "Unknown") ∧
    (traversal (Device.new {}) ((Device.new {}).ethRx 0 prepareFrame.bytes).1 0 prepareFrame.bytes
        fun _ => 0).map (fun g => (g.hdr.tierPath,g.hdr.numTierCrossings)) = [(0x11,2)] := by
  refine ⟨by decide +kernel,by decide +kernel,by decide +kernel⟩

end SimBricks.TierHops
