import SimBricks.Hcop.PaxosPassive
import SimBricks.Tiers.System

/-!
# Packets that go round between switch and DPU

The switch sends a packet of the DPU back to it exactly if the packet is no
answer and either carries an exception or is refused by the state machine of
its primitive. Runs without such a packet have no forwarding loop; with one
core busy a packet can go round for ever.
-/

set_option autoImplicit false

namespace SimBricks.Tiers
open Library Library.Run Library.Table Library.Bytes HcopProto PrimitiveEngine List
open DpuDevice (Device DpuConfig ProcessingEvent ArmCorePool)
open PaxosState (needsInstance handle_overflow_iff)

/-! ## One packet -/

def PaxosRefused (e : Engine) (f : Frame) (beyond : Memory) : Prop :=
  ∃ m ∈ PaxosProto.parse (view f.payload beyond) f.payload.length, needsInstance m ∧
    Closed e.paxos.maxInstances.toNat e.paxos.instances.keys m.hdr.instanceId

/-- An ACQUIRE of a key that is held or does not fit, or anything of type
RELEASE that does not wake a waiter. -/
def LockRefused (e : Engine) (f : Frame) (beyond : Memory) : Prop :=
  (∃ hdr lease, LockProto.parse (view f.payload beyond) f.payload.length =
      some (.acquire hdr lease) ∧
    (e.locks.Contended hdr.lockKey hdr.requesterId ∨ ¬ e.locks.CanTrack hdr.lockKey)) ∨
  (view f.payload beyond 0 = 3 ∧
    ∀ hdr, LockProto.parse (view f.payload beyond) f.payload.length = some (.release hdr) →
      ¬ e.locks.Wakes hdr.lockKey hdr.requesterId)

def BarrierRefused (e : Engine) (f : Frame) (beyond : Memory) : Prop :=
  ∃ hdr ∈ BarrierProto.parse (view f.payload beyond) f.payload.length,
    e.barriers.Late hdr.barrierId hdr.generation ∨
    Closed e.barriers.maxBarriers.toNat e.barriers.barriers.keys hdr.barrierId

def Refused (e : Engine) (f : Frame) (beyond : Memory) : Prop :=
  match Primitive.ofCode f.hdr.primitiveType with
  | some .paxos => PaxosRefused e f beyond
  | some .lock => LockRefused e f beyond
  | some .barrier => BarrierRefused e f beyond
  | none => False

/-- A packet of the DPU the switch does not take for an answer, and that has
an exception or is refused. -/
def SentBack (e : Engine) (f : Frame) (beyond : Memory) : Prop :=
  isResponse f beyond = false ∧ (f.hdr.exceptionType ≠ 0 ∨ Refused e f beyond)

lemma paxosRefused_iff (e : Engine) (f : Frame) (beyond : Memory) :
    (paxosOutcome e f beyond).status = .kInstanceOverflow ↔ PaxosRefused e f beyond := by
  unfold paxosOutcome PaxosState.PaxosNode.handleMessage PaxosRefused
  cases PaxosProto.parse (view f.payload beyond) f.payload.length with
  | none => simp
  | some m => simpa using handle_overflow_iff e.paxos m

lemma lockRefused_iff (e : Engine) (f : Frame) (beyond : Memory) (nowNs : UInt64)
    (h : 0 ≤ e.cfg.fallbackPortIndex) :
    ((lockOutcome e f beyond nowNs).status = .kContention ∨
      (lockOutcome e f beyond nowNs).status = .kKeyOverflow ∨
      ((lockOutcome e f beyond nowNs).out = [] ∧ view f.payload beyond 0 = 3 ∧
        0 ≤ e.cfg.fallbackPortIndex)) ↔ LockRefused e f beyond := by
  unfold lockOutcome LockState.LockManager.handleMessage LockRefused
  cases hp : LockProto.parse (view f.payload beyond) f.payload.length with
  | none => simp [h]
  | some =>
    rcases (LockProto.parse_cases hp).2 with ⟨h0,lease,rfl⟩ | ⟨h0,rfl⟩
    · have hc := e.locks.acquire_contention_iff (LockProto.headerAt (view f.payload beyond)).lockKey
        (LockProto.headerAt (view f.payload beyond)).requesterId lease nowNs
      have hk := e.locks.acquire_overflow_iff (LockProto.headerAt (view f.payload beyond)).lockKey
        (LockProto.headerAt (view f.payload beyond)).requesterId lease nowNs
      simp [LockState.LockManager.handle, h0, hc, hk]
    · have hq := e.locks.release_quiet_iff (LockProto.headerAt (view f.payload beyond)).lockKey
        (LockProto.headerAt (view f.payload beyond)).requesterId nowNs
      have hst := e.locks.release_status (LockProto.headerAt (view f.payload beyond)).lockKey
        (LockProto.headerAt (view f.payload beyond)).requesterId nowNs
      rcases hst with hst | hst <;> simp [LockState.LockManager.handle, h0, hq, hst, h]

lemma barrierRefused_iff (e : Engine) (f : Frame) (beyond : Memory) :
    ((barrierOutcome e f beyond).status = .kLateArrival ∨
      (barrierOutcome e f beyond).status = .kLayoutOverflow) ↔ BarrierRefused e f beyond := by
  unfold barrierOutcome BarrierState.BarrierManager.handleMessage BarrierRefused
  cases BarrierProto.parse (view f.payload beyond) f.payload.length with
  | none => simp
  | some hdr =>
    simpa using e.barriers.arrive_exception_iff hdr.barrierId hdr.generation hdr.senderId

lemma process_toFallback (e : Engine) (p : Primitive) (f : Frame) (beyond : Memory)
    (nowNs : UInt64) (hp : Primitive.ofCode f.hdr.primitiveType = some p)
    (h0 : f.hdr.exceptionType = 0) (h : 0 ≤ e.cfg.fallbackPortIndex) :
    (e.process p f beyond nowNs).decision.action = .kToFallback ↔ Refused e f beyond := by
  unfold Refused
  rw [hp]
  cases p with
  | paxos => exact (handlePaxos_toFallback e f beyond h0).trans (paxosRefused_iff e f beyond)
  | lock =>
    exact (handleLock_toFallback e f beyond nowNs h0).trans (lockRefused_iff e f beyond nowNs h)
  | barrier => exact (handleBarrier_toFallback e f beyond h0).trans (barrierRefused_iff e f beyond)

lemma toFallback_iff {e : Engine} {a : Arrival} (hmode : e.cfg.placementMode = .kProcessAndForward)
    (h : 0 ≤ e.cfg.fallbackPortIndex) (hin : a.ingressPort = e.cfg.fallbackPortIndex) :
    (e.handlePacket a).decision.action = .kToFallback ↔ ∃ f ∈ Frame.ofBytes a.pkt,
    SentBack e f a.beyond := by
  cases hf : Frame.ofBytes a.pkt with
  | none => simpa using (handlePacket_other hf).2.2
  | some f =>
    have hresp : isResponse (f.appendPath kTierSwitch) a.beyond = isResponse f a.beyond := rfl
    have hexc : (f.appendPath kTierSwitch).hdr.exceptionType = f.hdr.exceptionType := rfl
    have hprim : (f.appendPath kTierSwitch).hdr.primitiveType = f.hdr.primitiveType := rfl
    simp only [Option.mem_def, Option.some.injEq, exists_eq_left', SentBack,
      handlePacket_frame hf, Engine.handleFrame, route, hmode, reduceCtorEq, if_false, h, hin,
      true_and, hresp, hexc, hprim]
    by_cases hr : isResponse f a.beyond
    · simp [hr]
    · by_cases h0 : f.hdr.exceptionType = 0
      · cases hp : Primitive.ofCode f.hdr.primitiveType with
        | none => simp [hr, h0, Refused, hp]
        | some p =>
          have hproc := process_toFallback e p (f.appendPath kTierSwitch) a.beyond a.nowNs hp h0 h
          have hsame : Refused e (f.appendPath kTierSwitch) a.beyond = Refused e f a.beyond := rfl
          rw [hsame] at hproc
          simpa [hr, h0] using hproc
      · simp [hr, h0]

/-! ## Whole runs -/

/-- The switch is handed a packet of the DPU that it will send back. -/
def BouncesAt (s : System) : Event → Prop
  | .fromDpu i _ beyond =>
    ∃ x ∈ s.down[i]?, ∃ f ∈ Frame.ofBytes x.pkt, SentBack s.switch f beyond
  | _ => False

structure Straight (s : System) : Prop where
  up : ∀ x ∈ s.up, x.bounces = 0
  down : ∀ x ∈ s.down, x.bounces = 0
  waiting : ∀ n ∈ s.waiting, n = 0

structure Attached (s : System) : Prop where
  mode : s.switch.cfg.placementMode = .kProcessAndForward
  port : 0 ≤ s.dpuPort ∧ s.dpuPort < s.numPorts

lemma Attached.step {s : System} (h : Attached s) (ev : Event) : Attached (s.step ev) := by
  have hcfg : (s.step ev).switch.cfg = s.switch.cfg ∧ (s.step ev).numPorts = s.numPorts := by
    cases step_moved s ev with
    | idle _ _ ht =>
      rw [ht]
      exact ⟨rfl,rfl⟩
    | handled a n down _ _ _ _ ht =>
      rw [ht]
      exact ⟨step_cfg s.switch a,rfl⟩
    | received x up _ _ _ _ ht | finished e beyond n pending waiting _ _ _ _ ht =>
      rw [ht]
      exact ⟨rfl,rfl⟩
  refine ⟨?_,?_⟩
  · rw [hcfg.1]
    exact h.mode
  · rw [System.dpuPort, hcfg.1, hcfg.2]
    exact h.port

section
variable {s : System}

lemma Attached.egress_fallback (h : Attached s) (ingressPort : ℤ) (ports : List ℤ) :
    (egress s.numPorts s.switch.cfg ingressPort ⟨.kToFallback,ports⟩).filter
    (fun p => (p : ℤ) = s.dpuPort) = [s.dpuPort.toNat] := by
  have hport := h.port
  have hnat : (s.dpuPort.toNat : ℤ) = s.dpuPort := Int.toNat_of_nonneg hport.1
  rw [System.dpuPort] at hport hnat ⊢
  simp [egress, forward, hport, hnat]

lemma switchIn_straight (hs : Straight s) (h : Attached s) (a : Arrival) (n : ℕ) :
    Straight (s.switchIn a n) ↔
    ((s.switch.handlePacket a).decision.action = .kToFallback → n = 0) := by
  constructor
  · intro hn hact
    have hd : (s.switch.handlePacket a).decision =
        ⟨.kToFallback,(s.switch.handlePacket a).decision.dstPorts⟩ := by rw [← hact]
    have hmem : (⟨(s.switch.handlePacket a).pkt,n⟩ : Flight) ∈ (s.switchIn a n).up := by
      unfold System.switchIn
      dsimp only
      rw [hd, h.egress_fallback]
      simp
    exact hn.up _ hmem
  · intro hn
    refine ⟨?_,hs.down,hs.waiting⟩
    intro x hx
    rcases mem_append.mp hx with hx | hx
    · exact hs.up x hx
    · obtain ⟨p,-,rfl⟩ := mem_map.mp hx
      by_cases hact : (s.switch.handlePacket a).decision.action = .kToFallback
      · rw [if_pos hact]
        exact hn hact
      · rw [if_neg hact]

lemma dpuIn_straight (hs : Straight s) (x : Flight) (hx : x.bounces = 0) :
    Straight (s.dpuIn x) := by
  refine ⟨hs.up,?_,?_⟩
  · intro y hy
    rcases mem_append.mp hy with hy | hy
    · exact hs.down y hy
    · obtain ⟨f,-,rfl⟩ := mem_map.mp hy
      exact hx
  · unfold System.dpuIn
    cases s.dpu.receive 0 x.pkt with
    | queued =>
      intro n hn
      rcases mem_append.mp hn with hn | hn
      · exact hs.waiting n hn
      · rw [mem_singleton.mp hn]
        exact hx
    | dropped | escalated f => exact hs.waiting

lemma dpuTimed_straight (hs : Straight s) (ev : ProcessingEvent) (beyond : Memory) :
    Straight (s.dpuTimed ev 0 beyond) := by
  refine ⟨hs.up,?_,hs.waiting⟩
  unfold System.dpuTimed
  intro y hy
  rcases mem_append.mp hy with hy | hy
  · exact hs.down y hy
  · cases hr : (s.dpu.timed ev beyond).2 with
    | escalated =>
      rw [hr] at hy
      rw [mem_singleton.mp hy]
    | responses =>
      rw [hr] at hy
      obtain ⟨f,-,rfl⟩ := mem_map.mp hy
      rfl

lemma step_straight (h : Attached s) (hs : Straight s) (ev : Event) :
    Straight (s.step ev) ↔ ¬ BouncesAt s ev := by
  cases ev with
  | client a =>
    simp only [System.step, BouncesAt, not_false_iff, iff_true]
    split_ifs
    · exact hs
    · exact (switchIn_straight hs h a 0).mpr fun _ => rfl
  | fromDpu i now beyond =>
    simp only [System.step, BouncesAt]
    cases hx : s.down[i]? with
    | none => simpa using hs
    | some x =>
      have hs' : Straight { s with down := s.down.eraseIdx i } :=
        ⟨hs.up,fun y hy => hs.down y (mem_of_mem_eraseIdx hy),hs.waiting⟩
      have hup := toFallback_iff (a := ⟨x.pkt,s.dpuPort,now,beyond⟩) h.mode h.port.1 rfl
      refine (switchIn_straight hs' ⟨h.mode,h.port⟩ _ _).trans ?_
      simpa using not_congr hup
  | toDpu i =>
    simp only [System.step, BouncesAt, not_false_iff, iff_true]
    cases hx : s.up[i]? with
    | none => exact hs
    | some x =>
      have hs' : Straight { s with up := s.up.eraseIdx i } :=
        ⟨fun y hy => hs.up y (mem_of_mem_eraseIdx hy),hs.down,hs.waiting⟩
      exact dpuIn_straight hs' x (hs.up x (mem_of_getElem? hx))
  | timed i beyond =>
    simp only [System.step, BouncesAt, not_false_iff, iff_true]
    cases s.dpu.pending[i]? with
    | none => exact hs
    | some ev =>
      have hs' : Straight { s with
          dpu := { s.dpu with pending := s.dpu.pending.eraseIdx i }
          waiting := s.waiting.eraseIdx i } :=
        ⟨hs.up,hs.down,fun n hn => hs.waiting n (mem_of_mem_eraseIdx hn)⟩
      have hi : s.waiting.getD i 0 = 0 := by
        rw [getD_eq_getElem?_getD]
        cases hw : s.waiting[i]? with
        | none => rfl
        | some n => exact hs.waiting n (mem_of_getElem? hw)
      rw [hi]
      exact dpuTimed_straight hs' ev beyond

end

/-- The engine returns `kToFallback` for a packet of the fallback port exactly
if the packet is `SentBack`; and a run of switch and DPU sends no packet back
to the DPU exactly if none of those the switch is handed is one. -/
theorem no_loop_iff (cfg : SwitchConfig) (paxosCap lockCap barrierCap : UInt64) (numPorts : ℕ)
    (dpu : DpuConfig) (hmode : cfg.placementMode = .kProcessAndForward)
    (hport : 0 ≤ cfg.fallbackPortIndex ∧ cfg.fallbackPortIndex < numPorts) :
    (∀ (e : Engine) (a : Arrival), e.cfg = cfg → a.ingressPort = cfg.fallbackPortIndex →
      ((e.handlePacket a).decision.action = .kToFallback ↔
        ∃ f ∈ Frame.ofBytes a.pkt, SentBack e f a.beyond)) ∧
    ∀ es : List Event,
      (∀ earlier later, es = earlier++later →
        Straight (run System.step
          (.init cfg paxosCap lockCap barrierCap numPorts dpu) earlier)) ↔
      Along System.step (fun s ev => ¬ BouncesAt s ev)
        (.init cfg paxosCap lockCap barrierCap numPorts dpu) es := by
  constructor
  · rintro e a rfl hin
    exact toFallback_iff hmode hport.1 hin
  · intro es
    have hatt : Attached (.init cfg paxosCap lockCap barrierCap numPorts dpu) := ⟨hmode,hport⟩
    have hstr : Straight (.init cfg paxosCap lockCap barrierCap numPorts dpu) :=
      ⟨by simp [System.init],by simp [System.init],by simp [System.init]⟩
    exact always_iff_along
      (I := Attached) (fun s ev _ h => h.step ev)
      (fun s ev _ h hs => step_straight h hs ev) hatt hstr es (fun _ _ => trivial)

/-! ## A packet that never comes to rest -/

def loopConfig : SwitchConfig := { fallbackPortIndex := 0 }

def oneCore : DpuConfig := { armCores := 1 }

def releaseFrame : Frame := .request .lock (LockProto.Msg.release ⟨1,7⟩).serialize

def releaseArrival : Arrival := ⟨releaseFrame.bytes,1,0,fun _ => 0⟩

def releaseEvent : ProcessingEvent where
  coreId := 0
  primitive := .lock
  ctx := ⟨0,0,kTierHost⟩
  frame := (releaseFrame.appendPath kTierSwitch).appendPath kTierDpu

def pool (active : UInt32) (inUse : UInt64) : ArmCorePool := ⟨1,active,inUse,by decide⟩

lemma pool_acquire : (pool 0 0).tryAcquire = some (0,pool 1 1) := by decide +kernel

lemma pool_release : (pool 1 1).release 0 = pool 0 0 := by decide +kernel

def loopDevice (p : ArmCorePool) (pending : List ProcessingEvent)
    (processed escalated queued : UInt64) : Device :=
  { Device.new oneCore with
    corePool := p
    pktsProcessed := processed
    pktsEscalated := escalated
    pktsQueued := queued
    pending }

def loopSystem (dpu : Device) (up down : List Flight) (waiting : List ℕ) : System where
  switch := PrimitiveEngine.init loopConfig 1 1 1
  numPorts := 2
  dpu
  up
  down
  waiting

lemma client_release (dpu : Device) (up down : List Flight) (waiting : List ℕ) :
    (loopSystem dpu up down waiting).step (.client releaseArrival) = loopSystem dpu
    (up++[⟨(releaseFrame.appendPath kTierSwitch).bytes,0⟩]) down waiting := by
  have h : (PrimitiveEngine.init loopConfig 1 1 1).handlePacket releaseArrival =
      ⟨PrimitiveEngine.init loopConfig 1 1 1,⟨.kToFallback,[]⟩,
        (releaseFrame.appendPath kTierSwitch).bytes⟩ := by
    rw [handlePacket_frame (Frame.ofBytes_bytes releaseFrame)]
    rfl
  have hstep : (loopSystem dpu up down waiting).step (.client releaseArrival) =
      (loopSystem dpu up down waiting).switchIn releaseArrival 0 := rfl
  rw [hstep, System.switchIn]
  simp only [loopSystem, h]
  rfl

/-- A lock packet with an exception comes down and goes straight up again. -/
lemma loop_down {f : Frame} (hp : f.hdr.primitiveType = 2) (hx : f.hdr.exceptionType ≠ 0)
    (hpay : f.payload = releaseFrame.payload) (dpu : Device) (n : ℕ) (waiting : List ℕ) :
    (loopSystem dpu [] [⟨f.bytes,n⟩] waiting).step (.fromDpu 0 0 fun _ => 0) = loopSystem dpu
    [⟨(f.appendPath kTierSwitch).bytes,n+1⟩] [] waiting := by
  have h : (PrimitiveEngine.init loopConfig 1 1 1).handlePacket ⟨f.bytes,0,0,fun _ => 0⟩ =
      ⟨PrimitiveEngine.init loopConfig 1 1 1,⟨.kToFallback,[]⟩,
        (f.appendPath kTierSwitch).bytes⟩ := by
    have hr : isResponse (f.appendPath kTierSwitch) (fun _ => 0) = false := by
      simp only [isResponse, Frame.appendPath, HcopHeader.appendPath, hp, hpay]
      rfl
    rw [handlePacket_frame (Frame.ofBytes_bytes f)]
    simp only [Engine.handleFrame, route, PrimitiveEngine.init, loopConfig, hr]
    simp [Frame.appendPath, HcopHeader.appendPath, hx]
  have hstep : (loopSystem dpu [] [⟨f.bytes,n⟩] waiting).step (.fromDpu 0 0 fun _ => 0) =
      (loopSystem dpu [] [] waiting).switchIn ⟨f.bytes,0,0,fun _ => 0⟩ (n+1) := rfl
  rw [hstep, System.switchIn]
  simp only [loopSystem, h]
  rfl

/-- A lock packet finds the core busy and comes down as exhausted. -/
lemma loop_up {f : Frame} (hp : f.hdr.primitiveType = 2) (n : ℕ) (pending : List ProcessingEvent)
    (a b c : UInt64) (waiting : List ℕ) :
    (loopSystem (loopDevice (pool 1 1) pending a b c) [⟨f.bytes,n⟩] [] waiting).step (.toDpu 0) =
    loopSystem (loopDevice (pool 1 1) pending a (b+1) c) []
    [⟨((f.withException kDpuCoreExhausted).appendPath kTierDpu).bytes,n⟩] waiting := by
  have h : (loopDevice (pool 1 1) pending a b c).receive 0 f.bytes =
      .escalated ((f.withException kDpuCoreExhausted).appendPath kTierDpu) := by
    simp only [Device.receive, Frame.ofBytes_bytes, hp]
    rfl
  have hstep : (loopSystem (loopDevice (pool 1 1) pending a b c) [⟨f.bytes,n⟩] [] waiting).step
      (.toDpu 0) =
      (loopSystem (loopDevice (pool 1 1) pending a b c) [] [] waiting).dpuIn ⟨f.bytes,n⟩ := rfl
  rw [hstep, System.dpuIn]
  simp only [loopSystem, Device.ethRx, h]
  rfl

/-- The event fires, finds nothing to release and frees the core. -/
lemma loop_timed (up : List Flight) (a b c : UInt64) :
    (loopSystem (loopDevice (pool 1 1) [releaseEvent] a b c) up [] [0]).step (.timed 0 fun _ => 0) =
    loopSystem (loopDevice (pool 0 0) [] (a+1) b (if 0 < c then c-1 else c)) up [] [] := by
  have h : (loopDevice (pool 1 1) [] a b c).timed releaseEvent (fun _ => 0) =
      (loopDevice (pool 0 0) [] (a+1) (b+0) (if 0 < c then c-1 else c),.responses []) := by
    rw [← pool_release]
    rfl
  have hstep : (loopSystem (loopDevice (pool 1 1) [releaseEvent] a b c) up [] [0]).step
      (.timed 0 fun _ => 0) =
      (loopSystem (loopDevice (pool 1 1) [] a b c) up [] []).dpuTimed releaseEvent 0 fun _ => 0 :=
    rfl
  rw [hstep, System.dpuTimed]
  simp only [loopSystem, h]
  simp

/-- The client's next packet takes the core. -/
lemma loop_takes (x : Flight) (a b c : UInt64) :
    (loopSystem (loopDevice (pool 0 0) [] a b c)
        [x,⟨(releaseFrame.appendPath kTierSwitch).bytes,0⟩] [] []).step (.toDpu 1) =
      loopSystem (loopDevice (pool 1 1) [releaseEvent] a b (c+1)) [x] [] [0] := by
  have h : (loopDevice (pool 0 0) [] a b c).receive 0
      (releaseFrame.appendPath kTierSwitch).bytes = .queued (pool 1 1) releaseEvent := by
    simp only [Device.receive, Frame.ofBytes_bytes, loopDevice, pool_acquire]
    rfl
  have hstep : (loopSystem (loopDevice (pool 0 0) [] a b c)
      [x,⟨(releaseFrame.appendPath kTierSwitch).bytes,0⟩] [] []).step (.toDpu 1) =
      (loopSystem (loopDevice (pool 0 0) [] a b c) [x] [] []).dpuIn
        ⟨(releaseFrame.appendPath kTierSwitch).bytes,0⟩ := rfl
  rw [hstep, System.dpuIn]
  simp only [loopSystem, Device.ethRx, h]
  rfl

/-- A single release goes up, is processed and leaves nothing between the tiers. -/
theorem no_loop_released :
    (((PrimitiveEngine.init loopConfig 1 1 1).handlePacket
        ⟨releaseFrame.bytes,0,0,fun _ => 0⟩).decision.action = .kToFallback ↔
      ∃ f ∈ Frame.ofBytes releaseFrame.bytes,
        SentBack (PrimitiveEngine.init loopConfig 1 1 1) f fun _ => 0) ∧
    Straight (run System.step (.init loopConfig 1 1 1 2 oneCore)
      [.client releaseArrival,.toDpu 0,.timed 0 fun _ => 0]) := by
  have h := no_loop_iff loopConfig 1 1 1 2 oneCore rfl (by decide)
  exact ⟨h.1 _ ⟨releaseFrame.bytes,0,0,fun _ => 0⟩ rfl rfl,
    (h.2 [.client releaseArrival,.toDpu 0,.timed 0 fun _ => 0]).mpr ⟨id,id,id,trivial⟩ _ [] rfl⟩

/-- Once round: the packet goes up, the core is freed and taken again, and the
packet comes down. -/
def lap : List Event :=
  [.fromDpu 0 0 fun _ => 0,.timed 0 fun _ => 0,.client releaseArrival,.toDpu 1,.toDpu 0]

/-- A packet that has gone round `n` times, with the core busy. -/
def Circling (n : ℕ) (s : System) : Prop :=
  ∃ f : Frame, f.hdr.primitiveType = 2 ∧ f.hdr.exceptionType ≠ 0 ∧
    f.payload = releaseFrame.payload ∧ ∃ a b c, s =
      loopSystem (loopDevice (pool 1 1) [releaseEvent] a b c) [] [⟨f.bytes,n⟩] [0]

lemma circling_lap {n : ℕ} {s : System} (h : Circling n s) :
    Circling (n+1) (run System.step s lap) := by
  obtain ⟨f,hp,hx,hpay,a,b,c,rfl⟩ := h
  have hp' : (f.appendPath kTierSwitch).hdr.primitiveType = 2 := hp
  refine ⟨((f.appendPath kTierSwitch).withException kDpuCoreExhausted).appendPath kTierDpu,
    hp,show kDpuCoreExhausted ≠ 0 by decide,hpay,a+1,b+1,(if 0 < c then c-1 else c)+1,?_⟩
  simp only [lap, run_cons, run_nil]
  rw [loop_down hp hx hpay, loop_timed, client_release, singleton_append, loop_takes, loop_up hp']

lemma circling_laps (n : ℕ) :
    ∃ es, Circling n (run System.step (.init loopConfig 1 1 1 2 oneCore) es) := by
  induction n with
  | zero =>
    have h0 : System.init loopConfig 1 1 1 2 oneCore =
        loopSystem (loopDevice (pool 0 0) [] 0 0 0) [] [] [] := rfl
    refine ⟨[.client releaseArrival,.client releaseArrival,.toDpu 1,.toDpu 0],?_⟩
    refine ⟨((releaseFrame.appendPath kTierSwitch).withException kDpuCoreExhausted).appendPath
      kTierDpu,rfl,by decide,rfl,0,0+1,0+1,?_⟩
    rw [h0]
    simp only [run_cons, run_nil]
    rw [client_release, client_release, nil_append, singleton_append, loop_takes, loop_up rfl]
  | succ n ih =>
    obtain ⟨es,h⟩ := ih
    refine ⟨es++lap,?_⟩
    rw [run_append]
    exact circling_lap h

/-- The switch sends up a packet it received from the fallback port, and a
packet of a client goes round any number of times. -/
theorem packet_circles :
    ((PrimitiveEngine.init loopConfig 1 1 1).handlePacket
      ⟨(releaseFrame.withException kDpuCoreExhausted).bytes,0,0,fun _ => 0⟩).decision.action =
        .kToFallback ∧
    ∀ n, ∃ es, ∃ x ∈ (run System.step (.init loopConfig 1 1 1 2 oneCore) es).down,
      x.bounces = n := by
  refine ⟨by decide +kernel,fun n => ?_⟩
  obtain ⟨es,f,-,-,-,a,b,c,h⟩ := circling_laps n
  refine ⟨es,⟨f.bytes,n⟩,?_,rfl⟩
  rw [h]
  exact mem_singleton.mpr rfl

end SimBricks.Tiers
