import SimBricks.Dpu.DpuDevice
import SimBricks.Switch.PrimitiveEngine

/-!
# Switch and DPU together

The DPU is attached to the fallback port of the switch. Packets between the
two are in flight until they are delivered, in any order; clients send what
they like on the other ports, and what leaves through those ports is gone.
`bounces` counts how often the switch has sent a packet back up that came
down to it; an answer is a packet of its own.
-/

set_option autoImplicit false

namespace SimBricks.Tiers
open Library Library.Run Library.Bytes HcopProto PrimitiveEngine List
open DpuDevice (Device DpuConfig ProcessingEvent Receipt Reply)

def forward (numPorts : ℕ) (dst : ℤ) : List ℕ :=
  if 0 ≤ dst ∧ dst < numPorts then [dst.toNat] else []

def egress (numPorts : ℕ) (cfg : SwitchConfig) (ingressPort : ℤ) (d : RoutingDecision) : List ℕ :=
  match d.action with
  | .kDrop => []
  | .kToFallback =>
    if 0 ≤ cfg.fallbackPortIndex then forward numPorts cfg.fallbackPortIndex else []
  | .kUnicast => (d.dstPorts.head?.map (forward numPorts)).getD []
  | .kMulticast =>
    if d.dstPorts = [] then (range numPorts).filter (· ≠ ingressPort.toNat)
    else d.dstPorts.flatMap (forward numPorts)
  | .kBroadcastAll => range numPorts

structure Flight where
  pkt : List UInt8
  bounces : ℕ
  deriving DecidableEq

structure System where
  switch : Engine
  numPorts : ℕ
  dpu : Device
  /-- From the switch to the DPU. -/
  up : List Flight
  /-- From the DPU to the switch. -/
  down : List Flight
  /-- Beside the pending events of the DPU. -/
  waiting : List ℕ

namespace System

def dpuPort (s : System) : ℤ := s.switch.cfg.fallbackPortIndex

def switchIn (s : System) (a : Arrival) (bounces : ℕ) : System :=
  let r := s.switch.handlePacket a
  let copies := (egress s.numPorts s.switch.cfg a.ingressPort r.decision).filter
    (fun p => (p : ℤ) = s.dpuPort)
  { s with
    switch := r.engine
    up := s.up ++ copies.map fun _ =>
      ⟨r.pkt,if r.decision.action = .kToFallback then bounces else 0⟩ }

def dpuIn (s : System) (x : Flight) : System :=
  let (d,sent) := s.dpu.ethRx 0 x.pkt
  { s with
    dpu := d
    down := s.down ++ sent.map fun f => ⟨f.bytes,x.bounces⟩
    waiting :=
      match s.dpu.receive 0 x.pkt with
      | .queued _ _ => s.waiting++[x.bounces]
      | _ => s.waiting }

def dpuTimed (s : System) (ev : ProcessingEvent) (bounces : ℕ) (beyond : Memory) : System :=
  let (d,r) := s.dpu.timed ev beyond
  { s with
    dpu := d
    down := s.down ++
      match r with
      | .escalated f => [⟨f.bytes,bounces⟩]
      | .responses fs => fs.map fun f => ⟨f.bytes,0⟩ }

end System

inductive Event where
  | client (a : Arrival)
  | fromDpu (i : ℕ) (nowNs : UInt64) (beyond : Memory)
  | toDpu (i : ℕ)
  | timed (i : ℕ) (beyond : Memory)

def System.step (s : System) : Event → System
  | .client a => if a.ingressPort = s.dpuPort then s else s.switchIn a 0
  | .fromDpu i nowNs beyond =>
    match s.down[i]? with
    | none => s
    | some x =>
      { s with down := s.down.eraseIdx i }.switchIn ⟨x.pkt,s.dpuPort,nowNs,beyond⟩ (x.bounces+1)
  | .toDpu i =>
    match s.up[i]? with
    | none => s
    | some x => { s with up := s.up.eraseIdx i }.dpuIn x
  | .timed i beyond =>
    match s.dpu.pending[i]? with
    | none => s
    | some ev =>
      { s with
        dpu := { s.dpu with pending := s.dpu.pending.eraseIdx i }
        waiting := s.waiting.eraseIdx i }.dpuTimed ev (s.waiting.getD i 0) beyond

def System.init (cfg : SwitchConfig) (paxosCapacity lockCapacity barrierCapacity : UInt64)
    (numPorts : ℕ) (dpu : DpuConfig) : System where
  switch := PrimitiveEngine.init cfg paxosCapacity lockCapacity barrierCapacity
  numPorts
  dpu := .new dpu
  up := []
  down := []
  waiting := []

/-! ## What a step is -/

def System.arrival (s : System) : Event → Option Arrival
  | .client a => if a.ingressPort = s.dpuPort then none else some a
  | .fromDpu i nowNs beyond => s.down[i]?.map fun x => ⟨x.pkt,s.dpuPort,nowNs,beyond⟩
  | .toDpu _ | .timed _ _ => none

def System.fired (s : System) : Event → Option (ProcessingEvent × Memory)
  | .timed i beyond => s.dpu.pending[i]?.map fun e => (e,beyond)
  | .client _ | .fromDpu _ _ _ | .toDpu _ => none

/-- A step does nothing, or the switch handles a packet, or the DPU receives
one, or the DPU finishes one. -/
inductive Moved (s : System) (ev : Event) (t : System) : Prop where
  | idle (ha : s.arrival ev = none) (hf : s.fired ev = none) (h : t = s)
  | handled (a : Arrival) (n : ℕ) (down : List Flight)
      (hev : s.arrival ev = some a) (hf : s.fired ev = none)
      (hfrom : ev = .client a ∨ ∃ x ∈ s.down, x.pkt = a.pkt) (hd : ∀ x ∈ down, x ∈ s.down)
      (h : t = { s with down }.switchIn a n)
  | received (x : Flight) (up : List Flight) (ha : s.arrival ev = none) (hf : s.fired ev = none)
      (hx : x ∈ s.up) (hu : ∀ y ∈ up, y ∈ s.up) (h : t = { s with up }.dpuIn x)
  | finished (e : ProcessingEvent) (beyond : Memory) (n : ℕ) (pending : List ProcessingEvent)
      (waiting : List ℕ) (ha : s.arrival ev = none) (hf : s.fired ev = some (e,beyond))
      (he : e ∈ s.dpu.pending) (hp : ∀ d ∈ pending, d ∈ s.dpu.pending)
      (h : t = { s with dpu := { s.dpu with pending }, waiting }.dpuTimed e n beyond)

lemma step_moved (s : System) (ev : Event) : Moved s ev (s.step ev) := by
  cases ev with
  | client a =>
    by_cases hp : a.ingressPort = s.dpuPort
    · exact .idle (if_pos hp) rfl (if_pos hp)
    · exact .handled a 0 s.down (if_neg hp) rfl (.inl rfl) (fun _ h => h) (if_neg hp)
  | fromDpu i now beyond =>
    cases hx : s.down[i]? with
    | none => exact .idle (by simp [System.arrival, hx]) rfl (by simp [System.step, hx])
    | some x =>
      exact .handled ⟨x.pkt,s.dpuPort,now,beyond⟩ (x.bounces+1) (s.down.eraseIdx i)
        (by simp [System.arrival, hx]) rfl
        (.inr ⟨x,mem_of_getElem? hx,rfl⟩) (fun _ h => mem_of_mem_eraseIdx h)
        (by simp [System.step, hx])
  | toDpu i =>
    cases hx : s.up[i]? with
    | none => exact .idle rfl rfl (by simp [System.step, hx])
    | some x =>
      exact .received x (s.up.eraseIdx i) rfl rfl (mem_of_getElem? hx)
        (fun _ h => mem_of_mem_eraseIdx h) (by simp [System.step, hx])
  | timed i beyond =>
    cases hx : s.dpu.pending[i]? with
    | none => exact .idle rfl (by simp [System.fired, hx]) (by simp [System.step, hx])
    | some e =>
      exact .finished e beyond (s.waiting.getD i 0) (s.dpu.pending.eraseIdx i)
        (s.waiting.eraseIdx i) rfl (by simp [System.fired, hx]) (mem_of_getElem? hx)
        (fun _ h => mem_of_mem_eraseIdx h) (by simp [System.step, hx])

end SimBricks.Tiers
