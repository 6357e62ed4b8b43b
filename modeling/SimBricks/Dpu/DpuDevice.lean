import SimBricks.Hcop.BarrierState
import SimBricks.Hcop.HcopProto
import SimBricks.Hcop.LockState
import SimBricks.Hcop.PaxosState

/-!
# The DPU of `dpu_bm.cc`

A received frame takes a core of the pool and waits as a processing event;
when the event fires, the handler of its primitive answers it. A frame that
finds no core, or whose state machine is full, is sent back out of the same
Ethernet port. The order in which events fire is chosen by the caller; PCIe,
DRAM and sampling play no part in it.
-/

set_option autoImplicit false

namespace SimBricks.DpuDevice
open Library Library.Bytes HcopProto
open PaxosState (PaxosNode)
open LockState (LockManager)
open BarrierState (BarrierManager)

/-! ## Cores -/

structure ArmCorePool where
  capacity : UInt32
  active : UInt32
  inUse : UInt64
  valid : 0 < capacity ∧ capacity ≤ 64
  deriving DecidableEq

namespace ArmCorePool

def new (capacity : UInt32) (h : 0 < capacity ∧ capacity ≤ 64) : ArmCorePool := ⟨capacity,0,0,h⟩

def tryAcquire (p : ArmCorePool) : Option (UInt8 × ArmCorePool) :=
  if p.capacity ≤ p.active then none
  else
    match ((List.range p.capacity.toNat).map UInt8.ofNat).find? (!Bitmap.has p.inUse ·) with
    | none => none
    | some i => some (i,{ p with inUse := Bitmap.add p.inUse i, active := p.active+1 })

def release (p : ArmCorePool) (coreId : UInt8) : ArmCorePool :=
  { p with inUse := Bitmap.remove p.inUse coreId, active := p.active-1 }

end ArmCorePool

/-! ## The device -/

structure DpuConfig where
  armCores : UInt32 := 16
  nodeId : UInt8 := 0
  numReplicas : UInt16 := 3
  valid : 0 < armCores ∧ armCores ≤ 64 := by decide

structure PacketContext where
  port : UInt8
  operationId : UInt32
  sourceTier : UInt8
  deriving DecidableEq, Repr

structure ProcessingEvent where
  coreId : UInt8
  primitive : Primitive
  ctx : PacketContext
  frame : Frame
  deriving DecidableEq, Repr

structure Device where
  corePool : ArmCorePool
  paxos : PaxosNode
  locks : LockManager
  barriers : BarrierManager
  pktsProcessed : UInt64
  pktsDropped : UInt64
  pktsEscalated : UInt64
  pktsQueued : UInt64
  pending : List ProcessingEvent

def Device.new (cfg : DpuConfig) : Device where
  corePool := .new cfg.armCores cfg.valid
  paxos := .new cfg.nodeId cfg.numReplicas 1000000
  locks := .new 1000000 10000000 16
  barriers := .new 1000000 2
  pktsProcessed := 0
  pktsDropped := 0
  pktsEscalated := 0
  pktsQueued := 0
  pending := []

inductive Receipt where
  | dropped
  | escalated (f : Frame)
  | queued (pool : ArmCorePool) (ev : ProcessingEvent)

def Device.receive (d : Device) (port : UInt8) (data : List UInt8) : Receipt :=
  match Frame.ofBytes data with
  | none => .dropped
  | some f =>
    match Primitive.ofCode f.hdr.primitiveType with
    | none => .dropped
    | some p =>
      match d.corePool.tryAcquire with
      | none => .escalated ((f.withException kDpuCoreExhausted).appendPath kTierDpu)
      | some (coreId,pool) =>
        .queued pool
          { coreId
            primitive := p
            ctx := ⟨port,f.hdr.operationId,f.hdr.sourceTier⟩
            frame := f.appendPath kTierDpu }

def Device.ethRx (d : Device) (port : UInt8) (data : List UInt8) : Device × List Frame :=
  match d.receive port data with
  | .dropped => ({ d with pktsDropped := d.pktsDropped+1 },[])
  | .escalated f => ({ d with pktsEscalated := d.pktsEscalated+1 },[f])
  | .queued pool ev =>
    ({ d with corePool := pool, pktsQueued := d.pktsQueued+1, pending := d.pending++[ev] },[])

/-! ## Handlers -/

def buildFrame (p : Primitive) (ctx : PacketContext) (inFrame : Frame) (data : List UInt8) :
    Frame where
  dst := .broadcast
  src := inFrame.dst
  hdr :=
    { primitiveType := p.code
      exceptionType := 0
      operationId := ctx.operationId
      sourceTier := kTierDpu
      numTierCrossings := inFrame.hdr.numTierCrossings
      tierPath := inFrame.hdr.tierPath
      payloadLen := UInt16.ofNat data.length : HcopHeader }.appendPath kTierDpu
  payload := data

inductive Reply where
  | escalated (f : Frame)
  | responses (fs : List Frame)

section
variable (d : Device) (ev : ProcessingEvent) (beyond : Memory)

def paxosOutcome : PaxosState.Outcome :=
  d.paxos.handleMessage (view ev.frame.payload beyond) ev.frame.payload.length

/-- The handler passes zero for the current time. -/
def lockOutcome : LockState.Outcome :=
  d.locks.handleMessage (view ev.frame.payload beyond) ev.frame.payload.length 0

def barrierOutcome : BarrierState.Outcome :=
  d.barriers.handleMessage (view ev.frame.payload beyond) ev.frame.payload.length

def reply (overflow : Bool) (data : List (List UInt8)) : Reply :=
  if overflow then .escalated ev.frame
  else .responses (data.map (buildFrame ev.primitive ev.ctx ev.frame))

def handlePaxos : Device × Reply :=
  let o := paxosOutcome d ev beyond
  ({ d with paxos := o.node },
    reply ev (o.status = .kInstanceOverflow) (o.out.map PaxosState.OutMessage.data))

def handleLock : Device × Reply :=
  let o := lockOutcome d ev beyond
  ({ d with locks := o.mgr },
    reply ev (o.status = .kKeyOverflow) (o.out.map LockState.OutMessage.data))

def handleBarrier : Device × Reply :=
  let o := barrierOutcome d ev beyond
  ({ d with barriers := o.mgr },
    reply ev (o.status = .kLayoutOverflow) (o.out.map BarrierState.OutMessage.data))

def Device.handlePacket : Device × Reply :=
  match ev.primitive with
  | .paxos => handlePaxos d ev beyond
  | .lock => handleLock d ev beyond
  | .barrier => handleBarrier d ev beyond

end

def Reply.frames : Reply → List Frame
  | .escalated f => [f]
  | .responses fs => fs

section
variable (d : Device) (ev : ProcessingEvent) (beyond : Memory)

def Device.answers : List (List UInt8) :=
  match ev.primitive with
  | .paxos => (paxosOutcome d ev beyond).out.map PaxosState.OutMessage.data
  | .lock => (lockOutcome d ev beyond).out.map LockState.OutMessage.data
  | .barrier => (barrierOutcome d ev beyond).out.map BarrierState.OutMessage.data

lemma handlePacket_frames {f : Frame} (hf : f ∈ (d.handlePacket ev beyond).2.frames) :
    f = ev.frame ∨ ∃ x ∈ d.answers ev beyond, f = buildFrame ev.primitive ev.ctx ev.frame x := by
  have hreply : ∀ (overflow : Bool) (data : List (List UInt8)),
      f ∈ (reply ev overflow data).frames →
      f = ev.frame ∨ ∃ x ∈ data, f = buildFrame ev.primitive ev.ctx ev.frame x := by
    intro overflow data hf
    cases overflow with
    | true => exact .inl (List.mem_singleton.mp hf)
    | false =>
      obtain ⟨x,hx,rfl⟩ := List.mem_map.mp hf
      exact .inr ⟨x,hx,rfl⟩
  unfold Device.handlePacket at hf
  unfold Device.answers
  cases hp : ev.primitive with
  | paxos | lock | barrier =>
    rw [hp] at hf hreply
    exact hreply _ _ hf

end

def Reply.escalations : Reply → UInt64
  | .escalated _ => 1
  | .responses _ => 0

/-- `Timed` for a processing event that has left the queue: the handler runs
and the core is free again. -/
def Device.timed (d : Device) (ev : ProcessingEvent) (beyond : Memory) : Device × Reply :=
  let (d,r) := d.handlePacket ev beyond
  ({ d with
    pktsEscalated := d.pktsEscalated+r.escalations
    pktsProcessed := d.pktsProcessed+1
    pktsQueued := if 0 < d.pktsQueued then d.pktsQueued-1 else d.pktsQueued
    corePool := d.corePool.release ev.coreId },r)

/-- What one device sends another takes for that message, if it has a core. -/
theorem answer_understood (d : Device) (port : UInt8) (ctx : PacketContext) (f : Frame)
    (m : PaxosProto.Msg) (beyond : Memory) :
    match d.receive port (buildFrame .paxos ctx f m.serialize).bytes with
    | .dropped => False
    | .escalated _ => d.corePool.tryAcquire = none
    | .queued _ ev => ev.primitive = .paxos ∧ paxosOutcome d ev beyond = d.paxos.handle m := by
  rw [Device.receive, Frame.ofBytes_bytes]
  cases d.corePool.tryAcquire with
  | none => rfl
  | some => exact ⟨rfl,d.paxos.handleMessage_serialize m beyond⟩

end SimBricks.DpuDevice
