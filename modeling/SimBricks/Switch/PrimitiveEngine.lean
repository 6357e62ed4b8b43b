import SimBricks.Hcop.BarrierState
import SimBricks.Hcop.HcopProto
import SimBricks.Hcop.LockState
import SimBricks.Hcop.PaxosState

/-!
# The switch's fast path, `primitive_engine.cc`

A packet is classified by its header, handed to one of three state machines
and either answered in place or marked and sent to the fallback port. The
capacities of the state machines come from a floating-point page budget that
is not modelled; they are arguments of `init`. Where the engine looks at the
first payload byte of a packet without payload it reads what lies behind the
packet.
-/

set_option autoImplicit false

namespace SimBricks.PrimitiveEngine
open Library Library.Bytes HcopProto List
open PaxosState (PaxosNode PaxosStatus)
open LockState (LockManager LockStatus)
open BarrierState (BarrierManager BarrierStatus)

inductive PlacementMode where
  | kProcessAndForward | kForwardOnly
  deriving DecidableEq, Repr

structure SwitchConfig where
  switchNodeId : UInt8 := 0
  numReplicas : UInt8 := 3
  barrierDefaultParticipants : UInt8 := 3
  placementMode : PlacementMode := .kProcessAndForward
  fallbackPortIndex : ℤ := -1
  nodePortMap : UInt8 → Option ℤ := fun _ => none

inductive Action where
  | kUnicast | kMulticast | kDrop | kToFallback | kBroadcastAll
  deriving DecidableEq, Repr

structure RoutingDecision where
  action : Action := .kDrop
  dstPorts : List ℤ := []
  deriving DecidableEq, Repr

structure Engine where
  cfg : SwitchConfig
  paxos : PaxosNode
  locks : LockManager
  barriers : BarrierManager

structure Handled where
  engine : Engine
  decision : RoutingDecision
  frame : Frame

def getPortForNode (cfg : SwitchConfig) (nodeId : UInt8) : ℤ := (cfg.nodePortMap nodeId).getD (-1)

/-- A capacity is at least one before it is narrowed to 32 bits. -/
def narrowCapacity (c : UInt64) : UInt32 := (if c < 1 then 1 else c).toUInt32

def init (cfg : SwitchConfig) (paxosCapacity lockCapacity barrierCapacity : UInt64) : Engine where
  cfg
  paxos := .new cfg.switchNodeId cfg.numReplicas.toUInt16 (narrowCapacity paxosCapacity)
  locks := .new (narrowCapacity lockCapacity) 10000000 0
  barriers := .new (narrowCapacity barrierCapacity) cfg.barrierDefaultParticipants.toUInt16

/-! ## Answers -/

def switchMac : Mac := ⟨0x02,0x00,0x53,0x57,0x54,0x00⟩

def updatePacketPayload (f : Frame) (payload : List UInt8) : Frame := { f with
    src := switchMac
    hdr := { f.hdr with payloadLen := UInt16.ofNat payload.length }
    payload }

def aggregateRouting (cfg : SwitchConfig) (f : Frame) (out : List (UInt8 × List UInt8)) :
    RoutingDecision × Frame :=
  let f := updatePacketPayload f ((out.head?.map Prod.snd).getD [])
  let ports := ((out.filter (·.1 ≠ 255)).map (getPortForNode cfg ·.1)).filter (0 ≤ ·)
  if out.any (·.1 = 255) then (⟨.kBroadcastAll,[]⟩,f)
  else if 1 < ports.length then (⟨.kMulticast,ports⟩,f)
  else if ports.length = 1 then (⟨.kUnicast,ports⟩,f)
  else (⟨.kDrop,ports⟩,f)

section
variable (e : Engine) (f : Frame) (beyond : Memory)

def paxosOutcome : PaxosState.Outcome :=
  e.paxos.handleMessage (view f.payload beyond) f.payload.length

def lockOutcome (nowNs : UInt64) : LockState.Outcome :=
  e.locks.handleMessage (view f.payload beyond) f.payload.length nowNs

def barrierOutcome : BarrierState.Outcome :=
  e.barriers.handleMessage (view f.payload beyond) f.payload.length

def handlePaxos : Handled :=
  let o := paxosOutcome e f beyond
  let e := { e with paxos := o.node }
  if o.status ≠ .kOk then
    let f := if o.status = .kInstanceOverflow then f.withException kPaxosStateOverflow else f
    if f.hdr.exceptionType ≠ 0 then ⟨e,⟨.kToFallback,[]⟩,f⟩ else ⟨e,{},f⟩
  else if o.out.isEmpty then ⟨e,{},f⟩
  else
    let (d,f) := aggregateRouting e.cfg f (o.out.map fun m => (m.destId,m.data))
    ⟨e,d,f⟩

def handleLock (nowNs : UInt64) : Handled :=
  let o := lockOutcome e f beyond nowNs
  let e := { e with locks := o.mgr }
  let excepted := o.status ≠ .kOk ∧ o.status ≠ .kGranted ∧ o.status ≠ .kNotHeld
  let f :=
    if o.status = .kContention then f.withException kLockContention
    else if o.status = .kKeyOverflow then f.withException kLockStateOverflow
    else f
  if excepted ∧ o.status ≠ .kDenied ∧ f.hdr.exceptionType ≠ 0 then ⟨e,⟨.kToFallback,[]⟩,f⟩
  else if o.out.isEmpty then
    if view f.payload beyond 0 = 3 ∧ 0 ≤ e.cfg.fallbackPortIndex then ⟨e,⟨.kToFallback,[]⟩,f⟩
    else ⟨e,{},f⟩
  else
    let (d,f) := aggregateRouting e.cfg f (o.out.map fun m => (m.destId,m.data))
    ⟨e,d,f⟩

def handleBarrier : Handled :=
  let o := barrierOutcome e f beyond
  let e := { e with barriers := o.mgr }
  if o.status ≠ .kOk ∧ o.status ≠ .kRelease then
    if o.status = .kFutureArrival then ⟨e,{},f⟩
    else
      let f :=
        if o.status = .kLateArrival then f.withException kBarrierLateArrival
        else if o.status = .kLayoutOverflow then f.withException kBarrierGenerationOverflow
        else f
      if f.hdr.exceptionType ≠ 0 then ⟨e,⟨.kToFallback,[]⟩,f⟩ else ⟨e,{},f⟩
  else if o.out.isEmpty then ⟨e,{},f⟩
  else
    let (d,f) := aggregateRouting e.cfg f (o.out.map fun m => (m.destId,m.data))
    ⟨e,d,f⟩

end

/-! ## Dispatch -/

/-- A packet of the fallback tier that answers a client: it is flooded. -/
def isResponse (f : Frame) (beyond : Memory) : Bool :=
  let msgType := view f.payload beyond 0
  match Primitive.ofCode f.hdr.primitiveType with
  | some .barrier => msgType = 2
  | some .lock => msgType = 2 ∨ msgType = 4 ∨ msgType = 5
  | some .paxos => msgType ≠ 1 ∧ msgType ≠ 3
  | none => false

/-- Where `HandlePacket` takes a frame before any state machine runs. -/
inductive Route where
  | decided (action : Action)
  | process (p : Primitive)
  deriving DecidableEq, Repr

def route (cfg : SwitchConfig) (f : Frame) (ingressPort : ℤ) (beyond : Memory) : Route :=
  if cfg.placementMode = .kForwardOnly then
    if 0 ≤ cfg.fallbackPortIndex ∧ ingressPort = cfg.fallbackPortIndex then .decided .kMulticast
    else if 0 ≤ cfg.fallbackPortIndex then .decided .kToFallback
    else .decided .kMulticast
  else if 0 ≤ cfg.fallbackPortIndex ∧ ingressPort = cfg.fallbackPortIndex ∧ isResponse f beyond then
    .decided .kMulticast
  else if f.hdr.exceptionType ≠ 0 then
    if 0 ≤ cfg.fallbackPortIndex then .decided .kToFallback else .decided .kDrop
  else match Primitive.ofCode f.hdr.primitiveType with
  | some p => .process p
  | none => .decided .kDrop

def Engine.process (e : Engine) (p : Primitive) (f : Frame) (beyond : Memory) (nowNs : UInt64) :
    Handled :=
  match p with
  | .paxos => handlePaxos e f beyond
  | .lock => handleLock e f beyond nowNs
  | .barrier => handleBarrier e f beyond

def Engine.handleFrame (e : Engine) (f : Frame) (ingressPort : ℤ) (beyond : Memory)
    (nowNs : UInt64) : Handled :=
  let f := f.appendPath kTierSwitch
  match route e.cfg f ingressPort beyond with
  | .decided action => ⟨e,⟨action,[]⟩,f⟩
  | .process p => e.process p f beyond nowNs

structure Arrival where
  pkt : List UInt8
  ingressPort : ℤ
  nowNs : UInt64
  beyond : Memory

structure Result where
  engine : Engine
  decision : RoutingDecision
  pkt : List UInt8

def Engine.handlePacket (e : Engine) (a : Arrival) : Result :=
  if a.pkt.length < 14 then ⟨e,{},a.pkt⟩
  else if etherType a.pkt ≠ kHcopEtherType then ⟨e,⟨.kMulticast,[]⟩,a.pkt⟩
  else match Frame.ofBytes a.pkt with
  | none => ⟨e,{},a.pkt⟩
  | some f =>
    let h := e.handleFrame f a.ingressPort a.beyond a.nowNs
    ⟨h.engine,h.decision,h.frame.bytes⟩

def Engine.step (e : Engine) (a : Arrival) : Engine := (e.handlePacket a).engine

/-! ## What a call does -/

section
variable (e : Engine) (f : Frame) (beyond : Memory)

@[simp] lemma handlePaxos_engine : (handlePaxos e f beyond).engine =
    { e with paxos := (paxosOutcome e f beyond).node } := by
  unfold handlePaxos
  dsimp only
  split_ifs <;> rfl

@[simp] lemma handleLock_engine (nowNs : UInt64) : (handleLock e f beyond nowNs).engine = { e with
    locks := (lockOutcome e f beyond nowNs).mgr } := by
  unfold handleLock
  dsimp only
  split_ifs <;> rfl

@[simp] lemma handleBarrier_engine : (handleBarrier e f beyond).engine =
    { e with barriers := (barrierOutcome e f beyond).mgr } := by
  unfold handleBarrier
  dsimp only
  split_ifs <;> rfl

/-- An answer keeps the primitive and carries a produced message. -/
lemma aggregateRouting_frame (cfg : SwitchConfig) {out : List (UInt8 × List UInt8)} (h : out ≠ []) :
    (aggregateRouting cfg f out).2.hdr.primitiveType = f.hdr.primitiveType ∧ ∃ x ∈ out,
    (aggregateRouting cfg f out).2.payload = x.2 := by
  cases out with
  | nil => exact absurd rfl h
  | cons x xs =>
    have hf : (aggregateRouting cfg f (x::xs)).2 = updatePacketPayload f x.2 := by
      unfold aggregateRouting
      dsimp only
      split_ifs <;> rfl
    rw [hf]
    exact ⟨rfl,x,mem_cons_self,rfl⟩

lemma aggregateRouting_answers (cfg : SwitchConfig) (out : List (UInt8 × List UInt8)) :
    (aggregateRouting cfg f out).1.action ≠ .kToFallback := by
  unfold aggregateRouting
  dsimp only
  split_ifs <;> simp

lemma handlePaxos_toFallback (h : f.hdr.exceptionType = 0) :
    (handlePaxos e f beyond).decision.action = .kToFallback ↔ (paxosOutcome e f beyond).status =
    .kInstanceOverflow := by
  unfold handlePaxos
  dsimp only
  split_ifs with hst hov hexc hexc hout
  · simp [hov]
  · exact absurd (show kPaxosStateOverflow ≠ 0 by decide) hexc
  · exact absurd h hexc
  · simp [hov]
  · simp [not_not.mp hst]
  · rw [not_not.mp hst]
    simpa using aggregateRouting_answers f e.cfg _

/-- Lock packets go up when the key is held or does not fit, and releases that
woke nobody always do. -/
lemma handleLock_toFallback (nowNs : UInt64) (h : f.hdr.exceptionType = 0) :
    (handleLock e f beyond nowNs).decision.action = .kToFallback ↔
      (lockOutcome e f beyond nowNs).status = .kContention ∨
      (lockOutcome e f beyond nowNs).status = .kKeyOverflow ∨
      ((lockOutcome e f beyond nowNs).out = [] ∧ view f.payload beyond 0 = 3 ∧
        0 ≤ e.cfg.fallbackPortIndex) := by
  unfold handleLock
  generalize lockOutcome e f beyond nowNs = o
  by_cases hc : o.status = .kContention
  · simp [hc, Frame.withException, kLockContention]
  by_cases hk : o.status = .kKeyOverflow
  · simp [hk, Frame.withException, kLockStateOverflow]
  simp only [hc, hk, if_false, h, ne_eq, not_true, and_false, false_or]
  by_cases ho : o.out = []
  · by_cases hup : view f.payload beyond 0 = 3 ∧ 0 ≤ e.cfg.fallbackPortIndex
    · simp [ho, hup]
    · simp only [ho, isEmpty_nil, if_true, if_neg hup, true_and]
      exact iff_of_false (by simp) hup
  · have hans := aggregateRouting_answers f e.cfg (o.out.map fun m => (m.destId,m.data))
    simp [ho, hans]

lemma handleBarrier_toFallback (h : f.hdr.exceptionType = 0) :
    (handleBarrier e f beyond).decision.action = .kToFallback ↔ (barrierOutcome e f beyond).status =
    .kLateArrival ∨ (barrierOutcome e f beyond).status = .kLayoutOverflow := by
  unfold handleBarrier
  generalize barrierOutcome e f beyond = o
  by_cases hl : o.status = .kLateArrival
  · simp [hl, Frame.withException, kBarrierLateArrival]
  by_cases hv : o.status = .kLayoutOverflow
  · simp [hv, Frame.withException, kBarrierGenerationOverflow]
  have hans := aggregateRouting_answers f e.cfg (o.out.map fun m => (m.destId,m.data))
  simp only [hl, hv, if_false, h, ne_eq, not_true, or_self, iff_false]
  split_ifs <;> simp [hans]

def Engine.answers (p : Primitive) (nowNs : UInt64) : List (List UInt8) :=
  match p with
  | .paxos => (paxosOutcome e f beyond).out.map PaxosState.OutMessage.data
  | .lock => (lockOutcome e f beyond nowNs).out.map LockState.OutMessage.data
  | .barrier => (barrierOutcome e f beyond).out.map BarrierState.OutMessage.data

/-- The frame keeps the primitive, and its payload or one of the answers. -/
def Answered (out : List (List UInt8)) (g : Frame) : Prop :=
  g.hdr.primitiveType = f.hdr.primitiveType ∧ (g.payload = f.payload ∨ g.payload ∈ out)

lemma aggregateRouting_answered {α : Type} {out : List α} (cfg : SwitchConfig) (dest : α → UInt8)
    (data : α → List UInt8) (h : ¬ out.isEmpty) :
    Answered f (out.map data) (aggregateRouting cfg f (out.map fun m => (dest m,data m))).2 := by
  have hout : (out.map fun m => (dest m,data m)) ≠ [] := by simpa using h
  obtain ⟨hp,x,hx,hpay⟩ := aggregateRouting_frame f cfg hout
  obtain ⟨y,hy,rfl⟩ := mem_map.mp hx
  exact ⟨hp,.inr (mem_map.mpr ⟨y,hy,hpay.symm⟩)⟩

lemma process_frame (p : Primitive) (nowNs : UInt64) :
    Answered f (e.answers f beyond p nowNs) (e.process p f beyond nowNs).frame := by
  cases p with
  | paxos =>
    simp only [Engine.process, Engine.answers, handlePaxos]
    split_ifs
    any_goals exact ⟨rfl,.inl rfl⟩
    exact aggregateRouting_answered f e.cfg _ _ ‹_›
  | barrier =>
    simp only [Engine.process, Engine.answers, handleBarrier]
    split_ifs
    any_goals exact ⟨rfl,.inl rfl⟩
    exact aggregateRouting_answered f e.cfg _ _ ‹_›
  | lock =>
    simp only [Engine.process, Engine.answers, handleLock]
    generalize hg : (if (lockOutcome e f beyond nowNs).status = .kContention then
        f.withException kLockContention
      else if (lockOutcome e f beyond nowNs).status = .kKeyOverflow then
        f.withException kLockStateOverflow else f) = g
    have hg : g.hdr.primitiveType = f.hdr.primitiveType ∧ g.payload = f.payload := by
      rw [← hg]
      split_ifs <;> exact ⟨rfl,rfl⟩
    split_ifs
    iterate 3 exact ⟨hg.1,.inl hg.2⟩
    obtain ⟨hp,hpay⟩ := aggregateRouting_answered g e.cfg _ LockState.OutMessage.data ‹_›
    exact ⟨hp.trans hg.1,hpay.imp_left (·.trans hg.2)⟩

end

def Engine.target (e : Engine) (a : Arrival) : Option (Primitive × Frame) :=
  match Frame.ofBytes a.pkt with
  | none => none
  | some f =>
    match route e.cfg (f.appendPath kTierSwitch) a.ingressPort a.beyond with
    | .decided _ => none
    | .process p => some (p,f.appendPath kTierSwitch)

variable {p : Primitive}

/-- Only frames of a known primitive without exception reach a state machine. -/
lemma route_process {cfg : SwitchConfig} {f : Frame} {ingressPort : ℤ} {beyond : Memory}
    (h : route cfg f ingressPort beyond = .process p) :
    Primitive.ofCode f.hdr.primitiveType = some p ∧ f.hdr.exceptionType = 0 := by
  unfold route at h
  split_ifs at h with h1 h2 h3 h4 h5
  cases hp : Primitive.ofCode f.hdr.primitiveType with
  | none => simp [hp] at h
  | some =>
    rw [hp] at h
    exact ⟨congrArg some (Route.process.inj h),not_not.mp h5⟩

section
variable {e : Engine} {a : Arrival} {f : Frame}

lemma handlePacket_frame (h : Frame.ofBytes a.pkt = some f) :
    e.handlePacket a =
      ⟨(e.handleFrame f a.ingressPort a.beyond a.nowNs).engine,
        (e.handleFrame f a.ingressPort a.beyond a.nowNs).decision,
        (e.handleFrame f a.ingressPort a.beyond a.nowNs).frame.bytes⟩ := by
  have hb := h
  unfold Frame.ofBytes at hb
  split_ifs at hb with hlen htype
  have h14 : ¬ a.pkt.length < 14 := by
    rw [kMinHcopFrameLen] at hlen
    omega
  rw [Engine.handlePacket, if_neg h14, if_neg htype, h]

lemma handlePacket_other (h : Frame.ofBytes a.pkt = none) :
    (e.handlePacket a).engine = e ∧ (e.handlePacket a).pkt = a.pkt ∧
    (e.handlePacket a).decision.action ≠ .kToFallback := by
  unfold Engine.handlePacket
  split_ifs
  · exact ⟨rfl,rfl,by simp⟩
  · exact ⟨rfl,rfl,by simp⟩
  · rw [h]
    exact ⟨rfl,rfl,by simp⟩

lemma target_some (h : e.target a = some (p,f)) :
    ∃ g, Frame.ofBytes a.pkt = some g ∧ g.appendPath kTierSwitch = f ∧
    route e.cfg f a.ingressPort a.beyond = .process p := by
  unfold Engine.target at h
  cases hf : Frame.ofBytes a.pkt with
  | none => simp [hf] at h
  | some g =>
    simp only [hf] at h
    cases hr : route e.cfg (g.appendPath kTierSwitch) a.ingressPort a.beyond with
    | decided => simp [hr] at h
    | process q =>
      obtain ⟨rfl,rfl⟩ : q = p ∧ g.appendPath kTierSwitch = f := by simpa [hr] using h
      exact ⟨g,rfl,rfl,hr⟩

lemma handlePacket_target (h : e.target a = some (p,f)) :
    e.handlePacket a =
      ⟨(e.process p f a.beyond a.nowNs).engine,(e.process p f a.beyond a.nowNs).decision,
        (e.process p f a.beyond a.nowNs).frame.bytes⟩ := by
  obtain ⟨g,hf,rfl,hr⟩ := target_some h
  rw [handlePacket_frame hf, Engine.handleFrame, hr]

lemma step_untargeted (h : e.target a = none) : e.step a = e := by
  unfold Engine.target at h
  unfold Engine.step
  cases hf : Frame.ofBytes a.pkt with
  | none => exact (handlePacket_other hf).1
  | some g =>
    simp only [hf] at h
    rw [handlePacket_frame hf, Engine.handleFrame]
    cases hr : route e.cfg (g.appendPath kTierSwitch) a.ingressPort a.beyond with
    | decided => rfl
    | process => simp [hr] at h

lemma step_target (h : e.target a = some (p,f)) : e.step a =
      match p with
      | .paxos => { e with paxos := (paxosOutcome e f a.beyond).node }
      | .lock => { e with locks := (lockOutcome e f a.beyond a.nowNs).mgr }
      | .barrier => { e with barriers := (barrierOutcome e f a.beyond).mgr } := by
  rw [Engine.step, handlePacket_target h]
  cases p with
  | paxos => exact handlePaxos_engine e f a.beyond
  | lock => exact handleLock_engine e f a.beyond a.nowNs
  | barrier => exact handleBarrier_engine e f a.beyond

lemma step_locks (e : Engine) (a : Arrival) : (e.step a).locks =
      match e.target a with
      | some (.lock,f) => (lockOutcome e f a.beyond a.nowNs).mgr
      | _ => e.locks := by
  cases ht : e.target a with
  | none => rw [step_untargeted ht]
  | some pf =>
    obtain ⟨p,f⟩ := pf
    rw [step_target ht]
    cases p <;> rfl

lemma step_barriers (e : Engine) (a : Arrival) : (e.step a).barriers =
      match e.target a with
      | some (.barrier,f) => (barrierOutcome e f a.beyond).mgr
      | _ => e.barriers := by
  cases ht : e.target a with
  | none => rw [step_untargeted ht]
  | some pf =>
    obtain ⟨p,f⟩ := pf
    rw [step_target ht]
    cases p <;> rfl

lemma target_frame (h : e.target a = some (p,f)) :
    ∃ g, Frame.ofBytes a.pkt = some g ∧ f = g.appendPath kTierSwitch ∧
    Primitive.ofCode g.hdr.primitiveType = some p ∧ g.hdr.exceptionType = 0 := by
  obtain ⟨g,hf,rfl,hr⟩ := target_some h
  obtain ⟨hp,h0⟩ := route_process hr
  exact ⟨g,hf,rfl,hp,h0⟩

lemma step_cfg (e : Engine) (a : Arrival) : (e.step a).cfg = e.cfg := by
  cases ht : e.target a with
  | none => rw [step_untargeted ht]
  | some pf =>
    obtain ⟨p,f⟩ := pf
    rw [step_target ht]
    cases p <;> rfl

end

end SimBricks.PrimitiveEngine
