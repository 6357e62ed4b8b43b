import SimBricks.Hcop.PaxosReplica
import SimBricks.Tiers.System

/-!
# What becomes of the replies of the switch

A state machine returns a status and a list of messages. The engine looks at
the status first: an exception sends the request up, another failure drops the
packet, and only then the messages decide where the packet goes. One packet
stands for all messages, so they must have the same content.
-/

set_option autoImplicit false

namespace SimBricks.Replies
open Library Library.Bytes HcopProto PrimitiveEngine Tiers List

def replies (e : Engine) (p : Primitive) (f : Frame) (beyond : Memory) (nowNs : UInt64) :
    List (UInt8 × List UInt8) :=
  match p with
  | .paxos => (paxosOutcome e f beyond).out.map fun m => (m.destId,m.data)
  | .lock => (lockOutcome e f beyond nowNs).out.map fun m => (m.destId,m.data)
  | .barrier => (barrierOutcome e f beyond).out.map fun m => (m.destId,m.data)

/-- Every node but the broadcast address has a port of the switch. -/
def Connected (numPorts : ℕ) (cfg : SwitchConfig) : Prop :=
  ∀ id, id ≠ 255 → 0 ≤ getPortForNode cfg id ∧ getPortForNode cfg id < numPorts

def Carries (ports : List ℕ) (numPorts : ℕ) (cfg : SwitchConfig) (g : Frame)
    (x : UInt8 × List UInt8) : Prop :=
  g.payload = x.2 ∧
    if x.1 = 255 then ∀ p < numPorts, p ∈ ports else (getPortForNode cfg x.1).toNat ∈ ports

/-- All replies are transmitted, or the request goes up as an exception. -/
def Answered (numPorts : ℕ) (e : Engine) (a : Arrival) (p : Primitive) (f : Frame) : Prop :=
  (∃ g, Frame.ofBytes (e.handlePacket a).pkt = some g ∧ ∀ x ∈ replies e p f a.beyond a.nowNs,
    Carries (egress numPorts e.cfg a.ingressPort (e.handlePacket a).decision) numPorts e.cfg g x) ∨
  (e.handlePacket a).decision.action = .kToFallback ∧
    ∃ x, x ≠ 0 ∧ (e.handlePacket a).pkt = (f.withException x).bytes

section
variable {cfg : SwitchConfig} {numPorts : ℕ} {f : Frame} {out : List (UInt8 × List UInt8)}

lemma mem_forward {dst : ℤ} (h : 0 ≤ dst ∧ dst < numPorts) : dst.toNat ∈ forward numPorts dst := by
  rw [forward, if_pos h]
  exact mem_singleton_self _

variable (hc : Connected numPorts cfg)
include hc

lemma port_lt {id : UInt8} (h : id ≠ 255) : (getPortForNode cfg id).toNat < numPorts := by
  have := hc id h
  omega

lemma ports_of_destinations (h : ∀ x ∈ out, x.1 ≠ 255) :
    ((out.filter (·.1 ≠ 255)).map (getPortForNode cfg ·.1)).filter (0 ≤ ·) = out.map
    (getPortForNode cfg ·.1) := by
  have hall : out.filter (·.1 ≠ 255) = out := filter_eq_self.mpr fun x hx => by simp [h x hx]
  rw [hall, filter_eq_self]
  intro q hq
  obtain ⟨x,hx,rfl⟩ := mem_map.mp hq
  simpa using (hc x.1 (h x hx)).1

lemma aggregateRouting_ports (h : ∀ x ∈ out, x.1 ≠ 255) {x : UInt8 × List UInt8} (hx : x ∈ out)
    (ingressPort : ℤ) :
    (getPortForNode cfg x.1).toNat ∈ egress numPorts cfg ingressPort
    (aggregateRouting cfg f out).1 := by
  have hport := mem_forward (hc x.1 (h x hx))
  have hany : out.any (·.1 = 255) = false := by simpa using fun a b hab => h (a,b) hab
  simp only [aggregateRouting, hany, ports_of_destinations hc h]
  match out, hx with
  | [y], hx =>
    rw [mem_singleton] at hx
    subst hx
    simpa [egress] using hport
  | y :: z :: rest, hx =>
    have hlen : 1 < ((y :: z :: rest).map (getPortForNode cfg ·.1)).length := by simp
    have hports : (y :: z :: rest).map (getPortForNode cfg ·.1) ≠ [] := by simp
    simp only [Bool.false_eq_true, if_false, if_pos hlen, egress, if_neg hports]
    exact mem_flatMap.mpr ⟨_,mem_map_of_mem hx,hport⟩

lemma aggregateRouting_carries (hne : out ≠ []) (hsame : ∃ data, ∀ x ∈ out, x.2 = data)
    (ingressPort : ℤ) :
    ∀ x ∈ out, Carries (egress numPorts cfg ingressPort (aggregateRouting cfg f out).1) numPorts cfg
    (aggregateRouting cfg f out).2 x := by
  intro x hx
  obtain ⟨data,hdata⟩ := hsame
  constructor
  · obtain ⟨-,y,hy,hpay⟩ := aggregateRouting_frame f cfg hne
    rw [hpay, hdata y hy, hdata x hx]
  · by_cases hany : ∃ y ∈ out, y.1 = 255
    · have hd : (aggregateRouting cfg f out).1 = ⟨.kBroadcastAll,[]⟩ := by
        have h255 : out.any (·.1 = 255) := by simpa using hany
        simp only [aggregateRouting, h255, if_true]
      rw [hd]
      by_cases h255 : x.1 = 255
      · rw [if_pos h255]
        exact fun q hq => mem_range.mpr hq
      · rw [if_neg h255]
        exact mem_range.mpr (port_lt hc h255)
    · have hnone : ∀ y ∈ out, y.1 ≠ 255 := fun y hy h => hany ⟨y,hy,h⟩
      rw [if_neg (hnone x hx)]
      exact aggregateRouting_ports hc hnone hx ingressPort

lemma reply_carries (destId : UInt8) (data : List UInt8) (ingressPort : ℤ) :
    ∀ x ∈ [(destId,data)], Carries
    (egress numPorts cfg ingressPort (aggregateRouting cfg f [(destId,data)]).1) numPorts cfg
    (aggregateRouting cfg f [(destId,data)]).2 x :=
  aggregateRouting_carries hc (by simp) ⟨data,by simp⟩ ingressPort

omit hc

end

/-! ## The state machines -/

section
open PaxosState PaxosProto

/-- A Paxos message puts out nothing, or copies of one message with status
`kOk`, or it is an ACCEPT for an instance that is committed. -/
lemma paxos_replies (s : PaxosNode) (msg : Msg) :
    (s.handle msg).out = [] ∨
    ((s.handle msg).status = .kOk ∧ ∃ reply, ∀ x ∈ (s.handle msg).out, x.msg = reply) ∨ ∃ hdr p n v,
    msg = .accept hdr p n v ∧ s.committedAt hdr.instanceId := by
  have h := handle_handled s msg
  generalize s.handle msg = o at h
  cases h with
  | full | quiet | known | learn | count | tally | bump => exact .inl rfl
  | promise | refuse | accept | lead =>
    exact .inr (.inl ⟨rfl,_,fun x hx => by rw [mem_singleton.mp hx]⟩)
  | inform hdr p n v hg hc =>
    rw [(PaxosNode.getOrCreate_view hg).1, ← PaxosNode.committedAt_eq] at hc
    exact .inr (.inr ⟨hdr,p,n,v,rfl,hc⟩)
  | commit => exact .inr (.inl ⟨rfl,_,fun x hx => PaxosReplica.learnOthers_learn hx⟩)

/-- An ACCEPT for a committed instance is answered with the committed value,
under a status of failure. -/
lemma accept_committed {s : PaxosNode} {hdr : MsgHeader} (p : ProposalNum) (n : UInt16)
    (v : Value) (h : s.committedAt hdr.instanceId) :
    ∃ reply, s.handle (.accept hdr p n v) = ⟨s,[⟨hdr.senderId,reply⟩],.kAlreadyCommitted⟩ := by
  unfold PaxosNode.committedAt at h
  cases hl : s.instances.lookup hdr.instanceId with
  | none => simp [hl] at h
  | some inst =>
    have hc : inst.isCommitted := by simpa [hl] using h
    refine ⟨(makeLearn (s.header hdr.instanceId) hdr.senderId inst.committedValueLen
      inst.committedValue).msg,?_⟩
    simp [PaxosNode.handle, PaxosNode.handleAccept, PaxosNode.getOrCreateInstance, hl, hc,
      makeLearn]

end

/-- A lock message puts out one message at most, and none when its key does
not fit. -/
lemma lock_replies (s : LockState.LockManager) (m : Memory) (len : ℕ) (nowNs : UInt64) :
    (s.handleMessage m len nowNs).out = [] ∨ ∃ x, (s.handleMessage m len nowNs).out = [x] ∧
    (s.handleMessage m len nowNs).status ≠ .kKeyOverflow := by
  unfold LockState.LockManager.handleMessage
  cases LockProto.parse m len with
  | none => exact .inl rfl
  | some msg =>
    cases msg with
    | acquire hdr lease =>
      simp only [LockState.LockManager.handle]
      cases s.acquire_spec hdr.lockKey hdr.requesterId lease nowNs with
      | overflow _ ho => exact .inl (by rw [ho])
      | granted _ _ ho | refreshed _ _ _ _ ho | full _ _ _ _ _ ho | again _ _ _ _ _ _ ho
      | queued _ _ _ _ _ _ ho => exact .inr ⟨_,by rw [ho],by simp [ho]⟩
    | release hdr =>
      simp only [LockState.LockManager.handle]
      cases s.release_spec hdr.lockKey hdr.requesterId nowNs with
      | refused _ ho => exact .inl (by rw [ho])
      | freed ks hl _ ho =>
        rcases LockState.LockManager.vacate_spec hl nowNs with ⟨-,hout,-⟩ | ⟨w,_,-,hout,-⟩
        · exact .inl (by rw [ho, hout])
        · exact .inr ⟨_,by rw [ho, hout],by simp [ho]⟩
    | _ => exact .inl rfl

lemma barrier_replies (s : BarrierState.BarrierManager) (m : Memory) (len : ℕ) :
    (s.handleMessage m len).out = [] ∨
    ∃ x, (s.handleMessage m len).out = [x] ∧ (s.handleMessage m len).status = .kRelease := by
  unfold BarrierState.BarrierManager.handleMessage
  cases BarrierProto.parse m len with
  | none => exact .inl rfl
  | some hdr =>
    dsimp only
    cases s.arrive_spec hdr.barrierId hdr.generation hdr.senderId with
    | refused _ _ ho => exact .inl (by rw [ho])
    | found b _ ho =>
      rw [ho]
      cases b.arrive_spec hdr.barrierId hdr.generation hdr.senderId with
      | elsewhere _ _ _ ho | duplicate _ _ _ _ ho | counted _ _ _ _ _ ho => exact .inl ho
      | release hst _ _ _ _ ho => exact .inr ⟨_,ho,hst⟩

/-! ## The engine -/

/-- The request is an ACCEPT for an instance the node has committed. -/
def AcceptsCommitted (e : Engine) (p : Primitive) (f : Frame) (beyond : Memory) : Prop :=
  p = .paxos ∧ ∃ hdr num n v,
    PaxosProto.parse (view f.payload beyond) f.payload.length = some (.accept hdr num n v) ∧
    e.paxos.committedAt hdr.instanceId

section
variable {e : Engine} {f : Frame} {beyond : Memory} {numPorts : ℕ}

def Settled (numPorts : ℕ) (ingressPort : ℤ) (h : Handled) (e : Engine) (f : Frame)
    (out : List (UInt8 × List UInt8)) : Prop :=
  (∀ x ∈ out, Carries (egress numPorts e.cfg ingressPort h.decision) numPorts e.cfg h.frame x) ∨
  h.decision.action = .kToFallback ∧ ∃ x, x ≠ 0 ∧ h.frame = f.withException x

lemma process_settled (hc : Connected numPorts e.cfg) (ingressPort : ℤ) {p : Primitive}
    {nowNs : UInt64} (h0 : f.hdr.exceptionType = 0) (hout : replies e p f beyond nowNs ≠ [])
    (ha : ¬ AcceptsCommitted e p f beyond) :
    Settled numPorts ingressPort (e.process p f beyond nowNs) e f (replies e p f beyond nowNs) := by
  cases p with
  | paxos =>
    have hne := mt map_eq_nil_iff.mpr hout
    have hok : (paxosOutcome e f beyond).status = .kOk ∧
        ∃ reply, ∀ x ∈ (paxosOutcome e f beyond).out, x.msg = reply := by
      unfold paxosOutcome PaxosState.PaxosNode.handleMessage at hne ⊢
      cases hp : PaxosProto.parse (view f.payload beyond) f.payload.length with
      | none => simp [hp] at hne
      | some msg =>
        simp only [hp] at hne ⊢
        rcases paxos_replies e.paxos msg with hnil | hok | ⟨hdr,num,n,v,rfl,hcommitted⟩
        · exact absurd hnil hne
        · exact hok
        · exact absurd ⟨rfl,hdr,num,n,v,hp,hcommitted⟩ ha
    obtain ⟨hst,reply,hreply⟩ := hok
    have hsame : ∃ data, ∀ x ∈ replies e .paxos f beyond nowNs, x.2 = data := by
      refine ⟨reply.serialize,fun x hx => ?_⟩
      obtain ⟨m,hm,rfl⟩ := mem_map.mp hx
      exact congrArg PaxosProto.Msg.serialize (hreply m hm)
    have hcarry := aggregateRouting_carries (f := f) hc hout hsame ingressPort
    exact .inl (by simpa [Engine.process, handlePaxos, replies, hst, hne] using hcarry)
  | lock =>
    obtain ⟨x,hone,hover⟩ := (lock_replies e.locks (view f.payload beyond) f.payload.length
      nowNs).resolve_left (mt map_eq_nil_iff.mpr hout)
    change (lockOutcome e f beyond nowNs).out = [x] at hone
    change (lockOutcome e f beyond nowNs).status ≠ .kKeyOverflow at hover
    by_cases hcont : (lockOutcome e f beyond nowNs).status = .kContention
    · refine .inr ⟨(handleLock_toFallback e f beyond nowNs h0).mpr (.inl hcont),
        kLockContention,by decide,?_⟩
      simp [Engine.process, handleLock, hcont, Frame.withException, kLockContention]
    · have hcarry := reply_carries (f := f) hc x.destId x.data ingressPort
      exact .inl (by
        simpa [Engine.process, handleLock, replies, hcont, hover, h0, hone] using hcarry)
  | barrier =>
    obtain ⟨x,hone,hst⟩ := (barrier_replies e.barriers (view f.payload beyond)
      f.payload.length).resolve_left (mt map_eq_nil_iff.mpr hout)
    change (barrierOutcome e f beyond).out = [x] at hone
    change (barrierOutcome e f beyond).status = .kRelease at hst
    have hcarry := reply_carries (f := f) hc x.destId x.data ingressPort
    exact .inl (by simpa [Engine.process, handleBarrier, replies, hst, hone] using hcarry)

end

lemma Answered.not_dropped {numPorts : ℕ} {e : Engine} {a : Arrival} {p : Primitive} {f : Frame}
    (hc : Connected numPorts e.cfg) (hout : replies e p f a.beyond a.nowNs ≠ [])
    (hd : (e.handlePacket a).decision.action = .kDrop) : ¬ Answered numPorts e a p f := by
  rintro (⟨g,-,hcarry⟩ | ⟨hup,-⟩)
  · obtain ⟨x,_,hx⟩ := exists_cons_of_ne_nil hout
    have hto := (hcarry x (hx ▸ mem_cons_self)).2
    have hnowhere : egress numPorts e.cfg a.ingressPort (e.handlePacket a).decision = [] := by
      rw [egress, hd]
    rw [hnowhere] at hto
    have hsome := port_lt hc (show (0 : UInt8) ≠ 255 by decide)
    by_cases h255 : x.1 = 255
    · rw [if_pos h255] at hto
      exact absurd (hto 0 (by omega)) not_mem_nil
    · rw [if_neg h255] at hto
      exact absurd hto not_mem_nil
  · rw [hd] at hup
    cases hup

/-- What the state machines put out is transmitted or the request goes up,
unless an ACCEPT comes for a committed instance: its reply is dropped. -/
theorem replies_answered_iff {numPorts : ℕ} {e : Engine} {a : Arrival} {p : Primitive} {f : Frame}
    (hc : Connected numPorts e.cfg) (ht : e.target a = some (p,f))
    (hout : replies e p f a.beyond a.nowNs ≠ []) :
    Answered numPorts e a p f ↔ ¬ AcceptsCommitted e p f a.beyond := by
  constructor
  · rintro hans ⟨rfl,hdr,num,n,v,hparse,hcommitted⟩
    obtain ⟨reply,ho⟩ := accept_committed num n v hcommitted
    have ho : paxosOutcome e f a.beyond = ⟨e.paxos,[⟨hdr.senderId,reply⟩],.kAlreadyCommitted⟩ := by
      rw [paxosOutcome, PaxosState.PaxosNode.handleMessage, hparse, ← ho]
    obtain ⟨g,-,rfl,-,h0⟩ := target_frame ht
    refine Answered.not_dropped hc hout ?_ hans
    rw [handlePacket_target ht]
    have hswitch : (g.appendPath kTierSwitch).hdr.exceptionType = 0 := h0
    simp [Engine.process, handlePaxos, ho, hswitch]
  · intro ha
    obtain ⟨g,-,hg,-,h0⟩ := target_frame ht
    have h0 : f.hdr.exceptionType = 0 := by rw [hg]; exact h0
    unfold Answered
    rw [handlePacket_target ht]
    rcases process_settled hc a.ingressPort h0 hout ha with hcarry | ⟨hup,x,hx,hframe⟩
    · exact .inl ⟨_,Frame.ofBytes_bytes _,hcarry⟩
    · exact .inr ⟨hup,x,hx,congrArg Frame.bytes hframe⟩

/-- A switch with one port, for everybody. -/
def onePort : SwitchConfig := { nodePortMap := fun _ => some 0 }

lemma onePort_connected : Connected 1 onePort := by
  intro id _
  exact ⟨le_refl (0 : ℤ),one_pos⟩

/-- A Paxos packet of node 1 for instance 7 as a state machine sees it. -/
def paxosFrame (payload : List UInt8) : Frame :=
  ⟨⟨0,0,0,0,0,0⟩,⟨0,0,0,0,0,0⟩,⟨1,0,0,0,0,0,0⟩,payload⟩

def paxosArrival (payload : List UInt8) : Arrival := ⟨(paxosFrame payload).bytes,0,0,fun _ => 0⟩

def prepareSeven : List UInt8 := [1,1,3,0, 7,0,0,0, 1,0,0,0,1,0,0,0]
def acceptSeven : List UInt8 := [3,1,3,0, 7,0,0,0, 1,0,0,0,1,0,0,0, 0,0]
def learnSeven : List UInt8 := [5,1,3,0, 7,0,0,0, 0,0]

/-- A PREPARE is answered with a PROMISE. -/
theorem prepare_answered :
    replies (init onePort 1 1 1) .paxos ((paxosFrame prepareSeven).appendPath kTierSwitch)
      (fun _ => 0) 0 ≠ [] ∧
    Answered 1 (init onePort 1 1 1) (paxosArrival prepareSeven) .paxos
      ((paxosFrame prepareSeven).appendPath kTierSwitch) := by
  have hout : replies (init onePort 1 1 1) .paxos
      ((paxosFrame prepareSeven).appendPath kTierSwitch) (fun _ => 0) 0 ≠ [] := by decide +kernel
  refine ⟨hout,(replies_answered_iff onePort_connected (by decide +kernel) hout).mpr ?_⟩
  rintro ⟨-,_,_,_,_,-,hcommitted⟩
  cases hcommitted

/-- After a LEARN of instance 7 the reply to an ACCEPT for it is dropped. -/
theorem committed_reply_dropped : Connected 1 onePort ∧
    ((init onePort 1 1 1).step (paxosArrival learnSeven)).target (paxosArrival acceptSeven) =
      some (.paxos,(paxosFrame acceptSeven).appendPath kTierSwitch) ∧
    replies ((init onePort 1 1 1).step (paxosArrival learnSeven)) .paxos
      ((paxosFrame acceptSeven).appendPath kTierSwitch) (fun _ => 0) 0 ≠ [] ∧
    ¬ Answered 1 ((init onePort 1 1 1).step (paxosArrival learnSeven)) (paxosArrival acceptSeven)
      .paxos ((paxosFrame acceptSeven).appendPath kTierSwitch) := by
  have hout : replies ((init onePort 1 1 1).step (paxosArrival learnSeven)) .paxos
      ((paxosFrame acceptSeven).appendPath kTierSwitch) (fun _ => 0) 0 ≠ [] := by decide +kernel
  refine ⟨onePort_connected,by decide +kernel,hout,?_⟩
  refine Answered.not_dropped ?_ hout (by decide +kernel)
  rw [step_cfg]
  exact onePort_connected

/-! ## Messages that share a packet -/

open PaxosState (PaxosNode)
open Library.Run

def acceptedSeven (node : UInt8) : List UInt8 :=
  [4,node,3,0, 7,0,0,0, 1,0,0,0,0,0,0,0, 0,0]

/-- A proposer for instance 7 that has the answer of one of three replicas. -/
def proposing : List PaxosState.Call :=
  [.propose 7 (fun _ => 0) 0,.handleMessage (view (acceptedSeven 1) fun _ => 0) 18]

def proposer : Engine :=
  { init onePort 1 1 1 with paxos := run PaxosState.step (.new 0 3 1) proposing }

end SimBricks.Replies
