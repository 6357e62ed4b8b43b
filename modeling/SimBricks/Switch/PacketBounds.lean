import SimBricks.Hcop.MessageBounds
import SimBricks.Switch.PrimitiveEngine

/-!
# What the switch reads of a packet

The engine looks at the first payload byte of every packet from the fallback
port and of every lock packet nobody answers, whether the packet has a payload
or not. All other reads are those of the state machines.
-/

set_option autoImplicit false

namespace SimBricks.PacketBounds
open Library Library.Bytes HcopProto PrimitiveEngine MessageBounds Option

lemma lock_handleMessage_agree (s : LockState.LockManager) {m m' : Memory} {len : ℕ}
    (h : Agree len m m') (nowNs : UInt64) :
    s.handleMessage m' len nowNs = s.handleMessage m len nowNs := by
  rw [LockState.LockManager.handleMessage, lock_parse_agree h]
  rfl

lemma barrier_handleMessage_agree (s : BarrierState.BarrierManager) {m m' : Memory} {len : ℕ}
    (h : Agree len m m') : s.handleMessage m' len = s.handleMessage m len := by
  rw [BarrierState.BarrierManager.handleMessage, barrier_parse_agree h]
  rfl

/-- A packet without payload whose first payload byte is looked at. -/
def Peeked (cfg : SwitchConfig) (f : Frame) (ingressPort : ℤ) : Prop :=
  cfg.placementMode = .kProcessAndForward ∧ f.payload = [] ∧ 0 ≤ cfg.fallbackPortIndex ∧
    if ingressPort = cfg.fallbackPortIndex then Primitive.ofCode f.hdr.primitiveType ≠ none
    else f.hdr.exceptionType = 0 ∧ Primitive.ofCode f.hdr.primitiveType = some .lock

/-- What the engine does to the packet depends on bytes it did not receive. -/
def Exposed (e : Engine) (a : Arrival) : Prop :=
  (∃ f, Frame.ofBytes a.pkt = some f ∧ Peeked e.cfg f a.ingressPort) ∨
    ∃ f, e.target a = some (.paxos,f) ∧ Overreads e.paxos (view f.payload a.beyond) f.payload.length

section
variable {cfg : SwitchConfig} {f : Frame} {ingressPort : ℤ} {beyond beyond' : Memory}

lemma isResponse_agree (h : f.payload ≠ []) : isResponse f beyond' = isResponse f beyond := by
  have hlen := List.length_pos_of_ne_nil h
  rw [isResponse, isResponse, view_inside beyond' beyond hlen]

lemma route_mode {p : Primitive} (h : route cfg f ingressPort beyond = .process p) :
    cfg.placementMode = .kProcessAndForward := by
  cases hm : cfg.placementMode with
  | kProcessAndForward => rfl
  | kForwardOnly =>
    simp only [route, hm, if_true] at h
    split_ifs at h

lemma route_agree (beyond beyond' : Memory) (h : ¬ Peeked cfg f ingressPort) :
    route cfg f ingressPort beyond' = route cfg f ingressPort beyond := by
  by_cases hp : f.payload = []
  · unfold route
    by_cases hm : cfg.placementMode = .kForwardOnly
    · simp only [hm, if_true]
    · have hmode : cfg.placementMode = .kProcessAndForward := by
        cases hcase : cfg.placementMode with
        | kProcessAndForward => rfl
        | kForwardOnly => exact absurd hcase hm
      by_cases hb : 0 ≤ cfg.fallbackPortIndex ∧ ingressPort = cfg.fallbackPortIndex
      · have hnone : Primitive.ofCode f.hdr.primitiveType = none := by
          by_contra hsome
          refine h ⟨hmode,hp,hb.1,?_⟩
          rwa [if_pos hb.2]
        simp only [isResponse, hnone]
      · have hskip : ∀ r, ¬ (0 ≤ cfg.fallbackPortIndex ∧ ingressPort = cfg.fallbackPortIndex ∧
            isResponse f r) := fun r hr => hb ⟨hr.1,hr.2.1⟩
        simp only [hm, if_false, hskip]
  · unfold route
    rw [isResponse_agree hp]

end

section
variable {e : Engine} {f : Frame} {beyond beyond' : Memory}

lemma process_agree {p : Primitive} {nowNs : UInt64}
    (hp : p = .paxos → ¬ Overreads e.paxos (view f.payload beyond) f.payload.length)
    (hl : p = .lock → f.payload = [] → ¬ 0 ≤ e.cfg.fallbackPortIndex) :
    e.process p f beyond' nowNs = e.process p f beyond nowNs := by
  have hview := Agree.view f.payload beyond beyond'
  cases p with
  | paxos =>
    have ho : paxosOutcome e f beyond' = paxosOutcome e f beyond :=
      handleMessage_agree (hp rfl) hview
    simp only [Engine.process, handlePaxos, ho]
  | lock =>
    have ho : lockOutcome e f beyond' nowNs = lockOutcome e f beyond nowNs :=
      lock_handleMessage_agree e.locks hview nowNs
    have hpeek : ∀ g : Frame, g.payload = f.payload →
        ((view g.payload beyond' 0 = 3 ∧ 0 ≤ e.cfg.fallbackPortIndex) ↔
          (view g.payload beyond 0 = 3 ∧ 0 ≤ e.cfg.fallbackPortIndex)) := by
      intro g hg
      rw [hg]
      by_cases hempty : f.payload = []
      · exact iff_of_false (fun h => hl rfl hempty h.2) (fun h => hl rfl hempty h.2)
      · rw [view_inside beyond' beyond (List.length_pos_of_ne_nil hempty)]
    simp only [Engine.process, handleLock, ho]
    generalize lockOutcome e f beyond nowNs = o
    generalize hg : (if o.status = .kContention then f.withException kLockContention
      else if o.status = .kKeyOverflow then f.withException kLockStateOverflow else f) = g
    have hpay : g.payload = f.payload := by
      rw [← hg]
      split_ifs <;> rfl
    simp only [hpeek g hpay]
  | barrier =>
    have ho : barrierOutcome e f beyond' = barrierOutcome e f beyond :=
      barrier_handleMessage_agree e.barriers hview
    simp only [Engine.process, handleBarrier, ho]

/-- Without payload the state machines answer nothing, but a lock packet
followed by the code of a release goes to the fallback port. -/
lemma process_empty (p : Primitive) (nowNs : UInt64) (hpay : f.payload = [])
    (hexc : f.hdr.exceptionType = 0) : (e.process p f beyond nowNs).decision.action = if p = .lock ∧
    beyond 0 = 3 ∧ 0 ≤ e.cfg.fallbackPortIndex then .kToFallback else .kDrop := by
  cases p with
  | paxos =>
    have ho : paxosOutcome e f beyond = ⟨e.paxos,[],.kInvalidMessage⟩ := by
      simp [paxosOutcome, hpay, PaxosState.PaxosNode.handleMessage, PaxosProto.parse]
    simp [Engine.process, handlePaxos, ho, hexc]
  | lock =>
    have ho : lockOutcome e f beyond nowNs = ⟨e.locks,[],.kInvalidMessage⟩ := by
      simp [lockOutcome, hpay, LockState.LockManager.handleMessage, LockProto.parse]
    by_cases hup : beyond 0 = 3 ∧ 0 ≤ e.cfg.fallbackPortIndex
    · simp [Engine.process, handleLock, ho, hexc, hpay, view, hup]
    · simp [Engine.process, handleLock, ho, hexc, hpay, view, if_neg hup]
  | barrier =>
    have ho : barrierOutcome e f beyond = ⟨e.barriers,[],.kInvalidMessage⟩ := by
      simp [barrierOutcome, hpay, BarrierState.BarrierManager.handleMessage, BarrierProto.parse]
    simp [Engine.process, handleBarrier, ho, hexc]

lemma handlePaxos_differ (h : Differ (paxosOutcome e f beyond') (paxosOutcome e f beyond)) :
    (handlePaxos e f beyond').engine ≠ (handlePaxos e f beyond).engine ∨
    (handlePaxos e f beyond').frame ≠ (handlePaxos e f beyond).frame := by
  rcases h with hnode | ⟨hx,hy,a,_,b,_,ha,hb,hne⟩
  · left
    rw [handlePaxos_engine, handlePaxos_engine]
    exact fun h => hnode (congrArg Engine.paxos h)
  · right
    have hframe : ∀ {r : Memory} {c : PaxosState.OutMessage} {cs : List PaxosState.OutMessage},
        (paxosOutcome e f r).status = .kOk → (paxosOutcome e f r).out = c :: cs →
        (handlePaxos e f r).frame.payload = c.msg.serialize := by
      intro r c cs hst hout
      simp only [handlePaxos, hst, hout, aggregateRouting]
      simp only [ne_eq, not_true, if_false, List.isEmpty_cons, Bool.false_eq_true]
      split_ifs <;> rfl
    intro heq
    have hdata := congrArg Frame.payload heq
    rw [hframe hx ha, hframe hy hb] at hdata
    have hparse := PaxosProto.parse_serialize a.msg beyond
    rw [hdata, PaxosProto.parse_serialize b.msg beyond] at hparse
    exact hne (some.inj hparse).symm

end

section
variable {e : Engine} {a : Arrival} {f : Frame}

lemma handlePacket_agree (h : ¬ Exposed e a) (beyond : Memory) :
    e.handlePacket { a with beyond := beyond } = e.handlePacket a := by
  rw [Exposed, not_or] at h
  cases hf : Frame.ofBytes a.pkt with
  | none => simp only [Engine.handlePacket, hf]
  | some f =>
    have hpeek : ¬ Peeked e.cfg (f.appendPath kTierSwitch) a.ingressPort := fun hp => h.1 ⟨f,hf,hp⟩
    rw [handlePacket_frame hf, handlePacket_frame (a := { a with beyond := beyond }) hf]
    simp only [Engine.handleFrame, route_agree a.beyond beyond hpeek]
    cases hr : route e.cfg (f.appendPath kTierSwitch) a.ingressPort a.beyond with
    | decided => rfl
    | process p =>
      have htarget : e.target a = some (p,f.appendPath kTierSwitch) := by
        simp only [Engine.target, hf, hr]
      have hsame : e.process p (f.appendPath kTierSwitch) beyond a.nowNs =
          e.process p (f.appendPath kTierSwitch) a.beyond a.nowNs := by
        refine process_agree (fun hp ho => ?_) fun hp hempty hup => hpeek ?_
        · rw [hp] at htarget
          exact h.2 ⟨_,htarget,ho⟩
        · obtain ⟨hprim,hexc⟩ := route_process hr
          refine ⟨route_mode hr,hempty,hup,?_⟩
          by_cases hin : a.ingressPort = e.cfg.fallbackPortIndex
          · rw [if_pos hin, hprim]
            exact some_ne_none p
          · rw [if_neg hin, hprim, hp]
            exact ⟨hexc,rfl⟩
      simp only [hsame]

lemma handlePacket_action (hf : Frame.ofBytes a.pkt = some f) :
    (e.handlePacket a).decision.action =
      match route e.cfg (f.appendPath kTierSwitch) a.ingressPort a.beyond with
      | .decided action => action
      | .process p =>
        (e.process p (f.appendPath kTierSwitch) a.beyond a.nowNs).decision.action := by
  rw [handlePacket_frame hf, Engine.handleFrame]
  cases route e.cfg (f.appendPath kTierSwitch) a.ingressPort a.beyond <;> rfl

lemma handlePacket_peeked (hf : Frame.ofBytes a.pkt = some f) (h : Peeked e.cfg f a.ingressPort) :
    ∃ b b' : Memory, e.handlePacket { a with beyond := b } ≠ e.handlePacket
    { a with beyond := b' } := by
  obtain ⟨hmode,hpay,hup,hif⟩ := h
  have hempty : (f.appendPath kTierSwitch).payload = [] := hpay
  have haction := fun b : Memory => handlePacket_action (e := e) (a := { a with beyond := b }) hf
  by_cases hin : a.ingressPort = e.cfg.fallbackPortIndex
  · -- 2 is the code of a response of every primitive, 1 the code of a request.
    rw [if_pos hin] at hif
    obtain ⟨p,hp⟩ := ne_none_iff_exists'.mp hif
    have hprim : Primitive.ofCode (f.appendPath kTierSwitch).hdr.primitiveType = some p := hp
    have hyes : isResponse (f.appendPath kTierSwitch) (fun _ => 2) := by
      simp only [isResponse, hempty, hprim]
      cases p <;> rfl
    have hno : isResponse (f.appendPath kTierSwitch) (fun _ => 1) = false := by
      simp only [isResponse, hempty, hprim]
      cases p <;> rfl
    refine ⟨fun _ => 2,fun _ => 1,fun heq => ?_⟩
    have hact := congrArg (fun r => r.decision.action) heq
    simp only [haction] at hact
    simp only [route, hmode, hyes, hno, hin, hup, hprim] at hact
    by_cases hexc : (f.appendPath kTierSwitch).hdr.exceptionType = 0
    · simp [hexc, process_empty _ _ hempty hexc] at hact
    · simp [hexc] at hact
  · rw [if_neg hin] at hif
    have hexc : (f.appendPath kTierSwitch).hdr.exceptionType = 0 := hif.1
    have hprim : Primitive.ofCode (f.appendPath kTierSwitch).hdr.primitiveType = some .lock := hif.2
    refine ⟨fun _ => 3,fun _ => 1,fun heq => ?_⟩
    have hact := congrArg (fun r => r.decision.action) heq
    simp [haction, route, hmode, hin, hexc, hprim, hup, process_empty _ _ hempty hexc] at hact

lemma handlePacket_overread (ht : e.target a = some (.paxos,f))
    (h : Overreads e.paxos (view f.payload a.beyond) f.payload.length) :
    ∃ b : Memory, e.handlePacket { a with beyond := b } ≠ e.handlePacket a := by
  set b := flipped (view f.payload a.beyond) f.payload.length with hb
  have hview : view f.payload b = b := by
    funext i
    by_cases hi : i < f.payload.length
    · rw [hb, ← flipped_agree _ _ i hi]
      exact view_inside _ _ hi
    · simp [view, hi]
  have hdiffer : Differ (paxosOutcome e f b) (paxosOutcome e f a.beyond) := by
    rw [paxosOutcome, paxosOutcome, hview]
    exact handleMessage_differ h
  have hpay : f.payload ≠ [] := by
    obtain ⟨_,hparse,-,-⟩ := h
    intro hempty
    simp [hempty, PaxosProto.parse] at hparse
  have ht' : e.target { a with beyond := b } = some (.paxos,f) := by
    obtain ⟨g,hg,rfl,-,-⟩ := target_frame ht
    have hroute := route_agree a.beyond b
      fun hp : Peeked e.cfg (g.appendPath kTierSwitch) a.ingressPort => hpay hp.2.1
    simp only [Engine.target, hg, hroute] at ht ⊢
    exact ht
  refine ⟨b,fun heq => ?_⟩
  rw [handlePacket_target ht', handlePacket_target ht, Result.mk.injEq] at heq
  rcases handlePaxos_differ hdiffer with hne | hne
  · exact hne heq.1
  · refine hne (some.inj ?_)
    rw [← Frame.ofBytes_bytes, ← Frame.ofBytes_bytes]
    exact congrArg Frame.ofBytes heq.2.2

lemma handlePacket_agree_iff (e : Engine) (a : Arrival) :
    (∀ beyond : Memory, e.handlePacket { a with beyond := beyond } = e.handlePacket a) ↔
      ¬ Exposed e a := by
  refine ⟨fun hall => ?_,handlePacket_agree⟩
  rintro (⟨f,hf,hp⟩ | ⟨f,ht,ho⟩)
  · obtain ⟨b,b',hne⟩ := handlePacket_peeked hf hp
    exact hne ((hall b).trans (hall b').symm)
  · obtain ⟨b,hne⟩ := handlePacket_overread ht ho
    exact hne (hall b)

end

/-- Handling depends on the message alone: for locks and barriers always, for
Paxos unless a claimed value is copied that did not arrive, for the switch
unless it looks at a payload that is missing or hands Paxos such a message. -/
theorem outcome_of_message_iff (paxos : PaxosState.PaxosNode) (locks : LockState.LockManager)
    (barriers : BarrierState.BarrierManager) (m : Memory) (len : ℕ) (nowNs : UInt64) (e : Engine)
    (a : Arrival) :
    ((∀ m', Agree len m m' → paxos.handleMessage m' len = paxos.handleMessage m len) ↔
      ¬ Overreads paxos m len) ∧
    (∀ m', Agree len m m' →
      locks.handleMessage m' len nowNs = locks.handleMessage m len nowNs) ∧
    (∀ m', Agree len m m' → barriers.handleMessage m' len = barriers.handleMessage m len) ∧
    ((∀ beyond, e.handlePacket { a with beyond := beyond } = e.handlePacket a) ↔
      ¬ Exposed e a) := by
  refine ⟨⟨fun hall ho => ?_,fun h _ ha => handleMessage_agree h ha⟩,
    fun _ h => lock_handleMessage_agree locks h nowNs,
    fun _ h => barrier_handleMessage_agree barriers h,handlePacket_agree_iff e a⟩
  exact (handleMessage_differ ho).ne (hall _ (flipped_agree m len))

/-- An ACCEPT that claims a value of one byte and ends before it. -/
def bareAccept : List UInt8 := [3,1,3,0, 7,0,0,0, 1,0,0,0,1,0,0,0, 1,0]

/-- A lock packet from port 0 that ends with its header. -/
def bareLock : Arrival where
  pkt := Frame.bytes ⟨⟨0,0,0,0,0,0⟩,⟨0,0,0,0,0,0⟩,⟨2,0,0,0,0,0,0⟩,[]⟩
  ingressPort := 0
  nowNs := 0
  beyond := fun _ => 0

theorem outcome_beyond_message :
    Agree 18 (view bareAccept fun _ => 1) (view bareAccept fun _ => 2) ∧
    ((PaxosState.PaxosNode.new 0 3 1).handleMessage (view bareAccept fun _ => 1) 18).out ≠
      ((PaxosState.PaxosNode.new 0 3 1).handleMessage (view bareAccept fun _ => 2) 18).out ∧
    ((init { fallbackPortIndex := 1 } 1 1 1).handlePacket
        { bareLock with beyond := fun _ => 3 }).decision ≠
      ((init { fallbackPortIndex := 1 } 1 1 1).handlePacket bareLock).decision := by
  exact ⟨Agree.view bareAccept _ _,by decide +kernel⟩

end SimBricks.PacketBounds
