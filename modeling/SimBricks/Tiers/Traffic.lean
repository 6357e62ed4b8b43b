import SimBricks.Tiers.System

/-!
# What is under way between the tiers

A property of the payloads of one primitive holds of every frame under way if
the clients send no other and the state machines answer no other: the tiers
change the header of a frame and forward it, or they answer.
-/

set_option autoImplicit false

namespace SimBricks.Tiers
open Library.Bytes HcopProto PrimitiveEngine List
open DpuDevice (Device ProcessingEvent Receipt Reply buildFrame)

inductive Tier where
  | switch | dpu
  deriving DecidableEq, Repr

def Tier.other : Tier → Tier
  | .switch => .dpu
  | .dpu => .switch

section
variable (p : Primitive) (M : List UInt8 → Prop)

def Carries (f : Frame) : Prop := Primitive.ofCode f.hdr.primitiveType = some p → M f.payload

def PacketCarries (pkt : List UInt8) : Prop := ∀ f ∈ Frame.ofBytes pkt, Carries p M f

def EventCarries (e : ProcessingEvent) : Prop :=
  Carries p M e.frame ∧ Primitive.ofCode e.frame.hdr.primitiveType = some e.primitive

structure Underway (s : System) : Prop where
  up : ∀ x ∈ s.up, PacketCarries p M x.pkt
  down : ∀ x ∈ s.down, PacketCarries p M x.pkt
  pending : ∀ e ∈ s.dpu.pending, EventCarries p M e

/-- Neither state machine of the primitive answers anything else. -/
structure Answering (s : System) : Prop where
  switch : ∀ f beyond now, ∀ x ∈ s.switch.answers f beyond p now, M x
  dpu : ∀ e beyond, e.primitive = p → ∀ x ∈ s.dpu.answers e beyond, M x

end

section
variable {p : Primitive} {M M' : List UInt8 → Prop} {f g : Frame} {s : System} {ev : Event}

lemma packetCarries_bytes : PacketCarries p M f.bytes ↔ Carries p M f := by
  simp [PacketCarries, Frame.ofBytes_bytes]

lemma Carries.congr (h : Carries p M f) (hp : g.hdr.primitiveType = f.hdr.primitiveType)
    (hpay : g.payload = f.payload) : Carries p M g := by
  unfold Carries
  rw [hp, hpay]
  exact h

lemma PacketCarries.mono {pkt : List UInt8} (h : PacketCarries p M pkt)
    (hM : ∀ x, M x → M' x) : PacketCarries p M' pkt :=
  fun f hf hp => hM _ (h f hf hp)

lemma Underway.mono (h : Underway p M s) (hM : ∀ x, M x → M' x) : Underway p M' s where
  up x hx := (h.up x hx).mono hM
  down x hx := (h.down x hx).mono hM
  pending e he := ⟨fun hp => hM _ ((h.pending e he).1 hp),(h.pending e he).2⟩

lemma handlePacket_carries (h : Answering p M s) {a : Arrival} (ha : PacketCarries p M a.pkt) :
    PacketCarries p M (s.switch.handlePacket a).pkt := by
  cases hf : Frame.ofBytes a.pkt with
  | none =>
    rw [(handlePacket_other hf).2.1]
    exact ha
  | some f =>
    have hcarries : Carries p M (f.appendPath kTierSwitch) := (ha f hf).congr rfl rfl
    rw [handlePacket_frame hf, packetCarries_bytes, Engine.handleFrame]
    cases hr : route s.switch.cfg (f.appendPath kTierSwitch) a.ingressPort a.beyond with
    | decided => exact hcarries
    | process q =>
      obtain ⟨hprim,hsame | hanswer⟩ :=
        process_frame s.switch (f.appendPath kTierSwitch) a.beyond q a.nowNs
      · exact hcarries.congr hprim hsame
      · intro hp
        obtain rfl : q = p := by
          have hq := (route_process hr).1
          exact Option.some.inj (hq.symm.trans ((congrArg Primitive.ofCode hprim).symm.trans hp))
        exact h.switch _ _ _ _ hanswer

lemma switchIn_underway (h : Underway p M s) (hans : Answering p M s) {a : Arrival}
    (ha : PacketCarries p M a.pkt) (n : ℕ) : Underway p M (s.switchIn a n) := by
  refine ⟨?_,h.down,h.pending⟩
  intro x hx
  rcases mem_append.mp hx with hx | hx
  · exact h.up x hx
  · obtain ⟨_,-,rfl⟩ := mem_map.mp hx
    exact handlePacket_carries hans ha

lemma receive_carries (d : Device) {pkt : List UInt8} (h : PacketCarries p M pkt) :
    match d.receive 0 pkt with
    | .dropped => True
    | .escalated f => Carries p M f
    | .queued _ e => EventCarries p M e := by
  unfold Device.receive
  cases hf : Frame.ofBytes pkt with
  | none => trivial
  | some f =>
    have hcarries := h f hf
    dsimp only
    cases hp : Primitive.ofCode f.hdr.primitiveType with
    | none => trivial
    | some =>
      cases d.corePool.tryAcquire with
      | none => exact hcarries.congr rfl rfl
      | some => exact ⟨hcarries.congr rfl rfl,hp⟩

/-- Reception leaves the state machines of the DPU as they are. -/
lemma dpuIn_machines (s : System) (x : Flight) :
    (s.dpuIn x).dpu.locks = s.dpu.locks ∧ (s.dpuIn x).dpu.barriers = s.dpu.barriers := by
  unfold System.dpuIn Device.ethRx
  cases s.dpu.receive 0 x.pkt <;> exact ⟨rfl,rfl⟩

lemma dpuIn_underway (h : Underway p M s) {x : Flight} (hx : PacketCarries p M x.pkt) :
    Underway p M (s.dpuIn x) := by
  have hr := receive_carries s.dpu hx
  unfold System.dpuIn Device.ethRx
  cases hc : s.dpu.receive 0 x.pkt with
  | dropped => exact ⟨h.up,by simpa using h.down,h.pending⟩
  | escalated =>
    rw [hc] at hr
    refine ⟨h.up,?_,h.pending⟩
    intro y hy
    rcases mem_append.mp hy with hy | hy
    · exact h.down y hy
    · rw [mem_singleton.mp hy]
      exact packetCarries_bytes.mpr hr
  | queued =>
    rw [hc] at hr
    refine ⟨h.up,by simpa using h.down,?_⟩
    intro y hy
    rcases mem_append.mp hy with hy | hy
    · exact h.pending y hy
    · rw [mem_singleton.mp hy]
      exact hr

lemma handlePacket_frames_carry (h : Answering p M s) {e : ProcessingEvent}
    (he : EventCarries p M e) (beyond : Memory) :
    ∀ f ∈ (s.dpu.handlePacket e beyond).2.frames, Carries p M f := by
  intro f hf
  rcases DpuDevice.handlePacket_frames s.dpu e beyond hf with rfl | ⟨x,hx,rfl⟩
  · exact he.1
  · intro hp
    have hcode : e.primitive = p :=
      Option.some.inj ((Primitive.ofCode_code e.primitive).symm.trans hp)
    exact h.dpu e beyond hcode x hx

lemma dpuTimed_underway (h : Underway p M s) (hans : Answering p M s) {e : ProcessingEvent}
    (he : EventCarries p M e) (n : ℕ) (beyond : Memory) : Underway p M (s.dpuTimed e n beyond) := by
  have hpend : (s.dpu.handlePacket e beyond).1.pending = s.dpu.pending := by
    unfold Device.handlePacket
    cases e.primitive <;> rfl
  have hframes : ∀ f ∈ (s.dpu.timed e beyond).2.frames, Carries p M f :=
    handlePacket_frames_carry hans he beyond
  refine ⟨h.up,?_,?_⟩
  · unfold System.dpuTimed
    dsimp only
    intro y hy
    rcases mem_append.mp hy with hy | hy
    · exact h.down y hy
    · cases hr : (s.dpu.timed e beyond).2 with
      | escalated f =>
        rw [hr] at hy hframes
        rw [mem_singleton.mp hy]
        exact packetCarries_bytes.mpr (hframes f mem_cons_self)
      | responses =>
        rw [hr] at hy hframes
        obtain ⟨f,hf,rfl⟩ := mem_map.mp hy
        exact packetCarries_bytes.mpr (hframes f hf)
  · show ∀ d ∈ (s.dpu.handlePacket e beyond).1.pending, EventCarries p M d
    rw [hpend]
    exact h.pending

lemma Underway.arrival (h : Underway p M s)
    (hev : ∀ a, ev = .client a → s.arrival ev = some a → PacketCarries p M a.pkt) {a : Arrival}
    (ha : s.arrival ev = some a) (hfrom : ev = .client a ∨ ∃ x ∈ s.down, x.pkt = a.pkt) :
    PacketCarries p M a.pkt := by
  rcases hfrom with rfl | ⟨x,hx,hpkt⟩
  · exact hev a rfl ha
  · rw [← hpkt]
    exact h.down x hx

lemma Underway.step (h : Underway p M s) (hans : Answering p M s)
    (hev : ∀ a, ev = .client a → s.arrival ev = some a → PacketCarries p M a.pkt) :
    Underway p M (s.step ev) := by
  cases step_moved s ev with
  | idle _ _ ht =>
    rw [ht]
    exact h
  | handled a n down ha _ hfrom hd ht =>
    rw [ht]
    have hs : Underway p M { s with down } := ⟨h.up,fun x hx => h.down x (hd x hx),h.pending⟩
    exact switchIn_underway hs ⟨hans.switch,hans.dpu⟩ (h.arrival hev ha hfrom) n
  | received x up _ _ hx hu ht =>
    rw [ht]
    have hs : Underway p M { s with up } := ⟨fun y hy => h.up y (hu y hy),h.down,h.pending⟩
    exact dpuIn_underway hs (h.up x hx)
  | finished e beyond n pending waiting _ _ he hp ht =>
    rw [ht]
    have hs : Underway p M { s with dpu := { s.dpu with pending }, waiting } :=
      ⟨h.up,h.down,fun d hd => h.pending d (hp d hd)⟩
    exact dpuTimed_underway hs ⟨hans.switch,hans.dpu⟩ (h.pending e he) n beyond

end

/-! ## Which state machine a step runs -/

structure Call where
  tier : Tier
  primitive : Primitive
  frame : Frame
  beyond : Memory

def System.call (s : System) (ev : Event) : Option Call :=
  match s.arrival ev, s.fired ev with
  | some a, _ => (s.switch.target a).map fun (p,f) => ⟨.switch,p,f,a.beyond⟩
  | none, some (e,beyond) => some ⟨.dpu,e.primitive,e.frame,beyond⟩
  | none, none => none

/-- A call sees what was under way, or what a client sent. -/
lemma Underway.call {p : Primitive} {M : List UInt8 → Prop} {s : System} {ev : Event}
    (h : Underway p M s)
    (hev : ∀ a, ev = .client a → s.arrival ev = some a → PacketCarries p M a.pkt) {c : Call}
    (hc : s.call ev = some c) (hp : c.primitive = p) : M c.frame.payload := by
  unfold System.call at hc
  cases step_moved s ev with
  | idle ha hf _ | received x up ha hf _ _ _ => simp [ha, hf] at hc
  | handled a n down ha _ hfrom =>
    have harrival := h.arrival hev ha hfrom
    rw [ha] at hc
    obtain ⟨⟨q,f⟩,ht,rfl⟩ := Option.map_eq_some_iff.mp hc
    obtain ⟨g,hg,rfl,hq,-⟩ := target_frame ht
    exact harrival g hg (hq.trans (congrArg some hp))
  | finished e beyond n pending waiting ha hf he =>
    rw [ha, hf] at hc
    cases hc
    obtain ⟨hcarries,hcode⟩ := h.pending e he
    exact hcarries (hcode.trans (congrArg some hp))

end SimBricks.Tiers
