import SimBricks.Hcop.BarrierPeriods
import SimBricks.Tiers.Traffic

/-!
# Barriers across two tiers

The switch passes late and overflowing arrivals on to the DPU, which counts
them from generation 0 on towards two participants. What a tier releases is
right as long as the DPU completes no round of its own, unless the switch
counts to two as well and has no room for the barrier.
-/

set_option autoImplicit false

namespace SimBricks.Tiers
open Library Library.Run Library.Bytes HcopProto PrimitiveEngine List Function UInt16
open BarrierProto (MsgHeader Msg parse)
open BarrierState (Barrier BarrierManager Outcome makeRelease)
open BarrierPeriods (Period Watch InStep Observed Tallied)
open DpuDevice (Device DpuConfig ProcessingEvent)

def System.barriers (s : System) : Tier → BarrierManager
  | .switch => s.switch.barriers
  | .dpu => s.dpu.barriers

def Call.arrive (c : Call) : Option (Tier × MsgHeader) :=
  match c.primitive with
  | .barrier => (parse (view c.frame.payload c.beyond) c.frame.payload.length).map (c.tier,·)
  | _ => none

def System.barrierCall (s : System) (ev : Event) : Option (Tier × MsgHeader) :=
  (s.call ev).bind Call.arrive

def arriveAt (m : BarrierManager) (hdr : MsgHeader) : Outcome :=
  m.arrive hdr.barrierId hdr.generation hdr.senderId

structure Release where
  tier : Tier
  barrierId : UInt32
  generation : UInt16
  deriving DecidableEq, Repr

def releasesOf (t : Tier) (o : Outcome) : List Release :=
  o.out.map fun m => ⟨t,m.msg.hdr.barrierId,m.msg.hdr.generation⟩

def System.releases (s : System) (ev : Event) : List Release :=
  match s.barrierCall ev with
  | none => []
  | some (t,hdr) => releasesOf t (arriveAt (s.barriers t) hdr)

def Arrival.arrive (a : Arrival) : Option MsgHeader :=
  match Frame.ofBytes a.pkt with
  | none => none
  | some f =>
    if Primitive.ofCode f.hdr.primitiveType = some .barrier then
      parse (view f.payload a.beyond) f.payload.length
    else none

def System.clientArrive (s : System) : Event → Option MsgHeader
  | .client a => if a.ingressPort = s.dpuPort then none else Arrival.arrive a
  | _ => none

structure Watched where
  sys : System
  sent : List MsgHeader
  released : List Release

def Watched.step (w : Watched) (ev : Event) : Watched where
  sys := w.sys.step ev
  sent := w.sent++(w.sys.clientArrive ev).toList
  released := w.released++w.sys.releases ev

def Watched.init (cfg : SwitchConfig) (paxosCapacity lockCapacity barrierCapacity : UInt64)
    (numPorts : ℕ) (dpu : DpuConfig) : Watched :=
  ⟨.init cfg paxosCapacity lockCapacity barrierCapacity numPorts dpu,[],[]⟩

def senders (sent : List MsgHeader) (barrierId : UInt32) (generation : UInt16) : Finset UInt8 :=
  ((sent.filter fun h => h.barrierId = barrierId ∧ h.generation = generation).map
    MsgHeader.senderId).toFinset

/-- Every RELEASE came after `n` distinct senders, and none came twice. -/
def Orderly (n : ℕ) (w : Watched) : Prop :=
  (∀ r ∈ w.released, n ≤ (senders w.sent r.barrierId r.generation).card) ∧
  (w.released.map fun r => (r.barrierId,r.generation)).Nodup

def generations (t : Tier) (barrierId : UInt32) (released : List Release) : List UInt16 :=
  (released.filter fun r => r.tier = t ∧ r.barrierId = barrierId).map Release.generation

/-- A client's ARRIVE: no exception, a sender with a bit of its own. -/
def ArrivePacket (a : Arrival) : Prop :=
  ∃ f hdr, Frame.ofBytes a.pkt = some f ∧ f.hdr.exceptionType = 0 ∧
    Arrival.arrive a = some hdr ∧ hdr.senderId < 64

/-- The switch's table is full without the barrier. -/
def Overflowed (switch : BarrierManager) (barrierId : UInt32) : Prop :=
  Table.Closed switch.maxBarriers.toNat switch.barriers.keys barrierId
  deriving Decidable

/-- The ARRIVE is the last one that the manager waits for. -/
def LastArrival (m : BarrierManager) (hdr : MsgHeader) : Prop :=
  ∃ b ∈ m.barriers.lookup hdr.barrierId, hdr.generation = b.currentGeneration ∧
    b.marked hdr.senderId = false ∧ b.numParticipants ≤ b.arrivedCount+1
  deriving Decidable

/-- The DPU completes a round that is the switch's, or with too few senders. -/
def OutOfTurn (n : ℕ) (s : System) (ev : Event) : Prop :=
  ∃ c ∈ s.barrierCall ev, c.1 = .dpu ∧ LastArrival s.dpu.barriers c.2 ∧
    ¬ (n = 2 ∧ Overflowed s.switch.barriers c.2.barrierId)
  deriving Decidable

/-! ## The managers move with the calls -/

def counted (barriers : Tier → BarrierManager) : Option (Tier × MsgHeader) → Tier → BarrierManager
  | none => barriers
  | some (t,hdr) => update barriers t (arriveAt (barriers t) hdr).mgr

lemma handleMessage_counted (barriers : Tier → BarrierManager) (t : Tier) (f : Frame)
    (beyond : Memory) :
    update barriers t ((barriers t).handleMessage (view f.payload beyond) f.payload.length).mgr =
    counted barriers (Call.arrive ⟨t,.barrier,f,beyond⟩) := by
  unfold BarrierManager.handleMessage Call.arrive
  cases parse (view f.payload beyond) f.payload.length with
  | none => exact update_eq_self t barriers
  | some => rfl

lemma switchIn_barriers (s : System) (a : Arrival) (n : ℕ) :
    (s.switchIn a n).barriers = counted s.barriers
    (((s.switch.target a).map fun (p,f) => ⟨.switch,p,f,a.beyond⟩).bind Call.arrive) := by
  have hs : (s.switchIn a n).barriers = update s.barriers .switch (s.switch.step a).barriers := by
    funext t
    cases t <;> rfl
  rw [hs, step_barriers]
  cases s.switch.target a with
  | none => exact update_eq_self _ _
  | some pf =>
    obtain ⟨p,f⟩ := pf
    cases p with
    | paxos | lock => exact update_eq_self _ _
    | barrier => exact handleMessage_counted s.barriers .switch f a.beyond

lemma dpuIn_barriers (s : System) (x : Flight) : (s.dpuIn x).barriers = s.barriers := by
  funext t
  cases t with
  | switch => rfl
  | dpu => exact (dpuIn_machines s x).2

lemma dpuTimed_barriers (s : System) (e : ProcessingEvent) (n : ℕ) (beyond : Memory) :
    (s.dpuTimed e n beyond).barriers = counted s.barriers
    (Call.arrive ⟨.dpu,e.primitive,e.frame,beyond⟩) := by
  have hs : (s.dpuTimed e n beyond).barriers =
      update s.barriers .dpu (s.dpu.handlePacket e beyond).1.barriers := by
    funext t
    cases t <;> rfl
  rw [hs, Device.handlePacket]
  cases e.primitive with
  | paxos | lock => exact update_eq_self _ _
  | barrier => exact handleMessage_counted s.barriers .dpu e.frame beyond

lemma system_barriers (s : System) (ev : Event) :
    (s.step ev).barriers = counted s.barriers (s.barrierCall ev) := by
  unfold System.barrierCall System.call
  cases step_moved s ev with
  | idle ha hf h =>
    rw [h, ha, hf]
    rfl
  | received x up ha hf _ _ h =>
    rw [h, ha, hf]
    exact dpuIn_barriers { s with up } x
  | handled a n down ha _ _ _ h =>
    rw [h, ha]
    exact switchIn_barriers { s with down } a n
  | finished e beyond n pending waiting ha hf _ _ h =>
    rw [h, ha, hf]
    exact dpuTimed_barriers { s with dpu := { s.dpu with pending }, waiting } e n beyond

/-! ## A RELEASE is sent -/

lemma arriveAt_out {m : BarrierManager} {hdr : MsgHeader} (h : (arriveAt m hdr).out ≠ []) :
    (arriveAt m hdr).status = .kRelease ∧
    (arriveAt m hdr).out = [makeRelease hdr.barrierId hdr.generation] := by
  unfold arriveAt at *
  cases m.arrive_spec hdr.barrierId hdr.generation hdr.senderId with
  | refused _ _ ho => simp [ho] at h
  | found b _ ho =>
    rw [ho] at h ⊢
    cases b.arrive_spec hdr.barrierId hdr.generation hdr.senderId with
    | elsewhere _ _ _ ho | duplicate _ _ _ _ ho | counted _ _ _ _ _ ho => exact absurd ho h
    | release hst _ _ _ _ ho => exact ⟨hst,ho⟩

/-! ## Rounds of one tier -/

lemma mem_senders {sent : List MsgHeader} {b : UInt32} {g : UInt16} {x : UInt8} :
    x ∈ senders sent b g ↔ ⟨x,g,b⟩ ∈ sent := by
  simp only [senders, mem_toFinset, mem_map, mem_filter, decide_eq_true_eq]
  constructor
  · rintro ⟨h,⟨hh,rfl,rfl⟩,rfl⟩
    exact hh
  · intro h
    exact ⟨_,⟨h,rfl,rfl⟩,rfl⟩

def logOf (o : Outcome) (b : UInt32) : List UInt16 :=
  (o.out.filter fun x => x.msg.hdr.barrierId = b).map fun x => x.msg.hdr.generation

/-- A manager that counts to `n`, seen as rounds of what was sent and released. -/
structure Counting (n : UInt16) (m : BarrierManager) (sent : List MsgHeader)
    (released : UInt32 → List UInt16) (period : UInt32 → Period) : Prop where
  inStep : InStep ⟨m,period⟩
  uniform : m.Uniform
  participants : m.defaultParticipants = n
  repeats : ∀ b, (period b).repeats = 0
  joined : ∀ b, ∀ x ∈ (period b).senders, ⟨x,(period b).generation,b⟩ ∈ sent
  log : ∀ b, released b = (List.range (period b).index).map UInt16.ofNat

section
variable {n : UInt16} {m : BarrierManager} {sent : List MsgHeader}
  {released : UInt32 → List UInt16} {period : UInt32 → Period} {hdr : MsgHeader}

lemma Counting.send (h : Counting n m sent released period) (new : List MsgHeader) :
    Counting n m (sent++new) released period :=
  { h with joined := fun b x hx => mem_append_left new (h.joined b x hx) }

variable (h : Counting n m sent released period)
include h

lemma Counting.move {p : Period}
    (hp : (Watch.observe ⟨m,period⟩ hdr (arriveAt m hdr)).period = update period hdr.barrierId p)
    (hrepeats : p.repeats = 0) (hjoined : ∀ x ∈ p.senders, ⟨x,p.generation,hdr.barrierId⟩ ∈ sent)
    (hlog : released hdr.barrierId++logOf (arriveAt m hdr) hdr.barrierId = (List.range p.index).map
    UInt16.ofNat) (hother : ∀ b, b ≠ hdr.barrierId → logOf (arriveAt m hdr) b = []) :
    Counting n (arriveAt m hdr).mgr sent (fun b => released b++logOf (arriveAt m hdr) b)
    (update period hdr.barrierId p) where
  inStep := by
    have hobs := h.inStep.observe hdr
    rw [← hp, ← Watch.observe_mgr ⟨m,period⟩ hdr]
    exact hobs
  uniform := (h.uniform.arrive _ _ _).1
  participants := (h.uniform.arrive _ _ _).2.trans h.participants
  repeats b := by
    by_cases hb : b = hdr.barrierId
    · subst hb
      simpa using hrepeats
    · simpa [hb] using h.repeats b
  joined b x hx := by
    by_cases hb : b = hdr.barrierId
    · subst hb
      simp only [update_self] at hx ⊢
      exact hjoined x hx
    · simp only [update_of_ne hb] at hx ⊢
      exact h.joined b x hx
  log b := by
    by_cases hb : b = hdr.barrierId
    · subst hb
      simpa using hlog
    · simpa [hb, hother b hb] using h.log b

lemma Counting.arrive (hsent : hdr ∈ sent) (hlow : hdr.senderId < 64) :
    ∃ period', Counting n (arriveAt m hdr).mgr sent (fun b => released b++logOf (arriveAt m hdr) b)
    period' := by
  have hnone : (arriveAt m hdr).out = [] → ∀ b, logOf (arriveAt m hdr) b = [] := by
    intro ho b
    rw [logOf, ho]
    rfl
  cases h.inStep.observed hdr with
  | passed hp ho =>
    refine ⟨_,h.move ?_ (h.repeats _) (h.joined _) ?_
      fun b _ => hnone ho b⟩
    · rw [update_eq_self]
      exact hp
    · rw [hnone ho, append_nil]
      exact h.log _
  | joined hg hp ho =>
    refine ⟨_,h.move hp ?_ ?_ ?_ fun b _ => hnone ho b⟩
    · simp [Period.join, UInt8.not_le.mpr hlow, h.repeats]
    · intro x hx
      rcases Finset.mem_insert.mp hx with rfl | hx
      · have hsame : (⟨hdr.senderId,hdr.generation,hdr.barrierId⟩ : MsgHeader) ∈ sent := hsent
        rw [hg] at hsame
        exact hsame
      · exact h.joined _ x hx
    · rw [hnone ho, append_nil]
      exact h.log _
  | released b hl hg hm hn hp ho =>
    have htallied : Tallied b (period hdr.barrierId) := h.inStep.tracked hl
    have hlog : ∀ b', logOf (arriveAt m hdr) b' =
        if hdr.barrierId = b' then [hdr.generation] else [] := by
      intro b'
      rw [logOf, arriveAt, ho]
      by_cases hb : hdr.barrierId = b' <;> simp [makeRelease, Msg.hdr, hb]
    refine ⟨_,h.move hp rfl (by simp [Period.next]) ?_ fun b' hb => ?_⟩
    · rw [hlog, if_pos rfl, h.log, hg.trans htallied.generation]
      simp [Period.next, range_succ, Period.generation]
    · rw [hlog, if_neg fun he => hb he.symm]

lemma Counting.lastArrival (hne : (arriveAt m hdr).out ≠ []) : LastArrival m hdr := by
  cases h.inStep.observed hdr with
  | passed _ ho | joined _ _ ho => exact absurd ho hne
  | released b hl hg hm hn => exact ⟨b,hl,hg,hm,hn⟩

/-- A round that is complete has enough senders. -/
lemma Counting.complete (hsent : hdr ∈ sent) (hlow : hdr.senderId < 64)
    (hlast : LastArrival m hdr) : n.toNat ≤ (senders sent hdr.barrierId hdr.generation).card := by
  obtain ⟨b,hl,hg,hm,hn⟩ := hlast
  have htallied : Tallied b (period hdr.barrierId) := h.inStep.tracked hl
  have hgen := hg.trans htallied.generation
  have hsize : b.numParticipants = n := (h.uniform _ b hl).trans h.participants
  have hrepeats : ((period hdr.barrierId).join hdr.senderId).repeats = 0 := by
    simp [Period.join, UInt8.not_le.mpr hlow, h.repeats]
  have hcount := htallied.join_count hm
  have hle := le_iff_toNat_le.mp hn
  rw [htallied.count_succ, ← hcount, hrepeats, add_zero, hsize] at hle
  refine hle.trans (Finset.card_le_card fun x hx => mem_senders.mpr ?_)
  rcases Finset.mem_insert.mp hx with rfl | hx
  · exact hsent
  · rw [hgen]
    exact h.joined _ x hx

omit h

end

/-! ## Both tiers -/

def quorum (n : UInt16) : Tier → UInt16
  | .switch => n
  | .dpu => 2

structure Rounds (n : UInt16) (barriers : Tier → BarrierManager) (sent : List MsgHeader)
    (released : List Release) (period : Tier → UInt32 → Period) : Prop where
  below : ∀ h ∈ sent, h.senderId < 64
  counting : ∀ t, Counting (quorum n t) (barriers t) sent (fun b => generations t b released)
    (period t)
  enough : ∀ r ∈ released, n.toNat ≤ (senders sent r.barrierId r.generation).card
  apart : ∀ r ∈ released, r.tier = .dpu → Overflowed (barriers .switch) r.barrierId

lemma generations_append (t : Tier) (b : UInt32) (released new : List Release) :
    generations t b (released++new) = generations t b released++generations t b new := by
  simp [generations]

lemma generations_releasesOf (t t' : Tier) (b : UInt32) (o : Outcome) :
    generations t' b (releasesOf t o) = if t = t' then logOf o b else [] := by
  unfold generations releasesOf logOf
  by_cases ht : t = t'
  · simp [ht, filter_map, comp_def]
  · simp [ht, filter_map, comp_def]

section
variable {n : UInt16} {barriers : Tier → BarrierManager} {sent : List MsgHeader}
  {released : List Release} {period : Tier → UInt32 → Period}

lemma Rounds.send (h : Rounds n barriers sent released period) {new : List MsgHeader}
    (hnew : ∀ h ∈ new, h.senderId < 64) : Rounds n barriers (sent++new) released period where
  below x hx := (mem_append.mp hx).elim (h.below x) (hnew x)
  counting t := (h.counting t).send new
  enough r hr := (h.enough r hr).trans (Finset.card_le_card fun _ hx =>
    mem_senders.mpr (mem_append_left new (mem_senders.mp hx)))
  apart := h.apart

/-- The switch never makes room again. -/
lemma overflowed_counted {t : Tier} {hdr : MsgHeader} {b : UInt32}
    (h : Overflowed (barriers .switch) b) :
    Overflowed (counted barriers (some (t,hdr)) .switch) b := by
  by_cases hs : Tier.switch = t
  · subst hs
    obtain ⟨hgrow,hmax⟩ := (barriers .switch).arrive_grows hdr.barrierId hdr.generation hdr.senderId
    simp only [counted, update_self, Overflowed, arriveAt]
    rw [hmax]
    exact hgrow.closed h
  · simpa [counted, update_of_ne hs] using h

lemma Rounds.call (h : Rounds n barriers sent released period) {t : Tier} {hdr : MsgHeader}
    (hsent : hdr ∈ sent)
    (hturn : t = .dpu → LastArrival (barriers .dpu) hdr →
      n.toNat = 2 ∧ Overflowed (barriers .switch) hdr.barrierId) :
    ∃ period', Rounds n (counted barriers (some (t,hdr))) sent
      (released++releasesOf t (arriveAt (barriers t) hdr)) period' := by
  have hlow := h.below hdr hsent
  obtain ⟨p,hp⟩ := (h.counting t).arrive hsent hlow
  have hnew : ∀ r ∈ releasesOf t (arriveAt (barriers t) hdr),
      r = ⟨t,hdr.barrierId,hdr.generation⟩ ∧ LastArrival (barriers t) hdr := by
    intro r hr
    have hne : (arriveAt (barriers t) hdr).out ≠ [] := by
      intro ho
      simp [releasesOf, ho] at hr
    rw [releasesOf, (arriveAt_out hne).2] at hr
    exact ⟨mem_singleton.mp hr,(h.counting t).lastArrival hne⟩
  refine ⟨update period t p,h.below,fun t' => ?_,fun r hr => ?_,fun r hr ht => ?_⟩
  · simp only [generations_append, generations_releasesOf]
    by_cases ht : t' = t
    · subst ht
      simpa [counted] using hp
    · simpa [counted, update_of_ne ht, if_neg (Ne.symm ht)] using
        h.counting t'
  · rcases mem_append.mp hr with hr | hr
    · exact h.enough r hr
    · obtain ⟨rfl,hlast⟩ := hnew r hr
      have hcard := (h.counting t).complete hsent hlow hlast
      cases t with
      | switch => exact hcard
      | dpu =>
        rw [(hturn rfl hlast).1]
        exact hcard
  · apply overflowed_counted
    rcases mem_append.mp hr with hr | hr
    · exact h.apart r hr ht
    · obtain ⟨rfl,hlast⟩ := hnew r hr
      obtain rfl : t = .dpu := ht
      exact (hturn rfl hlast).2

/-! ## No RELEASE twice -/

lemma count_split (released : List Release) (b : UInt32) (g : UInt16) :
    (released.map fun r => (r.barrierId,r.generation)).count (b,g) =
    (generations .switch b released).count g+(generations .dpu b released).count g := by
  induction released with
  | nil => rfl
  | cons r released ih =>
    have hcons : ∀ t, generations t b (r::released) =
        (if r.tier = t ∧ r.barrierId = b then [r.generation] else [])++
          generations t b released := by
      intro t
      by_cases ht : r.tier = t ∧ r.barrierId = b <;> simp [generations, ht]
    rw [map_cons, count_cons, ih, hcons, hcons, count_append, count_append]
    obtain ⟨t,b',g'⟩ := r
    by_cases hb : b' = b
    · by_cases hg : g' = g
      · cases t <;> simp [hb, hg] <;> omega
      · cases t <;> simp [hb, hg]
    · cases t <;> simp [hb]

lemma nodup_generations {m : ℕ} (h : m < 65536) : ((List.range m).map UInt16.ofNat).Nodup := by
  refine List.Nodup.map_on ?_ nodup_range
  intro i hi j hj hij
  have hlt : ∀ {i}, i ∈ range m → i < 2^16 := fun hi => by
    have := mem_range.mp hi
    omega
  have hnat := congrArg toNat hij
  rwa [toNat_ofNat_of_lt' (hlt hi), toNat_ofNat_of_lt' (hlt hj)] at hnat

lemma Rounds.nodup (h : Rounds n barriers sent released period)
    (hfew : ∀ t b, (generations t b released).length < 65536) :
    (released.map fun r => (r.barrierId,r.generation)).Nodup := by
  have hone : ∀ t b g, (generations t b released).count g ≤ 1 := by
    intro t b g
    have hlog := (h.counting t).log b
    have hlen := hfew t b
    rw [hlog, length_map, length_range] at hlen
    rw [hlog]
    exact nodup_iff_count_le_one.mp (nodup_generations hlen) g
  rw [nodup_iff_count_le_one]
  rintro ⟨b,g⟩
  rw [count_split]
  rcases eq_zero_or_pos ((generations .dpu b released).count g) with hdpu | hdpu
  · rw [hdpu]
    exact hone .switch b g
  · -- the DPU has released a generation, so the switch does not track the barrier
    obtain ⟨r,hr,-⟩ := mem_map.mp (count_pos_iff.mp hdpu)
    simp only [mem_filter, decide_eq_true_eq] at hr
    obtain ⟨hr,ht,rfl⟩ := hr
    have hover := h.apart r hr ht
    have hin := (h.counting .switch).inStep r.barrierId
    have hnone : (barriers .switch).barriers.lookup r.barrierId = none :=
      Finmap.lookup_eq_none.mpr fun hmem => hover.1 (Finmap.mem_keys.mpr hmem)
    simp only [hnone] at hin
    have hlog := (h.counting .switch).log r.barrierId
    rw [hin] at hlog
    rw [hlog]
    simpa using hone .dpu r.barrierId g

end

/-! ## Every run -/

def Known (sent : List MsgHeader) (payload : List UInt8) : Prop :=
  ∀ beyond, ∀ hdr ∈ parse (view payload beyond) payload.length, hdr ∈ sent

lemma handleMessage_release (m : BarrierManager) (data : Memory) (len : ℕ) :
    ∀ x ∈ (m.handleMessage data len).out, ∃ hdr, x.msg = .release hdr := by
  unfold BarrierManager.handleMessage
  cases parse data len with
  | none => simp
  | some hdr =>
    intro x hx
    obtain ⟨-,ho⟩ := arriveAt_out (m := m) (ne_nil_of_mem hx)
    rw [arriveAt] at ho
    rw [ho, mem_singleton] at hx
    exact ⟨_,by rw [hx]; rfl⟩

lemma known_answering (sent : List MsgHeader) (s : System) : Answering .barrier (Known sent) s := by
  have hrelease : ∀ {m : BarrierManager} {data : Memory} {len : ℕ},
      ∀ x ∈ (m.handleMessage data len).out.map BarrierState.OutMessage.data, Known sent x := by
    intro m data len x hx beyond hdr hhdr
    obtain ⟨y,hy,rfl⟩ := mem_map.mp hx
    obtain ⟨r,hr⟩ := handleMessage_release m data len y hy
    rw [BarrierState.OutMessage.data, hr, BarrierProto.parse_serialize] at hhdr
    cases hhdr
  refine ⟨fun f beyond now => hrelease,fun e beyond he => ?_⟩
  unfold Device.answers
  rw [he]
  exact hrelease

lemma client_known {s : System} {ev : Event} {sent : List MsgHeader} {a : Arrival}
    (hev : ev = .client a) (ha : s.arrival ev = some a) :
    PacketCarries .barrier (Known (sent++(s.clientArrive ev).toList)) a.pkt := by
  intro f hf hp beyond hdr hhdr
  subst hev
  have hport : ¬ a.ingressPort = s.dpuPort := by
    intro hport
    simp [System.arrival, hport] at ha
  have harrive : s.clientArrive (.client a) = some hdr := by
    rw [System.clientArrive, if_neg hport, Arrival.arrive, hf]
    simp only [hp, if_true]
    rw [BarrierProto.parse_beyond f.payload a.beyond beyond]
    exact hhdr
  simp [harrive]

def Accounted (n : UInt16) (w : Watched) : Prop := Underway .barrier (Known w.sent) w.sys ∧
    ∃ period, Rounds n w.sys.barriers w.sent w.released period

section
variable {n : UInt16} {w : Watched} {ev : Event}

lemma clientArrive_below (hev : ∀ a, ev = .client a → ArrivePacket a) :
    ∀ h ∈ (w.sys.clientArrive ev).toList, h.senderId < 64 := by
  intro h hh
  cases ev with
  | client a =>
    obtain ⟨f,hdr,-,-,harrive,hlow⟩ := hev a rfl
    rw [System.clientArrive, harrive] at hh
    split_ifs at hh
    · simp at hh
    · obtain rfl : h = hdr := by simpa using hh
      exact hlow
  | fromDpu i now beyond | toDpu i | timed i beyond => simp [System.clientArrive] at hh

lemma Accounted.step (h : Accounted n w) (hev : ∀ a, ev = .client a → ArrivePacket a)
    (hturn : ¬ OutOfTurn n.toNat w.sys ev) : Accounted n (w.step ev) := by
  obtain ⟨hunder,period,hrounds⟩ := h
  have hmore : Underway .barrier (Known (w.step ev).sent) w.sys :=
    hunder.mono fun x hx beyond hdr hhdr => mem_append_left _ (hx beyond hdr hhdr)
  have hclient : ∀ a, ev = .client a → w.sys.arrival ev = some a →
      PacketCarries .barrier (Known (w.step ev).sent) a.pkt := fun a he ha => client_known he ha
  have hsent : Rounds n w.sys.barriers (w.step ev).sent w.released period :=
    hrounds.send (clientArrive_below hev)
  refine ⟨hmore.step (known_answering _ _) hclient,?_⟩
  have hbarriers : (w.step ev).sys.barriers = counted w.sys.barriers (w.sys.barrierCall ev) :=
    system_barriers w.sys ev
  rw [hbarriers]
  cases hc : w.sys.barrierCall ev with
  | none =>
    have hnone : (w.step ev).released = w.released := by
      simp [Watched.step, System.releases, hc]
    rw [hnone]
    exact ⟨period,hsent⟩
  | some x =>
    obtain ⟨t,hdr⟩ := x
    have hsome : (w.step ev).released =
        w.released++releasesOf t (arriveAt (w.sys.barriers t) hdr) := by
      simp [Watched.step, System.releases, hc]
    rw [hsome]
    refine hsent.call ?_ ?_
    · obtain ⟨c,hcall,harrive⟩ := Option.bind_eq_some_iff.mp hc
      unfold Call.arrive at harrive
      cases hp : c.primitive with
      | paxos | lock => simp [hp] at harrive
      | barrier =>
        rw [hp] at harrive
        obtain ⟨_,hparse,heq⟩ := Option.map_eq_some_iff.mp harrive
        cases heq
        exact hmore.call hclient hcall hp c.beyond hdr hparse
    · rintro rfl hlast
      by_contra hnot
      exact hturn ⟨_,hc,rfl,hlast,hnot⟩

end

lemma accounted_init (cfg : SwitchConfig) (paxosCap lockCap barrierCap : UInt64) (numPorts : ℕ)
    (dpu : DpuConfig) :
    Accounted cfg.barrierDefaultParticipants.toUInt16
    (.init cfg paxosCap lockCap barrierCap numPorts dpu) := by
  refine ⟨⟨by simp [Watched.init, System.init],by simp [Watched.init, System.init],
    by simp [Watched.init, System.init, Device.new]⟩,fun _ _ => {},?_⟩
  refine ⟨by simp [Watched.init],fun t => ?_,by simp [Watched.init],by simp [Watched.init]⟩
  refine ⟨fun id => ?_,fun id b hb => ?_,?_,fun _ => rfl,by simp,fun _ => rfl⟩
  · cases t <;> rfl
  · cases t <;> cases hb
  · cases t <;> rfl

/-- If the DPU completes no round unless both tiers count to two and the
switch has no room for the barrier, then in every run every RELEASE of either
tier follows an ARRIVE from each of its participants, and none is repeated. -/
theorem barrier_tiers_sound (cfg : SwitchConfig) (paxosCap lockCap barrierCap : UInt64)
    (numPorts : ℕ) (dpu : DpuConfig) (es : List Event)
    (hes : ∀ a, Event.client a ∈ es → ArrivePacket a)
    (hturn : Along Watched.step
      (fun w ev => ¬ OutOfTurn cfg.barrierDefaultParticipants.toNat w.sys ev)
      (.init cfg paxosCap lockCap barrierCap numPorts dpu) es)
    (hfew : ∀ t b, (generations t b (run Watched.step
      (.init cfg paxosCap lockCap barrierCap numPorts dpu) es).released).length < 65536) :
    Orderly cfg.barrierDefaultParticipants.toNat (run Watched.step
      (.init cfg paxosCap lockCap barrierCap numPorts dpu) es) := by
  have hn : cfg.barrierDefaultParticipants.toUInt16.toNat = cfg.barrierDefaultParticipants.toNat :=
    UInt8.toNat_toUInt16 _
  have hkept : ∀ w, Accounted cfg.barrierDefaultParticipants.toUInt16 w → Along Watched.step
        (fun w ev => ¬ OutOfTurn cfg.barrierDefaultParticipants.toNat w.sys ev) w es →
      Accounted cfg.barrierDefaultParticipants.toUInt16 (run Watched.step w es) := by
    clear hturn hfew
    induction es with
    | nil => exact fun w hw _ => hw
    | cons ev es ih =>
      rintro w hw ⟨hnot,hrest⟩
      refine ih (fun a ha => hes a (mem_cons_of_mem _ ha)) _ (hw.step ?_ (hn ▸ hnot)) hrest
      rintro a rfl
      exact hes a mem_cons_self
  obtain ⟨-,_,hrounds⟩ :=
    hkept _ (accounted_init cfg paxosCap lockCap barrierCap numPorts dpu) hturn
  exact ⟨fun r hr => hn ▸ hrounds.enough r hr,hrounds.nodup hfew⟩

/-! ## Late and overflowing arrivals -/

def arriveFrame (sender : UInt8) (barrierId : UInt32) : Frame :=
  .request .barrier (Msg.arrive ⟨sender,0,barrierId⟩).serialize

def arriveArrival (sender : UInt8) (barrierId : UInt32) : Arrival :=
  ⟨(arriveFrame sender barrierId).bytes,1,0,fun _ => 0⟩

lemma arriveArrival_packet {sender : UInt8} (h : sender < 64) (barrierId : UInt32) :
    ArrivePacket (arriveArrival sender barrierId) := by
  have hf : Frame.ofBytes (arriveArrival sender barrierId).pkt =
      some (arriveFrame sender barrierId) := Frame.ofBytes_bytes _
  refine ⟨_,⟨sender,0,barrierId⟩,hf,rfl,?_,h⟩
  have hprim : Primitive.ofCode (arriveFrame sender barrierId).hdr.primitiveType = some .barrier :=
    rfl
  rw [Arrival.arrive, hf]
  simp only [hprim, if_true]
  exact BarrierProto.parse_serialize (.arrive ⟨sender,0,barrierId⟩) _

/-- The DPU is on port 0 of a switch with two ports. -/
def hall (participants : UInt8) (barrierCapacity : UInt64) : Watched :=
  .init { fallbackPortIndex := 0, barrierDefaultParticipants := participants }
    1000 1000 barrierCapacity 2 {}

lemma released_last {w : Watched} {es : List Event} {ev : Event} {t : Tier} {hdr : MsgHeader}
    (hc : (run Watched.step w es).sys.barrierCall ev = some (t,hdr)) :
    (run Watched.step w (es++[ev])).released = (run Watched.step w es).released++ releasesOf t
    (arriveAt ((run Watched.step w es).sys.barriers t) hdr) := by
  rw [run_append, run_cons, run_nil]
  simp [Watched.step, System.releases, hc]

def serve : Event := .timed 0 fun _ => 0

/-- Barrier 1 fills the switch's table, barrier 2 goes to the DPU. -/
def overflowing : List Event :=
  [.client (arriveArrival 0 1),.client (arriveArrival 0 2),.client (arriveArrival 1 2),
    .client (arriveArrival 1 1),.toDpu 0,.toDpu 0,serve]

lemma overflowing_packets (a : Arrival) (h : Event.client a ∈ overflowing++[serve]) :
    ArrivePacket a := by
  simp only [overflowing, serve, cons_append, nil_append, mem_cons,
    Event.client.injEq, reduceCtorEq, not_mem_nil, or_false] at h
  rcases h with rfl | rfl | rfl | rfl <;> exact arriveArrival_packet (by decide) _

theorem barrier_tiers_sound_two : (run Watched.step (hall 2 1) (overflowing++[serve])).released =
      [⟨.switch,1,0⟩,⟨.dpu,2,0⟩] ∧
    Orderly 2 (run Watched.step (hall 2 1) (overflowing++[serve])) := by
  have hcall : (run Watched.step (hall 2 1) overflowing).sys.barrierCall serve =
      some (.dpu,⟨1,0,2⟩) := by decide +kernel
  have hreleased : (run Watched.step (hall 2 1) (overflowing++[serve])).released =
      [⟨.switch,1,0⟩,⟨.dpu,2,0⟩] := by
    rw [released_last hcall]
    decide +kernel
  refine ⟨hreleased,barrier_tiers_sound
    { fallbackPortIndex := 0, barrierDefaultParticipants := 2 } 1000 1000 1 2 {}
    (overflowing++[serve]) overflowing_packets ?_ ?_⟩
  · refine (along_append _ _ _ _ _).mpr ⟨by decide +kernel,?_,trivial⟩
    rintro ⟨c,hc,-,-,hnot⟩
    cases hcall.symm.trans hc
    exact hnot ⟨rfl,by decide +kernel⟩
  · intro t b
    have hlen := congrArg length hreleased
    refine lt_of_le_of_lt (?_ : _ ≤ 2) (by decide)
    exact (length_map _).trans_le ((length_filter_le _ _).trans hlen.le)

/-- Three arrive, then two of them again. -/
def late : List Event :=
  [.client (arriveArrival 0 1),.client (arriveArrival 1 1),.client (arriveArrival 2 1),
    .client (arriveArrival 0 1),.client (arriveArrival 1 1),.toDpu 1,.toDpu 1,serve]

lemma late_packets (a : Arrival) (h : Event.client a ∈ late++[serve]) : ArrivePacket a := by
  simp only [late, serve, cons_append, nil_append, mem_cons, Event.client.injEq,
    reduceCtorEq, not_mem_nil, or_false] at h
  rcases h with rfl | rfl | rfl | rfl | rfl <;> exact arriveArrival_packet (by decide) _

/-- A generation is released by both tiers, and one is released by the DPU
when two of three participants have arrived. -/
theorem dpu_releases_again : (∀ a, Event.client a ∈ late++[serve] → ArrivePacket a) ∧
    (run Watched.step (hall 3 1000) (late++[serve])).released = [⟨.switch,1,0⟩,⟨.dpu,1,0⟩] ∧
    ¬ Orderly 3 (run Watched.step (hall 3 1000) (late++[serve])) ∧
    (∀ a, Event.client a ∈ overflowing++[serve] → ArrivePacket a) ∧
    (run Watched.step (hall 3 1) (overflowing++[serve])).released = [⟨.dpu,2,0⟩] ∧
    ¬ Orderly 3 (run Watched.step (hall 3 1) (overflowing++[serve])) := by
  have hlate : (run Watched.step (hall 3 1000) late).sys.barrierCall serve =
      some (.dpu,⟨1,0,1⟩) := by decide +kernel
  have htwice : (run Watched.step (hall 3 1000) (late++[serve])).released =
      [⟨.switch,1,0⟩,⟨.dpu,1,0⟩] := by
    rw [released_last hlate]
    decide +kernel
  have hover : (run Watched.step (hall 3 1) overflowing).sys.barrierCall serve =
      some (.dpu,⟨1,0,2⟩) := by decide +kernel
  have hearly : (run Watched.step (hall 3 1) (overflowing++[serve])).released = [⟨.dpu,2,0⟩] := by
    rw [released_last hover]
    decide +kernel
  refine ⟨late_packets,htwice,fun h => ?_,overflowing_packets,hearly,fun h => ?_⟩
  · have hnodup := h.2
    rw [htwice] at hnodup
    exact absurd hnodup (by decide)
  · have hcard := h.1 ⟨.dpu,2,0⟩ (by rw [hearly]; exact mem_cons_self)
    exact absurd hcard (by decide +kernel)

end SimBricks.Tiers
