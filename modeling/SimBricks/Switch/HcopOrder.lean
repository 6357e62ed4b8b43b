import SimBricks.Switch.HcopSwitch

/-!
# The order of packets in the HCOP switch

The queue knows nothing but time stamps. A packet whose event waits alone with
its stamp, after all earlier ones of its port, keeps its place; two packets of
a port that arrive at the same time are handed over as the heap has them.
-/

set_option autoImplicit false

namespace SimBricks.HcopOrder
open Library.Heap Library.Run BaseIf HcopSwitch List

def arrivedOn (i : ℕ) (log : List Seen) : List PacketEvent :=
  ((receptions log).map (·.2.1)).filter (·.ingressPort = i)

def handedOn (i : ℕ) (log : List Seen) : List PacketEvent :=
  ((handings log).map Prod.fst).filter (·.ingressPort = i)

/-- What waits of a port is the rest of what arrived, one after the other. -/
def InOrder (v : View) (log : List Seen) : Prop :=
  ∀ i, ∃ waiting : List PacketEvent, arrivedOn i log = handedOn i log++waiting ∧
    waiting.Pairwise (·.timestamp < ·.timestamp) ∧
    (waiting : Multiset PacketEvent) = v.queue.filter (·.ingressPort = i)

variable {ev : PacketEvent}

section
variable {n : ℕ} {latency : UInt64} {v w : View} {log out : List Seen} {i : ℕ}

@[simp] lemma arrivedOn_append : arrivedOn i (log++out) = arrivedOn i log++arrivedOn i out := by
  simp [arrivedOn]

@[simp] lemma handedOn_append : handedOn i (log++out) = handedOn i log++handedOn i out := by
  simp [handedOn]

variable {q : Multiset PacketEvent}

lemma filter_port_same (h : ev.ingressPort = i) :
    (ev ::ₘ q).filter (·.ingressPort = i) = ev ::ₘ q.filter (·.ingressPort = i) :=
  Multiset.filter_cons_of_pos q h

lemma filter_port_other (h : ¬ ev.ingressPort = i) :
    (ev ::ₘ q).filter (·.ingressPort = i) = q.filter (·.ingressPort = i) :=
  Multiset.filter_cons_of_neg q h

lemma head_of_earliest {l : List PacketEvent} (hl : l.Pairwise (·.timestamp < ·.timestamp))
    (hev : ev ∈ l) (hmin : ∀ x ∈ l, ev.timestamp ≤ x.timestamp) : ∃ rest, l = ev :: rest := by
  cases l with
  | nil => simp at hev
  | cons a rest =>
    rcases mem_cons.mp hev with rfl | hev
    · exact ⟨rest,rfl⟩
    · have hlt := (pairwise_cons.mp hl).1 ev hev
      exact absurd hlt (UInt64.not_lt.mpr (hmin a mem_cons_self))

lemma InOrder.quiet (h : InOrder v log) (hr : receptions out = []) (hh : handings out = [])
    (hq : w.queue = v.queue) : InOrder w (log++out) := by
  intro i
  have hr : arrivedOn i out = [] := by
    rw [arrivedOn, hr]
    rfl
  have hh : handedOn i out = [] := by
    rw [handedOn, hh]
    rfl
  rw [arrivedOn_append, handedOn_append, hr, hh, append_nil, append_nil, hq]
  exact h i

lemma InOrder.receive (h : InOrder v log) {m : ChannelMsg}
    (hclear : ∀ x ∈ v.queue, x.ingressPort = ev.ingressPort → x.timestamp < ev.timestamp)
    (hq : w.queue = ev ::ₘ v.queue) : InOrder w (log++[.received m ev v.curTs]) := by
  intro i
  obtain ⟨waiting,harr,hsorted,hw⟩ := h i
  have hhand : handedOn i [Seen.received m ev v.curTs] = [] := rfl
  have hnew : arrivedOn i [Seen.received m ev v.curTs] = [ev].filter (·.ingressPort = i) := rfl
  rw [arrivedOn_append, handedOn_append, hhand, append_nil, hq, hnew]
  by_cases hi : ev.ingressPort = i
  · refine ⟨waiting++[ev],?_,?_,?_⟩
    · rw [harr, append_assoc]
      simp [hi]
    · apply pairwise_append.mpr
      refine ⟨hsorted,pairwise_singleton _ ev,fun x hx y hy => ?_⟩
      have hx : x ∈ v.queue.filter (·.ingressPort = i) := by
        rw [← hw]
        exact hx
      obtain ⟨hx,hport⟩ := Multiset.mem_filter.mp hx
      rw [mem_singleton.mp hy]
      exact hclear x hx (hport.trans hi.symm)
    · rw [filter_port_same hi, ← hw, ← Multiset.coe_add, add_comm]
      rfl
  · refine ⟨waiting,?_,hsorted,?_⟩
    · rw [harr]
      simp [hi]
    · rw [filter_port_other hi]
      exact hw

/-- The event that is handed out is the first of its port. -/
lemma InOrder.hand (h : InOrder v log) (hq : v.queue = ev ::ₘ q) (hmin : ∀ x ∈ q, ev.due ≤ x.due)
    (hw : w.queue = q) : InOrder w (log++[.handed ev v.curTs]) := by
  intro i
  obtain ⟨waiting,harr,hsorted,hwait⟩ := h i
  have hrec : arrivedOn i [Seen.handed ev v.curTs] = [] := rfl
  have hnew : handedOn i [Seen.handed ev v.curTs] = [ev].filter (·.ingressPort = i) := rfl
  rw [arrivedOn_append, handedOn_append, hrec, append_nil, hw, hnew]
  rw [hq] at hwait
  by_cases hi : ev.ingressPort = i
  · rw [filter_port_same hi] at hwait
    have hmem : ∀ x, x ∈ waiting ↔ x = ev ∨ x ∈ q.filter (·.ingressPort = i) := by
      intro x
      rw [← Multiset.mem_cons, ← hwait]
      rfl
    obtain ⟨rest,rfl⟩ := head_of_earliest hsorted ((hmem ev).mpr (.inl rfl)) fun x hx => by
      rcases (hmem x).mp hx with rfl | hx
      · exact UInt64.le_refl _
      · exact UInt64.le_iff_toNat_le.mpr (hmin x (Multiset.mem_filter.mp hx).1)
    refine ⟨rest,?_,(pairwise_cons.mp hsorted).2,?_⟩
    · rw [harr, append_assoc]
      simp [hi]
    · rw [← Multiset.cons_coe] at hwait
      exact (Multiset.cons_inj_right ev).mp hwait
  · rw [filter_port_other hi] at hwait
    refine ⟨waiting,?_,hsorted,hwait⟩
    rw [harr]
    simp [hi]

lemma InOrder.turn (h : InOrder v log) (ht : Turn n latency v out w)
    (hclear : ∀ m ev curTs, Seen.received m ev curTs ∈ out →
      ∀ x ∈ v.queue, x.ingressPort = ev.ingressPort → x.timestamp < ev.timestamp) :
    InOrder w (log++out) := by
  cases ht with
  | receive =>
    exact h.receive (hclear _ _ _ (mem_singleton_self _)) rfl
  | hand ev q hq hdue hmin => exact h.hand hq hmin rfl
  | move out stage hout hstage | look out i minTs next hstage hout hle hport heq =>
    obtain ⟨-,hr,hh⟩ := outgoing_nil hout
    exact h.quiet hr hh rfl
  | send | early | consume | rest | advance => exact h.quiet rfl rfl rfl

end

/-! ## Runs -/

section
variable {pq : PriorityQueue PacketEvent ℕ PacketEvent.due}

/-- Where a packet is received, every waiting event of its port is of an
earlier time. -/
def Clear (s : Switch pq) : Event → Prop
  | .tick _ _ => match s.pc with
    | .poll i => ∀ m ∈ (s.ports i).channel.head?, i < s.numPorts → m.type = kPacket →
        ((s.ports i).netif.sync → m.timestamp ≤ s.curTs) →
        ∀ ev ∈ pq.contents s.eventQueue, ev.ingressPort = i → ev.timestamp < s.curTs+s.latencyPs
    | _ => True
  | _ => True

instance (s : Switch pq) (e : Event) : Decidable (Clear s e) := by
  cases e with
  | tick free beyond =>
    unfold Clear
    cases s.pc <;> infer_instance
  | send | stop => exact .isTrue trivial

lemma Clear.received {s : Switch pq} {e : Event} (h : Clear s e) {m : ChannelMsg} {curTs : UInt64}
    (hm : Seen.received m ev curTs ∈ s.emit e) (x : PacketEvent) (hx : x ∈ s.view.queue)
    (hport : x.ingressPort = ev.ingressPort) : x.timestamp < ev.timestamp := by
  cases e with
  | send =>
    unfold Switch.emit Switch.perform at hm
    dsimp only at hm
    split_ifs at hm <;> simp at hm
  | stop => simp [Switch.emit, Switch.perform] at hm
  | tick =>
    rcases s.tick_emits hm with ho | ⟨_,ho⟩ | ⟨i,a,hpc,hi,⟨hhead,htype,hdue⟩,ho⟩
    · simp [Seen.outgoing] at ho
    · cases ho
    · cases ho
      simp only [Clear, hpc] at h
      exact h m hhead hi htype hdue x hx hport

lemma InOrder.run {s : Switch pq} {log : List Seen} (h : InOrder s.view log) {ops : List Event}
    (ha : Along Switch.step Clear s ops) :
    InOrder (run Switch.step s ops).view (log++trace Switch.step Switch.emit s ops) := by
  induction ops generalizing s log with
  | nil => simpa [trace] using h
  | cons e ops ih =>
    rw [trace, ← append_assoc]
    exact ih (h.turn (s.perform_turn e) fun _ _ _ hm => ha.1.received hm) ha.2

/-- The packets of a port are handed to the engine in the order they came. -/
theorem port_order_of_clear {s : Switch pq} (hs : s.eventQueue = pq.empty) {ops : List Event}
    (ha : Along Switch.step Clear s ops) (i : ℕ) :
    handedOn i (trace Switch.step Switch.emit s ops) <+:
      arrivedOn i (trace Switch.step Switch.emit s ops) := by
  have hstart : InOrder s.view [] := by
    intro j
    refine ⟨[],rfl,.nil,?_⟩
    show _ = Multiset.filter _ (↑(pq.contents s.eventQueue) : Multiset PacketEvent)
    rw [hs, pq.contents_empty]
    rfl
  obtain ⟨waiting,harr,-⟩ := hstart.run ha i
  exact ⟨waiting,harr.symm⟩

end

/-- Packets of one port with their times, a later sync message and time to hand
them over. -/
def packets (l : List (UInt64 × UInt8)) (ticks : ℕ) : List Event :=
  l.map (fun p => .send 0 ⟨p.1,kPacket,[p.2]⟩) ++
    (.send 0 ⟨2000000,kTypeSync,[]⟩ :: replicate ticks (.tick true fun _ => 0))

theorem two_packets_in_order :
    let log := trace Switch.step Switch.emit (onePort (heap PacketEvent.due))
      (packets [(0,1),(1,2)] 40)
    (handedOn 0 log).map PacketEvent.data = [[1],[2]] ∧ handedOn 0 log <+: arrivedOn 0 log :=
  ⟨by decide +kernel,port_order_of_clear rfl (by decide +kernel) 0⟩

/-- The third of four packets of the same time overtakes the second. -/
theorem third_packet_first :
    let log := trace Switch.step Switch.emit (onePort (heap PacketEvent.due))
      (packets [(0,1),(0,2),(0,3),(0,4)] 24)
    (arrivedOn 0 log).map PacketEvent.data = [[1],[2],[3],[4]] ∧
      (handedOn 0 log).map PacketEvent.data = [[1],[3],[2],[4]] ∧
      ¬ handedOn 0 log <+: arrivedOn 0 log := by
  decide +kernel

end SimBricks.HcopOrder
