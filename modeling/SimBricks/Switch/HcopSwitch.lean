import SimBricks.Base.BaseIf
import SimBricks.Library.Heap
import SimBricks.Tiers.System

/-!
# The main loop of the HCOP switch, `device.cc` and `net_port.cc`

One tick is one iteration of one of the loops: an attempt to send a sync
message, one call of `RxPacket`, one event of `ProcessEvents`, one attempt to
transmit a copy, one port in the search for the next time stamp. Between any
two of them peers append to their channels, and the signal handler may set
`exiting_`. Whether a slot of an outgoing queue is free and what lies behind a
packet in memory comes with the tick. The event queue is any queue that yields
an earliest event; counters and the utilization log are left out.
-/

set_option autoImplicit false

namespace SimBricks.HcopSwitch
open Library.Heap Library.Run Library.Bytes BaseIf PrimitiveEngine List Function

def kPacket : UInt8 := 0x40

structure ChannelMsg where
  timestamp : UInt64
  type : UInt8
  data : List UInt8
  deriving DecidableEq, Repr

/-- A port with the messages of its peer that are not consumed yet. -/
structure NetPort where
  netif : Handle
  sync : Bool
  channel : List ChannelMsg := []
  deriving DecidableEq, Repr

structure PacketEvent where
  timestamp : UInt64
  ingressPort : ℕ
  data : List UInt8
  deriving DecidableEq, Repr

def PacketEvent.due (ev : PacketEvent) : ℕ := ev.timestamp.toNat

inductive RxPollState where
  | success (m : ChannelMsg)
  | fail | sync | error
  deriving DecidableEq, Repr

def NetPort.rxPacket (p : NetPort) (curTs : UInt64) : NetPort × RxPollState :=
  match p.netif.inPoll (p.channel.head?.map fun m => (m.timestamp,m.type)) curTs, p.channel with
  | (netif,true), m :: rest =>
    ({ p with netif, channel := rest },
      if m.type = kPacket then .success m
      else if m.type = kTypeSync then .sync
      else .error)
  | (netif,_), _ => ({ p with netif },.fail)

inductive Pc where
  | outer
  | sync (i : ℕ)
  | poll (i : ℕ)
  | process
  | transmit (dsts : List ℕ) (pkt : List UInt8)
  | scan (i : ℕ) (minTs : UInt64)
  | exited
  deriving DecidableEq, Repr

inductive Event where
  | send (i : ℕ) (m : ChannelMsg)
  | stop
  | tick (free : Bool) (beyond : Memory)

inductive Seen where
  | sent (i : ℕ) (m : ChannelMsg)
  | received (m : ChannelMsg) (ev : PacketEvent) (curTs : UInt64)
  | handed (ev : PacketEvent) (curTs : UInt64)
  | synced (i : ℕ) (timestamp : UInt64)
  | transmitted (i : ℕ) (timestamp : UInt64) (pkt : List UInt8)
  deriving DecidableEq, Repr

structure Switch (pq : PriorityQueue PacketEvent ℕ PacketEvent.due) where
  engine : Engine
  pipelineStages : UInt32
  stageLatencyNs : UInt64
  numPorts : ℕ
  ports : ℕ → NetPort
  eventQueue : pq.Q := pq.empty
  curTs : UInt64 := 0
  exiting : Bool := false
  pc : Pc := .outer

namespace Switch
variable {pq : PriorityQueue PacketEvent ℕ PacketEvent.due} (s : Switch pq)

def latencyPs : UInt64 := s.pipelineStages.toUInt64*s.stageLatencyNs*1000

def setPort (i : ℕ) (p : NetPort) : Switch pq := { s with ports := update s.ports i p }

def goto (pc : Pc) : Switch pq := { s with pc }

def syncPort (i : ℕ) (free : Bool) : Switch pq × List Seen × Bool :=
  let (netif,sent,ok) := (s.ports i).netif.outSync free s.curTs
  (s.setPort i { s.ports i with netif },sent.toList.map (.synced i),ok)

def packetEvent (i : ℕ) (data : List UInt8) : PacketEvent := ⟨s.curTs+s.latencyPs,i,data⟩

def schedulePacket (i : ℕ) (data : List UInt8) : Switch pq :=
  { s with eventQueue := pq.push s.eventQueue (s.packetEvent i data) }

def pollPort (i : ℕ) : Switch pq × List Seen :=
  match (s.ports i).rxPacket s.curTs with
  | (p,.success m) =>
    ((s.setPort i p).schedulePacket i m.data,[.received m (s.packetEvent i m.data) s.curTs])
  | (p,_) => ((s.setPort i p).goto (.poll (i+1)),[])

def processEvent (beyond : Memory) : Switch pq × List Seen :=
  match pq.top s.eventQueue with
  | none => (s.goto (.scan 0 kTimestampMax),[])
  | some ev =>
    if s.curTs < ev.timestamp then (s.goto (.scan 0 kTimestampMax),[])
    else
      let r := s.engine.handlePacket ⟨ev.data,ev.ingressPort,s.curTs/1000,beyond⟩
      let dsts := Tiers.egress s.numPorts s.engine.cfg ev.ingressPort r.decision
      ({ s with
        eventQueue := pq.pop s.eventQueue
        engine := r.engine
        pc := .transmit dsts r.pkt },[.handed ev s.curTs])

def txPacket (i : ℕ) (pkt : List UInt8) (free : Bool) : Switch pq × List Seen × Bool :=
  match (s.ports i).netif.outAlloc free s.curTs with
  | some (netif,timestamp) =>
    (s.setPort i { s.ports i with netif },[.transmitted i timestamp pkt],true)
  | none => (s,[],!(s.ports i).sync)

def scanPort (i : ℕ) (minTs : UInt64) (free : Bool) : Switch pq × List Seen :=
  if (s.ports i).sync then
    let ts := (s.ports i).netif.inTimestamp
    let next := if ts < minTs then ts else minTs
    if minTs < kTimestampMax ∧ ts = kTimestampMax then
      let (t,seen,ok) := s.syncPort i free
      (t.goto (if ok then .scan (i+1) next else .scan i minTs),seen)
    else (s.goto (.scan (i+1) next),[])
  else (s.goto (.scan (i+1) minTs),[])

def scanQueue (minTs : UInt64) : UInt64 :=
  match pq.top s.eventQueue with
  | some ev => if ev.timestamp < minTs then ev.timestamp else minTs
  | none => minTs

def endScan (minTs : UInt64) : Switch pq :=
  let minTs := s.scanQueue minTs
  if s.exiting = false ∧ minTs ≤ s.curTs ∧ minTs < kTimestampMax then s.goto (.poll 0)
  else { s with curTs := if minTs < kTimestampMax then minTs else s.curTs, pc := .outer }

def tick (free : Bool) (beyond : Memory) : Switch pq × List Seen :=
  match s.pc with
  | .outer => (s.goto (if s.exiting then .exited else .sync 0),[])
  | .sync i =>
    if i < s.numPorts then
      if (s.ports i).sync then
        let (t,seen,ok) := s.syncPort i free
        (t.goto (if ok then .sync (i+1) else .sync i),seen)
      else (s.goto (.sync (i+1)),[])
    else (s.goto (.poll 0),[])
  | .poll i => if i < s.numPorts then s.pollPort i else (s.goto .process,[])
  | .process => s.processEvent beyond
  | .transmit [] _ => (s.goto .process,[])
  | .transmit (i :: dsts) pkt =>
    let (t,seen,ok) := s.txPacket i pkt free
    (t.goto (if ok then .transmit dsts pkt else .transmit (i :: dsts) pkt),seen)
  | .scan i minTs => if i < s.numPorts then s.scanPort i minTs free else (s.endScan minTs,[])
  | .exited => (s,[])

def perform (s : Switch pq) : Event → Switch pq × List Seen
  | .send i m =>
    if i < s.numPorts then
      (s.setPort i { s.ports i with channel := (s.ports i).channel++[m] },[.sent i m])
    else (s,[])
  | .stop => ({ s with exiting := true },[])
  | .tick free beyond => s.tick free beyond

def step (s : Switch pq) (e : Event) : Switch pq := (s.perform e).1

def emit (s : Switch pq) (e : Event) : List Seen := (s.perform e).2

end Switch

def onePort (pq : PriorityQueue PacketEvent ℕ PacketEvent.due) : Switch pq where
  engine := init {} 1 1 1
  pipelineStages := 20
  stageLatencyNs := 50
  numPorts := 1
  ports _ := {
    netif := { inEnum := 8, outEnum := 8, sync := true, linkLatency := 500, syncInterval := 500 }
    sync := true }

/-! ## What a step can do

The view forgets the engine, the outgoing side of the ports and the order in
the queue. Of the place in `Run` it keeps the search for the next time stamp.
-/

/-- The incoming side of a port; `inSync` is the flag of its interface. -/
structure Input where
  sync : Bool
  inSync : Bool
  inTimestamp : UInt64
  channel : List ChannelMsg

inductive Stage where
  | busy
  | scanning (i : ℕ) (minTs : UInt64)

structure View where
  curTs : UInt64
  queue : Multiset PacketEvent
  input : ℕ → Input
  stage : Stage

def NetPort.input (p : NetPort) : Input := ⟨p.sync,p.netif.sync,p.netif.inTimestamp,p.channel⟩

def Pc.stage : Pc → Stage
  | .scan i minTs => .scanning i minTs
  | _ => .busy

def Switch.view {pq : PriorityQueue PacketEvent ℕ PacketEvent.due} (s : Switch pq) : View where
  curTs := s.curTs
  queue := ↑(pq.contents s.eventQueue)
  input i := (s.ports i).input
  stage := s.pc.stage

def Seen.outgoing : Seen → Bool
  | .synced _ _ | .transmitted _ _ _ => true
  | _ => false

/-- A consumed message leaves its time stamp, a termination closes the port. -/
def Input.consumed (x : Input) (m : ChannelMsg) (rest : List ChannelMsg) : Input :=
  if m.type = kTypeTerminate then ⟨x.sync,false,kTimestampMax,rest⟩
  else ⟨x.sync,x.inSync,m.timestamp,rest⟩

def View.setInput (v : View) (i : ℕ) (x : Input) : View := { v with input := update v.input i x }

inductive Turn (n : ℕ) (latency : UInt64) (v : View) : List Seen → View → Prop where
  | send (i : ℕ) (m : ChannelMsg) (hi : i < n) : Turn n latency v [.sent i m]
        (v.setInput i { v.input i with channel := (v.input i).channel++[m] })
  | move (out : List Seen) (stage : Stage) (hout : ∀ x ∈ out, x.outgoing)
      (hstage : stage = .busy ∨ stage = v.stage) : Turn n latency v out { v with stage }
  | early (i : ℕ) (m : ChannelMsg) (rest : List ChannelMsg) (hi : i < n)
      (hch : (v.input i).channel = m :: rest) (hs : (v.input i).inSync)
      (ht : v.curTs < m.timestamp) :
      Turn n latency v []
        { v.setInput i { v.input i with inTimestamp := m.timestamp } with stage := .busy }
  | consume (i : ℕ) (m : ChannelMsg) (rest : List ChannelMsg) (hi : i < n)
      (hch : (v.input i).channel = m :: rest)
      (ht : (v.input i).inSync → m.timestamp ≤ v.curTs) (htype : m.type ≠ kPacket) :
      Turn n latency v []
        { v.setInput i ((v.input i).consumed m rest) with stage := .busy }
  | receive (i : ℕ) (m : ChannelMsg) (rest : List ChannelMsg) (hi : i < n)
      (hch : (v.input i).channel = m :: rest)
      (ht : (v.input i).inSync → m.timestamp ≤ v.curTs) (htype : m.type = kPacket) :
      Turn n latency v [.received m ⟨v.curTs+latency,i,m.data⟩ v.curTs]
        { v.setInput i ((v.input i).consumed m rest) with
          queue := ⟨v.curTs+latency,i,m.data⟩ ::ₘ v.queue, stage := .busy }
  | hand (ev : PacketEvent) (q : Multiset PacketEvent) (hq : v.queue = ev ::ₘ q)
      (hdue : ev.timestamp ≤ v.curTs) (hmin : ∀ x ∈ q, ev.due ≤ x.due) :
      Turn n latency v [.handed ev v.curTs] { v with queue := q, stage := .busy }
  | rest (hlater : ∀ x ∈ v.queue, v.curTs < x.timestamp) :
      Turn n latency v [] { v with stage := .scanning 0 kTimestampMax }
  | look (out : List Seen) (i : ℕ) (minTs next : UInt64) (hstage : v.stage = .scanning i minTs)
      (hout : ∀ x ∈ out, x.outgoing) (hle : next ≤ minTs)
      (hport : (v.input i).sync → next ≤ (v.input i).inTimestamp)
      (heq : next = minTs ∨ next = (v.input i).inTimestamp ∧ i < n) :
      Turn n latency v out { v with stage := .scanning (i+1) next }
  | advance (i : ℕ) (minTs next : UInt64) (hstage : v.stage = .scanning i minTs) (hi : n ≤ i)
      (hmin : next ≤ minTs) (hqueue : ∀ x ∈ v.queue, next ≤ x.timestamp)
      (heq : next = minTs ∨ ∃ x ∈ v.queue, next = x.timestamp) :
      Turn n latency v [] { v with curTs := next, stage := .busy }

lemma NetPort.rxPacket_cases (p : NetPort) (curTs : UInt64) :
    (p.channel = [] ∧ (p.rxPacket curTs).1.input = p.input ∧ (p.rxPacket curTs).2 = .fail) ∨
    (∃ m rest, p.channel = m :: rest ∧ p.netif.sync ∧ curTs < m.timestamp ∧
      (p.rxPacket curTs).1.input = { p.input with inTimestamp := m.timestamp } ∧
      (p.rxPacket curTs).2 = .fail) ∨
    (∃ m rest, p.channel = m :: rest ∧ (p.netif.sync → m.timestamp ≤ curTs) ∧
      (p.rxPacket curTs).1.input = p.input.consumed m rest ∧
      (p.rxPacket curTs).2 = if m.type = kPacket then .success m
        else if m.type = kTypeSync then .sync else .error) := by
  unfold rxPacket
  cases hch : p.channel with
  | nil => exact .inl ⟨rfl,by simp [NetPort.input, Handle.inPoll, Handle.inPeek, hch],rfl⟩
  | cons m rest =>
    by_cases hearly : p.netif.sync ∧ curTs < m.timestamp
    · refine .inr (.inl ⟨m,rest,rfl,hearly.1,hearly.2,?_⟩)
      simp [NetPort.input, Handle.inPoll, Handle.inPeek, hch, hearly]
    · refine .inr (.inr ⟨m,rest,rfl,fun hs => UInt64.not_lt.mp fun ht => hearly ⟨hs,ht⟩,?_⟩)
      by_cases hterm : m.type = kTypeTerminate
      · simp [NetPort.input, Handle.inPoll, Handle.inPeek, Handle.inTake, hearly, hterm,
          Input.consumed]
      · simp [NetPort.input, Handle.inPoll, Handle.inPeek, Handle.inTake, hearly, hterm,
          Input.consumed]

namespace Switch
variable {pq : PriorityQueue PacketEvent ℕ PacketEvent.due} (s : Switch pq)

@[simp] lemma view_goto (pc : Pc) : (s.goto pc).view = { s.view with stage := pc.stage } := rfl

lemma view_setPort (i : ℕ) (p : NetPort) : (s.setPort i p).view = s.view.setInput i p.input := by
  unfold view setPort View.setInput
  congr 1
  funext j
  by_cases hj : j = i
  · subst hj
    simp
  · simp [hj]

variable {i : ℕ}

lemma view_setPort_out {p : NetPort} (h : p.input = (s.ports i).input) :
    (s.setPort i p).view = s.view := by
  rw [view_setPort, h]
  unfold View.setInput
  congr 1
  exact update_eq_self i _

lemma syncPort_view (i : ℕ) (free : Bool) :
    (s.syncPort i free).1.view = s.view ∧ ∀ x ∈ (s.syncPort i free).2.1, x.outgoing := by
  unfold syncPort
  rcases (s.ports i).netif.outSync_cases free s.curTs with ⟨-,h⟩ | ⟨-,h⟩ | ⟨-,h⟩
  · rw [h]
    exact ⟨s.view_setPort_out rfl,by simp⟩
  · rw [h]
    exact ⟨s.view_setPort_out rfl,by simp [Seen.outgoing]⟩
  · rw [h]
    exact ⟨s.view_setPort_out rfl,by simp⟩

lemma txPacket_view (i : ℕ) (pkt : List UInt8) (free : Bool) :
    (s.txPacket i pkt free).1.view = s.view ∧ ∀ x ∈ (s.txPacket i pkt free).2.1, x.outgoing := by
  unfold txPacket
  cases free with
  | true => exact ⟨s.view_setPort_out rfl,by simp [Handle.outAlloc, Seen.outgoing]⟩
  | false => exact ⟨rfl,by simp [Handle.outAlloc]⟩

/-- What a poll of a port can do: nothing, look at a message of the future,
consume a message that is no packet and leave the port, receive a packet. -/
inductive Polled (i : ℕ) : Switch pq × List Seen → Prop where
  | empty (p : NetPort) (hch : (s.ports i).channel = []) (hin : p.input = (s.ports i).input) :
      Polled i ((s.setPort i p).goto (.poll (i+1)),[])
  | early (p : NetPort) (m : ChannelMsg) (rest : List ChannelMsg)
      (hch : (s.ports i).channel = m :: rest) (hs : (s.ports i).netif.sync)
      (ht : s.curTs < m.timestamp)
      (hin : p.input = { (s.ports i).input with inTimestamp := m.timestamp }) :
      Polled i ((s.setPort i p).goto (.poll (i+1)),[])
  | other (p : NetPort) (m : ChannelMsg) (rest : List ChannelMsg)
      (hch : (s.ports i).channel = m :: rest)
      (ht : (s.ports i).netif.sync → m.timestamp ≤ s.curTs) (htype : m.type ≠ kPacket)
      (hin : p.input = (s.ports i).input.consumed m rest) :
      Polled i ((s.setPort i p).goto (.poll (i+1)),[])
  | packet (p : NetPort) (m : ChannelMsg) (rest : List ChannelMsg)
      (hch : (s.ports i).channel = m :: rest)
      (ht : (s.ports i).netif.sync → m.timestamp ≤ s.curTs) (htype : m.type = kPacket)
      (hin : p.input = (s.ports i).input.consumed m rest) :
      Polled i ((s.setPort i p).schedulePacket i m.data,
        [.received m (s.packetEvent i m.data) s.curTs])

lemma pollPort_polled (i : ℕ) : s.Polled i (s.pollPort i) := by
  have hcases := (s.ports i).rxPacket_cases s.curTs
  unfold pollPort
  generalize (s.ports i).rxPacket s.curTs = r at hcases ⊢
  obtain ⟨p,_⟩ := r
  rcases hcases with ⟨hch,hin,rfl⟩ | ⟨m,rest,hch,hs,ht,hin,rfl⟩ | ⟨m,rest,hch,ht,hin,rfl⟩
  · exact .empty p hch hin
  · exact .early p m rest hch hs ht hin
  · by_cases hp : m.type = kPacket
    · rw [if_pos hp]
      exact .packet p m rest hch ht hp hin
    · split_ifs
      · exact .other p m rest hch ht hp hin
      · exact .other p m rest hch ht hp hin

lemma view_schedulePacket (i : ℕ) (data : List UInt8) : (s.schedulePacket i data).view =
    { s.view with queue := s.packetEvent i data ::ₘ s.view.queue } := by
  have hq : (↑(pq.contents (pq.push s.eventQueue (s.packetEvent i data))) :
      Multiset PacketEvent) = s.packetEvent i data ::ₘ s.view.queue :=
    Multiset.coe_eq_coe.mpr (pq.contents_push s.eventQueue _)
  rw [← hq]
  rfl

lemma view_pop {ev : PacketEvent} (h : pq.top s.eventQueue = some ev) :
    s.view.queue = ev ::ₘ ↑(pq.contents (pq.pop s.eventQueue)) :=
  Multiset.coe_eq_coe.mpr (pq.contents_pop s.eventQueue ev h)

lemma pollPort_turn (hi : i < s.numPorts) (hpc : s.pc = .poll i) :
    Turn s.numPorts s.latencyPs s.view (s.pollPort i).2 (s.pollPort i).1.view := by
  have h := s.pollPort_polled i
  generalize s.pollPort i = r at h ⊢
  cases h with
  | empty p hch hin =>
    rw [view_goto, s.view_setPort_out hin]
    exact .move [] .busy (by simp) (.inl rfl)
  | early p m rest hch hs ht hin =>
    rw [view_goto, view_setPort, hin]
    exact .early i m rest hi hch hs ht
  | other p m rest hch ht htype hin =>
    rw [view_goto, view_setPort, hin]
    exact .consume i m rest hi hch ht htype
  | packet p m rest hch ht htype hin =>
    have hbusy : s.view.stage = .busy := congrArg Pc.stage hpc
    have hview : ((s.setPort i p).schedulePacket i m.data).view =
        { s.view.setInput i ((s.view.input i).consumed m rest) with
          queue := s.packetEvent i m.data ::ₘ s.view.queue, stage := .busy } := by
      rw [view_schedulePacket, view_setPort, hin, ← hbusy]
      rfl
    rw [hview]
    exact .receive i m rest hi hch ht htype

lemma processEvent_turn (beyond : Memory) :
    Turn s.numPorts s.latencyPs s.view (s.processEvent beyond).2
    (s.processEvent beyond).1.view := by
  unfold processEvent
  cases htop : pq.top s.eventQueue with
  | none =>
    refine .rest fun x hx => ?_
    rw [view, pq.top_none _ htop] at hx
    simp at hx
  | some ev =>
    dsimp only
    by_cases hlt : s.curTs < ev.timestamp
    · rw [if_pos hlt]
      refine .rest fun x hx => ?_
      have hle := pq.top_le _ _ htop x hx
      exact hlt.trans_le hle
    · rw [if_neg hlt]
      refine .hand ev _ (s.view_pop htop) (UInt64.not_lt.mp hlt) fun x hx => ?_
      exact pq.top_le _ _ htop x ((pq.contents_pop _ _ htop).mem_iff.mpr
        (List.mem_cons_of_mem _ hx))

lemma scanPort_turn {minTs : UInt64} (hi : i < s.numPorts) (hpc : s.pc = .scan i minTs)
    (free : Bool) :
    Turn s.numPorts s.latencyPs s.view (s.scanPort i minTs free).2
    (s.scanPort i minTs free).1.view := by
  have hstage : s.view.stage = .scanning i minTs := congrArg Pc.stage hpc
  have hle : ∀ ts : UInt64, (if ts < minTs then ts else minTs) ≤ minTs ∧
      (if ts < minTs then ts else minTs) ≤ ts ∧
      ((if ts < minTs then ts else minTs) = minTs ∨ (if ts < minTs then ts else minTs) = ts) := by
    intro ts
    split_ifs with h
    · exact ⟨UInt64.le_of_lt h,UInt64.le_refl ts,.inr rfl⟩
    · exact ⟨UInt64.le_refl minTs,UInt64.not_lt.mp h,.inl rfl⟩
  obtain ⟨h1,h2,h3⟩ := hle (s.ports i).netif.inTimestamp
  unfold scanPort
  by_cases hsync : (s.ports i).sync
  · simp only [hsync, if_true]
    by_cases hmax : minTs < kTimestampMax ∧ (s.ports i).netif.inTimestamp = kTimestampMax
    · rw [if_pos hmax]
      obtain ⟨hview,hout⟩ := s.syncPort_view i free
      generalize s.syncPort i free = r at hview hout
      obtain ⟨t,seen,ok⟩ := r
      rw [view_goto, hview]
      cases ok with
      | true => exact .look seen i minTs _ hstage hout h1 (fun _ => h2) (h3.imp id fun h => ⟨h,hi⟩)
      | false => exact .move seen _ hout (.inr hstage.symm)
    · rw [if_neg hmax]
      exact .look [] i minTs _ hstage (by simp) h1 (fun _ => h2) (h3.imp id fun h => ⟨h,hi⟩)
  · rw [if_neg hsync]
    exact .look [] i minTs minTs hstage (by simp) (UInt64.le_refl _) (fun h => absurd h hsync)
      (.inl rfl)

lemma scanQueue_spec (minTs : UInt64) :
    s.scanQueue minTs ≤ minTs ∧ (∀ x ∈ s.view.queue, s.scanQueue minTs ≤ x.timestamp) ∧
    (s.scanQueue minTs = minTs ∨ ∃ x ∈ s.view.queue, s.scanQueue minTs = x.timestamp) := by
  unfold scanQueue
  cases htop : pq.top s.eventQueue with
  | none =>
    refine ⟨UInt64.le_refl minTs,fun x hx => ?_,.inl rfl⟩
    rw [view, pq.top_none _ htop] at hx
    simp at hx
  | some ev =>
    have hle : ∀ x ∈ s.view.queue, ev.timestamp ≤ x.timestamp := fun x hx =>
      UInt64.le_iff_toNat_le.mpr (pq.top_le _ _ htop x hx)
    have hev : ev ∈ s.view.queue := by
      rw [s.view_pop htop]
      exact Multiset.mem_cons_self _ _
    dsimp only
    split_ifs with hlt
    · exact ⟨UInt64.le_of_lt hlt,hle,.inr ⟨ev,hev,rfl⟩⟩
    · exact ⟨UInt64.le_refl minTs,fun x hx => UInt64.le_trans (UInt64.not_lt.mp hlt) (hle x hx),
        .inl rfl⟩

lemma endScan_turn {minTs : UInt64} (hi : s.numPorts ≤ i) (hpc : s.pc = .scan i minTs) :
    Turn s.numPorts s.latencyPs s.view [] (s.endScan minTs).view := by
  have hstage : s.view.stage = .scanning i minTs := congrArg Pc.stage hpc
  obtain ⟨h1,h2,h3⟩ := s.scanQueue_spec minTs
  unfold endScan
  dsimp only
  split_ifs with hagain hmax
  · exact .move [] .busy (by simp) (.inl rfl)
  · exact .advance i minTs _ hstage hi h1 h2 h3
  · exact .move [] .busy (by simp) (.inl rfl)

lemma perform_turn (e : Event) : Turn s.numPorts s.latencyPs s.view (s.emit e) (s.step e).view := by
  unfold emit step
  cases e with
  | send i m =>
    unfold perform
    dsimp only
    split_ifs with hi
    · rw [view_setPort]
      exact .send i m hi
    · exact .move [] s.view.stage (by simp) (.inr rfl)
  | stop => exact .move [] s.view.stage (by simp) (.inr rfl)
  | tick free beyond =>
    show Turn _ _ _ (s.tick free beyond).2 (s.tick free beyond).1.view
    unfold tick
    have hidle : ∀ pc : Pc, pc.stage = .busy →
        Turn s.numPorts s.latencyPs s.view [] (s.goto pc).view := by
      intro pc hpc
      rw [view_goto, hpc]
      exact .move [] .busy (by simp) (.inl rfl)
    cases hpc : s.pc with
    | outer => exact hidle _ (by split_ifs <;> rfl)
    | sync i =>
      obtain ⟨hview,hout⟩ := s.syncPort_view i free
      dsimp only
      split_ifs with hi hsync hok
      · rw [view_goto, hview]
        exact .move _ _ hout (.inl rfl)
      · rw [view_goto, hview]
        exact .move _ _ hout (.inl rfl)
      · exact hidle _ rfl
      · exact hidle _ rfl
    | poll =>
      dsimp only
      split_ifs with hi
      · exact s.pollPort_turn hi hpc
      · exact hidle _ rfl
    | process => exact s.processEvent_turn beyond
    | transmit dsts pkt =>
      cases dsts with
      | nil => exact hidle _ rfl
      | cons i =>
        obtain ⟨hview,hout⟩ := s.txPacket_view i pkt free
        rw [view_goto, hview]
        exact .move _ _ hout (.inl (by split_ifs <;> rfl))
    | scan =>
      dsimp only
      split_ifs with hi
      · exact s.scanPort_turn hi hpc free
      · exact s.endScan_turn (Nat.not_lt.mp hi) hpc
    | exited => exact .move [] s.view.stage (by simp) (.inr rfl)

def Ready (i : ℕ) (m : ChannelMsg) : Prop := (s.ports i).channel.head? = some m ∧ m.type = kPacket ∧
    ((s.ports i).netif.sync → m.timestamp ≤ s.curTs)

lemma pollPort_emits {x : Seen} (hx : x ∈ (s.pollPort i).2) :
    ∃ m, s.Ready i m ∧ x = .received m (s.packetEvent i m.data) s.curTs := by
  have h := s.pollPort_polled i
  generalize s.pollPort i = r at h hx
  cases h with
  | empty | early | other => cases hx
  | packet p m rest hch ht htype =>
    have hhead : (s.ports i).channel.head? = some m := by
      rw [hch]
      rfl
    exact ⟨m,⟨hhead,htype,ht⟩,mem_singleton.mp hx⟩

lemma tick_emits {free : Bool} {beyond : Memory} {x : Seen} (hx : x ∈ (s.tick free beyond).2) :
    x.outgoing ∨ (∃ ev, x = .handed ev s.curTs) ∨ ∃ i m, s.pc = .poll i ∧ i < s.numPorts ∧
    s.Ready i m ∧ x = .received m (s.packetEvent i m.data) s.curTs := by
  unfold tick at hx
  cases hpc : s.pc with
  | sync i =>
    simp only [hpc] at hx
    split_ifs at hx
    · exact .inl ((s.syncPort_view i free).2 x hx)
    · exact .inl ((s.syncPort_view i free).2 x hx)
    · cases hx
    · cases hx
  | poll i =>
    simp only [hpc] at hx
    split_ifs at hx with hi
    · obtain ⟨m,hm,hx⟩ := s.pollPort_emits hx
      exact .inr (.inr ⟨i,m,rfl,hi,hm,hx⟩)
    · cases hx
  | process =>
    simp only [hpc] at hx
    unfold processEvent at hx
    split at hx
    · cases hx
    · split_ifs at hx
      · cases hx
      · exact .inr (.inl ⟨_,mem_singleton.mp hx⟩)
  | transmit dsts pkt =>
    simp only [hpc] at hx
    cases dsts with
    | nil => cases hx
    | cons i => exact .inl ((s.txPacket_view i pkt free).2 x hx)
  | scan i =>
    simp only [hpc] at hx
    split_ifs at hx with hi
    · unfold scanPort at hx
      by_cases hs : (s.ports i).sync
      · rw [if_pos hs] at hx
        dsimp only at hx
        split at hx
        · exact .inl ((s.syncPort_view i free).2 x hx)
        · cases hx
      · rw [if_neg hs] at hx
        cases hx
    · cases hx
  | outer | exited =>
    simp only [hpc] at hx
    cases hx

def config : ℕ × UInt64 := (s.numPorts,s.latencyPs)

lemma step_config (e : Event) : (s.step e).config = s.config := by
  have htx : ∀ i pkt free, (s.txPacket i pkt free).1.config = s.config := by
    intro i pkt free
    unfold txPacket
    split <;> rfl
  unfold step
  cases e with
  | send =>
    unfold perform
    dsimp only
    split_ifs <;> rfl
  | stop => rfl
  | tick free beyond =>
    show (s.tick free beyond).1.config = s.config
    unfold tick
    cases s.pc with
    | outer => rfl
    | sync =>
      dsimp only
      split_ifs <;> rfl
    | poll =>
      dsimp only
      split_ifs
      · unfold pollPort
        split <;> rfl
      · rfl
    | process =>
      unfold processEvent
      dsimp only
      split
      · rfl
      · split_ifs <;> rfl
    | transmit dsts pkt =>
      cases dsts with
      | nil => rfl
      | cons i => exact htx i pkt free
    | scan =>
      dsimp only
      split_ifs
      · unfold scanPort
        dsimp only
        split_ifs <;> rfl
      · unfold endScan
        dsimp only
        split_ifs <;> rfl
    | exited => rfl

lemma step_numPorts (e : Event) : (s.step e).numPorts = s.numPorts :=
  congrArg Prod.fst (s.step_config e)

lemma step_latencyPs (e : Event) : (s.step e).latencyPs = s.latencyPs :=
  congrArg Prod.snd (s.step_config e)

end Switch

/-! ## Logs -/

def sentOn (i : ℕ) (log : List Seen) : List ChannelMsg := log.filterMap fun
    | .sent j m => if j = i then some m else none
    | _ => none

def receptions (log : List Seen) : List (ChannelMsg × PacketEvent × UInt64) := log.filterMap fun
    | .received m ev curTs => some (m,ev,curTs)
    | _ => none

def handings (log : List Seen) : List (PacketEvent × UInt64) := log.filterMap fun
    | .handed ev curTs => some (ev,curTs)
    | _ => none

section
variable {log out : List Seen}

@[simp] lemma sentOn_append (i : ℕ) : sentOn i (log++out) = sentOn i log++sentOn i out :=
  filterMap_append

@[simp] lemma receptions_append : receptions (log++out) = receptions log++receptions out :=
  filterMap_append

@[simp] lemma handings_append : handings (log++out) = handings log++handings out :=
  filterMap_append

lemma outgoing_nil (h : ∀ x ∈ out, x.outgoing) :
    (∀ i, sentOn i out = []) ∧ receptions out = [] ∧ handings out = [] := by
  refine ⟨fun i => ?_,?_,?_⟩
  all_goals
    apply filterMap_eq_nil_iff.mpr
    intro x hx
    have hx := h x hx
    cases x <;> simp_all [Seen.outgoing]

end

end SimBricks.HcopSwitch
