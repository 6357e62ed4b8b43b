import SimBricks.Switch.HcopSwitch

/-!
# The HCOP switch works at the exact time

With every port synchronized, the time stamp an interface has last seen is
never behind the clock, and every message still to come is at or after it. The
clock moves to the smallest of these stamps and of the events that wait, so a
message is consumed when the clock shows its stamp, and an event is taken up
when the clock shows its own.
-/

set_option autoImplicit false

namespace SimBricks.HcopTiming
open Library.Heap Library.Run BaseIf HcopSwitch List Function

/-! ## Ports -/

def receivedOn (i : ℕ) (log : List Seen) : List ChannelMsg :=
  ((receptions log).filter (·.2.1.ingressPort = i)).map Prod.fst

/-- A port at a time, with what its peer has sent and what was received. -/
structure Ahead (curTs : UInt64) (x : Input) (sent got : List ChannelMsg) : Prop where
  sync : x.sync
  inSync : x.inSync
  ahead : curTs ≤ x.inTimestamp
  later : ∀ m ∈ x.channel, x.inTimestamp ≤ m.timestamp
  known : x.inTimestamp = 0 ∨ ∃ m ∈ sent, m.timestamp = x.inTimestamp
  fifo : ∃ taken, sent = taken++x.channel ∧ taken.filter (·.type = kPacket) = got

def Rising (sent : List ChannelMsg) : Prop := sent.Pairwise (·.timestamp ≤ ·.timestamp)

section
variable {curTs : UInt64} {x : Input} {sent got rest : List ChannelMsg} {m : ChannelMsg}

variable (h : Ahead curTs x sent got)
include h

lemma Ahead.send (hr : Rising (sent++[m])) :
    Ahead curTs { x with channel := x.channel++[m] } (sent++[m]) got := by
  have hlast : ∀ a ∈ sent, a.timestamp ≤ m.timestamp := fun a ha =>
    (pairwise_append.mp hr).2.2 a ha m (mem_singleton_self m)
  obtain ⟨taken,htaken,hgot⟩ := h.fifo
  refine ⟨h.sync,h.inSync,h.ahead,?_,?_,taken,by rw [htaken, append_assoc],hgot⟩
  · intro a ha
    rcases mem_append.mp ha with ha | ha
    · exact h.later a ha
    · rw [mem_singleton.mp ha]
      rcases h.known with h0 | ⟨b,hb,heq⟩
      · rw [h0]
        exact UInt64.zero_le
      · rw [← heq]
        exact hlast b hb
  · rcases h.known with h0 | ⟨b,hb,heq⟩
    · exact .inl h0
    · exact .inr ⟨b,mem_append_left _ hb,heq⟩

lemma Ahead.head (hr : Rising sent) (hch : x.channel = m :: rest) :
    m ∈ sent ∧ curTs ≤ m.timestamp ∧ ∀ a ∈ rest, m.timestamp ≤ a.timestamp := by
  obtain ⟨_,htaken,-⟩ := h.fifo
  rw [hch] at htaken
  rw [htaken] at hr
  refine ⟨?_,?_,?_⟩
  · rw [htaken]
    exact mem_append_right _ mem_cons_self
  · exact UInt64.le_trans h.ahead (h.later m (by rw [hch]; exact mem_cons_self))
  · exact (pairwise_cons.mp (pairwise_append.mp hr).2.1).1

lemma Ahead.early (hr : Rising sent) (hch : x.channel = m :: rest) :
    Ahead curTs { x with inTimestamp := m.timestamp } sent got := by
  obtain ⟨hsent,hcur,hrest⟩ := h.head hr hch
  refine ⟨h.sync,h.inSync,hcur,fun a ha => ?_,.inr ⟨m,hsent,rfl⟩,h.fifo⟩
  have ha : a ∈ m :: rest := hch ▸ ha
  rcases mem_cons.mp ha with rfl | ha
  · exact UInt64.le_refl _
  · exact hrest a ha

lemma Ahead.consumed_at (hr : Rising sent) (hch : x.channel = m :: rest)
    (ht : x.inSync → m.timestamp ≤ curTs) : m.timestamp = curTs :=
  UInt64.le_antisymm (ht h.inSync) (h.head hr hch).2.1

lemma Ahead.consume (hr : Rising sent) (hch : x.channel = m :: rest)
    (hlive : m.type ≠ kTypeTerminate) :
    Ahead curTs (x.consumed m rest) sent (got++if m.type = kPacket then [m] else []) := by
  obtain ⟨hsent,hcur,hrest⟩ := h.head hr hch
  obtain ⟨taken,htaken,hgot⟩ := h.fifo
  rw [Input.consumed, if_neg hlive]
  refine ⟨h.sync,h.inSync,hcur,hrest,.inr ⟨m,hsent,rfl⟩,taken++[m],?_,?_⟩
  · rw [htaken, hch, append_assoc]
    rfl
  · rw [filter_append, hgot]
    by_cases hp : m.type = kPacket <;> simp [hp]

lemma Ahead.advance {next : UInt64} (hn : next ≤ x.inTimestamp) : Ahead next x sent got :=
  { h with ahead := hn }

omit h

end

section
variable {log out : List Seen} {i : ℕ}

@[simp] lemma receivedOn_append : receivedOn i (log++out) = receivedOn i log++receivedOn i out := by
  simp [receivedOn]

lemma receivedOn_nil (h : receptions out = []) : receivedOn i out = [] := by
  rw [receivedOn, h]
  rfl

end

/-! ## Invariants of the view -/

section
variable (n : ℕ) (latency : UInt64) (v : View) (log : List Seen)

def Orderly : Prop := ∀ i, Rising (sentOn i log) ∧ ∀ m ∈ sentOn i log, m.type ≠ kTypeTerminate

def Ports : Prop := ∀ i < n, Ahead v.curTs (v.input i) (sentOn i log) (receivedOn i log)

structure Search (i : ℕ) (minTs : UInt64) : Prop where
  ahead : v.curTs ≤ minTs
  least : ∀ j < i, j < n → minTs ≤ (v.input j).inTimestamp
  found : minTs = kTimestampMax ∨ ∃ j < n, minTs = (v.input j).inTimestamp
  done : ∀ ev ∈ v.queue, v.curTs < ev.timestamp

def Searching : Prop := ∀ i minTs, v.stage = .scanning i minTs → Search n v i minTs

/-- What was received, what was handed out, what waits. An event whose stamp
is at least the latency was stamped without an overflow. -/
structure Ledger : Prop where
  received : ∀ m ev curTs, (m,ev,curTs) ∈ receptions log →
    m.timestamp = curTs ∧ ev = ⟨m.timestamp+latency,ev.ingressPort,m.data⟩
  balance : (((receptions log).map (·.2.1) : List PacketEvent) : Multiset PacketEvent) =
    ((handings log).map Prod.fst : List PacketEvent)+v.queue
  waiting : ∀ ev ∈ v.queue, latency ≤ ev.timestamp → v.curTs ≤ ev.timestamp
  handed : ∀ ev curTs, (ev,curTs) ∈ handings log → latency ≤ ev.timestamp → curTs = ev.timestamp

end

section
variable {n : ℕ} {latency : UInt64} {v w : View} {log out : List Seen}

lemma Orderly.left (h : Orderly (log++out)) : Orderly log := by
  intro i
  obtain ⟨hr,hl⟩ := h i
  rw [sentOn_append] at hr hl
  exact ⟨(pairwise_append.mp hr).1,fun m hm => hl m (mem_append_left _ hm)⟩

/-- One port changes, with the log of that port only. -/
lemma Ports.setInput (h : Ports n v log) {i : ℕ} {x : Input}
    (hout : ∀ j, j ≠ i → sentOn j out = [] ∧ receivedOn j out = [])
    (hx : i < n → Ahead v.curTs x (sentOn i (log++out)) (receivedOn i (log++out))) :
    Ports n (v.setInput i x) (log++out) := by
  intro j hj
  show Ahead v.curTs (update v.input i x j) _ _
  by_cases hji : j = i
  · subst hji
    rw [update_self]
    exact hx hj
  · obtain ⟨hs,hg⟩ := hout j hji
    rw [update_of_ne hji, sentOn_append, receivedOn_append, hs, hg, append_nil, append_nil]
    exact h j hj

lemma Ports.quiet (h : Ports n v log) (hs : ∀ i, sentOn i out = [])
    (hr : receptions out = []) : Ports n v (log++out) := by
  intro i hi
  rw [sentOn_append, receivedOn_append, hs, receivedOn_nil hr, append_nil, append_nil]
  exact h i hi

lemma Ports.turn (h : Ports n v log) (hs : Searching n v) (ht : Turn n latency v out w)
    (ho : Orderly (log++out)) : Ports n w (log++out) := by
  have hold := ho.left
  cases ht with
  | send i m hi =>
    refine h.setInput (fun j hj => ⟨by simp [sentOn, hj.symm],rfl⟩) fun _ => ?_
    have hsent : sentOn i [Seen.sent i m] = [m] := by simp [sentOn]
    have hr := (ho i).1
    rw [sentOn_append, hsent] at hr
    have hgot : receivedOn i [Seen.sent i m] = [] := rfl
    rw [sentOn_append, receivedOn_append, hsent, hgot, append_nil]
    exact (h i hi).send hr
  | move out stage hout =>
    obtain ⟨hs,hr,-⟩ := outgoing_nil hout
    exact h.quiet hs hr
  | early i m rest hi hch =>
    refine h.setInput (fun j hj => ⟨rfl,rfl⟩) fun _ => ?_
    rw [append_nil]
    exact (h i hi).early (hold i).1 hch
  | consume i m rest hi hch ht htype =>
    refine h.setInput (fun j hj => ⟨rfl,rfl⟩) fun _ => ?_
    have hlive := (hold i).2 m ((h i hi).head (hold i).1 hch).1
    have hx := (h i hi).consume (hold i).1 hch hlive
    rw [if_neg htype] at hx
    rw [append_nil]
    simpa using hx
  | receive i m rest hi hch ht htype =>
    refine h.setInput (fun j hj => ⟨rfl,by simp [receivedOn, receptions, hj.symm]⟩) fun _ => ?_
    have hlive := (hold i).2 m ((h i hi).head (hold i).1 hch).1
    have hx := (h i hi).consume (hold i).1 hch hlive
    rw [if_pos htype] at hx
    simpa [sentOn, receivedOn, receptions] using hx
  | hand ev q hq hdue hmin | rest hlater => exact h.quiet (fun _ => rfl) rfl
  | look out i minTs next hstage hout =>
    obtain ⟨hs,hr,-⟩ := outgoing_nil hout
    exact h.quiet hs hr
  | advance i minTs next hstage hi hmin =>
    rw [append_nil]
    intro j hj
    have hj' := (hs i minTs hstage).least j (hj.trans_le hi) hj
    exact (h j hj).advance (UInt64.le_trans hmin hj')

lemma Searching.turn (h : Searching n v) (hp : Ports n v log) (ht : Turn n latency v out w) :
    Searching n w := by
  intro k ts hw
  cases ht with
  | send i m =>
    have hin : ∀ j, ((v.setInput i { v.input i with channel := (v.input i).channel++[m] }).input
        j).inTimestamp = (v.input j).inTimestamp := by
      intro j
      by_cases hj : j = i
      · subst hj
        simp [View.setInput]
      · simp [View.setInput, hj]
    obtain ⟨h1,h2,h3,h4⟩ := h k ts hw
    exact ⟨h1,fun j hj hn => by rw [hin]; exact h2 j hj hn,
      h3.imp id fun ⟨j,hj,heq⟩ => ⟨j,hj,by rw [hin]; exact heq⟩,h4⟩
  | move out stage hout hstage =>
    rcases hstage with rfl | rfl
    · cases hw
    · exact { h k ts hw with }
  | rest hlater =>
    cases hw
    exact ⟨UInt64.le_iff_toNat_le.mpr (Nat.le_of_lt_succ v.curTs.toNat_lt),by simp,.inl rfl, hlater⟩
  | look out i minTs next hstage hout hle hport heq =>
    obtain ⟨h1,h2,h3,h4⟩ := h i minTs hstage
    cases hw
    refine ⟨?_,fun j hj hn => ?_,?_,h4⟩
    · rcases heq with rfl | ⟨rfl,hi⟩
      · exact h1
      · exact (hp i hi).ahead
    · rcases Nat.lt_succ_iff_lt_or_eq.mp hj with hlt | rfl
      · exact UInt64.le_trans hle (h2 j hlt hn)
      · exact hport (hp j hn).sync
    · rcases heq with rfl | ⟨rfl,hi⟩
      · exact h3
      · exact .inr ⟨i,hi,rfl⟩
  | early | consume | receive | hand | advance => cases hw

/-- A sum that does not overflow is at least its second part, and then also
its first. -/
lemma le_add_of_le {a b : UInt64} (h : b ≤ a+b) : a ≤ a+b := by
  rw [UInt64.le_iff_toNat_le, UInt64.toNat_add] at h ⊢
  have ha := a.toNat_lt
  have hb := b.toNat_lt
  omega

variable (h : Ledger latency v log)
include h

/-- What leaves the lists and the queue as they are, with a clock that no
waiting event is behind. -/
lemma Ledger.quiet (hr : receptions out = []) (hh : handings out = []) (hq : w.queue = v.queue)
    (hw : ∀ ev ∈ v.queue, latency ≤ ev.timestamp → w.curTs ≤ ev.timestamp) :
    Ledger latency w (log++out) := by
  constructor
  · rw [receptions_append, hr, append_nil]
    exact h.received
  · rw [receptions_append, handings_append, hr, hh, append_nil, append_nil, hq]
    exact h.balance
  · rw [hq]
    exact hw
  · rw [handings_append, hh, append_nil]
    exact h.handed

/-- A packet that is received at its time. -/
lemma Ledger.receive {m : ChannelMsg} {i : ℕ} (hat : m.timestamp = v.curTs) (hc : w.curTs = v.curTs)
    (hq : w.queue = ⟨v.curTs+latency,i,m.data⟩ ::ₘ v.queue) :
    Ledger latency w (log++[.received m ⟨v.curTs+latency,i,m.data⟩ v.curTs]) := by
  have hr : receptions [Seen.received m ⟨v.curTs+latency,i,m.data⟩ v.curTs] =
      [(m,⟨v.curTs+latency,i,m.data⟩,v.curTs)] := rfl
  have hh : handings [Seen.received m ⟨v.curTs+latency,i,m.data⟩ v.curTs] = [] := rfl
  constructor
  · intro a ev curTs hmem
    rw [receptions_append, hr, mem_append, mem_singleton] at hmem
    rcases hmem with hmem | hmem
    · exact h.received a ev curTs hmem
    · obtain ⟨rfl,rfl,rfl⟩ := hmem
      exact ⟨hat,by rw [hat]⟩
  · rw [receptions_append, handings_append, hr, hh, append_nil, map_append,
      ← Multiset.coe_add, h.balance, hq, add_assoc]
    congr 1
    exact Multiset.add_cons _ _ _ |>.trans (congrArg _ (add_zero _))
  · rw [hq, hc]
    intro ev hev hle
    rcases Multiset.mem_cons.mp hev with rfl | hev
    · exact le_add_of_le hle
    · exact h.waiting ev hev hle
  · rw [handings_append, hh, append_nil]
    exact h.handed

/-- An event that is due is handed out at its time. -/
lemma Ledger.hand {ev : PacketEvent} {q : Multiset PacketEvent} (hq : v.queue = ev ::ₘ q)
    (hdue : ev.timestamp ≤ v.curTs) (hc : w.curTs = v.curTs) (hw : w.queue = q) :
    Ledger latency w (log++[.handed ev v.curTs]) := by
  have hh : handings [Seen.handed ev v.curTs] = [(ev,v.curTs)] := rfl
  have hr : receptions [Seen.handed ev v.curTs] = [] := rfl
  constructor
  · rw [receptions_append, hr, append_nil]
    exact h.received
  · rw [receptions_append, handings_append, hr, hh, append_nil, map_append,
      ← Multiset.coe_add, h.balance, hq, hw, add_assoc]
    rfl
  · rw [hw, hc]
    intro x hx
    exact h.waiting x (by rw [hq]; exact Multiset.mem_cons_of_mem hx)
  · intro x curTs hmem hle
    rw [handings_append, hh, mem_append, mem_singleton] at hmem
    rcases hmem with hmem | hmem
    · exact h.handed x curTs hmem hle
    · obtain ⟨rfl,rfl⟩ := hmem
      have hwait := h.waiting ev (by rw [hq]; exact Multiset.mem_cons_self _ _) hle
      exact UInt64.le_antisymm hwait hdue

lemma Ledger.turn (hp : Ports n v log) (ht : Turn n latency v out w) (ho : Orderly log) :
    Ledger latency w (log++out) := by
  cases ht with
  | receive i m rest hi hch ht =>
    exact h.receive ((hp i hi).consumed_at (ho i).1 hch ht) rfl rfl
  | hand ev q hq hdue => exact h.hand hq hdue rfl rfl
  | move out stage hout hstage | look out i minTs next hstage hout hle hport heq =>
    obtain ⟨-,hr,hh⟩ := outgoing_nil hout
    exact h.quiet hr hh rfl h.waiting
  | advance i minTs next hstage hi hmin hqueue =>
    exact h.quiet rfl rfl rfl fun ev hev _ => hqueue ev hev
  | send | early | consume | rest => exact h.quiet rfl rfl rfl h.waiting

lemma Ledger.count (ev : PacketEvent) :
    ((receptions log).map (·.2.1)).count ev = ((handings log).map Prod.fst).count ev+v.queue.count
    ev := by
  have hc := congrArg (Multiset.count ev) h.balance
  rwa [Multiset.count_add, Multiset.coe_count, Multiset.coe_count] at hc

omit h

lemma Searching.curTs_le (h : Searching n v) (ht : Turn n latency v out w) : v.curTs ≤ w.curTs := by
  cases ht with
  | advance i minTs next hstage hi hmin hqueue heq =>
    have hs := h i minTs hstage
    rcases heq with rfl | ⟨ev,hev,rfl⟩
    · exact hs.ahead
    · exact UInt64.le_of_lt (hs.done ev hev)
  | send | move | early | consume | receive | hand | rest | look => exact UInt64.le_refl _

end

/-! ## Runs -/

section
variable {pq : PriorityQueue PacketEvent ℕ PacketEvent.due} {s : Switch pq} {log : List Seen}

/-- The switch when `Run` begins, every port synchronized. -/
structure Synchronized (s : Switch pq) : Prop where
  start : s.curTs = 0 ∧ s.eventQueue = pq.empty ∧ s.pc = .outer
  ports : ∀ i < s.numPorts, (s.ports i).input = ⟨true,true,0,[]⟩

structure Timely (s : Switch pq) (log : List Seen) : Prop where
  ports : Ports s.numPorts s.view log
  searching : Searching s.numPorts s.view
  ledger : Ledger s.latencyPs s.view log

lemma Synchronized.timely (h : Synchronized s) : Timely s [] := by
  obtain ⟨hcur,hq,hpc⟩ := h.start
  have hqueue : s.view.queue = 0 := by
    show (↑(pq.contents s.eventQueue) : Multiset PacketEvent) = 0
    rw [hq, pq.contents_empty]
    rfl
  refine ⟨fun i hi => ?_,fun i minTs hs => ?_,?_⟩
  · have hin : s.view.input i = ⟨true,true,0,[]⟩ := h.ports i hi
    rw [hin]
    exact ⟨rfl,rfl,UInt64.le_of_eq hcur,by simp,.inl rfl,[],rfl,rfl⟩
  · have hbusy : s.view.stage = .busy := congrArg Pc.stage hpc
    rw [hbusy] at hs
    cases hs
  · constructor <;> simp [receptions, handings, hqueue]

lemma Timely.step (h : Timely s log) (e : Event) (ho : Orderly (log++s.emit e)) :
    Timely (s.step e) (log++s.emit e) := by
  have ht := s.perform_turn e
  constructor
  · rw [s.step_numPorts]
    exact h.ports.turn h.searching ht ho
  · rw [s.step_numPorts]
    exact h.searching.turn h.ports ht
  · rw [s.step_latencyPs]
    exact h.ledger.turn h.ports ht ho.left

lemma Timely.run (h : Timely s log) (ops : List Event)
    (ho : Orderly (log++trace Switch.step Switch.emit s ops)) :
    Timely (run Switch.step s ops) (log++trace Switch.step Switch.emit s ops) := by
  induction ops generalizing s log with
  | nil => simpa [trace] using h
  | cons e ops ih =>
    rw [trace, ← append_assoc] at ho ⊢
    exact ih (h.step e ho.left) ho

lemma Timely.curTs_le (h : Timely s log) (ops : List Event)
    (ho : Orderly (log++trace Switch.step Switch.emit s ops)) :
    s.curTs ≤ (Library.Run.run Switch.step s ops).curTs := by
  induction ops generalizing s log with
  | nil => exact UInt64.le_refl _
  | cons e ops ih =>
    rw [trace, ← append_assoc] at ho
    exact UInt64.le_trans (h.searching.curTs_le (s.perform_turn e)) (ih (h.step e ho.left) ho)

end

end SimBricks.HcopTiming
