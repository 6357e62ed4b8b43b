import Mathlib.Data.Prod.Lex
import SimBricks.Switch.HcopTiming

/-!
# The HCOP switch gets on

As long as every channel holds a message of a later time and there is room in
the outgoing queues, the clock advances. Within one time stamp each pass over
the ports consumes a message or learns of a later one; between two passes the
due events are handed out and their copies sent.
-/

set_option autoImplicit false

namespace SimBricks.HcopProgress
open Library.Heap Library.Run Library.Bytes Function Nat List UInt64
open BaseIf HcopSwitch HcopTiming

/-! ## A measure -/

/-- Messages to consume, and one more for a stamp the clock has reached. -/
def load (curTs : UInt64) (x : Input) : ℕ := x.channel.length+if x.inTimestamp ≤ curTs then 1 else 0

section
variable (n : ℕ) (v : View)

def total : ℕ := ∑ i ∈ Finset.range n, load v.curTs (v.input i)

/-- A port not polled yet in this pass shows a stamp the clock has reached. -/
def StaleFrom (i : ℕ) : Prop := ∃ j < n, i ≤ j ∧ (v.input j).inTimestamp ≤ v.curTs

instance (i : ℕ) : Decidable (StaleFrom n v i) := inferInstanceAs (Decidable (∃ j < n, _))

-- A pass that meets a stale port ends there, with a smaller load. Another one
-- goes on to the end of the search, and the next pass meets a stale port.
def rank : Pc → ℕ
  | .outer => 4*n+5
  | .sync i => 3*n+4+(n-i)
  | .poll i => if StaleFrom n v i then n-i else 2*n+3+(n-i)
  | .process | .transmit _ _ => 2*n+2
  | .scan i _ => n+1+(n-i)
  | .exited => 0

def copies : Pc → ℕ
  | .transmit dsts _ => dsts.length+1
  | _ => 0

def weight (pc : Pc) : ℕ ×ₗ ℕ ×ₗ ℕ ×ₗ ℕ ×ₗ ℕ :=
  toLex (2^64-v.curTs.toNat,toLex (total n v,toLex (rank n v pc, toLex (v.queue.card,copies pc))))

end

variable {x : Input} {m : ChannelMsg} {i : ℕ}

section
variable {n : ℕ} {v w : View} {pc pc' : Pc}

lemma weight_lt_of_curTs (h : v.curTs < w.curTs) : weight n w pc' < weight n v pc := by
  have hlt : 2^64-w.curTs.toNat < 2^64-v.curTs.toNat := by
    have hv := v.curTs.toNat_lt
    rw [lt_iff_toNat_lt] at h
    omega
  exact Prod.Lex.toLex_lt_toLex.mpr (.inl hlt)

lemma weight_lt_of_total (hc : w.curTs = v.curTs) (h : total n w < total n v) :
    weight n w pc' < weight n v pc := by
  apply Prod.Lex.toLex_lt_toLex.mpr
  refine .inr ⟨by rw [hc],?_⟩
  exact Prod.Lex.toLex_lt_toLex.mpr (.inl h)

lemma weight_lt_of_rank (hc : w.curTs = v.curTs) (ht : total n w = total n v)
    (h : rank n w pc' < rank n v pc) : weight n w pc' < weight n v pc := by
  apply Prod.Lex.toLex_lt_toLex.mpr
  refine .inr ⟨by rw [hc],?_⟩
  apply Prod.Lex.toLex_lt_toLex.mpr
  refine .inr ⟨ht,?_⟩
  exact Prod.Lex.toLex_lt_toLex.mpr (.inl h)

lemma weight_lt_of_queue (hc : w.curTs = v.curTs) (ht : total n w = total n v)
    (hr : rank n w pc' = rank n v pc)
    (h : w.queue.card < v.queue.card ∨ w.queue.card = v.queue.card ∧ copies pc' < copies pc) :
    weight n w pc' < weight n v pc := by
  apply Prod.Lex.toLex_lt_toLex.mpr
  refine .inr ⟨by rw [hc],?_⟩
  apply Prod.Lex.toLex_lt_toLex.mpr
  refine .inr ⟨ht,?_⟩
  apply Prod.Lex.toLex_lt_toLex.mpr
  refine .inr ⟨hr,?_⟩
  exact Prod.Lex.toLex_lt_toLex.mpr h

variable {curTs : UInt64}

lemma load_early {ts : UInt64} (hx : x.inTimestamp ≤ curTs) (ht : curTs < ts) :
    load curTs { x with inTimestamp := ts } < load curTs x := by
  unfold load
  rw [if_pos hx, if_neg (UInt64.not_le.mpr ht)]
  exact lt_succ_self _

lemma load_late {ts : UInt64} (hx : curTs < x.inTimestamp) (ht : curTs < ts) :
    load curTs { x with inTimestamp := ts } = load curTs x := by
  unfold load
  rw [if_neg (UInt64.not_le.mpr hx), if_neg (UInt64.not_le.mpr ht)]

lemma load_consumed {rest : List ChannelMsg} (hch : x.channel = m :: rest)
    (hx : x.inTimestamp ≤ curTs) : load curTs (x.consumed m rest) < load curTs x := by
  have hrest : (x.consumed m rest).channel = rest := by
    unfold Input.consumed
    split_ifs <;> rfl
  unfold load
  rw [hrest, hch, if_pos hx, length_cons]
  split_ifs <;> omega

lemma load_setInput (v : View) (i j : ℕ) (x : Input) :
    load v.curTs ((v.setInput i x).input j) = if j = i then load v.curTs x else load v.curTs
    (v.input j) := by
  by_cases hj : j = i
  · subst hj
    rw [if_pos rfl]
    exact congrArg _ (update_self _ _ _)
  · rw [if_neg hj]
    exact congrArg _ (update_of_ne hj _ _)

lemma total_setInput_lt (hi : i < n) (h : load v.curTs x < load v.curTs (v.input i)) :
    total n (v.setInput i x) < total n v := by
  apply Finset.sum_lt_sum
  · intro j _
    show load v.curTs ((v.setInput i x).input j) ≤ load v.curTs (v.input j)
    rw [load_setInput]
    split_ifs with hj
    · subst hj
      exact h.le
    · exact le_rfl
  · refine ⟨i,Finset.mem_range.mpr hi,?_⟩
    show load v.curTs ((v.setInput i x).input i) < load v.curTs (v.input i)
    rw [load_setInput, if_pos rfl]
    exact h

lemma total_setInput_eq (h : load v.curTs x = load v.curTs (v.input i)) :
    total n (v.setInput i x) = total n v := by
  apply Finset.sum_congr rfl
  intro j _
  show load v.curTs ((v.setInput i x).input j) = load v.curTs (v.input j)
  rw [load_setInput]
  split_ifs with hj
  · subst hj
    exact h
  · rfl

lemma staleFrom_setInput (x : Input) (hi : v.curTs < (v.input i).inTimestamp) :
    StaleFrom n (v.setInput i x) (i+1) ↔ StaleFrom n v i := by
  have hin : ∀ j, j ≠ i → (v.setInput i x).input j = v.input j := fun j hj =>
    update_of_ne hj _ _
  constructor
  · rintro ⟨j,hj,hle,hs⟩
    rw [hin j (by omega)] at hs
    exact ⟨j,hj,by omega,hs⟩
  · rintro ⟨j,hj,hle,hs⟩
    have hne : j ≠ i := by
      rintro rfl
      exact absurd hi (UInt64.not_lt.mpr hs)
    refine ⟨j,hj,by omega,?_⟩
    rw [hin j hne]
    exact hs

lemma rank_poll_setInput (x : Input) (hn : i < n) (hi : v.curTs < (v.input i).inTimestamp) :
    rank n (v.setInput i x) (.poll (i+1)) < rank n v (.poll i) := by
  simp only [rank, staleFrom_setInput x hi]
  split_ifs <;> omega

end

/-! ## One tick -/

section
variable {pq : PriorityQueue PacketEvent ℕ PacketEvent.due} {s t : Switch pq} {log : List Seen}

structure Onward (s t : Switch pq) : Prop where
  weight : weight s.numPorts t.view t.pc < weight s.numPorts s.view s.pc
  exiting : t.exiting = s.exiting
  running : t.pc ≠ .exited

open Switch

lemma onward_goto (hview : t.view = s.view) (hexit : t.exiting = s.exiting) {pc : Pc}
    (hpc : pc ≠ .exited) (hrank : rank s.numPorts s.view pc < rank s.numPorts s.view s.pc) :
    Onward s (t.goto pc) := by
  refine ⟨?_,hexit,hpc⟩
  rw [view_goto, hview]
  exact weight_lt_of_rank rfl rfl hrank

lemma syncPort_free (s : Switch pq) (i : ℕ) : (s.syncPort i true).2.2 := by
  unfold syncPort
  rcases (s.ports i).netif.outSync_cases true s.curTs with ⟨-,h⟩ | ⟨-,h⟩ | ⟨hf,-⟩
  · rw [h]
  · rw [h]
  · cases hf

lemma rank_poll_le (n : ℕ) (v : View) (i : ℕ) : rank n v (.poll i) ≤ 3*n+3 := by
  show (if StaleFrom n v i then n-i else 2*n+3+(n-i)) ≤ 3*n+3
  split_ifs <;> omega

lemma sync_onward (hpc : s.pc = .sync i) (beyond : Memory) : Onward s (s.tick true beyond).1 := by
  have hnext : i < s.numPorts →
      rank s.numPorts s.view (.sync (i+1)) < rank s.numPorts s.view s.pc := by
    intro hi
    rw [hpc]
    show 3*s.numPorts+4+(s.numPorts-(i+1)) < 3*s.numPorts+4+(s.numPorts-i)
    omega
  simp only [tick, hpc]
  split_ifs with hi hsync hok
  · exact onward_goto (s.syncPort_view i true).1 rfl (by simp) (hnext hi)
  · exact absurd (syncPort_free s i) hok
  · exact onward_goto rfl rfl (by simp) (hnext hi)
  · apply onward_goto rfl rfl (by simp)
    have hle := rank_poll_le s.numPorts s.view 0
    rw [hpc]
    show _ < 3*s.numPorts+4+(s.numPorts-i)
    omega

lemma poll_onward (hi : i < s.numPorts) (hpc : s.pc = .poll i) (h : Timely s log)
    (hch : (s.ports i).channel ≠ []) : Onward s (s.pollPort i).1 := by
  -- a message that is due lies on a port that shows no later stamp
  have hload : ∀ m rest, (s.ports i).channel = m :: rest →
      ((s.ports i).netif.sync → m.timestamp ≤ s.curTs) →
      total s.numPorts (s.view.setInput i ((s.ports i).input.consumed m rest)) <
        total s.numPorts s.view := by
    intro m rest hm ht
    have ha := h.ports i hi
    have hmem : m ∈ (s.ports i).channel := by
      rw [hm]
      exact mem_cons_self
    have hstale := UInt64.le_trans (ha.later m hmem) (ht ha.inSync)
    exact total_setInput_lt hi (load_consumed hm hstale)
  have hpoll := s.pollPort_polled i
  generalize s.pollPort i = r at hpoll ⊢
  cases hpoll with
  | empty p hnil => exact absurd hnil hch
  | early p m rest hm hs ht hin =>
    refine ⟨?_,rfl,by simp [goto]⟩
    rw [view_goto, view_setPort, hin]
    by_cases hstale : (s.ports i).input.inTimestamp ≤ s.curTs
    · exact weight_lt_of_total rfl (total_setInput_lt hi (load_early hstale ht))
    · have hlater := UInt64.not_le.mp hstale
      refine weight_lt_of_rank rfl (total_setInput_eq (load_late hlater ht)) ?_
      rw [hpc]
      exact rank_poll_setInput _ hi hlater
  | other p m rest hm ht htype hin =>
    refine ⟨?_,rfl,by simp [goto]⟩
    rw [view_goto, view_setPort, hin]
    exact weight_lt_of_total rfl (hload m rest hm ht)
  | packet p m rest hm ht htype hin =>
    refine ⟨?_,rfl,?_⟩
    · rw [view_schedulePacket, view_setPort, hin]
      exact weight_lt_of_total rfl (hload m rest hm ht)
    · show s.pc ≠ .exited
      simp [hpc]

lemma process_onward (hpc : s.pc = .process) (beyond : Memory) :
    Onward s (s.processEvent beyond).1 := by
  have hscan : Onward s (s.goto (.scan 0 kTimestampMax)) := by
    apply onward_goto rfl rfl (by simp)
    rw [hpc]
    show s.numPorts+1+(s.numPorts-0) < 2*s.numPorts+2
    omega
  unfold processEvent
  cases htop : pq.top s.eventQueue with
  | none => exact hscan
  | some =>
    dsimp only
    split_ifs with hlt
    · exact hscan
    · refine ⟨?_,rfl,by simp⟩
      refine weight_lt_of_queue rfl rfl (by rw [hpc]; rfl) (.inl ?_)
      rw [s.view_pop htop, Multiset.card_cons]
      exact lt_succ_self _

lemma transmit_onward {dsts : List ℕ} {pkt : List UInt8} (hpc : s.pc = .transmit dsts pkt)
    (beyond : Memory) : Onward s (s.tick true beyond).1 := by
  have hsend : ∀ (t : Switch pq) (pc : Pc), t.view = s.view → t.exiting = s.exiting →
      pc ≠ .exited → rank s.numPorts s.view pc = 2*s.numPorts+2 → copies pc < dsts.length+1 →
      Onward s (t.goto pc) := by
    intro t pc hview hexit hne hrank hcopies
    refine ⟨?_,hexit,hne⟩
    rw [view_goto, hview, hpc]
    exact weight_lt_of_queue rfl rfl hrank (.inr ⟨rfl,hcopies⟩)
  simp only [tick, hpc]
  cases dsts with
  | nil => exact hsend s .process rfl rfl (by simp) rfl (lt_succ_self _)
  | cons i dsts =>
    exact hsend _ (.transmit dsts pkt) (s.txPacket_view i pkt true).1 rfl (by simp) rfl
      (lt_succ_self _)

lemma scanPort_onward {minTs : UInt64} (hi : i < s.numPorts) (hpc : s.pc = .scan i minTs) :
    Onward s (s.scanPort i minTs true).1 := by
  have hnext : ∀ ts, rank s.numPorts s.view (.scan (i+1) ts) < rank s.numPorts s.view s.pc := by
    intro ts
    rw [hpc]
    show s.numPorts+1+(s.numPorts-(i+1)) < s.numPorts+1+(s.numPorts-i)
    omega
  unfold scanPort
  by_cases hsync : (s.ports i).sync
  · rw [if_pos hsync]
    by_cases hmax : minTs < kTimestampMax ∧ (s.ports i).netif.inTimestamp = kTimestampMax
    · simp only [if_pos hmax, if_pos (syncPort_free s i)]
      exact onward_goto (s.syncPort_view i true).1 rfl (by simp) (hnext _)
    · simp only [if_neg hmax]
      exact onward_goto rfl rfl (by simp) (hnext _)
  · rw [if_neg hsync]
    exact onward_goto rfl rfl (by simp) (hnext _)

/-- The search has an end below the largest stamp. It is a stamp some port
shows, or one the clock moves to. -/
lemma endScan_onward {minTs : UInt64} (hi : s.numPorts ≤ i) (hpc : s.pc = .scan i minTs)
    (h : Timely s log) (hexit : s.exiting = false) (hmax : minTs < kTimestampMax) :
    Onward s (s.endScan minTs) := by
  have hs : Search s.numPorts s.view i minTs := h.searching i minTs (congrArg Pc.stage hpc)
  obtain ⟨h1,-,h3⟩ := s.scanQueue_spec minTs
  have hlt : s.scanQueue minTs < kTimestampMax := UInt64.lt_of_le_of_lt h1 hmax
  unfold endScan
  by_cases hagain : s.scanQueue minTs ≤ s.curTs
  · rw [if_pos ⟨hexit,hagain,hlt⟩]
    apply onward_goto rfl rfl (by simp)
    have hmin : s.scanQueue minTs = minTs := by
      rcases h3 with h3 | ⟨ev,hev,h3⟩
      · exact h3
      · rw [h3] at hagain
        exact absurd (hs.done ev hev) (UInt64.not_lt.mpr hagain)
    have hstale : StaleFrom s.numPorts s.view 0 := by
      rcases hs.found with hf | ⟨j,hj,hf⟩
      · rw [hf] at hmax
        exact absurd hmax (UInt64.lt_irrefl _)
      · refine ⟨j,hj,zero_le j,?_⟩
        rw [← hf, ← hmin]
        exact hagain
    rw [hpc]
    show (if StaleFrom s.numPorts s.view 0 then s.numPorts-0 else _) < s.numPorts+1+(s.numPorts-i)
    rw [if_pos hstale]
    omega
  · rw [if_neg fun hc => hagain hc.2.1, if_pos hlt]
    exact ⟨weight_lt_of_curTs (UInt64.not_le.mp hagain),rfl,by simp⟩

/-- Something to wait for: on each port a message of a time after `d`. -/
structure Pending (d : UInt64) (s : Switch pq) : Prop where
  timely : ∃ log, Timely s log ∧ Orderly log
  exiting : s.exiting = false
  running : s.pc ≠ .exited
  ports : 0 < s.numPorts
  later : ∀ i < s.numPorts, ∃ m ∈ (s.ports i).channel, d < m.timestamp ∧ m.timestamp < kTimestampMax

variable {d : UInt64}

lemma Pending.onward (h : Pending d s) (beyond : Memory) : Onward s (s.tick true beyond).1 := by
  obtain ⟨_,hl,-⟩ := h.timely
  cases hpc : s.pc with
  | outer =>
    simp only [tick, hpc, h.exiting]
    apply onward_goto rfl rfl (by simp)
    rw [hpc]
    show 3*s.numPorts+4+(s.numPorts-0) < 4*s.numPorts+5
    omega
  | sync => exact sync_onward hpc beyond
  | poll i =>
    simp only [tick, hpc]
    split_ifs with hi
    · obtain ⟨m,hm,-⟩ := h.later i hi
      exact poll_onward hi hpc hl (ne_nil_of_mem hm)
    · apply onward_goto rfl rfl (by simp)
      have hno : ¬ StaleFrom s.numPorts s.view i := fun ⟨j,hj,hle,_⟩ => hi (hle.trans_lt hj)
      rw [hpc]
      show 2*s.numPorts+2 < if StaleFrom s.numPorts s.view i then _ else _
      rw [if_neg hno]
      omega
  | process =>
    simp only [tick, hpc]
    exact process_onward hpc beyond
  | transmit => exact transmit_onward hpc beyond
  | scan i minTs =>
    simp only [tick, hpc]
    split_ifs with hi
    · exact scanPort_onward hi hpc
    · have hi := not_lt.mp hi
      have hs : Search s.numPorts s.view i minTs := hl.searching i minTs (congrArg Pc.stage hpc)
      obtain ⟨m,hm,-,hmax⟩ := h.later 0 h.ports
      have hle := UInt64.le_trans (hs.least 0 (h.ports.trans_le hi) h.ports)
        ((hl.ports 0 h.ports).later m hm)
      exact endScan_onward hi hpc hl h.exiting (UInt64.lt_of_le_of_lt hle hmax)
  | exited => exact absurd hpc h.running

lemma mem_setInput {v : View} {k : ℕ} (hm : m ∈ (v.input i).channel) (hx : i = k → m ∈ x.channel)
    : m ∈ ((v.setInput k x).input i).channel := by
  show m ∈ (update v.input k x i).channel
  by_cases hik : i = k
  · subst hik
    rw [update_self]
    exact hx rfl
  · rw [update_of_ne hik]
    exact hm

lemma mem_channel_turn {n : ℕ} {latency : UInt64} {v w : View} {out : List Seen}
    (hp : Ports n v log) (ht : Turn n latency v out w) (hm : m ∈ (v.input i).channel)
    (hlt : v.curTs < m.timestamp) : m ∈ (w.input i).channel := by
  -- only the head of a channel goes, and only when it is due
  have htake : ∀ k (a : ChannelMsg) (rest : List ChannelMsg), k < n →
      (v.input k).channel = a :: rest →
      ((v.input k).inSync → a.timestamp ≤ v.curTs) →
      m ∈ ((v.setInput k ((v.input k).consumed a rest)).input i).channel := by
    intro k a rest hk hch hdue
    apply mem_setInput hm
    rintro rfl
    rw [hch] at hm
    have hne : m ≠ a := by
      rintro rfl
      exact absurd hlt (UInt64.not_lt.mpr (hdue (hp i hk).inSync))
    have hrest := (mem_cons.mp hm).resolve_left hne
    rw [Input.consumed]
    split_ifs <;> exact hrest
  cases ht with
  | send =>
    apply mem_setInput hm
    rintro rfl
    exact mem_append_left _ hm
  | early =>
    apply mem_setInput hm
    rintro rfl
    exact hm
  | consume k a rest hk hch hdue htype | receive k a rest hk hch hdue htype =>
    exact htake k a rest hk hch hdue
  | move | hand | rest | look | advance => exact hm

lemma sentOn_tick (s : Switch pq) (free : Bool) (beyond : Memory) (i : ℕ) :
    sentOn i (s.tick free beyond).2 = [] := by
  apply filterMap_eq_nil_iff.mpr
  intro x hx
  rcases s.tick_emits hx with ho | ⟨_,rfl⟩ | ⟨j,m,-,-,-,rfl⟩
  · cases x <;> simp_all [Seen.outgoing]
  · rfl
  · rfl

lemma Pending.tick (h : Pending d s) (hd : s.curTs ≤ d) (beyond : Memory) :
    Pending d (s.step (.tick true beyond)) := by
  obtain ⟨log,hl,ho⟩ := h.timely
  have hon : Onward s (s.step (.tick true beyond)) := h.onward beyond
  have hn := s.step_numPorts (.tick true beyond)
  have ho' : Orderly (log++s.emit (.tick true beyond)) := by
    intro i
    have hnone : sentOn i (s.emit (.tick true beyond)) = [] := sentOn_tick s true beyond i
    rw [sentOn_append, hnone, append_nil]
    exact ho i
  refine ⟨⟨_,hl.step _ ho',ho'⟩,hon.exiting.trans h.exiting,hon.running,hn ▸ h.ports,?_⟩
  rw [hn]
  intro i hi
  obtain ⟨m,hm,hlt,hmax⟩ := h.later i hi
  have hcur : s.view.curTs < m.timestamp := UInt64.lt_of_le_of_lt hd hlt
  exact ⟨m,mem_channel_turn hl.ports (s.perform_turn _) hm hcur,hlt,hmax⟩

/-- The clock passes every time for which all ports hold a later message. -/
lemma Pending.passes (h : Pending d s) (beyond : ℕ → Memory) :
    ∃ k, d < (states step s (fun k => .tick true (beyond k)) k).curTs := by
  refine exists_states_of_decreasing (I := fun t => Pending d t ∧ t.numPorts = s.numPorts)
    (G := fun t => d < t.curTs) (fun t => weight s.numPorts t.view t.pc) ?_ ⟨h,rfl⟩
  rintro k t ⟨ht,hn⟩
  by_cases hd : d < t.curTs
  · exact .inl hd
  · have hn' := t.step_numPorts (.tick true (beyond k))
    have hw := (ht.onward (beyond k)).weight
    rw [hn] at hw
    exact .inr ⟨⟨ht.tick (UInt64.not_lt.mp hd) (beyond k),hn'.trans hn⟩,hw⟩

/-! ## Whole runs -/

lemma run_config (s : Switch pq) (ops : List Event) :
    (run step s ops).numPorts = s.numPorts ∧ (run step s ops).latencyPs = s.latencyPs :=
  run_always (I := fun t : Switch pq => t.numPorts = s.numPorts ∧ t.latencyPs = s.latencyPs)
    (fun t e h => ⟨(t.step_numPorts e).trans h.1,(t.step_latencyPs e).trans h.2⟩) ⟨rfl,rfl⟩ ops

lemma latencyPs_toNat (h : s.pipelineStages.toNat*s.stageLatencyNs.toNat*1000 < 2^64) :
    s.latencyPs.toNat = s.pipelineStages.toNat*s.stageLatencyNs.toNat*1000 := by
  have hprod : s.pipelineStages.toNat*s.stageLatencyNs.toNat < 2^64 := by omega
  unfold latencyPs
  rw [UInt64.toNat_mul, UInt64.toNat_mul, UInt32.toNat_toUInt64, Nat.mod_eq_of_lt hprod]
  exact Nat.mod_eq_of_lt h

lemma timestamp_toNat {ev : PacketEvent} (hev : ev.timestamp = m.timestamp+s.latencyPs)
    (h : m.timestamp.toNat+s.pipelineStages.toNat*s.stageLatencyNs.toNat*1000 < 2^64) :
    s.latencyPs ≤ ev.timestamp ∧ ev.timestamp.toNat =
    m.timestamp.toNat+s.pipelineStages.toNat*s.stageLatencyNs.toNat*1000 := by
  have hl := latencyPs_toNat (s := s) (by omega)
  have hts : ev.timestamp.toNat =
      m.timestamp.toNat+s.pipelineStages.toNat*s.stageLatencyNs.toNat*1000 := by
    rw [hev, UInt64.toNat_add, hl]
    exact mod_eq_of_lt h
  refine ⟨?_,hts⟩
  rw [le_iff_toNat_le, hts, hl]
  exact le_add_left _ _

/-- The clock never goes back; a packet is received when the clock shows its
stamp; its event is handed over once, when the clock shows the stamp and the
latency, and not later; and the clock gets there. -/
theorem packets_at_exact_time (hs : Synchronized s) (ops : List Event)
    (ho : Orderly (trace Switch.step Switch.emit s ops)) :
    let t := run Switch.step s ops
    let log := trace Switch.step Switch.emit s ops
    let latency := s.pipelineStages.toNat*s.stageLatencyNs.toNat*1000
    (∀ earlier later, ops = earlier++later → (run Switch.step s earlier).curTs ≤ t.curTs) ∧
    (∀ i < s.numPorts, ∃ taken, sentOn i log = taken++(t.ports i).channel ∧
      taken.filter (·.type = kPacket) = receivedOn i log ∧
      ∀ m ∈ (t.ports i).channel, t.curTs ≤ m.timestamp) ∧
    (∀ m ev curTs, (m,ev,curTs) ∈ receptions log → curTs = m.timestamp ∧ ev.data = m.data) ∧
    (∀ ev, ((receptions log).map (·.2.1)).count ev =
      ((handings log).map Prod.fst).count ev+(pq.contents t.eventQueue).count ev) ∧
    (∀ m ev curTs, (m,ev,curTs) ∈ receptions log → m.timestamp.toNat+latency < 2^64 →
      (∀ at', (ev,at') ∈ handings log → at'.toNat = m.timestamp.toNat+latency) ∧
      (m.timestamp.toNat+latency < t.curTs.toNat → ev ∉ pq.contents t.eventQueue)) ∧
    (∀ (d : UInt64) (beyond : ℕ → Memory), t.exiting = false → t.pc ≠ .exited → 0 < s.numPorts →
      (∀ i < s.numPorts, ∃ m ∈ (t.ports i).channel, d < m.timestamp ∧ m.timestamp < kTimestampMax) →
      ∃ k, d < (states Switch.step t (fun k => .tick true (beyond k)) k).curTs) := by
  intro t log latency
  have ht : Timely t log := by
    have h := hs.timely.run ops ho
    rwa [nil_append] at h
  obtain ⟨hn,hl⟩ : t.numPorts = s.numPorts ∧ t.latencyPs = s.latencyPs := run_config s ops
  refine ⟨?_,fun i hi => ?_,fun m ev curTs hm => ?_,fun ev => ?_,fun m ev curTs hm hsmall => ?_,?_⟩
  · rintro earlier later rfl
    rw [trace_append] at ho
    have he := hs.timely.run earlier ho.left
    have hle := he.curTs_le later ho
    rwa [← run_append] at hle
  · have ha := ht.ports i (hn.symm ▸ hi)
    obtain ⟨taken,htaken,hgot⟩ := ha.fifo
    exact ⟨taken,htaken,hgot,fun m hm => UInt64.le_trans ha.ahead (ha.later m hm)⟩
  · obtain ⟨htime,hev⟩ := ht.ledger.received m ev curTs hm
    exact ⟨htime.symm,congrArg PacketEvent.data hev⟩
  · rw [← Multiset.coe_count ev (pq.contents t.eventQueue)]
    exact ht.ledger.count ev
  · obtain ⟨-,hev⟩ := ht.ledger.received m ev curTs hm
    have hstamp : ev.timestamp = m.timestamp+s.latencyPs := by
      rw [← hl]
      exact congrArg PacketEvent.timestamp hev
    obtain ⟨hle,hnat⟩ := timestamp_toNat hstamp hsmall
    rw [← hl] at hle
    constructor
    · intro at' hat
      rw [ht.ledger.handed ev at' hat hle]
      exact hnat
    · intro hpast hq
      have hwait := le_iff_toNat_le.mp (ht.ledger.waiting ev hq hle)
      have hwait : t.curTs.toNat ≤ ev.timestamp.toNat := hwait
      omega
  · intro d beyond hexit hrun hpos hlater
    have hp : Pending d t := ⟨⟨log,ht,ho⟩,hexit,hrun,hn.symm ▸ hpos,fun i hi => hlater i (hn ▸ hi)⟩
    exact hp.passes beyond

end

/-- A packet of time 5 with a later sync message, and time to hand it over. -/
def onePacket : List Event := [.send 0 ⟨5,kPacket,[1]⟩,.send 0 ⟨2000000,kTypeSync,[]⟩] ++
    List.replicate 23 (.tick true fun _ => 0)

theorem one_packet_at_exact_time :
    let log := trace Switch.step Switch.emit (onePort (heap PacketEvent.due)) onePacket
    (⟨⟨1000005,0,[1]⟩,1000005⟩ : PacketEvent × UInt64) ∈ handings log ∧
      ∀ at', ((⟨1000005,0,[1]⟩,at') : PacketEvent × UInt64) ∈ handings log →
        at'.toNat = 1000005 := by
  have hlog : trace Switch.step Switch.emit (onePort (heap PacketEvent.due)) onePacket =
      [.sent 0 ⟨5,kPacket,[1]⟩,.sent 0 ⟨2000000,kTypeSync,[]⟩,.synced 0 500,.synced 0 505,
        .received ⟨5,kPacket,[1]⟩ ⟨1000005,0,[1]⟩ 5,.synced 0 1000505,
        .handed ⟨1000005,0,[1]⟩ 1000005] := by decide +kernel
  have ho : Orderly (trace Switch.step Switch.emit (onePort (heap PacketEvent.due)) onePacket) := by
    rw [hlog]
    intro i
    cases i with
    | zero => exact ⟨by unfold Rising; decide,by decide⟩
    | succ => simp [sentOn, Rising]
  have hm : ((⟨5,kPacket,[1]⟩,⟨1000005,0,[1]⟩,5) : ChannelMsg × PacketEvent × UInt64) ∈
      receptions (trace Switch.step Switch.emit (onePort (heap PacketEvent.due)) onePacket) := by
    decide
  refine ⟨by rw [hlog]; decide,?_⟩
  exact ((packets_at_exact_time ⟨⟨rfl,rfl,rfl⟩,fun _ _ => rfl⟩ onePacket ho).2.2.2.2.1 _ _ _ hm
    (by decide)).1

end SimBricks.HcopProgress
