import SimBricks.I40e.Pipeline

/-!
# Runs of a descriptor queue

An enabled queue, a driver that keeps to the room in the ring, and completions
in any order. Every run takes the posted descriptors through the pipeline in
ring order, and once nothing is pending all of them are through.
-/

set_option autoImplicit false

namespace SimBricks.I40eQueue

open Library.Run Nat Finset

/-- `none` is a queue that has stopped at an assertion. -/
def step (q : Option Queue) (e : Event) : Option Queue := q.bind fun q => q.act e

def Legal : Option Queue → Event → Prop
  | some q, e => q.Legal e
  | none, _ => True

def Pending : Option Queue → Event → Prop
  | some q, e => q.Pending e
  | none, _ => False

instance (q : Queue) : ∀ e, Decidable (q.Pending e)
  | .tail _ _ => inferInstanceAs (Decidable False)
  | .done k _ => inferInstanceAs (Decidable (k < q.dmas.length))
  | .dataFetched _ _ | .dataWritten _ _ => inferInstanceAs (Decidable (_ ∧ _))

instance (q : Queue) : ∀ e, Decidable (q.Legal e)
  | .tail n _ => inferInstanceAs (Decidable (n ≤ q.room))
  | .done k o => inferInstanceAs (Decidable (q.Pending (.done k o)))
  | .dataFetched p o => inferInstanceAs (Decidable (q.Pending (.dataFetched p o)))
  | .dataWritten p o => inferInstanceAs (Decidable (q.Pending (.dataWritten p o)))

instance : ∀ q e, Decidable (Legal q e)
  | some q, e => inferInstanceAs (Decidable (q.Legal e))
  | none, _ => inferInstanceAs (Decidable True)

def Event.amount : Event → ℕ
  | .tail n _ => n
  | _ => 0

def posted (es : List Event) : ℕ := (es.map Event.amount).sum

/-- Every posted descriptor that is not yet through counts by the stages left to it. -/
def Queue.work (q : Queue) : ℕ := 7*((q.regTail+q.len-q.nextIdx) % q.len)+
    ∑ i ∈ Finset.range q.activeCnt, (7-(q.ctx i).state.code)

variable {c : Config} {q : Queue} {g g' : Progress}

def Progress.work (g : Progress) : ℕ := ∑ a ∈ Finset.range g.posted, (7-(g.stage a).code)

lemma DescState.code_le (s : DescState) : s.code ≤ 7 := by cases s <;> decide

lemma Inv.work_eq (h : Inv c q g) : q.work = g.work := by
  have hs := h.stages
  have hcnt := h.window.cnt
  have ho := hs.order
  have hlt := Config.idx_lt (c := c) g.fetched
  have hleft : (q.regTail+q.len-q.nextIdx) % q.len = g.posted-g.fetched := by
    rw [h.window.len]
    refine Config.dist_eq (a := g.fetched) (by omega) ?_
    rw [h.nextIdx_eq, h.logs.tail, Nat.sub_add_cancel (by omega), Nat.add_mod_right,
      Nat.mod_eq_of_lt (Config.idx_lt _), Nat.add_sub_cancel' hs.fetched_le]
  have hfreed : ∑ a ∈ Finset.range g.freed, (7-(g.stage a).code) = 0 := by
    refine sum_eq_zero fun a ha => ?_
    rw [hs.freed a (mem_range.mp ha)]
    rfl
  have hunfetched : ∑ i ∈ Finset.range (g.posted-g.fetched),
      (7-(g.stage (g.fetched+i)).code) = 7*(g.posted-g.fetched) := by
    rw [sum_congr rfl fun i _ => by rw [hs.unfetched (g.fetched+i) (by omega)],
      sum_const, card_range, smul_eq_mul, mul_comm]
    rfl
  rw [Progress.work, ← Nat.add_sub_cancel' hs.fetched_le, sum_range_add, hunfetched,
    ← hcnt, sum_range_add, hfreed, Queue.work, hleft, zero_add, add_comm, ← hcnt]
  congr 1
  refine sum_congr rfl fun i hi => ?_
  rw [h.ctx_state (by have := mem_range.mp hi; omega)]

lemma Later.work_le (h : Later g g') : g'.work ≤ g.work := by
  rw [Progress.work, h.posted]
  exact sum_le_sum fun a _ => Nat.sub_le_sub_left (h.code_le a) 7

lemma Advances.work_lt (h : Advances g g') : g'.work < g.work := by
  obtain ⟨a,ha,_⟩ := h.strict
  rw [Progress.work, h.posted]
  refine sum_lt_sum (fun b _ => Nat.sub_le_sub_left (h.code_le b) 7)
    ⟨a,mem_range.mpr ha,?_⟩
  have := (g'.stage a).code_le
  omega

def Good (c : Config) (n : ℕ) (q : Queue) : Prop := ∃ g, Inv c q g ∧ Settled g ∧ g.posted = n

lemma good_start (c : Config) : Good c 0 c.start := by
  refine ⟨⟨0,0,0,0,0,fun _ => .empty,[]⟩,⟨?_,?_,?_,?_⟩,⟨Or.inl rfl,Or.inl rfl,Or.inr (Or.inl rfl)⟩,
    rfl⟩
  · have hpos := mod_eq_of_lt c.firstPos_lt
    have hidx := mod_eq_of_lt c.firstIdx_lt
    exact ⟨rfl,hpos.symm,hidx.symm,rfl,fun _ _ _ => rfl,fun a _ ha => absurd ha (not_lt_zero a)⟩
  · have hlen := Config.len_pos (c := c)
    constructor <;> simp [hlen]
  · constructor <;> simp [Config.start]
  · have hidx := mod_eq_of_lt c.firstIdx_lt
    exact ⟨rfl,rfl,rfl,hidx.symm,hidx.symm⟩

variable {n : ℕ}

lemma Good.complete {e : Event} (h : Good c n q) (he : q.Pending e) :
    ∃ q', q.act e = some q' ∧ Good c n q' ∧ q'.work < q.work := by
  obtain ⟨g,hinv,-,hn⟩ := h
  obtain ⟨_,_,hq₁,h₁,ha⟩ := hinv.complete he
  obtain ⟨q₂,g₂,hq₂,h₂,hl,hs⟩ := h₁.trigger e.choices
  refine ⟨q₂,(act_of_receive hq₁).trans hq₂,⟨g₂,h₂,hs,?_⟩,?_⟩
  · rw [hl.posted, ha.posted, hn]
  · rw [h₂.work_eq, hinv.work_eq]
    exact hl.work_le.trans_lt ha.work_lt

lemma Good.act {e : Event} (h : Good c n q) (he : q.Legal e) :
    ∃ q', q.act e = some q' ∧ Good c (n+e.amount) q' := by
  have hpending : q.Pending e → ∃ q', q.act e = some q' ∧ Good c n q' := by
    intro he
    obtain ⟨q',hq,hg,-⟩ := h.complete he
    exact ⟨q',hq,hg⟩
  cases e with
  | tail m o =>
    obtain ⟨g,hinv,-,hn⟩ := h
    obtain ⟨q₂,g₂,hq₂,h₂,hl,hs⟩ := (hinv.tail he).trigger o
    exact ⟨q₂,hq₂,g₂,h₂,hs,by rw [hl.posted, ← hn]; rfl⟩
  | done | dataFetched | dataWritten => exact hpending he

lemma Good.legal_run {es : List Event} (h : Good c n q) (hes : Along step Legal (some q) es) :
    ∃ q', run step (some q) es = some q' ∧ Good c (n+posted es) q' := by
  induction es generalizing q n with
  | nil => exact ⟨q,rfl,h⟩
  | cons e es ih =>
    obtain ⟨q₁,hq₁,h₁⟩ := h.act hes.1
    change step (some q) e = _ at hq₁
    rw [run_cons, hq₁, posted, List.map_cons, List.sum_cons, ← add_assoc]
    exact ih h₁ (hq₁ ▸ hes.2)

/-- Every completion takes work away. -/
lemma Good.pending_run {es : List Event} (h : Good c n q) (hes : Along step Pending (some q) es) :
    ∃ q', run step (some q) es = some q' ∧ Good c n q' ∧ es.length+q'.work ≤ q.work := by
  induction es generalizing q with
  | nil => exact ⟨q,rfl,h,by simp⟩
  | cons e es ih =>
    obtain ⟨q₁,hq₁,h₁,_⟩ := h.complete hes.1
    change step (some q) e = _ at hq₁
    obtain ⟨q₂,hq₂,h₂,_⟩ := ih h₁ (hq₁ ▸ hes.2)
    rw [run_cons, hq₁]
    exact ⟨q₂,hq₂,h₂,by rw [List.length_cons]; omega⟩

lemma Good.all_through (h : Good c n q) (hq : ∀ e, ¬ q.Pending e) :
    q.fetched = (List.range n).map c.idx ∧ q.processed = (List.range n).map c.idx ∧
    q.writtenBack = (List.range n).map c.idx ∧ q.regHead = c.idx n ∧ q.activeCnt = 0 := by
  obtain ⟨g,hinv,hset,rfl⟩ := h
  have hs := hinv.stages
  have ho := hs.order
  have hcnt := hinv.window.cnt
  let o : Choices := ⟨fun _ => false,fun _ => []⟩
  have hflights : g.flights = [] := by
    rw [← List.map_eq_nil_iff (f := Flight.dma c), ← hinv.flights.dmas, ← List.length_eq_zero_iff]
    exact Nat.eq_zero_of_not_pos (hq (.done 0 o))
  have hfetching : ∀ a, g.stage a ≠ .fetching := by
    intro a ha
    obtain ⟨b,m,hm,-⟩ := hinv.flights.covered a ha
    simp [hflights] at hm
  have hwriting : g.writing = g.freed := by
    by_contra hne
    obtain ⟨b,m,hm⟩ := hinv.flights.writing (by omega)
    simp [hflights] at hm
  have hstarted : g.started = g.fetched := by
    by_contra hne
    rcases hs.waiting g.started le_rfl (by omega) with ha | ha | ha
    · exact hfetching _ ha
    · refine hq (.dataFetched (c.pos g.started) o) ⟨Config.pos_lt _,?_⟩
      rw [hinv.window.state _ (by omega) (by omega), ha]
    · exact hset.process.elim hne fun hp => hp ha
  have hdone : g.writing = g.started := by
    by_contra hne
    rcases hs.started g.writing le_rfl (by omega) with ha | ha
    · refine hq (.dataWritten (c.pos g.writing) o) ⟨Config.pos_lt _,?_⟩
      rw [hinv.window.state _ (by omega) (by omega), ha]
    · rcases hset.writeback with hw | hw | hw
      · omega
      · exact hne hw
      · exact hw ha
  have hposted : g.fetched = g.posted := by
    rcases hset.fetch with hf | hf | ⟨b,hb⟩
    · exact hf
    · omega
    · exact absurd hb (hfetching b)
  refine ⟨?_,?_,?_,?_,by omega⟩
  · rw [hinv.logs.fetched, hposted]
  · rw [hinv.logs.processed, hstarted, hposted]
  · rw [hinv.logs.writtenBack, hdone, hstarted, hposted]
  · rw [hinv.logs.head, ← hwriting, hdone, hstarted, hposted]

/-- Of the first `n` posted descriptors a first part is fetched, of these a
first part is handed to `process()`, of these a first part is written back, and
the head is behind a first part of these. The active contexts hold the
descriptors from the head to the last one fetched. -/
structure Pipelined (c : Config) (n : ℕ) (q : Queue) : Prop where
  counts : ∃ freed writing started fetched,
    freed ≤ writing ∧ writing ≤ started ∧ started ≤ fetched ∧ fetched ≤ n ∧ n < freed+c.len ∧
    q.fetched = (List.range fetched).map c.idx ∧
    q.processed = (List.range started).map c.idx ∧
    q.writtenBack = (List.range writing).map c.idx ∧
    q.regHead = c.idx freed ∧ q.regTail = c.idx n ∧
    q.activeFirstIdx = c.idx freed ∧ freed+q.activeCnt = fetched
  cnt_le : q.activeCnt ≤ 128
  active : ∀ i < q.activeCnt,
    (q.ctx i).state ≠ .empty ∧ (q.ctx i).index = (q.activeFirstIdx+i) % q.len
  inactive : ∀ i, q.activeCnt ≤ i → i < 128 → (q.ctx i).state = .empty

/-- The completions of a queue come to an end, and then every posted
descriptor has been fetched, processed and written back. -/
def Drains (c : Config) (n : ℕ) (q : Queue) : Prop :=
  ∀ es, Along step Pending (some q) es → es.length ≤ q.work ∧
    ∃ q', run step (some q) es = some q' ∧ ((∀ e, ¬ q'.Pending e) →
      q'.fetched = (List.range n).map c.idx ∧ q'.processed = (List.range n).map c.idx ∧
        q'.writtenBack = (List.range n).map c.idx ∧ q'.regHead = c.idx n ∧ q'.activeCnt = 0)

lemma Good.pipelined (h : Good c n q) : Pipelined c n q := by
  obtain ⟨g,hinv,-,rfl⟩ := h
  have hs := hinv.stages
  have hcnt := hinv.window.cnt
  have hact := hs.active_le
  refine ⟨⟨g.freed,g.writing,g.started,g.fetched,hs.freed_le,hs.writing_le,hs.started_le,
    hs.fetched_le,hs.posted_lt,hinv.logs.fetched,hinv.logs.processed,hinv.logs.writtenBack,
    hinv.logs.head,hinv.logs.tail,hinv.window.firstIdx,hcnt⟩,by omega,fun i hi => ⟨?_,?_⟩,
    fun i hi hi' => ?_⟩
  · rw [hinv.ctx_state (by omega)]
    intro he
    have : g.fetched ≤ g.freed+i := hs.of_state he
    omega
  · rw [Queue.ctx, hinv.window.firstPos, Config.pos_add, hinv.window.index _ (by omega) (by omega),
      hinv.window.firstIdx, hinv.window.len, Config.idx_add]
  · rw [hinv.ctx_state hi', hs.unfetched _ (by omega)]

lemma Good.drains (h : Good c n q) : Drains c n q := by
  intro es hes
  obtain ⟨q',hq',hg',_⟩ := h.pending_run hes
  exact ⟨by omega,q',hq',hg'.all_through⟩

theorem descriptors_pipelined (c : Config) (es : List Event)
    (hes : Along step Legal (some c.start) es) :
    ∃ q, run step (some c.start) es = some q ∧ Pipelined c (posted es) q ∧
      Drains c (posted es) q := by
  obtain ⟨q,hq,hg⟩ := (good_start c).legal_run hes
  rw [zero_add] at hg
  exact ⟨q,hq,hg.pipelined,hg.drains⟩

def fourRing : Config := ⟨4,127,3,⟨2,by norm_num,by norm_num,rfl⟩,by norm_num,by norm_num⟩

/-- The second of two descriptors is cut off by the end of the ring; the data of
the first arrive after it has been prepared. -/
def fourRingEvents : List Event :=
  let o : Choices := ⟨fun p => p == 0,fun p => [p]⟩
  [.tail 2 o,.done 0 o,.done 0 o,.dataFetched 127 o,.done 0 o,.done 0 o]

theorem descriptors_pipelined_four :
    (run step (some fourRing.start) fourRingEvents).map Queue.writtenBack = some [3,0] ∧
    ∃ q, run step (some fourRing.start) fourRingEvents = some q ∧
      Pipelined fourRing (posted fourRingEvents) q ∧ Drains fourRing (posted fourRingEvents) q :=
  ⟨by decide +kernel,descriptors_pipelined _ _ (by decide +kernel)⟩

end SimBricks.I40eQueue
