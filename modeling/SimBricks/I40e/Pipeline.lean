import Mathlib.Algebra.Order.BigOperators.Group.Finset
import SimBricks.Library.Run
import SimBricks.I40e.DescQueue

/-!
# The descriptor pipeline

Descriptors are counted in the order in which the driver posts them, without
bound; the queue sees the count modulo the length of its ring, and the contexts
see it modulo 128. Over that count the stages of the pipeline are intervals.
-/

set_option autoImplicit false

namespace SimBricks.I40eQueue

open Library.Ring List Function Option Nat

/-- A ring, and the context and the descriptor an enabled queue starts with. -/
structure Config where
  len : ℕ
  firstPos : ℕ
  firstIdx : ℕ
  len_pow : ∃ k, 1 ≤ k ∧ k ≤ 13 ∧ len = 2^k
  firstPos_lt : firstPos < 128
  firstIdx_lt : firstIdx < len

variable {p : ℕ} {ctxs : ℕ → DescCtx} {log : List ℕ}

namespace Config

variable (c : Config)

def pos (a : ℕ) : ℕ := (c.firstPos+a) % 128
def idx (a : ℕ) : ℕ := (c.firstIdx+a) % c.len

def start : Queue :=
  { len := c.len
    descCtxs := fun _ => ⟨.empty,0⟩
    activeFirstPos := c.firstPos
    activeFirstIdx := c.firstIdx
    activeCnt := 0
    regHead := c.firstIdx
    regTail := c.firstIdx
    dmas := []
    fetched := []
    processed := []
    writtenBack := [] }

variable {c}

lemma len_pos : 0 < c.len := zero_lt_of_lt c.firstIdx_lt

lemma len_le : c.len ≤ 2^13 := by
  obtain ⟨k,-,hk,h⟩ := c.len_pow
  rw [h]
  exact Nat.pow_le_pow_right (by norm_num) hk

lemma len_dvd : c.len ∣ 2^32 := by
  obtain ⟨k,-,_,h⟩ := c.len_pow
  rw [h]
  exact pow_dvd_pow 2 (by omega)

lemma idx_lt (a : ℕ) : c.idx a < c.len := mod_lt _ len_pos

lemma pos_lt (a : ℕ) : c.pos a < 128 := mod_lt _ (by norm_num)

@[simp] lemma pos_mod (a : ℕ) : c.pos a % 128 = c.pos a := mod_mod _ _

lemma pos_add (a i : ℕ) : (c.pos a+i) % 128 = c.pos (a+i) := by
  rw [pos, mod_add_mod, pos, add_assoc]

lemma idx_add (a i : ℕ) : (c.idx a+i) % c.len = c.idx (a+i) := by
  rw [idx, mod_add_mod, idx, add_assoc]

lemma pos_eq_iff {a b : ℕ} (hab : a < b+128) (hba : b < a+128) : c.pos a = c.pos b ↔ a = b := by
  rw [pos, pos, mod_eq_iff (by omega) (by omega)]
  omega

lemma pos_round (a : ℕ) : c.pos (a+128) = c.pos a := by
  rw [pos, ← add_assoc, add_mod_right, pos]

lemma exists_pos (d : ℕ) (hp : p < 128) : ∃ a, d ≤ a ∧ a < d+128 ∧ c.pos a = p := by
  obtain ⟨k,_,_,rfl⟩ := exists_in_round (c.firstPos+d) hp
  exact ⟨k-c.firstPos,by omega,by omega,by rw [pos, Nat.add_sub_cancel' (by omega)]⟩

/-- A distance on the ring, from any expression that is right modulo its length. -/
lemma dist_eq {a b y : ℕ} (hb : b < c.len) (h : (y+c.idx a) % c.len = c.idx (a+b)) :
    y % c.len = b := by
  rw [← idx_add, add_comm] at h
  rw [Nat.ModEq.add_left_cancel' _ h, mod_eq_of_lt hb]

/-- A run of indices that the end of the ring does not cut continues the log. -/
lemma range_idx {a n : ℕ} (h : c.idx a+n ≤ c.len) :
    (List.range a).map c.idx++(List.range n).map (c.idx a+·) = (List.range (a+n)).map c.idx := by
  rw [List.range_add, List.map_append, List.map_map]
  congr 1
  refine List.map_congr_left fun i hi => ?_
  rw [mem_range] at hi
  rw [comp_apply, ← idx_add, mod_eq_of_lt (by omega)]

lemma sweep_round {f : ℕ → DescCtx → Option DescCtx} {d a n : ℕ} (ctxs new : ℕ → DescCtx)
    (hd : d ≤ a) (hn : a+n ≤ d+128) (h : ∀ i < n, f i (ctxs (c.pos (a+i))) = some (new (a+i))) : ∃
    ctxs', sweep 128 f (c.pos a) n ctxs = some ctxs' ∧ ∀ b, d ≤ b → b < d+128 → ctxs' (c.pos b) = if
    a ≤ b ∧ b < a+n then new b else ctxs (c.pos b) := by
  obtain ⟨ctxs',hs,hin,hout⟩ := sweep_eq (c.pos a) ctxs
    (fun i => new (a+i)) (by omega : n ≤ 128) (by simpa [pos_add] using h)
  refine ⟨ctxs',hs,fun b hb hb' => ?_⟩
  split_ifs with hin'
  · have := hin (b-a) (by omega)
    rwa [pos_add, Nat.add_sub_cancel' hin'.1] at this
  · refine hout _ fun i hi => ?_
    rw [pos_add, Ne, pos_eq_iff (by omega) (by omega)]
    omega

end Config

/-- An outstanding fetch or write-back, with the number of its first descriptor. -/
inductive Flight
  | fetch (a n : ℕ)
  | wb (a n : ℕ)

def Flight.dma (c : Config) : Flight → Dma
  | .fetch a n => .fetch (c.pos a) n
  | .wb a n => .wb (c.pos a) n

/-- Fetches do not overlap, and there is one write-back at a time. -/
def Flight.Apart : Flight → Flight → Prop
  | .fetch a n, .fetch b m => a+n ≤ b ∨ b+m ≤ a
  | .wb _ _, .wb _ _ => False
  | _, _ => True

lemma Flight.apart_symm : ∀ x y : Flight, Apart x y → Apart y x
  | .fetch _ _, .fetch _ _, h => h.symm
  | .fetch _ _, .wb _ _, _ => trivial
  | .wb _ _, .fetch _ _, _ => trivial

/-- How many descriptors have come how far, and the stage of each of them. -/
structure Progress where
  freed : ℕ
  writing : ℕ
  started : ℕ
  fetched : ℕ
  posted : ℕ
  stage : ℕ → DescState
  flights : List Flight

/-- The active contexts hold the descriptors that are fetched and not freed. -/
structure Window (c : Config) (q : Queue) (g : Progress) : Prop where
  len : q.len = c.len
  firstPos : q.activeFirstPos = c.pos g.freed
  firstIdx : q.activeFirstIdx = c.idx g.freed
  cnt : g.freed+q.activeCnt = g.fetched
  state : ∀ a, g.freed ≤ a → a < g.freed+128 → (q.descCtxs (c.pos a)).state = g.stage a
  index : ∀ a, g.freed ≤ a → a < g.fetched → (q.descCtxs (c.pos a)).index = c.idx a

structure Stages (c : Config) (g : Progress) : Prop where
  freed_le : g.freed ≤ g.writing
  writing_le : g.writing ≤ g.started
  started_le : g.started ≤ g.fetched
  fetched_le : g.fetched ≤ g.posted
  posted_lt : g.posted < g.freed+c.len
  active_le : g.fetched ≤ g.freed+128
  freed : ∀ a < g.freed, g.stage a = .writtenBack
  writing : ∀ a, g.freed ≤ a → a < g.writing → g.stage a = .writingBack
  started : ∀ a, g.writing ≤ a → a < g.started → g.stage a = .processing ∨ g.stage a = .processed
  waiting : ∀ a, g.started ≤ a → a < g.fetched →
    g.stage a = .fetching ∨ g.stage a = .preparing ∨ g.stage a = .prepared
  unfetched : ∀ a, g.fetched ≤ a → g.stage a = .empty

structure Flights (c : Config) (q : Queue) (g : Progress) : Prop where
  dmas : q.dmas = g.flights.map (Flight.dma c)
  apart : g.flights.Pairwise Flight.Apart
  fetch : ∀ a n, .fetch a n ∈ g.flights → 0 < n ∧ ∀ b, a ≤ b → b < a+n → g.stage b = .fetching
  covered : ∀ b, g.stage b = .fetching → ∃ a n, .fetch a n ∈ g.flights ∧ a ≤ b ∧ b < a+n
  wb : ∀ a n, .wb a n ∈ g.flights → a = g.freed ∧ a+n = g.writing ∧ 0 < n
  writing : g.freed < g.writing → ∃ a n, .wb a n ∈ g.flights

structure Logs (c : Config) (q : Queue) (g : Progress) : Prop where
  fetched : q.fetched = (range g.fetched).map c.idx
  processed : q.processed = (range g.started).map c.idx
  writtenBack : q.writtenBack = (range g.writing).map c.idx
  head : q.regHead = c.idx g.freed
  tail : q.regTail = c.idx g.posted

structure Inv (c : Config) (q : Queue) (g : Progress) : Prop where
  window : Window c q g
  stages : Stages c g
  flights : Flights c q g
  logs : Logs c q g

structure Later (g g' : Progress) : Prop where
  posted : g'.posted = g.posted
  code_le : ∀ a, (g.stage a).code ≤ (g'.stage a).code

/-- Work behind the fetch: the window and the outstanding fetches stay. -/
structure Behind (g g' : Progress) : Prop extends Later g g' where
  freed : g'.freed = g.freed
  fetched : g'.fetched = g.fetched
  fetching : ∀ a, g.stage a = .fetching → g'.stage a = .fetching

variable {c : Config} {q : Queue} {g : Progress} {o : Choices}

lemma Later.refl (g : Progress) : Later g g := ⟨rfl,fun _ => le_rfl⟩

variable {g' : Progress}

lemma Later.trans {g'' : Progress} (h : Later g g') (h' : Later g' g'') : Later g g'' :=
  ⟨h'.posted.trans h.posted,fun a => (h.code_le a).trans (h'.code_le a)⟩

lemma Behind.refl (g : Progress) : Behind g g := ⟨Later.refl g,rfl,rfl,fun _ h => h⟩

lemma Behind.trans {g'' : Progress} (h : Behind g g') (h' : Behind g' g'') : Behind g g'' :=
  ⟨h.toLater.trans h'.toLater,h'.freed.trans h.freed,h'.fetched.trans h.fetched,
    fun a ha => h'.fetching a (h.fetching a ha)⟩

/-- Where a descriptor in a given state can be. -/
def Progress.Place (g : Progress) (a : ℕ) : DescState → Prop
  | .empty => g.fetched ≤ a
  | .fetching | .preparing | .prepared => g.started ≤ a ∧ a < g.fetched
  | .processing | .processed => g.writing ≤ a ∧ a < g.started
  | .writingBack => g.freed ≤ a ∧ a < g.writing
  | .writtenBack => a < g.freed

lemma Stages.place (h : Stages c g) (a : ℕ) : g.Place a (g.stage a) := by
  rcases lt_or_ge a g.freed with h1 | h1
  · rw [h.freed a h1]
    exact h1
  rcases lt_or_ge a g.writing with h2 | h2
  · rw [h.writing a h1 h2]
    exact ⟨h1,h2⟩
  rcases lt_or_ge a g.started with h3 | h3
  · rcases h.started a h2 h3 with hs | hs <;> rw [hs] <;> exact ⟨h2,h3⟩
  rcases lt_or_ge a g.fetched with h4 | h4
  · rcases h.waiting a h3 h4 with hs | hs | hs <;> rw [hs] <;> exact ⟨h3,h4⟩
  · rw [h.unfetched a h4]
    exact h4

lemma Stages.of_place (hfreed : g.freed ≤ g.writing) (hwriting : g.writing ≤ g.started)
    (hstarted : g.started ≤ g.fetched) (hfetched : g.fetched ≤ g.posted)
    (hposted : g.posted < g.freed+c.len) (hactive : g.fetched ≤ g.freed+128)
    (h : ∀ a, g.Place a (g.stage a)) : Stages c g := by
  refine ⟨hfreed,hwriting,hstarted,hfetched,hposted,hactive,fun a ha => ?_,fun a ha ha' => ?_,
    fun a ha ha' => ?_,fun a ha ha' => ?_,fun a ha => ?_⟩ <;>
  · have hp := h a
    cases hs : g.stage a <;> rw [hs] at hp <;> simp only [Progress.Place] at hp <;>
      first | omega | simp

lemma Stages.of_state (h : Stages c g) {a : ℕ} {s : DescState} (hs : g.stage a = s) :
    g.Place a s := hs ▸ h.place a

/-- The order of the stages, in the form the arithmetic below needs. -/
lemma Stages.order (h : Stages c g) : g.freed ≤ g.writing ∧ g.writing ≤ g.started ∧
    g.started ≤ g.fetched ∧ g.fetched ≤ g.posted ∧ g.posted < g.freed+c.len ∧
    g.fetched ≤ g.freed+128 :=
  ⟨h.freed_le,h.writing_le,h.started_le,h.fetched_le,h.posted_lt,h.active_le⟩

/-! ### Fetching -/

open Config Queue

lemma Inv.nextIdx_eq (h : Inv c q g) : q.nextIdx = c.idx g.fetched := by
  rw [nextIdx, h.window.len, h.window.firstIdx, idx_add, h.window.cnt]

lemma Inv.fetchCnt_eq (h : Inv c q g) :
    q.fetchCnt = min (min (g.posted-g.fetched) (128-q.activeCnt)) (c.len-c.idx g.fetched) := by
  have hlt := idx_lt (c := c) g.fetched
  have hlen := len_le (c := c)
  have hcnt := h.window.cnt
  have ho := h.stages.order
  have hposted : g.posted-g.fetched < c.len := by omega
  have havail : (q.regTail+2^32-q.nextIdx) % 2^32 % q.len = g.posted-g.fetched := by
    rw [h.window.len, mod_mod_of_dvd _ len_dvd]
    refine dist_eq (a := g.fetched) hposted ?_
    obtain ⟨m,hm⟩ := len_dvd
    rw [h.nextIdx_eq, h.logs.tail, Nat.sub_add_cancel (by omega), hm, Nat.add_mul_mod_self_left,
      Nat.mod_eq_of_lt (idx_lt _)]
    congr 1
    omega
  have hactive : ¬ maxActiveCapacity ≤ q.activeCnt := by
    unfold maxActiveCapacity uint32Max
    omega
  have hfetch : min (g.posted-g.fetched) (128-q.activeCnt) ≤ maxFetchCapacity := by
    unfold maxFetchCapacity uint32Max
    omega
  unfold fetchCnt
  dsimp only
  rw [havail, h.nextIdx_eq, h.window.len, if_neg hactive, min_eq_left hfetch]
  split_ifs <;> omega

lemma Inv.fetch_pos (h : Inv c q g) : (q.activeFirstPos+q.activeCnt) % 128 = c.pos g.fetched := by
  rw [h.window.firstPos, pos_add, h.window.cnt]

def moved (a n : ℕ) (s stage : ℕ → DescState) (b : ℕ) : DescState :=
  if a ≤ b ∧ b < a+n then s b else stage b

lemma code_le_moved {a n : ℕ} {s stage : ℕ → DescState}
    (h : ∀ b, a ≤ b → b < a+n → (stage b).code ≤ (s b).code) (b : ℕ) :
    (stage b).code ≤ (moved a n s stage b).code := by
  unfold moved
  split_ifs with hin
  · exact h b hin.1 hin.2
  · rfl

lemma Window.swept (h : Window c q g) (hle : g.fetched ≤ g.freed+128) {a n : ℕ}
    {s : ℕ → DescState}
    (hctxs : ∀ b, g.freed ≤ b → b < g.freed+128 → ctxs (c.pos b) =
      if a ≤ b ∧ b < a+n then (q.descCtxs (c.pos b)).setState (s b) else q.descCtxs (c.pos b)) :
    Window c { q with descCtxs := ctxs } { g with stage := moved a n s g.stage } := by
  refine { h with state := fun b hb hb' => ?_, index := fun b hb hb' => ?_ }
  · change (ctxs (c.pos b)).state = moved a n s g.stage b
    unfold moved
    rw [hctxs b hb hb']
    split_ifs
    · rfl
    · exact h.state b hb hb'
  · change (ctxs (c.pos b)).index = _
    change b < g.fetched at hb'
    rw [hctxs b hb (by omega), ← h.index b hb hb']
    split_ifs <;> rfl

def FetchSettled (g : Progress) : Prop :=
  g.fetched = g.posted ∨ g.fetched = g.freed+128 ∨ ∃ b, g.stage b = .fetching

def Progress.afterFetch (g : Progress) (n : ℕ) : Progress := { g with
    fetched := g.fetched+n
    stage := moved g.fetched n (fun _ => .fetching) g.stage
    flights := g.flights++[.fetch g.fetched n] }

lemma Progress.afterFetch_stage (g : Progress) (n b : ℕ) :
    (g.afterFetch n).stage b =
      if g.fetched ≤ b ∧ b < g.fetched+n then .fetching else g.stage b := rfl

open I40eQueue.Progress

lemma Stages.afterFetch (h : Stages c g) {n : ℕ} (hp : g.fetched+n ≤ g.posted)
    (ha : g.fetched+n ≤ g.freed+128) : Stages c (g.afterFetch n) := by
  have hle := h.started_le
  refine Stages.of_place h.freed_le h.writing_le (hle.trans (le_add_right _ _)) hp h.posted_lt
    ha fun a => ?_
  rw [Progress.afterFetch_stage]
  split_ifs with hin
  · exact ⟨hle.trans hin.1,hin.2⟩
  · have hplace := h.place a
    cases hs : g.stage a <;> rw [hs] at hplace <;>
      simp only [Progress.Place, Progress.afterFetch] at hplace ⊢ <;> omega

lemma Flights.afterFetch (hf : Flights c q g) (h : Stages c g) {n : ℕ} (hn : 0 < n) {k : ℕ} :
    Flights c { q with descCtxs := ctxs, activeCnt := k, fetched := log,
                       dmas := q.dmas++[.fetch (c.pos g.fetched) n] } (g.afterFetch n) := by
  have hold : ∀ b, g.stage b = .fetching → b < g.fetched := fun b hb => (h.of_state hb).2
  have hkeep : ∀ b, g.stage b = .fetching → (g.afterFetch n).stage b = .fetching := by
    intro b hb
    have := hold b hb
    rw [← hb]
    exact if_neg (by omega)
  constructor
  · change q.dmas++_ = (g.flights++_).map _
    rw [map_append, hf.dmas]
    rfl
  · refine pairwise_append.mpr ⟨hf.apart,pairwise_singleton _ _,fun x hx y hy => ?_⟩
    obtain rfl := mem_singleton.mp hy
    cases x with
    | wb => trivial
    | fetch a m =>
      -- an earlier fetch lies below the new one
      obtain ⟨_,hst⟩ := hf.fetch a m hx
      have hlast := hold (a+m-1) (hst _ (by omega) (by omega))
      exact Or.inl (by omega)
  · intro a m hm
    rcases mem_append.mp hm with hm | hm
    · exact ⟨(hf.fetch a m hm).1,fun b hb hb' => hkeep b ((hf.fetch a m hm).2 b hb hb')⟩
    · obtain ⟨rfl,rfl⟩ := Flight.fetch.inj (mem_singleton.mp hm)
      exact ⟨hn,fun b hb hb' => if_pos ⟨hb,hb'⟩⟩
  · intro b hb
    by_cases hin : g.fetched ≤ b ∧ b < g.fetched+n
    · exact ⟨g.fetched,n,mem_append_right _ (mem_singleton_self _),hin⟩
    · obtain ⟨a,m,hm,ha⟩ := hf.covered b ((if_neg hin).symm.trans hb)
      exact ⟨a,m,mem_append_left _ hm,ha⟩
  · intro a m hm
    rcases mem_append.mp hm with hm | hm
    · exact hf.wb a m hm
    · cases mem_singleton.mp hm
  · intro hw
    obtain ⟨a,m,hm⟩ := hf.writing hw
    exact ⟨a,m,mem_append_left _ hm⟩

lemma Inv.triggerFetch (h : Inv c q g) :
    ∃ q' g', q.triggerFetch = some q' ∧ Inv c q' g' ∧ Later g g' ∧ FetchSettled g' := by
  have hn := h.fetchCnt_eq
  have hlt := idx_lt (c := c) g.fetched
  have hcnt := h.window.cnt
  have hs := h.stages
  have ho := hs.order
  unfold Queue.triggerFetch
  by_cases h0 : q.fetchCnt = 0
  · refine ⟨q,g,if_pos h0,h,Later.refl g,?_⟩
    unfold FetchSettled
    omega
  generalize q.fetchCnt = n at hn h0
  obtain ⟨ctxs,hsweep,hctxs⟩ := sweep_round (d := g.freed) (a := g.fetched) (n := n)
    (f := Queue.startFetch q.nextIdx q.len) q.descCtxs
    (fun b => ⟨.fetching,c.idx b⟩) (by omega) (by omega) (by
      intro i hi
      rw [Queue.startFetch, h.window.state _ (by omega) (by omega), hs.unfetched _ (by omega),
        if_pos rfl, h.nextIdx_eq, h.window.len, idx_add])
  have hstages := hs.afterFetch (n := n) (by omega) (by omega)
  dsimp only
  rw [if_neg h0, h.fetch_pos, hsweep]
  refine ⟨_,g.afterFetch n,rfl,⟨?_,hstages,h.flights.afterFetch hs (by omega),?_⟩,⟨rfl,?_⟩,?_⟩
  · refine { h.window with
      cnt := by change g.freed+(q.activeCnt+n) = g.fetched+n; omega
      state := fun a ha ha' => ?_
      index := fun a ha ha' => ?_ }
    · change (ctxs (c.pos a)).state = _
      rw [hctxs a ha ha', afterFetch_stage]
      split_ifs
      · rfl
      · exact h.window.state a ha ha'
    · change (ctxs (c.pos a)).index = _
      change a < g.fetched+n at ha'
      rw [hctxs a ha (by omega)]
      split_ifs with hin
      · rfl
      · exact h.window.index a ha (by omega)
  · refine { h.logs with fetched := ?_ }
    change q.fetched++_ = (range (g.fetched+n)).map c.idx
    rw [h.logs.fetched, h.nextIdx_eq, range_idx (by omega)]
  · refine code_le_moved fun a ha _ => ?_
    rw [hs.unfetched a ha]
    exact zero_le _
  · exact Or.inr (Or.inr ⟨g.fetched,if_pos (by omega)⟩)

/-! ### Processing -/

section Update

variable {a k : ℕ} {s : DescState}

/-- One descriptor moves on; processing may have been started on it. -/
def Progress.update (g : Progress) (k a : ℕ) (s : DescState) : Progress :=
  { g with started := k, stage := Function.update g.stage a s }

lemma Progress.update_stage (g : Progress) (k a : ℕ) (s : DescState) (b : ℕ) :
    (g.update k a s).stage b = if b = a then s else g.stage b := update_apply ..

lemma Window.update (h : Window c q g) (hle : g.fetched ≤ g.freed+128) (ha : g.freed ≤ a)
    (ha' : a < g.fetched) (log : List ℕ) :
    Window c { q with
      descCtxs := Function.update q.descCtxs (c.pos a) ((q.descCtxs (c.pos a)).setState s)
      processed := log } (g.update k a s) := by
  have hctx : ∀ b, g.freed ≤ b → b < g.freed+128 →
      Function.update q.descCtxs (c.pos a) ((q.descCtxs (c.pos a)).setState s) (c.pos b) =
        if b = a then (q.descCtxs (c.pos b)).setState s else q.descCtxs (c.pos b) := by
    intro b hb hb'
    split_ifs with he
    · rw [he, update_self]
    · rw [update_of_ne]
      rwa [Ne, pos_eq_iff (by omega) (by omega)]
  refine { h with state := fun b hb hb' => ?_, index := fun b hb hb' => ?_ }
  · change (Function.update q.descCtxs _ _ _).state = _
    rw [hctx b hb hb', update_stage]
    split_ifs
    · rfl
    · exact h.state b hb hb'
  · change (Function.update q.descCtxs _ _ _).index = _
    rw [hctx b hb (by change b < g.fetched at hb'; omega), ← h.index b hb hb']
    split_ifs <;> rfl

lemma Stages.update (h : Stages c g) (hk : k = g.started ∨ k = g.started+1 ∧ a = g.started)
    (hs : g.writing ≤ a ∧ a < k ∧ (s = .processing ∨ s = .processed) ∨
      k ≤ a ∧ (s = .preparing ∨ s = .prepared)) (ha : a < g.fetched) :
    Stages c (g.update k a s) := by
  have ho := h.order
  refine Stages.of_place h.freed_le (by change g.writing ≤ k; omega)
    (by change k ≤ g.fetched; omega) h.fetched_le h.posted_lt h.active_le fun b => ?_
  rw [Progress.update_stage]
  split_ifs with he
  · subst he
    rcases hs with ⟨hw,hlt,rfl | rfl⟩ | ⟨hge,rfl | rfl⟩
    · exact ⟨hw,hlt⟩
    · exact ⟨hw,hlt⟩
    · exact ⟨hge,ha⟩
    · exact ⟨hge,ha⟩
  · have hplace := h.place b
    cases hb : g.stage b <;> rw [hb] at hplace <;>
      simp only [Progress.Place, Progress.update] at hplace ⊢ <;> omega

lemma Flights.update (h : Flights c q g) (ha : g.stage a ≠ .fetching) (hs : s ≠ .fetching) :
    Flights c { q with descCtxs := ctxs, processed := log } (g.update k a s) := by
  have hiff : ∀ b, (g.update k a s).stage b = .fetching ↔ g.stage b = .fetching := by
    intro b
    rw [update_stage]
    split_ifs with he
    · rw [he]
      exact iff_of_false hs ha
    · rfl
  exact { h with
    fetch := fun b n hb => ⟨(h.fetch b n hb).1,fun d hd hd' =>
      (hiff d).mpr ((h.fetch b n hb).2 d hd hd')⟩
    covered := fun b hb => h.covered b ((hiff b).mp hb) }

lemma Inv.update (h : Inv c q g) (hk : k = g.started ∨ k = g.started+1 ∧ a = g.started)
    (hs : g.writing ≤ a ∧ a < k ∧ (s = .processing ∨ s = .processed) ∨
      k ≤ a ∧ (s = .preparing ∨ s = .prepared)) (ha : a < g.fetched) (hne : g.stage a ≠ .fetching)
    {l : List ℕ} (hlog : l = (range k).map c.idx) :
    Inv c { q with
      descCtxs := update q.descCtxs (c.pos a) ((q.descCtxs (c.pos a)).setState s)
      processed := l } (g.update k a s) := by
  have ho := h.stages.order
  have hs' : s ≠ .fetching := by
    rintro rfl
    simp at hs
  exact ⟨h.window.update h.stages.active_le (by omega) ha l,h.stages.update hk hs ha,
    h.flights.update hne hs',{ h.logs with processed := hlog }⟩

lemma Behind.update (ha : (g.stage a).code ≤ s.code) (hne : g.stage a ≠ .fetching) :
    Behind g (g.update k a s) := by
  refine ⟨⟨rfl,fun b => ?_⟩,rfl,rfl,fun b hb => ?_⟩
  · rw [update_stage]
    split_ifs with he
    · rw [he]
      exact ha
    · rfl
  · rw [update_stage, if_neg, hb]
    rintro rfl
    exact hne hb

end Update

lemma Window.exists_number (h : Window c q g) (p : ℕ) :
    ∃ a, g.freed ≤ a ∧ a < g.freed+128 ∧ c.pos a = p % 128 ∧
    (q.descCtxs (p % 128)).state = g.stage a := by
  obtain ⟨a,ha,ha',hp⟩ := exists_pos g.freed (mod_lt p (by norm_num))
  exact ⟨a,ha,ha',hp,hp ▸ h.state a ha ha'⟩

lemma Inv.markProcessed (h : Inv c q g) (p : ℕ) :
    ∃ g', Inv c { q with descCtxs := Queue.markProcessed q.descCtxs p } g' ∧
      Behind g g' ∧ g'.started = g.started := by
  unfold Queue.markProcessed
  split_ifs with hp
  · obtain ⟨a,-,-,hpos,hst⟩ := h.window.exists_number p
    rw [hp] at hst
    have hplace := h.stages.of_state hst.symm
    have hle := h.stages.started_le
    have hne : g.stage a ≠ .fetching := by simp [← hst]
    rw [← hpos]
    exact ⟨_,h.update (Or.inl rfl) (Or.inl ⟨hplace.1,hplace.2,Or.inr rfl⟩)
      (by have := hplace.2; omega) hne h.logs.processed,
      Behind.update (by rw [← hst]; decide) hne,rfl⟩
  · exact ⟨g,h,Behind.refl g,rfl⟩

lemma Inv.markAll (ps : List ℕ) (h : Inv c q g) :
    ∃ g', Inv c { q with descCtxs := ps.foldl Queue.markProcessed q.descCtxs } g' ∧
      Behind g g' ∧ g'.started = g.started := by
  induction ps generalizing q g with
  | nil => exact ⟨g,h,Behind.refl g,rfl⟩
  | cons p ps ih =>
    obtain ⟨_,h₁,hb₁,hs₁⟩ := h.markProcessed p
    obtain ⟨g₂,h₂,hb₂,hs₂⟩ := ih h₁
    exact ⟨g₂,h₂,hb₁.trans hb₂,hs₂.trans hs₁⟩

lemma Inv.process (h : Inv c q g) (o : Choices) {pos : ℕ} (hpos : pos % 128 = c.pos g.started)
    (hlt : g.started < g.fetched) (hst : g.stage g.started = .prepared) :
    ∃ g', Inv c (q.process o pos) g' ∧ Behind g g' ∧ g'.started = g.started+1 := by
  have ho := h.stages.order
  have hne : g.stage g.started ≠ .fetching := by simp [hst]
  have hstart := h.update
    (l := q.processed++[(q.descCtxs (c.pos g.started)).index]) (Or.inr ⟨rfl,rfl⟩)
    (Or.inl ⟨ho.2.1,by omega,Or.inl rfl⟩) hlt hne (by
      rw [h.window.index _ (by omega) hlt, h.logs.processed, range_succ, map_append]
      rfl)
  obtain ⟨g',h',hb,hs⟩ := hstart.markAll (o.processed (pos % 128))
  unfold Queue.process
  rw [hpos] at h' ⊢
  exact ⟨g',h',(Behind.update (by rw [hst]; decide) hne).trans hb,hs⟩

def ProcessSettled (g : Progress) : Prop := g.started = g.fetched ∨ g.stage g.started ≠ .prepared

lemma Inv.processLoop (o : Choices) (r : ℕ) (h : Inv c q g) (hr : g.started+r = g.fetched)
    (hpos : p % 128 = c.pos g.started) :
    ∃ g', Inv c (q.processLoop o r p) g' ∧ Behind g g' ∧ ProcessSettled g' := by
  induction r generalizing q g p with
  | zero => exact ⟨g,h,Behind.refl g,Or.inl hr⟩
  | succ r ih =>
    have ho := h.stages.order
    have hst := h.window.state g.started (by omega) (by omega)
    unfold processLoop
    rw [hpos, hst]
    split_ifs with hp
    · exact ⟨g,h,Behind.refl g,Or.inr hp⟩
    · obtain ⟨_,h₁,hb₁,hs₁⟩ := h.process o hpos (by omega) (not_not.mp hp)
      obtain ⟨g₂,h₂,hb₂,hs₂⟩ := ih (p := p+1) h₁ (by have := hb₁.fetched; omega)
        (by rw [hs₁, add_mod, hpos, ← pos_add, add_mod])
      exact ⟨g₂,h₂,hb₁.trans hb₂,hs₂⟩

lemma scan_spec (q : Queue) (p : DescState → Bool) :
    q.scan p ≤ q.activeCnt ∧ (∀ i < q.scan p, p (q.ctx i).state = false) ∧
    (q.scan p < q.activeCnt → p (q.ctx (q.scan p)).state) := by
  unfold scan
  cases hf : (range q.activeCnt).find? fun i => p (q.ctx i).state with
  | none =>
    rw [find?_range_eq_none] at hf
    exact ⟨le_rfl,fun i hi => by simpa using hf i hi,fun h => absurd h (lt_irrefl _)⟩
  | some =>
    obtain ⟨hk,hmem,hlt⟩ := find?_range_eq_some.mp hf
    exact ⟨(mem_range.mp hmem).le,fun i hi => by simpa using hlt i hi,fun _ => hk⟩

lemma Inv.ctx_state (h : Inv c q g) {i : ℕ} (hi : i < 128) :
    (q.ctx i).state = g.stage (g.freed+i) := by
  rw [ctx, h.window.firstPos, pos_add, h.window.state _ (by omega) (by omega)]

lemma Stages.code_le_iff (h : Stages c g) (a : ℕ) :
    (g.stage a).code ≤ DescState.code .prepared ↔ g.started ≤ a := by
  have hp := h.place a
  have ho := h.order
  cases hs : g.stage a <;> rw [hs] at hp <;> simp only [Progress.Place, DescState.code] at hp ⊢ <;>
    omega

lemma Inv.triggerProcess (h : Inv c q g) (o : Choices) :
    ∃ g', Inv c (q.triggerProcess o) g' ∧ Behind g g' ∧ ProcessSettled g' := by
  have ho := h.stages.order
  have hcnt := h.window.cnt
  obtain ⟨hle,hskip,hstop⟩ := scan_spec q fun s => decide (s.code ≤ DescState.code .prepared)
  unfold Queue.triggerProcess
  generalize (q.scan fun s => decide (s.code ≤ DescState.code .prepared)) = i at hle hskip hstop
  -- what the first loop skips is what has been started
  have hi : g.freed+i = g.started := by
    rcases lt_trichotomy (g.freed+i) g.started with hlt | he | hgt
    · have := of_decide_eq_true (hstop (by omega))
      rw [h.ctx_state (by omega), h.stages.code_le_iff] at this
      omega
    · exact he
    · have := of_decide_eq_false (hskip (g.started-g.freed) (by omega))
      rw [h.ctx_state (by omega), h.stages.code_le_iff] at this
      omega
  refine h.processLoop o _ (by omega) ?_
  rw [h.window.firstPos, pos_add, hi]

/-! ### Writing back -/

def WritebackSettled (g : Progress) : Prop :=
  g.freed < g.writing ∨ g.writing = g.started ∨ g.stage g.writing ≠ .processed

def Progress.afterWriteback (g : Progress) (n : ℕ) : Progress := { g with
    writing := g.freed+n
    stage := moved g.freed n (fun _ => .writingBack) g.stage
    flights := g.flights++[.wb g.freed n] }

lemma Progress.afterWriteback_stage (g : Progress) (n b : ℕ) :
    (g.afterWriteback n).stage b = if g.freed ≤ b ∧
    b < g.freed+n then .writingBack else g.stage b := rfl

lemma Stages.afterWriteback (h : Stages c g) (hw : g.writing = g.freed) {n : ℕ}
    (hn : g.freed+n ≤ g.started) : Stages c (g.afterWriteback n) := by
  refine Stages.of_place (le_add_right _ _) hn h.started_le h.fetched_le h.posted_lt
    h.active_le fun a => ?_
  rw [Progress.afterWriteback_stage]
  split_ifs with hin
  · exact hin
  · have hplace := h.place a
    cases hs : g.stage a <;> rw [hs] at hplace <;>
      simp only [Progress.Place, Progress.afterWriteback] at hplace ⊢ <;> omega

lemma Flights.afterWriteback (hf : Flights c q g) (h : Stages c g) (hw : g.writing = g.freed)
    {n : ℕ} (hn : 0 < n) (hle : g.freed+n ≤ g.started) (hp : p = c.pos g.freed) :
    Flights c { q with descCtxs := ctxs, dmas := q.dmas++[.wb p n], writtenBack := log }
      (g.afterWriteback n) := by
  have hiff : ∀ b, (g.afterWriteback n).stage b = .fetching ↔ g.stage b = .fetching := by
    intro b
    rw [afterWriteback_stage]
    split_ifs with hin
    · refine iff_of_false (by simp) fun hb => ?_
      have := (h.of_state hb).1
      omega
    · rfl
  constructor
  · change q.dmas++_ = (g.flights++_).map _
    rw [map_append, hf.dmas, hp]
    rfl
  · refine pairwise_append.mpr ⟨hf.apart,pairwise_singleton _ _,fun x hx y hy => ?_⟩
    obtain rfl := mem_singleton.mp hy
    cases x with
    | fetch => trivial
    | wb a m =>
      -- nothing is being written back
      have := hf.wb a m hx
      omega
  · intro a m hm
    rcases mem_append.mp hm with hm | hm
    · exact ⟨(hf.fetch a m hm).1,fun b hb hb' => (hiff b).mpr ((hf.fetch a m hm).2 b hb hb')⟩
    · cases mem_singleton.mp hm
  · intro b hb
    obtain ⟨a,m,hm,ha⟩ := hf.covered b ((hiff b).mp hb)
    exact ⟨a,m,mem_append_left _ hm,ha⟩
  · intro a m hm
    rcases mem_append.mp hm with hm | hm
    · have := hf.wb a m hm
      omega
    · obtain ⟨rfl,rfl⟩ := Flight.wb.inj (mem_singleton.mp hm)
      exact ⟨rfl,rfl,hn⟩
  · exact fun _ => ⟨g.freed,n,mem_append_right _ (mem_singleton_self _)⟩

lemma Inv.writebackCnt_eq (h : Inv c q g) :
    q.writebackCnt = min (q.scan fun s => decide (s ≠ .processed)) (c.len-c.idx g.freed) := by
  have hle := (scan_spec q fun s => decide (s ≠ .processed)).1
  have hcnt := h.window.cnt
  have hact := h.stages.active_le
  have hcap : (q.scan fun s => decide (s ≠ .processed)) ≤ maxWritebackCapacity := by
    unfold maxWritebackCapacity uint32Max
    omega
  unfold writebackCnt
  dsimp only
  rw [h.window.len, h.window.firstIdx, min_eq_left hcap]
  split_ifs <;> omega

/-- What is written back next has been processed, and nothing else is being
written back. -/
lemma Inv.writeback_scan (h : Inv c q g) {m : ℕ}
    (hm : m = q.scan fun s => decide (s ≠ .processed)) :
    m = 0 ∧ WritebackSettled g ∨ 0 < m ∧ g.writing = g.freed ∧ g.freed+m ≤ g.started ∧ ∀ a,
    g.freed ≤ a → a < g.freed+m → g.stage a = .processed := by
  obtain ⟨hle,hskip,hstop⟩ := scan_spec q fun s => decide (s ≠ .processed)
  rw [← hm] at hle hskip hstop
  have hcnt := h.window.cnt
  have ho := h.stages.order
  have hdone : ∀ a, g.freed ≤ a → a < g.freed+m → g.stage a = .processed := by
    intro a ha ha'
    have := of_decide_eq_false (hskip (a-g.freed) (by omega))
    rw [h.ctx_state (by omega), Nat.add_sub_cancel' ha] at this
    exact not_not.mp this
  rcases Nat.eq_zero_or_pos m with h0 | hpos
  · refine Or.inl ⟨h0,?_⟩
    by_cases hw : g.freed < g.writing
    · exact Or.inl hw
    have hwf : g.writing = g.freed := by omega
    by_cases hempty : q.activeCnt = 0
    · exact Or.inr (Or.inl (by omega))
    · have := of_decide_eq_true (hstop (by omega))
      rw [h.ctx_state (by omega), h0, add_zero] at this
      exact Or.inr (Or.inr (hwf ▸ this))
  · have hfirst := h.stages.of_state (hdone g.freed le_rfl (by omega))
    have hlast := h.stages.of_state (hdone (g.freed+m-1) (by omega) (by omega))
    exact Or.inr ⟨hpos,by have := hfirst.1; omega,by have := hlast.2; omega,hdone⟩

lemma triggerWriteback_eq {n : ℕ} {ctxs' : ℕ → DescCtx} (hn : q.writebackCnt = n) (hpos : n ≠ 0)
    (hmark : sweep 128 (fun _ ctx => some (ctx.setState .writingBack)) q.activeFirstPos n
      q.descCtxs = some ctxs)
    (hcheck : sweep 128 (fun _ => DescCtx.move .writingBack .writingBack) q.activeFirstPos n
      ctxs = some ctxs') :
    q.triggerWriteback = some { q with
      descCtxs := ctxs'
      dmas := q.dmas++[.wb q.activeFirstPos n]
      writtenBack := q.writtenBack++(range n).map (q.activeFirstIdx+·) } := by
  unfold triggerWriteback doWriteback
  rw [hn, if_neg hpos, hmark, bind_eq_bind, bind_some, hcheck, map_some]

lemma Inv.triggerWriteback (h : Inv c q g) :
    ∃ q' g', q.triggerWriteback = some q' ∧ Inv c q' g' ∧ Behind g g' ∧ WritebackSettled g' ∧
    (ProcessSettled g → ProcessSettled g') := by
  have hlt := idx_lt (c := c) g.freed
  have hcnt := h.writebackCnt_eq
  rcases h.writeback_scan rfl with ⟨h0,hset⟩ | ⟨hpos,hw,hle,hdone⟩
  · rw [h0, zero_min] at hcnt
    refine ⟨q,g,?_,h,Behind.refl g,hset,id⟩
    rw [Queue.triggerWriteback, hcnt]
    rfl
  generalize hn : q.writebackCnt = n at hcnt
  generalize (q.scan fun s => decide (s ≠ .processed)) = m at hcnt hpos hle hdone
  have hs := h.stages
  have ho := hs.order
  obtain ⟨ctxs,hsweep,hctxs⟩ := sweep_round (d := g.freed) (n := n)
    (f := fun _ ctx => some (ctx.setState .writingBack)) q.descCtxs
    (fun b => (q.descCtxs (c.pos b)).setState .writingBack) le_rfl (by omega) fun i _ => rfl
  obtain ⟨ctxs',hsweep',hctxs'⟩ := sweep_round (d := g.freed)
    (n := n) (f := fun _ => DescCtx.move .writingBack .writingBack) ctxs
    (fun b => ctxs (c.pos b)) le_rfl (by omega) (by
      intro i hi
      rw [hctxs _ (by omega) (by omega), if_pos (by omega), DescCtx.move]
      exact if_pos rfl)
  have hstages := hs.afterWriteback hw (n := n) (by omega)
  have hnew : ∀ b, g.freed ≤ b → b < g.freed+128 → ctxs' (c.pos b) =
      if g.freed ≤ b ∧ b < g.freed+n then (q.descCtxs (c.pos b)).setState .writingBack
      else q.descCtxs (c.pos b) := by
    intro b hb hb'
    rw [hctxs' b hb hb', ite_self, hctxs b hb hb']
  rw [← h.window.firstPos] at hsweep hsweep'
  refine ⟨_,g.afterWriteback n,triggerWriteback_eq hn (by omega) hsweep hsweep',⟨?_,hstages,
    h.flights.afterWriteback hs hw (by omega)
    (by omega) h.window.firstPos,?_⟩,⟨⟨rfl,?_⟩,rfl,rfl,?_⟩,?_,?_⟩
  · exact { h.window.swept hs.active_le hnew with }
  · refine { h.logs with writtenBack := ?_ }
    change q.writtenBack++_ = (range (g.freed+n)).map c.idx
    rw [h.logs.writtenBack, hw, h.window.firstIdx, range_idx (by omega)]
  · refine code_le_moved fun a ha ha' => ?_
    rw [hdone a ha (by omega)]
    decide
  · intro a ha
    have := (hs.of_state ha).1
    rw [afterWriteback_stage, if_neg (by omega), ha]
  · exact Or.inl (by change g.freed < g.freed+n; omega)
  · refine Or.imp_right fun hp => ?_
    change (g.afterWriteback n).stage g.started ≠ _
    rwa [afterWriteback_stage, if_neg (by omega)]

structure Settled (g : Progress) : Prop where
  fetch : FetchSettled g
  process : ProcessSettled g
  writeback : WritebackSettled g

lemma FetchSettled.behind (h : FetchSettled g) (hb : Behind g g') : FetchSettled g' := by
  rcases h with h | h | ⟨b,h⟩
  · exact Or.inl (by rw [hb.fetched, hb.posted, h])
  · exact Or.inr (Or.inl (by rw [hb.fetched, hb.freed, h]))
  · exact Or.inr (Or.inr ⟨b,hb.fetching b h⟩)

lemma Inv.trigger (h : Inv c q g) (o : Choices) :
    ∃ q' g', q.trigger o = some q' ∧ Inv c q' g' ∧ Later g g' ∧ Settled g' := by
  obtain ⟨_,_,hq₁,h₁,hl₁,hf₁⟩ := h.triggerFetch
  obtain ⟨_,h₂,hb₂,hp₂⟩ := h₁.triggerProcess o
  obtain ⟨q₃,g₃,hq₃,h₃,hb₃,hw₃,hp₃⟩ := h₂.triggerWriteback
  refine ⟨q₃,g₃,?_,h₃,hl₁.trans (hb₂.trans hb₃).toLater,⟨hf₁.behind (hb₂.trans hb₃),hp₃ hp₂,hw₃⟩⟩
  rw [Queue.trigger, hq₁, bind_eq_bind, bind_some]
  exact hq₃

/-! ### Completions -/

structure Advances (g g' : Progress) : Prop extends Later g g' where
  strict : ∃ a < g.posted, (g.stage a).code < (g'.stage a).code

section Erase

variable {l : List Flight} {k : ℕ} {x : Flight}

lemma mem_erase (hk : l[k]? = some x) {y : Flight} (hy : y ∈ l) : y = x ∨ y ∈ l.eraseIdx k := by
  obtain ⟨hlt,rfl⟩ := List.getElem?_eq_some_iff.mp hk
  exact List.mem_cons.mp ((List.getElem_cons_eraseIdx_perm hlt).mem_iff.mpr hy)

lemma apart_erase (h : l.Pairwise Flight.Apart) (hk : l[k]? = some x) :
    ∀ y ∈ l.eraseIdx k, x.Apart y := by
  obtain ⟨hlt,rfl⟩ := List.getElem?_eq_some_iff.mp hk
  have hp := (List.getElem_cons_eraseIdx_perm hlt).pairwise_iff
    (fun {x y} => Flight.apart_symm x y)
  exact (pairwise_cons.mp (hp.mpr h)).1

end Erase

def preparedStage (o : Choices) (p : ℕ) :
    DescState := if o.prepared p then .prepared else .preparing

lemma prepare_eq (o : Choices) (first i : ℕ) (ctx : DescCtx) :
    prepare o first i ctx = some (ctx.setState (preparedStage o ((first+i) % 128))) := by
  unfold prepare preparedStage
  split_ifs <;> rfl

def Progress.afterFetched (g : Progress) (o : Choices) (c : Config) (k a n : ℕ) : Progress :=
  { g with
    stage := moved a n (fun b => preparedStage o (c.pos b)) g.stage
    flights := g.flights.eraseIdx k }

lemma Progress.afterFetched_stage (g : Progress) (o : Choices) (c : Config) (k a n b : ℕ) :
    (g.afterFetched o c k a n).stage b = if a ≤ b ∧ b < a+n then preparedStage o (c.pos b) else
    g.stage b := rfl

lemma preparedStage_ne (o : Choices) (p : ℕ) : preparedStage o p ≠ .fetching := by
  unfold preparedStage
  split_ifs <;> simp

section Fetched

variable {k a n : ℕ}

lemma Stages.afterFetched (h : Stages c g) (o : Choices)
    (ha : ∀ b, a ≤ b → b < a+n → g.stage b = .fetching) : Stages c (g.afterFetched o c k a n) := by
  refine Stages.of_place h.freed_le h.writing_le h.started_le h.fetched_le h.posted_lt
    h.active_le fun b => ?_
  rw [afterFetched_stage]
  split_ifs with hin
  · -- preparing and prepared descriptors are where fetched ones were
    have hplace := h.of_state (ha b hin.1 hin.2)
    unfold preparedStage
    split_ifs <;> exact hplace
  · exact h.place b

lemma Flights.afterFetched (h : Flights c q g) (o : Choices)
    (hk : g.flights[k]? = some (.fetch a n)) (ctxs : ℕ → DescCtx) :
    Flights c { q with descCtxs := ctxs, dmas := q.dmas.eraseIdx k }
      (g.afterFetched o c k a n) := by
  have hmem : ∀ y ∈ g.flights.eraseIdx k, y ∈ g.flights := fun y hy =>
    (eraseIdx_sublist _ _).subset hy
  constructor
  · change q.dmas.eraseIdx k = (g.flights.eraseIdx k).map _
    rw [h.dmas, eraseIdx_map]
  · exact h.apart.sublist (eraseIdx_sublist _ _)
  · intro b m hb
    -- the contexts of another fetch are not touched
    have hapart : a+n ≤ b ∨ b+m ≤ a := apart_erase h.apart hk _ hb
    obtain ⟨hm,hst⟩ := h.fetch b m (hmem _ hb)
    refine ⟨hm,fun d hd hd' => ?_⟩
    rw [afterFetched_stage, if_neg (by omega)]
    exact hst d hd hd'
  · intro b hb
    rw [afterFetched_stage] at hb
    split_ifs at hb with hin
    · exact absurd hb (preparedStage_ne o _)
    · obtain ⟨d,m,hm,hd⟩ := h.covered b hb
      refine ⟨d,m,(mem_erase hk hm).resolve_left fun he => ?_,hd⟩
      obtain ⟨rfl,rfl⟩ := Flight.fetch.inj he
      exact hin hd
  · exact fun b m hb => h.wb b m (hmem _ hb)
  · intro hw
    obtain ⟨b,m,hb⟩ := h.writing hw
    exact ⟨b,m,(mem_erase hk hb).resolve_left (by simp)⟩

lemma Inv.fetchDone (h : Inv c q g) (o : Choices) (hk : g.flights[k]? = some (.fetch a n)) :
    ∃ q', { q with dmas := q.dmas.eraseIdx k }.fetchDone o (c.pos a) n = some q' ∧
      Inv c q' (g.afterFetched o c k a n) ∧ Advances g (g.afterFetched o c k a n) := by
  obtain ⟨_,hst⟩ := h.flights.fetch a n (mem_of_getElem? hk)
  have hs := h.stages
  have hfirst := hs.of_state (hst a le_rfl (by omega))
  have hlast := hs.of_state (hst (a+n-1) (by omega) (by omega))
  have ho := hs.order
  have ha := hfirst.1
  have ha' := hlast.2
  obtain ⟨ctxs,hsweep,hctxs⟩ := sweep_round (d := g.freed) (a := a) (n := n)
    (f := Queue.prepare o (c.pos a)) q.descCtxs
    (fun b => (q.descCtxs (c.pos b)).setState (preparedStage o (c.pos b))) (by omega) (by omega)
    fun i _ => by rw [prepare_eq, pos_add]
  have hcode : ∀ b, a ≤ b → b < a+n → (g.stage b).code < (preparedStage o (c.pos b)).code := by
    intro b hb hb'
    rw [hst b hb hb']
    unfold preparedStage
    split_ifs <;> decide
  refine ⟨{ q with descCtxs := ctxs, dmas := q.dmas.eraseIdx k },?_,
    ⟨?_,hs.afterFetched o hst,h.flights.afterFetched o hk ctxs,{ h.logs with }⟩,⟨rfl,?_⟩,
    ⟨a,by omega,?_⟩⟩
  · rw [Queue.fetchDone, hsweep]
    rfl
  · exact { h.window.swept hs.active_le hctxs with }
  · exact code_le_moved fun b hb hb' => (hcode b hb hb').le
  · rw [afterFetched_stage, if_pos ⟨le_rfl,by omega⟩]
    exact hcode a le_rfl (by omega)

end Fetched

lemma bump_eq {m r a : ℕ} (ctxs : ℕ → DescCtx) (hm : m ≤ r) (hr : r ≤ 128)
    (hp : p % 128 = c.pos a) (hwb : ∀ b, a ≤ b → b < a+m → (ctxs (c.pos b)).state = .writtenBack)
    (hstop : m < r → (ctxs (c.pos (a+m))).state ≠ .writtenBack) : ∃ ctxs', bump r p ctxs =
    (m,ctxs') ∧ ∀ b, a ≤ b → b < a+128 → ctxs' (c.pos b) = if b < a+m then (ctxs (c.pos b)).setState
    .empty else ctxs (c.pos b) := by
  induction m generalizing r a p ctxs with
  | zero =>
    refine ⟨ctxs,?_,fun b hb _ => (if_neg (by omega)).symm⟩
    cases r with
    | zero => rfl
    | succ =>
      unfold bump
      rw [hp]
      exact if_pos (hstop (by omega))
  | succ m ih =>
    obtain ⟨r,rfl⟩ := exists_eq_succ_of_ne_zero (by omega : r ≠ 0)
    have hne : ∀ b, a+1 ≤ b → b < a+128 →
        update ctxs (c.pos a) ((ctxs (c.pos a)).setState .empty) (c.pos b) = ctxs (c.pos b) := by
      intro b hb hb'
      rw [update_of_ne]
      rw [Ne, pos_eq_iff (by omega) (by omega)]
      omega
    obtain ⟨ctxs',hbump,hctxs⟩ := ih (r := r) (p := p+1)
      (update ctxs (c.pos a) ((ctxs (c.pos a)).setState .empty)) (by omega)
      (by omega) (by rw [add_mod, hp, ← pos_add, add_mod])
      (fun b hb hb' => by rw [hne b hb (by omega)]; exact hwb b (by omega) (by omega))
      (fun hlt => by
        rw [hne _ (by omega) (by omega), add_right_comm]
        exact hstop (by omega))
    refine ⟨ctxs',?_,fun b hb hb' => ?_⟩
    · unfold bump
      rw [hp, if_neg (not_not.mpr (hwb a le_rfl (by omega))), hbump]
    · rcases eq_or_lt_of_le hb with rfl | hlt
      · -- its next number is at the end of the rest of the round
        rw [← pos_round, hctxs _ (by omega) (by omega), if_neg (by omega), if_pos (by omega),
          pos_round, update_self]
      · rw [hctxs b hlt (by omega), hne b hlt hb', add_right_comm]
        rfl

section Written

variable {k a n : ℕ}

def Progress.afterWritten (g : Progress) (k n : ℕ) : Progress := { g with
    freed := g.writing
    stage := moved g.freed n (fun _ => .writtenBack) g.stage
    flights := g.flights.eraseIdx k }

lemma Progress.afterWritten_stage (g : Progress) (k n b : ℕ) :
    (g.afterWritten k n).stage b = if g.freed ≤ b ∧
    b < g.freed+n then .writtenBack else g.stage b := rfl

lemma Stages.afterWritten (h : Stages c g) (hn : g.freed+n = g.writing) :
    Stages c (g.afterWritten k n) := by
  have ho := h.order
  refine Stages.of_place le_rfl h.writing_le h.started_le h.fetched_le
    (by change g.posted < g.writing+c.len; omega) (by change g.fetched ≤ g.writing+128; omega)
    fun b => ?_
  rw [Progress.afterWritten_stage]
  split_ifs with hin
  · change b < g.writing
    omega
  · have hplace := h.place b
    cases hs : g.stage b <;> rw [hs] at hplace <;>
      simp only [Progress.Place, Progress.afterWritten] at hplace ⊢ <;> omega

lemma Flights.afterWritten (h : Flights c q g) (hs : Stages c g) (hn : g.freed+n = g.writing)
    (hk : g.flights[k]? = some (.wb a n)) : Flights c { q with dmas := q.dmas.eraseIdx k }
      (g.afterWritten k n) := by
  have hmem : ∀ y ∈ g.flights.eraseIdx k, y ∈ g.flights := fun y hy =>
    (eraseIdx_sublist _ _).subset hy
  have hkeep : ∀ b, g.stage b = .fetching → (g.afterWritten k n).stage b = .fetching := by
    intro b hb
    have ho := hs.order
    have hb' := (hs.of_state hb).1
    rw [afterWritten_stage, if_neg (by omega), hb]
  constructor
  · change q.dmas.eraseIdx k = (g.flights.eraseIdx k).map _
    rw [h.dmas, eraseIdx_map]
  · exact h.apart.sublist (eraseIdx_sublist _ _)
  · intro b m hb
    obtain ⟨hm,hst⟩ := h.fetch b m (hmem _ hb)
    exact ⟨hm,fun d hd hd' => hkeep d (hst d hd hd')⟩
  · intro b hb
    rw [afterWritten_stage] at hb
    split_ifs at hb with hin
    obtain ⟨d,m,hm,hd⟩ := h.covered b hb
    exact ⟨d,m,(mem_erase hk hm).resolve_left (by simp),hd⟩
  · -- there was no other write-back
    exact fun b m hb => (apart_erase h.apart hk _ hb).elim
  · exact fun hlt => absurd hlt (lt_irrefl _)

lemma Inv.written_ctxs (h : Inv c q g) (hn : g.freed+n = g.writing) :
    ∃ ctxs freed, sweep 128 (fun _ => DescCtx.move .writingBack .writtenBack) (c.pos g.freed) n
    q.descCtxs = some ctxs ∧ bump q.activeCnt q.activeFirstPos ctxs = (n,freed) ∧
    (∀ b, g.freed ≤ b → b < g.writing → (freed (c.pos b)).state = .empty) ∧ ∀ b, g.writing ≤ b →
    b < g.freed+128 → freed (c.pos b) = q.descCtxs (c.pos b) := by
  have hs := h.stages
  have ho := hs.order
  have hcnt := h.window.cnt
  obtain ⟨ctxs,hsweep,hctxs⟩ := sweep_round (d := g.freed) (n := n)
    (f := fun _ => DescCtx.move .writingBack .writtenBack) q.descCtxs
    (fun b => (q.descCtxs (c.pos b)).setState .writtenBack) le_rfl (by omega) (by
      intro i hi
      exact if_pos (by rw [h.window.state _ (by omega) (by omega), hs.writing _ (by omega)
        (by omega)]))
  obtain ⟨freed,hbump,hfreed⟩ := bump_eq (m := n) (r := q.activeCnt)
    (p := q.activeFirstPos) ctxs (by omega) (by omega)
    (by rw [h.window.firstPos, pos_mod])
    (fun b hb hb' => by rw [hctxs b hb (by omega), if_pos ⟨hb,hb'⟩]; rfl)
    (fun hlt he => by
      rw [hctxs _ (by omega) (by omega), if_neg (by omega), h.window.state _ (by omega)
        (by omega)] at he
      have := hs.of_state he
      change _ < _ at this
      omega)
  refine ⟨ctxs,freed,hsweep,hbump,fun b hb hb' => ?_,fun b hb hb' => ?_⟩
  · rw [hfreed b hb (by omega), if_pos (by omega)]
    rfl
  · rw [hfreed b (by omega) hb', if_neg (by omega), hctxs b (by omega) hb', if_neg (by omega)]

lemma Inv.writebackDone (h : Inv c q g) (hk : g.flights[k]? = some (.wb a n)) :
    ∃ q', { q with dmas := q.dmas.eraseIdx k }.writebackDone (c.pos a) n = some q' ∧
      Inv c q' (g.afterWritten k n) ∧ Advances g (g.afterWritten k n) := by
  obtain ⟨rfl,hn,_⟩ := h.flights.wb a n (mem_of_getElem? hk)
  obtain ⟨_,freed,hsweep,hbump,hempty,hnew⟩ := h.written_ctxs hn
  have hs := h.stages
  have ho := hs.order
  have hcnt := h.window.cnt
  have hcode : ∀ b, g.freed ≤ b → b < g.freed+n →
      (g.stage b).code < DescState.code .writtenBack := by
    intro b hb hb'
    rw [hs.writing b hb (by omega)]
    decide
  unfold writebackDone
  rw [hsweep, map_some, hbump]
  refine ⟨_,rfl,⟨?_,hs.afterWritten hn,{ h.flights.afterWritten hs hn hk with },?_⟩,⟨rfl,?_⟩,
    ⟨g.freed,by omega,?_⟩⟩
  · constructor
    · exact h.window.len
    · change (q.activeFirstPos+n) % 128 = c.pos g.writing
      rw [h.window.firstPos, pos_add, hn]
    · change (q.activeFirstIdx+n) % q.len = c.idx g.writing
      rw [h.window.firstIdx, h.window.len, idx_add, hn]
    · change g.writing+(q.activeCnt-n) = g.fetched
      omega
    · intro b hb hb'
      change g.writing ≤ b at hb
      change b < g.writing+128 at hb'
      change (freed (c.pos b)).state = _
      rw [afterWritten_stage, if_neg (by omega)]
      rcases Nat.lt_or_ge b (g.freed+128) with hlt | hge
      · rw [hnew b hb hlt, h.window.state b (by omega) hlt]
      · -- a context that has just been freed
        obtain ⟨d,rfl⟩ := Nat.exists_eq_add_of_le' (by omega : 128 ≤ b)
        rw [pos_round, hempty d (by omega) (by omega), hs.unfetched _ (by omega)]
    · intro b hb hb'
      change g.writing ≤ b at hb
      change b < g.fetched at hb'
      change (freed (c.pos b)).index = _
      rw [hnew b hb (by omega), h.window.index b (by omega) hb']
  · refine { h.logs with head := ?_ }
    change (q.activeFirstIdx+n) % q.len = c.idx g.writing
    rw [h.window.firstIdx, h.window.len, idx_add, hn]
  · exact code_le_moved fun b hb hb' => (hcode b hb hb').le
  · rw [afterWritten_stage, if_pos ⟨le_rfl,by omega⟩]
    exact hcode _ le_rfl (by omega)

end Written

lemma Inv.advance (h : Inv c q g) (hp : p < 128) {s t : DescState}
    (hst : (q.descCtxs p).state = s)
    (hmove : s = .preparing ∧ t = .prepared ∨ s = .processing ∧ t = .processed) :
    ∃ q' g', q.advance p s t = some q' ∧ Inv c q' g' ∧ Advances g g' := by
  obtain ⟨a,-,-,hpos,hstage⟩ := h.window.exists_number p
  rw [mod_eq_of_lt hp] at hpos hstage
  rw [hst] at hstage
  have ho := h.stages.order
  have hplace := h.stages.of_state hstage.symm
  have hne : g.stage a ≠ .fetching := by
    rw [← hstage]
    rcases hmove with ⟨rfl,-⟩ | ⟨rfl,-⟩ <;> simp
  have hlt : (g.stage a).code < t.code := by
    rw [← hstage]
    rcases hmove with ⟨rfl,rfl⟩ | ⟨rfl,rfl⟩ <;> decide
  have ha : a < g.fetched ∧ (g.writing ≤ a ∧ a < g.started ∧ (t = .processing ∨ t = .processed) ∨
      g.started ≤ a ∧ (t = .preparing ∨ t = .prepared)) := by
    rcases hmove with ⟨rfl,rfl⟩ | ⟨rfl,rfl⟩
    · exact ⟨hplace.2,Or.inr ⟨hplace.1,Or.inr rfl⟩⟩
    · exact ⟨by have := hplace.2; omega,Or.inl ⟨hplace.1,hplace.2,Or.inr rfl⟩⟩
  refine ⟨_,_,?_,h.update (Or.inl rfl) ha.2 ha.1 hne h.logs.processed,
    (Behind.update hlt.le hne).toLater,⟨a,by omega,?_⟩⟩
  · rw [Queue.advance, mod_eq_of_lt hp, DescCtx.move, if_pos hst, hpos]
    rfl
  · rwa [update_stage, if_pos rfl]

lemma Inv.complete (h : Inv c q g) {e : Event} (he : q.Pending e) :
    ∃ q' g', q.receive e = some q' ∧ Inv c q' g' ∧ Advances g g' := by
  cases e with
  | tail => exact he.elim
  | dataFetched => exact h.advance he.1 he.2 (Or.inl ⟨rfl,rfl⟩)
  | dataWritten => exact h.advance he.1 he.2 (Or.inr ⟨rfl,rfl⟩)
  | done k o =>
    have hlen : k < g.flights.length := by
      have : k < q.dmas.length := he
      rwa [h.flights.dmas, length_map] at this
    have hk := getElem?_eq_getElem hlen
    have hdma : q.dmas[k]? = some ((g.flights[k]).dma c) := by
      rw [h.flights.dmas, getElem?_map, hk]
      rfl
    rw [receive, hdma]
    cases hx : g.flights[k] with
    | fetch =>
      obtain ⟨q',hq,h'⟩ := h.fetchDone o (hx ▸ hk)
      exact ⟨q',_,hq,h'⟩
    | wb =>
      obtain ⟨q',hq,h'⟩ := h.writebackDone (hx ▸ hk)
      exact ⟨q',_,hq,h'⟩

lemma Inv.room_eq (h : Inv c q g) : q.room = g.freed+c.len-1-g.posted := by
  have ho := h.stages.order
  have hlt := idx_lt (c := c) g.posted
  rw [room, h.window.len, h.logs.head, h.logs.tail]
  refine dist_eq (a := g.posted) (by omega) ?_
  rw [Nat.sub_add_cancel (by omega), Nat.add_sub_cancel' (by omega),
    (by omega : c.idx g.freed+2*c.len-1 = c.idx g.freed+(c.len-1)+c.len), add_mod_right,
    idx_add]
  congr 1
  omega

lemma Inv.tail (h : Inv c q g) {n : ℕ} (hn : n ≤ q.room) :
    Inv c { q with regTail := (q.regTail+n) % q.len } { g with posted := g.posted+n } := by
  have ho := h.stages.order
  rw [h.room_eq] at hn
  refine ⟨{ h.window with },{ h.stages with
    fetched_le := by change g.fetched ≤ g.posted+n; omega
    posted_lt := by change g.posted+n < g.freed+c.len; omega },{ h.flights with },
    { h.logs with tail := ?_ }⟩
  rw [h.logs.tail, h.window.len, idx_add]

lemma act_of_receive {q₁ : Queue} {e : Event} (h : q.receive e = some q₁) :
    q.act e = q₁.trigger e.choices := by
  rw [act, h]
  rfl

end SimBricks.I40eQueue
