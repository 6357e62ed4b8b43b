import SimBricks.Runtime.SimulationExecutor

/-!
# What is left running when the executor ends

The way to `terminate_collect_sims` leads through awaits that are outside the
`try`: those of the two handlers and of the loop over the start tasks. If none
of them raises, every process that was recorded has been killed in the end.
-/

set_option autoImplicit false

namespace SimBricks.Runtime
open Library Library.Run Orchestration List Option Prod

variable {Sim Comp Inf Proxy : Type}

namespace Executor

/-- The awaits outside the `try` do not raise: `simulation_exited` is neither
cancelled nor fails in a handler, only simulators are still being started when
the handler is left, none of these starts fails in the loop, and `run` is not
cancelled there when the awaited task is done. -/
def Orderly (s : Executor Sim Proxy) (e : Event) : Prop :=
  match s.point, e with
  | .interrupted, .cancel => False
  | .interrupted, .raises => False
  | .failed, .cancel => False
  | .failed, .raises => False
  | .interrupted, .resume =>
    ∀ t ∈ s.starting, t.phase.isDone = false → isSim t.node.component
  | .failed, .resume => ∀ t ∈ s.starting, t.phase.isDone = false → isSim t.node.component
  | .cleaning k, .cancel => ∀ t ∈ s.starting[k]?, t.phase.isDone = false
  | .cleaning _, .task j .fails => ∀ t ∈ s.starting[j]?, t.phase.isDone
  | _, _ => True

instance (s : Executor Sim Proxy) (e : Event) : Decidable (Orderly s e) := by
  unfold Orderly
  split <;> infer_instance

def tasks (s : Executor Sim Proxy) : List (Node Sim Proxy × Phase) :=
  s.starting.map fun t => (t.node,t.phase)

lemma tasks_set (s : Executor Sim Proxy) (k : ℕ) (t : StartTask Sim Proxy) :
    tasks { s with starting := s.starting.set k t } = s.tasks.set k (t.node,t.phase) :=
  map_set

def Killed (s : Executor Sim Proxy) : Prop := ∀ k ∈ s.recorded, k ∈ s.killed

end Executor

def Begun (l : List (Node Sim Proxy × Phase)) : Prop := ∀ x ∈ l, x.2 ≠ .created

def AllDone (l : List (Node Sim Proxy × Phase)) : Prop := ∀ x ∈ l, x.2.isDone

/-- Task `k` is awaited by the loop: it has not failed, those before it are
done, and all that are not done will swallow a `CancelledError`. -/
structure Awaited (l : List (Node Sim Proxy × Phase)) (k : ℕ) : Prop where
  begun : Begun l
  sims : ∀ x ∈ l, x.2.isDone = false → isSim x.1.component
  before : ∀ i x, i < k → l[i]? = some x → x.2.isDone
  unfailed : ∀ x f, l[k]? = some x → x.2 ≠ .done (some f)

/-- What holds of the start tasks at each await, and where all processes must
have been killed. -/
def Placed (l : List (Node Sim Proxy × Phase)) (killed : Prop) : Point → Prop
  | .started => l = []
  | .gathering _ _ => True
  | .waitSims => AllDone l
  | .exited => AllDone l
  | .interrupted => Begun l
  | .failed => Begun l
  | .cleaning k => Awaited l k
  | .terminating .created => AllDone l
  | .terminating _ => AllDone l ∧ killed
  | .ended => killed

variable {j : ℕ}

section
variable {l : List (Node Sim Proxy × Phase)} {n : Node Sim Proxy} {p q : Phase} {k : ℕ}
  {point : Point} {killed : Prop}

lemma AllDone.begun (h : AllDone l) : Begun l := by
  intro x hx hcreated
  have := h x hx
  rw [hcreated] at this
  cases this

lemma allDone_nil (h : l = []) : AllDone l := by
  rw [h]
  exact fun x hx => by cases hx

lemma AllDone.not_pending (h : AllDone l) (hk : l[k]? = some (n,p)) : p.isDone :=
  h _ (mem_of_getElem? hk)

lemma Begun.set (h : Begun l) (hq : q ≠ .created) : Begun (l.set k (n,q)) := by
  intro x hx
  rcases mem_or_eq_of_mem_set hx with hx | rfl
  · exact h x hx
  · exact hq

lemma Awaited.set (h : Awaited l j) (hk : l[k]? = some (n,p)) (hp : p.isDone = false)
    (hq : q ≠ .created) (hfail : ∀ f, q ≠ .done (some f)) : Awaited (l.set k (n,q)) j := by
  refine ⟨h.begun.set hq,fun x hx hpend => ?_,fun i x hi hx => ?_,fun x f hx => ?_⟩
  · rcases mem_or_eq_of_mem_set hx with hx | rfl
    · exact h.sims x hx hpend
    · exact h.sims (n,p) (mem_of_getElem? hk) hp
  · have hne : k ≠ i := by
      rintro rfl
      have := h.before k _ hi hk
      rw [hp] at this
      cases this
    rw [getElem?_set_ne hne] at hx
    exact h.before i x hi hx
  · rw [getElem?_set] at hx
    split_ifs at hx
    · cases hx
      exact hfail f
    · exact h.unfailed x f hx

/-- A task that is not done moves on; `run` is then at no await at which
something has been killed. -/
lemma Placed.set (h : Placed l killed point) (killed' : Prop) (hk : l[k]? = some (n,p))
    (hp : p.isDone = false) (hend : point ≠ .ended) (hq : q ≠ .created)
    (hfail : ∀ j f, point = .cleaning j → q ≠ .done (some f)) :
    Placed (l.set k (n,q)) killed' point := by
  have hnot : ¬ AllDone l := by
    intro hall
    have := hall.not_pending hk
    rw [hp] at this
    cases this
  cases point with
  | started =>
    rw [show l = [] from h] at hk
    cases hk
  | gathering => trivial
  | waitSims | exited => exact absurd h hnot
  | interrupted | failed => exact Begun.set h hq
  | cleaning j => exact Awaited.set h hk hp hq fun f => hfail j f rfl
  | terminating c =>
    cases c with
    | created => exact absurd h hnot
    | signalled | done => exact absurd h.1 hnot
  | ended => exact absurd rfl hend

lemma Placed.note (h : Placed l killed point) (failure : Option Failure) :
    Placed l killed (point.note failure) := by
  cases point with
  | gathering c first =>
    cases first with
    | none | some f => trivial
  | _ => exact h

lemma set_of_getElem? {α : Type} {l : List α} {x : α} (hk : l[k]? = some x) : l.set k x = l := by
  obtain ⟨hlt,rfl⟩ := List.getElem?_eq_some_iff.mp hk
  exact List.set_getElem_self hlt

lemma map_fst_set (hk : l[k]? = some (n,p)) (q : Phase) : (l.set k (n,q)).map fst = l.map fst := by
  rw [map_set]
  apply set_of_getElem?
  rw [getElem?_map, hk]
  rfl

end

namespace Executor
variable [DecidableEq Sim] [DecidableEq Proxy]

def Entered (s : Executor Sim Proxy) (k : ℕ) : Component Sim Proxy → Prop
  | .simulator x => s.runningSims.get? x = some k
  | .proxy p => s.runningProxies.get? p = some k
  | .externalProxy _ => False

/-- No component is started twice, so no process drops out of a dictionary. -/
structure Sound (s : Executor Sim Proxy) : Prop where
  unique : ∀ n ∈ s.graph.nodes, ∀ m ∈ s.graph.nodes, n.component = m.component → n = m
  nodup : (s.tasks.map fst).Nodup
  known : ∀ x ∈ s.tasks, x.1 ∈ s.graph.nodes
  entered : ∀ k ∈ s.recorded, ∃ x, s.tasks[k]? = some x ∧ s.Entered k x.1.component
  placed : Placed s.tasks s.Killed s.point

variable {s : Executor Sim Proxy}

lemma sound_initial : Sound (initial : Executor Sim Proxy) :=
  ⟨fun _ hn => (by cases hn),nodup_nil,fun _ hx => (by cases hx),fun _ hk => (by cases hk), rfl⟩

variable {c : Component Sim Proxy} {t : StartTask Sim Proxy} {i : ℕ}

lemma Entered.mem_processes {k : ℕ} (h : s.Entered k c) : k ∈ s.processes := by
  cases c with
  | simulator => exact mem_append_left _ (mem_map.mpr ⟨_,Dict.mem_entries.mpr h,rfl⟩)
  | proxy => exact mem_append_right _ (mem_map.mpr ⟨_,Dict.mem_entries.mpr h,rfl⟩)
  | externalProxy => cases h

lemma Sound.recorded_processes (h : s.Sound) : ∀ k ∈ s.recorded, k ∈ s.processes := by
  intro k hk
  obtain ⟨x,-,hx⟩ := h.entered k hk
  exact hx.mem_processes

lemma Sound.goto (h : s.Sound) {p : Point} (hp : Placed s.tasks s.Killed p) :
    Sound { s with point := p } := ⟨h.unique,h.nodup,h.known,h.entered,hp⟩

lemma Sound.request (h : s.Sound) {starting : List (StartTask Sim Proxy)}
    (hs : tasks { s with starting := starting } = s.tasks) :
    Sound { s with starting := starting } := by
  refine ⟨h.unique,?_,?_,?_,?_⟩
  · rw [hs]
    exact h.nodup
  · rw [hs]
    exact h.known
  · rw [hs]
    exact h.entered
  · rw [hs]
    exact h.placed

/-! ## The start tasks -/

lemma Sound.set (h : s.Sound) {k : ℕ} {q : Phase} {cancelling : Bool}
    (hk : s.tasks[k]? = some (t.node,t.phase)) (hp : t.phase.isDone = false)
    (hend : s.point ≠ .ended) (hq : q ≠ .created)
    (hfail : ∀ j f, s.point = .cleaning j → q ≠ .done (some f)) :
    Sound { s with starting := s.starting.set k ⟨t.node,q,cancelling⟩ } := by
  have htasks := tasks_set s k ⟨t.node,q,cancelling⟩
  refine ⟨h.unique,?_,?_,?_,?_⟩
  · rw [htasks, map_fst_set hk]
    exact h.nodup
  · rw [htasks]
    intro x hx
    rcases mem_or_eq_of_mem_set hx with hx | rfl
    · exact h.known x hx
    · exact h.known (t.node,t.phase) (mem_of_getElem? hk)
  · rw [htasks]
    intro j hj
    obtain ⟨x,hx,hentered⟩ := h.entered j hj
    by_cases hkj : k = j
    · subst hkj
      cases hk.symm.trans hx
      exact ⟨_,List.getElem?_set_self (List.getElem?_eq_some_iff.mp hk).1,hentered⟩
    · exact ⟨x,(getElem?_set_ne hkj).trans hx,hentered⟩
  · rw [htasks]
    exact h.placed.set _ hk hp hend hq hfail

lemma entered_record {k : ℕ} {d : Component Sim Proxy} (h : s.Entered j d) (hjk : d = c → j = k) :
    (s.record k c).Entered j d := by
  have hset : ∀ {K : Type} [DecidableEq K] (dict : Dict K ℕ) (x y : K), dict.get? y = some j →
      (y = x → j = k) → (dict.set x k).get? y = some j := by
    intro K _ dict x y hget hyx
    rw [Dict.get?_set]
    split_ifs with heq
    · rw [hyx heq]
    · exact hget
  cases c with
  | simulator x =>
    cases d with
    | simulator y => exact hset _ x y h fun heq => hjk (congrArg _ heq)
    | proxy q | externalProxy q => exact h
  | proxy p =>
    cases d with
    | simulator => exact h
    | proxy q => exact hset _ p q h fun heq => hjk (congrArg _ heq)
    | externalProxy => exact h
  | externalProxy => exact h

lemma mem_recorded_record {k : ℕ} (h : j ∈ (s.record k c).recorded) :
    j ∈ s.recorded ∨ (j = k ∧ (s.record k c).Entered k c) := by
  cases c with
  | simulator x | proxy p =>
    rcases mem_append.mp h with h | h
    · exact .inl h
    · exact .inr ⟨mem_singleton.mp h,Dict.get?_set_self ..⟩
  | externalProxy => exact .inl h

lemma Sound.of_entered (h : s.Sound) {s' : Executor Sim Proxy} (hgraph : s'.graph = s.graph)
    (hstarting : s'.starting = s.starting)
    (hentered : ∀ k ∈ s'.recorded, ∃ x, s.tasks[k]? = some x ∧ s'.Entered k x.1.component)
    (hplaced : Placed s.tasks s'.Killed s'.point) : s'.Sound := by
  have htasks : s'.tasks = s.tasks := by rw [tasks, hstarting, tasks]
  refine ⟨?_,?_,?_,?_,?_⟩
  · rw [hgraph]
    exact h.unique
  · rw [htasks]
    exact h.nodup
  · rw [htasks, hgraph]
    exact h.known
  · rw [htasks]
    exact hentered
  · rw [htasks]
    exact hplaced

lemma Sound.entry (h : s.Sound) {k : ℕ} {n : Node Sim Proxy}
    (hk : s.tasks[k]? = some (n,.waiting)) (hend : s.point ≠ .ended) :
    Sound (s.record k n.component) := by
  have hother : ∀ j x, s.tasks[j]? = some x → x.1.component = n.component → j = k := by
    intro j x hx heq
    have hxn : x.1 = n := h.unique x.1 (h.known x (mem_of_getElem? hx)) n
      (h.known (n,.waiting) (mem_of_getElem? hk)) heq
    have hj : (s.tasks.map fst)[j]? = some n := by rw [getElem?_map, hx, ← hxn]; rfl
    have hn : (s.tasks.map fst)[k]? = some n := by rw [getElem?_map, hk]; rfl
    exact (List.getElem?_inj (List.getElem?_eq_some_iff.mp hj).1 h.nodup).mp (hj.trans hn.symm)
  have hsame : (s.record k n.component).graph = s.graph ∧
      (s.record k n.component).starting = s.starting ∧
      (s.record k n.component).point = s.point := by
    cases n.component <;> exact ⟨rfl,rfl,rfl⟩
  refine h.of_entered hsame.1 hsame.2.1 (fun j hj => ?_) ?_
  · rcases mem_recorded_record hj with hj | ⟨rfl,hnew⟩
    · obtain ⟨x,hx,hentered⟩ := h.entered j hj
      exact ⟨x,hx,entered_record hentered (hother j x hx)⟩
    · exact ⟨_,hk,hnew⟩
  · have hset := h.placed.set (s.record k n.component).Killed (q := .waiting) hk rfl hend
      (by simp) (by simp)
    rw [set_of_getElem? hk] at hset
    rw [hsame.2.2]
    exact hset

lemma Sound.finish (h : s.Sound) {k : ℕ} {failure : Option Failure}
    (hk : s.tasks[k]? = some (t.node,t.phase)) (hp : t.phase.isDone = false)
    (hend : s.point ≠ .ended) (hfail : ∀ j, s.point = .cleaning j → failure = none) :
    Sound (s.finish k t failure) := by
  have hset : Sound { s with
      starting := s.starting.set k ⟨t.node,.done failure,t.cancelling⟩ } := by
    refine h.set hk hp hend (by simp) fun j f hj => ?_
    rw [hfail j hj]
    simp
  exact hset.goto (hset.placed.note failure)

lemma Sound.taskStep (h : s.Sound) {k : ℕ} {e : TaskEvent} (hk : s.starting[k]? = some t)
    (hend : s.point ≠ .ended) (ho : s.Orderly (.task k e)) : Sound (s.taskStep k t e) := by
  have hk' : s.tasks[k]? = some (t.node,t.phase) := by
    rw [tasks, getElem?_map, hk]
    rfl
  cases e with
  | begins =>
    simp only [Executor.taskStep]
    split_ifs with hp
    · have hfirst : t.firstPhase = .waiting ∨ t.firstPhase = .launching := by
        unfold StartTask.firstPhase
        split
        · exact .inl rfl
        · exact .inr rfl
      refine h.set hk' (by rw [hp]; rfl) hend ?_ fun j f _ => ?_
      · rcases hfirst with hfirst | hfirst <;> simp [hfirst]
      · rcases hfirst with hfirst | hfirst <;> simp [hfirst]
    · exact h
  | launched =>
    simp only [Executor.taskStep]
    split_ifs with hp
    · have hset : Sound { s with starting := s.starting.set k { t with phase := .waiting } } :=
        h.set hk' (by rw [hp]; rfl) hend (by simp) (by simp)
      refine hset.entry ?_ hend
      rw [tasks_set]
      exact List.getElem?_set_self (List.getElem?_eq_some_iff.mp hk').1
    · exact h
  | returns =>
    simp only [Executor.taskStep]
    split_ifs with hp
    · exact h.finish hk' (by rw [hp]; rfl) hend fun _ _ => rfl
    · exact h
  | fails =>
    simp only [Executor.taskStep]
    split_ifs with hp
    · have hpending : t.phase.isDone = false := by
        rcases hp with hp | hp <;> rw [hp] <;> rfl
      refine h.finish hk' hpending hend fun j hj => ?_
      unfold Orderly at ho
      rw [hj] at ho
      have := ho t hk
      rw [hpending] at this
      cases this
    · exact h
  | cancelled =>
    simp only [Executor.taskStep]
    split_ifs with hp
    · refine h.finish hk' hp.1 hend fun j hj => ?_
      -- in the loop only simulators that have begun are not done
      have hawaited : Awaited s.tasks j := by
        have := h.placed
        rwa [hj] at this
      have hmem := mem_of_getElem? hk'
      exact if_pos ⟨hawaited.sims _ hmem hp.1,hawaited.begun _ hmem⟩
    · exact h

/-! ## The awaits of `run` -/

omit [DecidableEq Sim] [DecidableEq Proxy] in
lemma cancel_same (t : StartTask Sim Proxy) :
    (t.cancel.node,t.cancel.phase) = (t.node,t.phase) := by
  unfold StartTask.cancel
  split_ifs <;> rfl

omit [DecidableEq Sim] [DecidableEq Proxy] in
lemma tasks_modify (s : Executor Sim Proxy) (i : ℕ) :
    tasks { s with starting := s.starting.modify i StartTask.cancel } = s.tasks := by
  ext1 j
  rw [tasks, tasks, getElem?_map, getElem?_map, getElem?_modify]
  cases s.starting[j]? with
  | none => rfl
  | some t =>
    split_ifs
    · exact congrArg some (cancel_same t)
    · rfl

lemma Sound.cancelTask (h : s.Sound) (i : ℕ) :
    Sound { s with starting := s.starting.modify i StartTask.cancel } :=
  h.request (tasks_modify s i)

lemma Sound.cancelAll (h : s.Sound) : Sound
    { s with starting := s.starting.map StartTask.cancel } := by
  refine h.request ?_
  rw [tasks, tasks, List.map_map]
  exact List.map_congr_left fun t _ => cancel_same t

lemma Sound.nextRound (h : s.Sound) (hdone : AllDone s.tasks) : Sound s.nextRound := by
  have hnodes : s.starting.map (·.node) = s.tasks.map fst := by
    rw [tasks, List.map_map]
    rfl
  unfold Executor.nextRound
  split
  · exact h.goto hdone
  · rename_i n rest hready
    have hmem : ∀ m ∈ n::rest, m ∈ s.graph.nodes ∧ m ∉ s.tasks.map fst := by
      intro m hm
      rw [← hready, TopoSort.mem_ready, hnodes] at hm
      exact ⟨hm.1,hm.2.1⟩
    have hnodup : (n::rest).Nodup := by
      rw [← hready]
      exact (nodup_dedup _).filter _
    have htasks : tasks { s with
        starting := s.starting++(n::rest).map fun n => ⟨n,.created,false⟩
        point := .gathering false none } = s.tasks++(n::rest).map fun n => (n,.created) := by
      rw [tasks, List.map_append, List.map_map]
      rfl
    have hnew : ((n::rest).map fun n => (n,Phase.created)).map fst = n::rest := by
      rw [List.map_map]
      exact map_id _
    refine ⟨h.unique,?_,?_,?_,trivial⟩
    · rw [htasks, map_append, hnew, nodup_append']
      exact ⟨h.nodup,hnodup,fun m hm hr => (hmem m hr).2 hm⟩
    · rw [htasks]
      intro x hx
      rcases mem_append.mp hx with hx | hx
      · exact h.known x hx
      · obtain ⟨m,hm,rfl⟩ := mem_map.mp hx
        exact (hmem m hm).1
    · rw [htasks]
      intro k hk
      obtain ⟨x,hx,hentered⟩ := h.entered k hk
      refine ⟨x,?_,hentered⟩
      rw [List.getElem?_append_left (List.getElem?_eq_some_iff.mp hx).1, hx]

omit [DecidableEq Sim] [DecidableEq Proxy] in
lemma pending_iff :
    ((s.starting[i]?).any fun t => !t.phase.isDone) ↔ ∃ x, s.tasks[i]? = some x ∧
    x.2.isDone = false := by
  rw [tasks, getElem?_map]
  cases s.starting[i]? with
  | none | some t => simp

omit [DecidableEq Sim] [DecidableEq Proxy] in
lemma done_of_skipped {k : ℕ} {x : Node Sim Proxy × Phase}
    (h : (!(decide (k ≤ i) && (s.starting[i]?).any fun t => !t.phase.isDone))) (hk : k ≤ i)
    (hx : s.tasks[i]? = some x) : x.2.isDone := by
  by_contra hnot
  have hpending := pending_iff.mpr ⟨x,hx,Bool.eq_false_iff.mpr hnot⟩
  rw [hpending, decide_eq_true hk] at h
  cases h

omit [DecidableEq Sim] [DecidableEq Proxy] in
lemma pendingFrom_none {k : ℕ} {x : Node Sim Proxy × Phase} (h : s.pendingFrom k = none)
    (hk : k ≤ i) (hx : s.tasks[i]? = some x) : x.2.isDone := by
  have hlt : i < s.starting.length := by
    have := (List.getElem?_eq_some_iff.mp hx).1
    rwa [tasks, length_map] at this
  exact done_of_skipped (find?_range_eq_none.mp h i hlt) hk hx

omit [DecidableEq Sim] [DecidableEq Proxy] in
lemma pendingFrom_some {k : ℕ} (h : s.pendingFrom k = some i) :
    (∃ x, s.tasks[i]? = some x ∧ x.2.isDone = false) ∧ ∀ j x, k ≤ j → j < i → s.tasks[j]? = some x →
    x.2.isDone := by
  obtain ⟨hi,-,hbefore⟩ := find?_range_eq_some.mp h
  rw [Bool.and_eq_true] at hi
  exact ⟨pending_iff.mp hi.2,fun j x hk hj hx => done_of_skipped (hbefore j hj) hk hx⟩

lemma Sound.clean (h : s.Sound) (k : ℕ) (hbegun : Begun s.tasks)
    (hsims : ∀ x ∈ s.tasks, x.2.isDone = false → isSim x.1.component)
    (hbefore : ∀ i x, i < k → s.tasks[i]? = some x → x.2.isDone) : Sound (s.clean k) := by
  unfold Executor.clean
  cases hnext : s.pendingFrom k with
  | none =>
    refine h.goto fun x hx => ?_
    obtain ⟨i,hi⟩ := mem_iff_getElem?.mp hx
    rcases lt_or_ge i k with hik | hki
    · exact hbefore i x hik hi
    · exact pendingFrom_none hnext hki hi
  | some i =>
    obtain ⟨⟨y,hy,hpending⟩,hskipped⟩ := pendingFrom_some hnext
    have hawaited : Awaited s.tasks i := by
      refine ⟨hbegun,hsims,fun j x hj hx => ?_,fun x f hx hf => ?_⟩
      · rcases lt_or_ge j k with hjk | hkj
        · exact hbefore j x hjk hx
        · exact hskipped j x hkj hj hx
      · cases hy.symm.trans hx
        rw [hf] at hpending
        cases hpending
    exact (h.goto (p := .cleaning i) hawaited).cancelTask i

lemma Sound.leave (h : s.Sound) (hbegun : Begun s.tasks)
    (hsims : ∀ t ∈ s.starting, t.phase.isDone = false → isSim t.node.component) :
    Sound (s.clean 0) := by
  refine h.clean 0 hbegun (fun x hx => ?_) fun i x hi => absurd hi (Nat.not_lt_zero i)
  obtain ⟨t,ht,rfl⟩ := mem_map.mp hx
  exact hsims t ht

omit [DecidableEq Sim] [DecidableEq Proxy] in
lemma allDone_tasks (h : s.allDone) : AllDone s.tasks := by
  intro x hx
  obtain ⟨t,ht,rfl⟩ := mem_map.mp hx
  exact all_eq_true.mp h t ht

variable [DecidableEq Inf] (I : Instantiation Sim Comp Inf Proxy)

/-- The graph has one node for a component. -/
lemma Sound.prepareGraph (h : s.Sound) (hs : s.tasks = []) : Sound (s.prepareGraph I) := by
  have hdone := allDone_nil hs
  unfold Executor.prepareGraph
  split
  · exact h.goto hdone.begun
  · rename_i g remaining hg
    split_ifs
    · have hgraph : Sound { s with graph := g } := by
        refine ⟨(Instantiation.build_built hg).unique,h.nodup,fun x hx => ?_,h.entered,h.placed⟩
        rw [show tasks { s with graph := g } = [] from hs] at hx
        cases hx
      exact hgraph.nextRound hdone
    · exact h.goto hdone.begun

lemma Sound.resume (h : s.Sound) (ho : s.Orderly .resume) : Sound (s.resume I) := by
  have hplaced := h.placed
  unfold Orderly at ho
  unfold Executor.resume
  cases hp : s.point with
  | started =>
    rw [hp] at hplaced
    exact h.prepareGraph I hplaced
  | gathering c first =>
    by_cases hcreated : ∃ t ∈ s.starting, t.phase = .created
    · simp only [if_pos hcreated]
      exact h
    · simp only [if_neg hcreated]
      have hbegun : Begun s.tasks := by
        intro x hx hphase
        obtain ⟨t,ht,rfl⟩ := mem_map.mp hx
        exact hcreated ⟨t,ht,hphase⟩
      cases first with
      | some f =>
        cases f with
        | raised | cancelled => exact h.goto hbegun
      | none =>
        split_ifs with hpending hcancelled
        · exact h
        · exact h.goto hbegun
        · exact h.nextRound (allDone_tasks (by simpa using hpending))
  | waitSims =>
    rw [hp] at hplaced
    exact h.goto hplaced
  | exited =>
    rw [hp] at hplaced
    refine h.leave (AllDone.begun hplaced) fun t ht hpending => ?_
    have := hplaced _ (mem_map.mpr ⟨t,ht,rfl⟩)
    rw [hpending] at this
    cases this
  | interrupted | failed =>
    rw [hp] at hplaced ho
    exact h.leave hplaced ho
  | cleaning k =>
    rw [hp] at hplaced
    dsimp only
    split
    · rename_i n cancelling ht
      refine h.clean (k+1) hplaced.begun hplaced.sims fun i x hi hx => ?_
      rcases Nat.lt_succ_iff_lt_or_eq.mp hi with hik | rfl
      · exact hplaced.before i x hik hx
      · rw [tasks, getElem?_map, ht] at hx
        cases hx
        rfl
    · rename_i n f cancelling ht
      refine absurd rfl (hplaced.unfailed (n,.done (some f)) f ?_)
      rw [tasks, getElem?_map, ht]
      rfl
    · exact h
  | terminating c =>
    rw [hp] at hplaced
    cases c with
    | created | signalled => exact h
    | done => exact h.goto hplaced.2
  | ended => exact h

omit [DecidableEq Inf] in
lemma Sound.raises (h : s.Sound) (ho : s.Orderly .raises) : Sound s.raises := by
  have hplaced := h.placed
  unfold Orderly at ho
  unfold Executor.raises
  cases hp : s.point with
  | started =>
    rw [hp] at hplaced
    exact h.goto (AllDone.begun (allDone_nil hplaced))
  | waitSims | exited =>
    rw [hp] at hplaced
    exact h.goto (AllDone.begun hplaced)
  | interrupted | failed =>
    rw [hp] at ho
    exact ho.elim
  | _ => exact h

omit [DecidableEq Inf] in
lemma Sound.cancel (h : s.Sound) (ho : s.Orderly .cancel) : Sound s.cancel := by
  have hplaced := h.placed
  unfold Orderly at ho
  unfold Executor.cancel
  cases hp : s.point with
  | started =>
    rw [hp] at hplaced
    exact h.goto (AllDone.begun (allDone_nil hplaced))
  | gathering =>
    dsimp only
    split_ifs
    · exact h.goto trivial
    · exact h.cancelAll.goto trivial
  | waitSims | exited =>
    rw [hp] at hplaced
    exact h.goto (AllDone.begun hplaced)
  | interrupted | failed =>
    rw [hp] at ho
    exact ho.elim
  | cleaning k =>
    rw [hp] at ho
    dsimp only
    split
    · rename_i t ht
      rw [if_neg (by simp [ho t ht]), ← hp]
      exact h.cancelTask k
    · exact h
  | terminating c | ended => exact h

omit [DecidableEq Inf] in
lemma Sound.collectStep (h : s.Sound) : Sound s.collectStep := by
  have hplaced := h.placed
  unfold Executor.collectStep
  split
  · rename_i hp
    rw [hp] at hplaced
    refine h.of_entered rfl rfl h.entered ⟨hplaced,fun k hk => ?_⟩
    exact mem_append_right _ (h.recorded_processes k hk)
  · rename_i hp
    rw [hp] at hplaced
    exact h.goto hplaced
  · exact h

lemma Sound.step (h : s.Sound) (e : Event) (ho : s.Orderly e) : Sound (s.step I e) := by
  cases e with
  | resume => exact h.resume I ho
  | raises => exact h.raises ho
  | cancel => exact h.cancel ho
  | task =>
    unfold Executor.step
    dsimp only
    split
    · rename_i t ht
      split_ifs with hend
      · exact h
      · exact h.taskStep ht hend ho
    · exact h
  | collect => exact h.collectStep

/-- When `run` has ended after orderly steps, `int_term_kill` was called on
every process that was recorded. -/
theorem recorded_killed (es : List Event) (ho : Along (step I) Orderly initial es)
    (hend : (run (step I) initial es).point = .ended) :
    ∀ k ∈ (run (step I) initial es).recorded, k ∈ (run (step I) initial es).killed := by
  have hsound : Sound (run (step I) initial es) :=
    run_invariant (fun s e hs he => hs.step I e he) sound_initial ho
  have hplaced := hsound.placed
  rw [hend] at hplaced
  exact hplaced

end Executor

/-! ## A fragment with a remote peer -/

/-- The second simulator of the pair in a fragment of its own, behind the first
proxy, which connects to its peer in the other fragment. -/
def remote : Instantiation Bool Bool Bool Bool where
  simulation := pair.simulation
  fragments := ⟨[[true],[false]],[(true,false)]⟩
  simulators := [true]
  proxies := [false]
  interfaces := fun p => [!p]
  isDummy := fun _ => false
  infSocktype := fun i => some (if i then .listen else .connect)
  connectionMode := fun p => some (if p then .listen else .connect)
  proxies_nodup := nodup_singleton _

/-- The external proxy is ready and the simulator runs; `run` is cancelled
then, and again while the processes are terminated. -/
def interruptedRun : List Event :=
  [.resume,.task 0 .begins,.task 1 .begins,.task 1 .launched,.task 0 .returns,.cancel,
    .task 1 .cancelled,.resume,.resume,.cancel,.collect,.cancel,.collect,.resume]

/-- The simulator runs and its start fails, while the external proxy has not
been heard of. -/
def abandonedRun : List Event :=
  [.resume,.task 0 .begins,.task 1 .begins,.task 1 .launched,.task 1 .fails,.resume,.resume,
    .task 0 .cancelled,.resume]

theorem recorded_killed_remote :
    Along (Executor.step remote) Executor.Orderly Executor.initial interruptedRun ∧
    (run (Executor.step remote) Executor.initial interruptedRun).point = .ended ∧
    (run (Executor.step remote) Executor.initial interruptedRun).recorded = [1] ∧
    ∀ k ∈ (run (Executor.step remote) Executor.initial interruptedRun).recorded,
      k ∈ (run (Executor.step remote) Executor.initial interruptedRun).killed := by
  have ho : Along (Executor.step remote) Executor.Orderly Executor.initial interruptedRun := by
    decide +kernel
  have hend : (run (Executor.step remote) Executor.initial interruptedRun).point = .ended := by
    decide +kernel
  exact ⟨ho,hend,by decide +kernel,Executor.recorded_killed remote interruptedRun ho hend⟩

/-- The `CancelledError` of the external proxy's task ends `run` in the loop
over the start tasks, and the simulator is left running. -/
theorem simulator_abandoned :
    finalizeValidate remote.simulation remote.fragments (fun _ => none,fun _ => none) =
      some (remote.infSocktype,remote.connectionMode) ∧
    (run (Executor.step remote) Executor.initial abandonedRun).point = .ended ∧
    (run (Executor.step remote) Executor.initial abandonedRun).recorded = [1] ∧
    (run (Executor.step remote) Executor.initial abandonedRun).killed = [] := by
  decide +kernel

end SimBricks.Runtime
