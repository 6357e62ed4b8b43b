import SimBricks.Library.Run

/-!
# The parallel runtime of `runs/local.py`

`do_start` walks the runs, those without a prerequisite first, and collects
completed ones while the next lacks resources or its prerequisite. No run is
added twice, so a run stands for its task.
-/

set_option autoImplicit false

namespace SimBricks.LocalParallel
open Library.Run List

variable {Run : Type} [DecidableEq Run]

inductive Resource where
  | cores | mem

structure Runs (Run : Type) where
  prereq : Run → Option Run
  resreq : Resource → Run → ℕ

structure Runtime (Run : Type) where
  runsNoprereq : List Run := []
  runsPrereq : List Run := []
  cores : ℕ
  mem : Option ℕ

def Runtime.limit (rt : Runtime Run) : Resource → Option ℕ
  | .cores => some rt.cores
  | .mem => rt.mem

/-- `enough` is set when the first waiting loop is left. The runs in `finished`
have completed, those in `complete` have also been collected. -/
structure State (Run : Type) where
  todo : List Run
  enough : Bool := false
  used : Resource → ℤ := fun _ => 0
  pendingJobs : Finset Run := ∅
  complete : Finset Run := ∅
  started : List Run := []
  finished : Finset Run := ∅
  failed : Bool := false

variable (x : Runs Run) (rt : Runtime Run) (s : State Run) (r : Run)

def addRun : Except String (Runtime Run) :=
  if x.resreq .cores r > rt.cores then .error "Not enough cores available for run"
  else if rt.mem.any (x.resreq .mem r > ·) then .error "Not enough memory available for run"
  else if x.prereq r = none then .ok { rt with runsNoprereq := rt.runsNoprereq++[r] }
  else .ok { rt with runsPrereq := rt.runsPrereq++[r] }

def Runtime.runs : List Run := rt.runsNoprereq++rt.runsPrereq
def doStart : State Run := { todo := rt.runs }

/-- A failed assertion, or the completed tasks are collected; without one the
coroutine goes on waiting. -/
def waitCompletion : State Run :=
  if s.pendingJobs = ∅ then { s with failed := true }
  else
    { s with
      pendingJobs := s.pendingJobs \ s.finished
      complete := s.complete ∪ s.pendingJobs.filter (· ∈ s.finished)
      used := fun k => s.used k-∑ r ∈ s.pendingJobs.filter (· ∈ s.finished), (x.resreq k r : ℤ) }

def enoughOf (k : Resource) : Bool :=
  (rt.limit k).all fun (m : ℕ) => (m : ℤ)-s.used k ≥ x.resreq k r

def enoughResources : Bool := enoughOf x rt s r .cores && enoughOf x rt s r .mem
def prereqReady : Bool := (x.prereq r).all (· ∈ s.complete)

def start (rest : List Run) : State Run := { s with
    todo := rest, enough := false, used := fun k => s.used k+x.resreq k r
    pendingJobs := insert r s.pendingJobs, started := s.started++[r] }

inductive Event (Run : Type) where
  | finish (r : Run)
  | turn

def step : Event Run → State Run
  | .finish r => if r ∈ s.pendingJobs then { s with finished := insert r s.finished } else s
  | .turn =>
    if s.failed then s
    else match s.todo with
      | [] => s
      | r::rest =>
        if s.enough = false then
          if enoughResources x rt s r then { s with enough := true } else waitCompletion x s
        else if prereqReady x s r then start x s r rest
        else waitCompletion x s

def Ended : Prop := s.todo = [] ∧ s.pendingJobs ⊆ s.finished

/-- Every run comes after its prerequisite. -/
def Ordered (l : List Run) : Prop :=
  ∀ before r after, l = before++r::after → ∀ p, x.prereq r = some p → p ∈ before

def Fits : Prop := ∀ k m, rt.limit k = some m → s.used k+x.resreq k r ≤ m

structure Inv : Prop where
  split : s.started++s.todo = rt.runs
  used : ∀ k, s.used k = ∑ r ∈ s.pendingJobs, (x.resreq k r : ℤ)
  limit : ∀ k m, rt.limit k = some m → s.used k ≤ m
  enough : s.enough → ∀ r rest, s.todo = r::rest → Fits x rt s r
  started : ∀ r, r ∈ s.started ↔ r ∈ s.pendingJobs ∨ r ∈ s.complete
  complete : s.complete ⊆ s.finished
  prereq : ∀ r ∈ s.started, ∀ p, x.prereq r = some p → p ∈ s.finished
  finished : ∀ r ∈ s.finished, r ∈ s.started
  ordered : Ordered x s.started

variable {x rt s r} {rest rs : List Run} {cores : ℕ} {mem : Option ℕ}

omit [DecidableEq Run] in
lemma enoughResources_iff : enoughResources x rt s r ↔ Fits x rt s r := by
  have hone : ∀ k, enoughOf x rt s r k ↔
      ∀ m, rt.limit k = some m → s.used k+x.resreq k r ≤ m := by
    intro k
    simp only [enoughOf, Option.all_eq_true, decide_eq_true_eq]
    exact forall₂_congr fun m _ => by omega
  rw [enoughResources, Bool.and_eq_true, hone, hone]
  constructor
  · rintro ⟨hc,hm⟩ (_ | _)
    · exact hc
    · exact hm
  · exact fun h => ⟨h .cores,h .mem⟩

lemma prereqReady_iff : prereqReady x s r ↔ ∀ p, x.prereq r = some p → p ∈ s.complete := by
  simp [prereqReady, Option.all_eq_true]

omit [DecidableEq Run] in
lemma Ordered.snoc (h : Ordered x rs) (hp : ∀ p, x.prereq r = some p → p ∈ rs) :
    Ordered x (rs++[r]) := by
  intro before q after heq p hq
  rcases append_split heq with ⟨mid,hrs,-⟩ | ⟨mid,rfl,hr⟩
  · exact h before q mid hrs p hq
  · obtain ⟨rfl,hr⟩ | ⟨-,hnil⟩ := append_eq_singleton_iff.mp hr.symm
    · obtain ⟨rfl,-⟩ := cons.inj hr
      simpa using hp p hq
    · cases hnil

omit [DecidableEq Run] in
lemma Inv.init : Inv x rt (doStart rt) := by
  constructor <;> simp [doStart, Ordered]

lemma Inv.wait (h : Inv x rt s) : Inv x rt (waitCompletion x s) := by
  unfold waitCompletion
  split_ifs
  · exact { h with }
  have hpos : ∀ k, 0 ≤ ∑ r ∈ s.pendingJobs.filter (· ∈ s.finished), (x.resreq k r : ℤ) :=
    fun k => Finset.sum_nonneg fun r _ => Int.natCast_nonneg _
  refine { h with
    used := fun k => ?_, limit := fun k m hm => (sub_le_self _ (hpos k)).trans (h.limit k m hm)
    enough := fun he r rest ht k m hm => ?_, started := fun r => ?_, complete := ?_ }
  · dsimp only
    rw [h.used, Finset.sdiff_eq_filter,
      ← Finset.sum_filter_add_sum_filter_not s.pendingJobs (· ∈ s.finished)]
    ring
  · have := h.enough he r rest ht k m hm
    have := hpos k
    dsimp only
    omega
  · rw [h.started]
    by_cases hr : r ∈ s.finished <;> simp [hr, or_comm]
  · exact Finset.union_subset h.complete fun r hr => (Finset.mem_filter.mp hr).2

lemma Inv.start (h : Inv x rt s) (hrt : rt.runs.Nodup) (ht : s.todo = r::rest)
    (he : s.enough) (hp : prereqReady x s r) : Inv x rt (start x s r rest) := by
  have hr : r ∉ s.pendingJobs := fun hr =>
    disjoint_of_nodup_append (h.split ▸ hrt) ((h.started r).mpr (.inl hr)) (ht ▸ mem_cons_self)
  have hp := prereqReady_iff.mp hp
  refine
    { split := by simp [LocalParallel.start, ← h.split, ht]
      used := fun k => by
        simp only [LocalParallel.start, Finset.sum_insert hr, h.used k]
        ring
      limit := h.enough he r rest ht, enough := fun he => absurd he Bool.false_ne_true
      started := fun q => ?_, complete := h.complete, prereq := fun q hq p hqp => ?_
      finished := fun q hq => mem_append_left _ (h.finished q hq)
      ordered := h.ordered.snoc fun p hrp => h.finished p (h.complete (hp p hrp)) }
  · simp only [LocalParallel.start, mem_append, mem_singleton, Finset.mem_insert, h.started q]
    tauto
  · rcases mem_append.mp hq with hq | hq
    · exact h.prereq q hq p hqp
    · rw [mem_singleton.mp hq] at hqp
      exact h.complete (hp p hqp)

variable (x rt) in
/-- What a step of `do_start` can do. -/
lemma turn_cases (hs : s.failed = false) : s.todo = [] ∧ step x rt s .turn = s ∨
    ∃ r rest, s.todo = r::rest ∧
      (s.enough = false ∧ Fits x rt s r ∧ step x rt s .turn = { s with enough := true } ∨
      s.enough ∧ prereqReady x s r ∧ step x rt s .turn = start x s r rest ∨
      (¬ Fits x rt s r ∨ ¬ prereqReady x s r) ∧ step x rt s .turn = waitCompletion x s) := by
  rw [step, hs, if_neg Bool.false_ne_true]
  cases ht : s.todo with
  | nil => exact .inl ⟨rfl,rfl⟩
  | cons r rest =>
    refine .inr ⟨r,rest,rfl,?_⟩
    dsimp only
    split_ifs with he hr hp
    · exact .inl ⟨he,enoughResources_iff.mp hr,rfl⟩
    · exact .inr (.inr ⟨.inl (mt enoughResources_iff.mpr hr),rfl⟩)
    · exact .inr (.inl ⟨Bool.eq_true_of_not_eq_false he,hp,rfl⟩)
    · exact .inr (.inr ⟨.inr hp,rfl⟩)

lemma Inv.step (h : Inv x rt s) (hrt : rt.runs.Nodup) (e : Event Run) :
    Inv x rt (step x rt s e) := by
  cases e with
  | finish r =>
    rw [LocalParallel.step]
    split_ifs with hr
    · exact { h with
        complete := h.complete.trans (Finset.subset_insert r _)
        prereq := fun q hq p hp => Finset.mem_insert_of_mem (h.prereq q hq p hp)
        finished := Finset.forall_mem_insert _ _ _ |>.mpr ⟨(h.started r).mpr (.inl hr),h.finished⟩ }
    · exact h
  | turn =>
    cases hs : s.failed with
    | true => simpa [LocalParallel.step, hs] using h
    | false =>
      rcases turn_cases x rt hs with ⟨-,heq⟩ |
        ⟨r,rest,ht,⟨-,hr,heq⟩ | ⟨he,hp,heq⟩ | ⟨-,heq⟩⟩ <;> rw [heq]
      · exact h
      · refine { h with enough := fun _ q rest' hq => ?_ }
        obtain rfl := (cons.inj (ht.symm.trans hq)).1
        exact hr
      · exact h.start hrt ht he hp
      · exact h.wait

omit [DecidableEq Run] in
lemma added_spec (h : rs.foldlM (addRun x) ⟨[],[],cores,mem⟩ = .ok rt) :
    rt.cores = cores ∧ rt.mem = mem ∧ rt.runs.Perm rs ∧ ∀ r ∈ rs, ∀ k m, rt.limit k = some m →
    x.resreq k r ≤ m := by
  refine foldlM_ok_invariant (I := fun rs (rt : Runtime Run) => rt.cores = cores ∧ rt.mem = mem ∧
    rt.runs.Perm rs ∧ ∀ r ∈ rs, ∀ k m, rt.limit k = some m → x.resreq k r ≤ m) ?_
    ⟨rfl,rfl,by simp [Runtime.runs],by simp⟩ h
  rintro done r - rt rt' - ⟨hcores,hmem,hperm,hfit⟩ hadd
  unfold addRun at hadd
  split_ifs at hadd with hc hm
  all_goals
    cases hadd
    refine ⟨hcores,hmem,?_,fun q hq k m hlim => ?_⟩
    rotate_left
    · rcases mem_append.mp hq with hq | hq
      · exact hfit q hq k m hlim
      · rw [mem_singleton.mp hq]
        cases k with
        | cores => exact Option.some.inj hlim ▸ Nat.le_of_not_lt hc
        | mem =>
          have hlim : rt.mem = some m := hlim
          simpa [hlim] using hm
  · rw [Runtime.runs, append_assoc]
    exact ((perm_append_comm_assoc ..).trans (.append_left _ hperm)).trans perm_append_comm
  · rw [Runtime.runs, ← append_assoc]
    exact hperm.append_right [r]

/-! ## Limits and order -/

def running (s : State Run) : Finset Run := s.started.toFinset \ s.finished

structure Respected (x : Runs Run) (rt : Runtime Run) (s : State Run) : Prop where
  limit : ∀ k m, rt.limit k = some m → ∑ r ∈ running s, x.resreq k r ≤ m
  used : ∀ k, ((∑ r ∈ running s, x.resreq k r : ℕ) : ℤ) ≤ s.used k
  once : s.started.Nodup
  prereq : ∀ r ∈ s.started, ∀ p, x.prereq r = some p → p ∈ s.finished

lemma Inv.respected (h : Inv x rt s) (hrt : rt.runs.Nodup) : Respected x rt s := by
  have hsub : running s ⊆ s.pendingJobs := by
    intro r hr
    obtain ⟨hs,hf⟩ := Finset.mem_sdiff.mp hr
    exact ((h.started r).mp (mem_toFinset.mp hs)).resolve_right fun hc => hf (h.complete hc)
  have hused : ∀ k, ((∑ r ∈ running s, x.resreq k r : ℕ) : ℤ) ≤ s.used k := by
    intro k
    rw [h.used, Nat.cast_sum]
    exact Finset.sum_le_sum_of_subset_of_nonneg hsub fun r _ _ => Int.natCast_nonneg _
  exact ⟨fun k m hm => Int.ofNat_le.mp ((hused k).trans (h.limit k m hm)),hused,
    (nodup_append.mp (h.split ▸ hrt)).1,h.prereq⟩

/-- The limits hold and no run is started twice or before its prerequisite. -/
theorem limits_respected (x : Runs Run) (cores : ℕ) (mem : Option ℕ) (rs : List Run)
    (hrs : rs.Nodup) (rt : Runtime Run) (h : rs.foldlM (addRun x) ⟨[],[],cores,mem⟩ = .ok rt)
    (es : List (Event Run)) : rt.limit = (Runtime.mk rs [] cores mem).limit ∧
      Respected x rt (run (step x rt) (doStart rt) es) := by
  obtain ⟨rfl,rfl,hperm,-⟩ := added_spec h
  have hrt : rt.runs.Nodup := hperm.nodup_iff.mpr hrs
  exact ⟨funext fun k => by cases k <;> rfl,
    (run_always (fun _ e h => h.step hrt e) Inv.init es).respected hrt⟩

/-- The second run needs the first. -/
def two : Runs ℕ := ⟨fun r => if r = 1 then some 0 else none,fun _ _ => 1⟩

/-- It waits for the first, though there is a core for it. -/
theorem limits_respected_two : ∃ rt, [1,0].foldlM (addRun two) ⟨[],[],2,none⟩ = .ok rt ∧
    Respected two rt (run (step two rt) (doStart rt) [.turn,.turn,.finish 0,.turn,.turn,.turn]) :=
  ⟨_,rfl,(limits_respected two 2 none [1,0] (by decide) _ rfl _).2⟩

/-! ## Everything is run -/

structure RunsEverything (rt : Runtime Run) (s : State Run) : Prop where
  running : s.failed = false
  all : Ended s → ∀ r ∈ rt.runs, r ∈ s.started ∧ r ∈ s.finished

omit [DecidableEq Run] in
lemma Inv.all (h : Inv x rt s) (he : Ended s) : ∀ r ∈ rt.runs, r ∈ s.started ∧ r ∈ s.finished := by
  intro r hr
  rw [← h.split, he.1, append_nil] at hr
  rcases (h.started r).mp hr with hp | hc
  · exact ⟨hr,he.2 hp⟩
  · exact ⟨hr,h.complete hc⟩

section
variable (hord : Ordered x rt.runs)
  (hfit : ∀ r ∈ rt.runs, ∀ k m, rt.limit k = some m → x.resreq k r ≤ m)
include hord hfit

/-- With nothing pending the next run has its resources and its prerequisite. -/
lemma Inv.pending_ne (h : Inv x rt s) (ht : s.todo = r::rest)
    (hw : ¬ Fits x rt s r ∨ ¬ prereqReady x s r) : s.pendingJobs ≠ ∅ := by
  intro h0
  have hsplit := h.split
  rw [ht] at hsplit
  rcases hw with hw | hw
  · refine hw fun k m hm => ?_
    have := hfit r (by simp [← hsplit]) k m hm
    rw [h.used, h0, Finset.sum_empty]
    omega
  · refine hw (prereqReady_iff.mpr fun p hp => ?_)
    simpa [h0] using (h.started p).mp (hord s.started r rest hsplit.symm p hp)

lemma Inv.step_running (h : Inv x rt s) (hs : s.failed = false) (e : Event Run) :
    (LocalParallel.step x rt s e).failed = false := by
  cases e with
  | finish r =>
    rw [LocalParallel.step]
    split_ifs <;> exact hs
  | turn =>
    rcases turn_cases x rt hs with ⟨-,heq⟩ |
      ⟨r,rest,ht,⟨-,-,heq⟩ | ⟨-,-,heq⟩ | ⟨hw,heq⟩⟩ <;> rw [heq]
    · exact hs
    · exact hs
    · exact hs
    · rw [waitCompletion, if_neg (h.pending_ne hord hfit ht hw)]
      exact hs

end

def weight (s : State Run) : ℕ :=
  4*s.todo.length+s.pendingJobs.card+(s.pendingJobs \ s.finished).card+(if s.enough then 0 else 1)

/-- Finishing what runs and turning brings `do_start` to its end. -/
lemma exists_walked (h : ∀ es, (run (step x rt) s es).failed = false) :
    ∃ es, (run (step x rt) s es).todo = [] := by
  refine (exists_run_of_decreasing (I := fun s => ∀ es, (run (step x rt) s es).failed = false)
    (G := (·.todo = [])) weight (fun s hs => ?_) h).imp fun _ h => h.2
  have hnext : ∀ e es, (run (step x rt) (step x rt s e) es).failed = false := fun e es => hs (e::es)
  by_cases hfin : s.pendingJobs ⊆ s.finished
  · have hrun : s.pendingJobs \ s.finished = ∅ := Finset.sdiff_eq_empty_iff_subset.mpr hfin
    rcases turn_cases x rt (s := s) (hs []) with ⟨ht,-⟩ | ⟨r,rest,ht,hturn⟩
    · exact .inl ht
    refine .inr ⟨.turn,hnext .turn,?_⟩
    rcases hturn with ⟨he,-,heq⟩ | ⟨he,-,heq⟩ | ⟨-,heq⟩
    · rw [heq]
      simp [weight, he]
    · have hcard : (insert r s.pendingJobs \ s.finished).card ≤ 1 := by
        have hsub : insert r s.pendingJobs \ s.finished ⊆ {r} := by
          intro q hq
          obtain ⟨hq,hqf⟩ := Finset.mem_sdiff.mp hq
          exact Finset.mem_singleton.mpr
            ((Finset.mem_insert.mp hq).resolve_right fun h => hqf (hfin h))
        exact Finset.card_le_card hsub
      have := Finset.card_insert_le r s.pendingJobs
      rw [heq]
      simp only [weight, start, ht, he, length_cons, hrun, Finset.card_empty, if_true,
        Bool.false_eq_true, if_false]
      omega
    · have hok := hnext .turn []
      rw [run_nil, heq, waitCompletion] at hok
      split_ifs at hok with h0
      rw [heq, waitCompletion, if_neg h0]
      have := Finset.card_pos.mpr (Finset.nonempty_iff_ne_empty.mpr h0)
      simp only [weight, hrun, Finset.empty_sdiff, Finset.card_empty]
      omega
  · obtain ⟨r,hr,hrf⟩ := Finset.not_subset.mp hfin
    refine .inr ⟨.finish r,hnext (.finish r),?_⟩
    have hlt : (s.pendingJobs \ insert r s.finished).card < (s.pendingJobs \ s.finished).card := by
      refine Finset.card_lt_card ((Finset.ssubset_iff_of_subset ?_).mpr
        ⟨r,Finset.mem_sdiff.mpr ⟨hr,hrf⟩,by simp⟩)
      exact Finset.sdiff_subset_sdiff subset_rfl (Finset.subset_insert r _)
    rw [step, if_pos hr]
    simp only [weight]
    omega

/-- The assertion never fails and the end comes after all runs, whatever the
order of completions, exactly if every run comes after its prerequisite in the
order of `do_start`. -/
theorem runs_everything (x : Runs Run) (cores : ℕ) (mem : Option ℕ) (rs : List Run)
    (hrs : rs.Nodup) (rt : Runtime Run) (h : rs.foldlM (addRun x) ⟨[],[],cores,mem⟩ = .ok rt) :
    (∀ es, RunsEverything rt (run (step x rt) (doStart rt) es)) ↔ Ordered x rt.runs := by
  obtain ⟨-,-,hperm,hfit⟩ := added_spec h
  have hinv : ∀ es, Inv x rt (run (step x rt) (doStart rt) es) :=
    run_always (fun s e h => h.step (hperm.nodup_iff.mpr hrs) e) Inv.init
  constructor
  · intro hall
    obtain ⟨es,hes⟩ := exists_walked fun es => (hall es).running
    have hend := hinv es
    rw [← hend.split, hes, append_nil]
    exact hend.ordered
  · intro hord es
    have hs := run_always (I := fun s => Inv x rt s ∧ s.failed = false) (fun s e h =>
      ⟨h.1.step (hperm.nodup_iff.mpr hrs) e,
        h.1.step_running hord (fun r hr => hfit r (hperm.mem_iff.mp hr)) h.2 e⟩) ⟨Inv.init,rfl⟩ es
    exact ⟨hs.2,hs.1.all⟩

/-- Both runs finish, and so they do in every order of events. -/
theorem runs_everything_two : ∃ rt, [1,0].foldlM (addRun two) ⟨[],[],2,none⟩ = .ok rt ∧
    (∀ es, RunsEverything rt (run (step two rt) (doStart rt) es)) ∧
    Ended (run (step two rt) (doStart rt)
      [.turn,.turn,.turn,.finish 0,.turn,.turn,.turn,.finish 1]) := by
  refine ⟨_,rfl,(runs_everything two 2 none [1,0] (by decide) _ rfl).mpr ?_,
    by decide +kernel,by decide +kernel⟩
  have hnil : Ordered two [] := by simp [Ordered]
  exact (hnil.snoc (r := 0) (by decide)).snoc (r := 1) (by decide)

/-- Run 1 waits for 2, which waits for 0 and comes later. -/
def chain : Runs ℕ :=
  ⟨fun r => if r = 1 then some 2 else if r = 2 then some 0 else none,fun _ _ => 1⟩

theorem chain_not_run : ∃ rt, [0,1,2].foldlM (addRun chain) ⟨[],[],4,none⟩ = .ok rt ∧
    (run (step chain rt) (doStart rt) [.turn,.turn,.finish 0,.turn,.turn,.turn]).failed :=
  ⟨_,rfl,by decide +kernel⟩

end SimBricks.LocalParallel
