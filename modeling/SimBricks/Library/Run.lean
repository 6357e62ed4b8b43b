import Mathlib.Tactic

/-!
# Runs of a deterministic machine

Nondeterminism is carried by the event list, so one run is one list. A
condition on steps is checked at the state before each step; an invariant
that every permitted step keeps therefore holds after every permitted run.
-/

set_option autoImplicit false

namespace Library.Run
open List

variable {σ ε α : Type*}

def run (step : σ → ε → σ) (s : σ) (es : List ε) : σ := es.foldl step s

/-- The condition holds at the state before each step of the run. -/
def Along (step : σ → ε → σ) (C : σ → ε → Prop) : σ → List ε → Prop
  | _, [] => True
  | s, e::es => C s e ∧ Along step C (step s e) es

variable {I : σ → Prop} {l : List α} {f : σ → α → Except ε σ}

section
variable (step : σ → ε → σ)

@[simp] lemma run_nil (s : σ) : run step s [] = s := rfl

@[simp] lemma run_cons (s : σ) (e : ε) (es : List ε) :
    run step s (e::es) = run step (step s e) es := rfl

lemma run_append (s : σ) (es fs : List ε) : run step s (es++fs) = run step (run step s es) fs :=
    foldl_append

instance decidableAlong (C : σ → ε → Prop) [∀ s e, Decidable (C s e)] :
    ∀ (s : σ) (es : List ε), Decidable (Along step C s es)
  | _, [] => .isTrue trivial
  | s, e::es => haveI := decidableAlong C (step s e) es
    inferInstanceAs (Decidable (C s e ∧ Along step C (step s e) es))

lemma along_append (C : σ → ε → Prop) (s : σ) (es fs : List ε) :
    Along step C s (es++fs) ↔ Along step C s es ∧ Along step C (run step s es) fs := by
  induction es generalizing s with
  | nil => simp [Along]
  | cons e es ih => simp [Along, ih, and_assoc]

lemma along_iff (C : σ → ε → Prop) (s : σ) (es : List ε) :
    Along step C s es ↔ ∀ earlier e later, es = earlier++e::later → C (run step s earlier) e := by
  constructor
  · rintro h earlier e later rfl
    rw [along_append] at h
    exact h.2.1
  · intro h
    induction es generalizing s with
    | nil => trivial
    | cons e es ih =>
      refine ⟨h [] e es rfl,ih _ ?_⟩
      intro earlier f later hs
      exact h (e::earlier) f later (by simp [hs])

variable {C D : σ → ε → Prop} {L : ε → Prop} {es : List ε} {P : σ → Prop}

lemma along_of_forall (h : ∀ e ∈ es, L e) (s : σ) : Along step (fun _ e => L e) s es := by
  induction es generalizing s with
  | nil => trivial
  | cons e es ih =>
    exact ⟨h e mem_cons_self,ih (fun f hf => h f (mem_cons_of_mem e hf)) _⟩

lemma along_and {s : σ} :
    Along step (fun s e => C s e ∧ D s e) s es ↔ Along step C s es ∧ Along step D s es := by
  induction es generalizing s with
  | nil => simp [Along]
  | cons e es ih => rw [Along, Along, Along, ih, and_and_and_comm]

/-- What every step relates to its successor, every stretch of a run relates
to its end. -/
lemma along_related {R : σ → σ → Prop} (hrefl : ∀ s, R s s)
    (htrans : ∀ s t u, R s t → R t u → R s u) (s : σ) (es : List ε) :
    (∀ earlier later rest, es = earlier++later++rest →
      R (run step s earlier) (run step s (earlier++later))) ↔
    Along step (fun s e => R s (step s e)) s es := by
  constructor
  · intro h
    induction es generalizing s with
    | nil => trivial
    | cons e es ih =>
      refine ⟨h [] [e] es rfl,ih _ ?_⟩
      intro earlier later rest hs
      exact h (e::earlier) later rest (by simp [hs])
  · rintro h earlier later rest rfl
    rw [append_assoc, along_append, along_append] at h
    rw [run_append]
    generalize run step s earlier = u at h
    have hl := h.2.1
    clear h
    induction later generalizing u with
    | nil => exact hrefl u
    | cons e later ih => exact htrans _ _ _ hl.1 (ih _ hl.2)

variable {step}

/-- Two conditions that agree on the states of an invariant agree along a run. -/
lemma along_congr (hstep : ∀ s e, I s → I (step s e))
    (h : ∀ s e, I s → (C s e ↔ D s e)) {s : σ} (hs : I s) (es : List ε) :
    Along step C s es ↔ Along step D s es := by
  induction es generalizing s with
  | nil => exact Iff.rfl
  | cons e es ih => exact and_congr (h s e hs) (ih (hstep s e hs))

lemma along_always (hstep : ∀ s e, I s → I (step s e)) (h : ∀ s e, I s → C s e)
    {s : σ} (hs : I s) (es : List ε) : Along step C s es := by
  induction es generalizing s with
  | nil => trivial
  | cons e es ih => exact ⟨h s e hs,ih (hstep s e hs)⟩

lemma along_imp (hstep : ∀ s e, I s → C s e → I (step s e))
    (h : ∀ s e, I s → C s e → D s e) {s : σ} (hs : I s) (ha : Along step C s es) :
    Along step D s es := by
  induction es generalizing s with
  | nil => trivial
  | cons e es ih => exact ⟨h s e hs ha.1,ih (hstep s e hs ha.1) ha.2⟩

/-- The induction behind every safety result: what each permitted step keeps
is kept by each permitted run. -/
lemma run_invariant (hstep : ∀ s e, I s → C s e → I (step s e)) {s : σ}
    (hs : I s) (ha : Along step C s es) : I (run step s es) := by
  induction es generalizing s with
  | nil => exact hs
  | cons e es ih => exact ih (hstep s e hs ha.1) ha.2

/-- A property that a step keeps exactly under a condition holds all along a run
exactly if the condition does, beside an invariant of the steps that meet it. -/
lemma always_iff_along_kept
    (hI : ∀ s e, L e → I s → P s → C s e → I (step s e))
    (hP : ∀ s e, L e → I s → P s → (P (step s e) ↔ C s e)) {s : σ} (hs : I s) (hp : P s)
    (es : List ε) (hes : ∀ e ∈ es, L e) :
    (∀ earlier later, es = earlier++later → P (run step s earlier)) ↔ Along step C s es := by
  induction es generalizing s with
  | nil =>
    apply iff_of_true ?_ trivial
    intro earlier later h
    rw [(append_eq_nil_iff.mp h.symm).1]
    exact hp
  | cons e es ih =>
    have he : L e := hes e mem_cons_self
    have hes' : ∀ f ∈ es, L f := fun f hf => hes f (mem_cons_of_mem e hf)
    constructor
    · intro h
      have hnext : P (step s e) := h [e] es rfl
      have hc := (hP s e he hs hp).mp hnext
      refine ⟨hc,(ih (hI s e he hs hp hc) hnext hes').mp ?_⟩
      intro earlier later hs
      exact h (e::earlier) later (by simp [hs])
    · rintro ⟨hc,ha⟩ earlier later h
      cases earlier with
      | nil => exact hp
      | cons f earlier =>
        obtain ⟨rfl,hl⟩ := cons.inj h
        have hnext := (hP s e he hs hp).mpr hc
        exact (ih (hI s e he hs hp hc) hnext hes').mpr ha earlier later hl

lemma always_iff_along (hI : ∀ s e, L e → I s → I (step s e))
    (hP : ∀ s e, L e → I s → P s → (P (step s e) ↔ C s e)) {s : σ} (hs : I s) (hp : P s)
    (es : List ε) (hes : ∀ e ∈ es, L e) :
    (∀ earlier later, es = earlier++later → P (run step s earlier)) ↔ Along step C s es :=
  always_iff_along_kept (fun s e he hs _ _ => hI s e he hs) hP hs hp es hes

lemma run_always (hstep : ∀ s e, I s → I (step s e)) {s : σ} (hs : I s)
    (es : List ε) : I (run step s es) := by
  induction es generalizing s with
  | nil => exact hs
  | cons e es ih => exact ih (hstep s e hs)

lemma run_kept (hI : ∀ s e, I s → I (step s e))
    (hP : ∀ s e, I s → P s → P (step s e)) {s : σ} (hs : I s) (hp : P s) (es : List ε) :
    P (run step s es) := by
  induction es generalizing s with
  | nil => exact hp
  | cons e es ih => exact ih (hI s e hs) (hP s e hs hp)

/-- Two kinds of steps exclude each other in a run, in either order: one
happens in states a run never leaves, the other leads to states it never
leaves either. -/
lemma never_both {Q : σ → Prop} {A B : σ → ε → Prop}
    (hI : ∀ s e, I s → I (step s e)) (hP : ∀ s e, I s → P s → P (step s e))
    (hQ : ∀ s e, I s → Q s → Q (step s e)) (hA : ∀ s e, I s → A s e → P s ∧ ¬ Q s)
    (hB : ∀ s e, I s → B s e → ¬ P s ∧ Q (step s e)) {s : σ} (hs : I s) (es : List ε)
    (i j : Fin es.length) :
    ¬ (A (run step s (es.take i)) (es.get i) ∧ B (run step s (es.take j)) (es.get j)) := by
  rintro ⟨ha,hb⟩
  have hIr : ∀ fs, I (run step s fs) := fun fs => run_always hI hs fs
  obtain ⟨hp,hq⟩ := hA _ _ (hIr _) ha
  obtain ⟨hnp,hnext⟩ := hB _ _ (hIr _) hb
  rcases le_or_gt i.val j.val with hij | hij
  · apply hnp
    obtain ⟨d,hd⟩ := Nat.exists_eq_add_of_le hij
    rw [hd, List.take_add, run_append]
    exact run_kept hI hP (hIr _) hp _
  · apply hq
    obtain ⟨d,hd⟩ := Nat.exists_eq_add_of_le (Nat.succ_le_of_lt hij)
    rw [hd, Nat.succ_eq_add_one, List.take_add, run_append,
      take_succ_eq_append_getElem j.isLt, run_append]
    exact run_kept hI hQ (hI _ _ (hIr _)) hnext _

end

lemma exists_run_of_decreasing {step : σ → ε → σ} {G : σ → Prop} (weight : σ → ℕ)
    (h : ∀ s, I s → G s ∨ ∃ e, I (step s e) ∧ weight (step s e) < weight s) {s : σ} (hs : I s) :
    ∃ es, I (run step s es) ∧ G (run step s es) := by
  induction hn : weight s using Nat.strong_induction_on generalizing s with
  | _ n ih =>
    rcases h s hs with hg | ⟨e,he,hlt⟩
    · exact ⟨[],hs,hg⟩
    · obtain ⟨es,hes⟩ := ih _ (hn ▸ hlt) he rfl
      exact ⟨e::es,hes⟩

lemma exists_replicate_of_decreasing {step : σ → ε → σ} {G : σ → Prop} (e : ε) (weight : σ → ℕ)
    (h : ∀ s, I s → G s ∨ (I (step s e) ∧ weight (step s e) < weight s)) {s : σ} (hs : I s) :
    ∃ n, G (run step s (replicate n e)) := by
  induction hn : weight s using Nat.strong_induction_on generalizing s with
  | _ n ih =>
    rcases h s hs with hg | ⟨he,hlt⟩
    · exact ⟨0,hg⟩
    · obtain ⟨m,hm⟩ := ih _ (hn ▸ hlt) he rfl
      exact ⟨m+1,hm⟩

/-! Runs without an end: the event at each time is given. -/

section
variable (step : σ → ε → σ) (s : σ) (e : ℕ → ε)

def states : ℕ → σ
  | 0 => s
  | n+1 => step (states n) (e n)

end

lemma states_invariant {step : σ → ε → σ} {s : σ} {e : ℕ → ε} (hs : I s)
    (hstep : ∀ n, I (states step s e n) → I (step (states step s e n) (e n))) (n : ℕ) :
    I (states step s e n) := by
  induction n with
  | zero => exact hs
  | succ n ih => exact hstep n ih

lemma exists_states_of_decreasing {ω : Type*} [Preorder ω] [WellFoundedLT ω] {step : σ → ε → σ}
    {G : σ → Prop} {e : ℕ → ε} (weight : σ → ω)
    (h : ∀ n s, I s → G s ∨ (I (step s (e n)) ∧ weight (step s (e n)) < weight s)) {s : σ}
    (hs : I s) : ∃ n, G (states step s e n) := by
  by_contra hno
  have hno : ∀ n, ¬ G (states step s e n) := not_exists.mp hno
  have hI : ∀ n, I (states step s e n) :=
    states_invariant hs fun n hi => ((h n _ hi).resolve_left (hno n)).1
  obtain ⟨n,-,hmin⟩ := exists_minimalFor_of_wellFoundedLT (fun _ => True)
    (fun n => weight (states step s e n)) ⟨0,trivial⟩
  have hlt : weight (states step s e (n+1)) < weight (states step s e n) :=
    ((h n _ (hI n)).resolve_left (hno n)).2
  exact absurd (hmin trivial hlt.le) hlt.not_ge

/-- What waits for an event does so until the rank is lower. -/
lemma exists_lt_of_fair {rank : ℕ → ℕ} {P E : ℕ → Prop}
    (hkeep : ∀ n, 0 < rank n → P n → ¬ E n →
      rank (n+1) < rank n ∨ (P (n+1) ∧ rank (n+1) = rank n))
    (hdrop : ∀ n, 0 < rank n → P n → E n → rank (n+1) < rank n) {n : ℕ} (hn : 0 < rank n)
    (hp : P n) (he : ∃ m, n ≤ m ∧ E m) : ∃ m, rank m < rank n := by
  obtain ⟨m,hnm,hm⟩ := he
  obtain ⟨d,rfl⟩ := Nat.exists_eq_add_of_le hnm
  clear hnm
  induction d generalizing n with
  | zero => exact ⟨n+1,hdrop n hn hp hm⟩
  | succ d ih =>
    by_cases hen : E n
    · exact ⟨n+1,hdrop n hn hp hen⟩
    · rcases hkeep n hn hp hen with hlt | ⟨hp',heq⟩
      · exact ⟨n+1,hlt⟩
      · rw [← heq]
        exact ih (heq ▸ hn) hp' (by rwa [add_assoc, add_comm 1])

lemma exists_zero_of_lt {rank : ℕ → ℕ} (h : ∀ n, 0 < rank n → ∃ m, rank m < rank n) :
    ∃ n, rank n = 0 := by
  obtain ⟨n,-,hmin⟩ := exists_minimalFor_of_wellFoundedLT (fun _ => True) rank ⟨0,trivial⟩
  refine ⟨n,Nat.eq_zero_of_not_pos fun hpos => ?_⟩
  obtain ⟨m,hm⟩ := h n hpos
  exact absurd (hmin trivial hm.le) (Nat.not_le.mpr hm)

/-! Passes over a list that can fail. -/

lemma foldlM_flatMap {σ α β : Type} {m : Type → Type} [Monad m] [LawfulMonad m]
    (f : σ → β → m σ) (g : α → List β) (l : List α) (s : σ) :
    (l.flatMap g).foldlM f s = l.foldlM (fun s a => (g a).foldlM f s) s := by
  induction l generalizing s with
  | nil => rfl
  | cons a l ih =>
    rw [flatMap_cons, foldlM_append, foldlM_cons]
    exact congrArg _ (funext ih)

/-- A relation between the part that is done and the state, for a pass that
did not fail. -/
lemma foldlM_invariant {f : σ → α → Option σ} {I : List α → σ → Prop}
    (hstep : ∀ done a rest s t, l = done++a::rest → I done s → f s a = some t → I (done++[a]) t)
    {s t : σ} (hs : I [] s) (h : l.foldlM f s = some t) : I l t := by
  suffices ∀ rest done s, l = done++rest → I done s → rest.foldlM f s = some t → I l t from
    this l [] s rfl hs h
  intro rest
  induction rest with
  | nil =>
    intro done s hl hi ht
    cases ht
    rwa [hl, append_nil]
  | cons a rest ih =>
    intro done s hl hi ht
    rw [foldlM_cons] at ht
    obtain ⟨u,hu,ht⟩ := Option.bind_eq_some_iff.mp ht
    exact ih (done++[a]) u (by rw [hl, append_assoc]; rfl) (hstep done a rest s u hl hi hu) ht

lemma toOption_foldlM {s : σ} :
    (l.foldlM f s).toOption = l.foldlM (fun s a => (f s a).toOption) s := by
  induction l generalizing s with
  | nil => rfl
  | cons a l ih =>
    rw [foldlM_cons, foldlM_cons]
    cases f s a with
    | error => rfl
    | ok => exact ih

lemma foldlM_ok_invariant {I : List α → σ → Prop}
    (hstep : ∀ done a rest s t, l = done++a::rest → I done s → f s a = .ok t → I (done++[a]) t)
    {s t : σ} (hs : I [] s) (h : l.foldlM f s = .ok t) : I l t := by
  refine foldlM_invariant (f := fun s a => (f s a).toOption) ?_ hs ?_
  · intro done a rest s t hl hi ht
    cases hf : f s a with
    | error =>
      rw [hf] at ht
      cases ht
    | ok =>
      rw [hf] at ht
      exact hstep done a rest s t hl hi (hf.trans (congrArg _ (Option.some.inj ht)))
  · rw [← toOption_foldlM, h]
    rfl

lemma foldlM_ok_exists {I : List α → σ → Prop}
    (hstep : ∀ done a rest s, l = done++a::rest → I done s → ∃ t, f s a = .ok t ∧ I (done++[a]) t)
    {s : σ} (hs : I [] s) : ∃ t, l.foldlM f s = .ok t ∧ I l t := by
  suffices ∀ rest done s, l = done++rest → I done s →
      ∃ t, rest.foldlM f s = .ok t ∧ I l t from this l [] s rfl hs
  intro rest
  induction rest with
  | nil =>
    intro done s hl hi
    rw [hl, append_nil]
    exact ⟨s,rfl,hi⟩
  | cons a rest ih =>
    intro done s hl hi
    obtain ⟨t,ht,hi⟩ := hstep done a rest s hl hi
    obtain ⟨u,hu,hi⟩ := ih (done++[a]) t (by rw [hl, append_assoc]; rfl) hi
    refine ⟨u,?_,hi⟩
    rw [foldlM_cons, ht]
    exact hu

lemma bind_eq_ok {α β : Type} {x : Except ε α} {f : α → Except ε β} {b : β} :
    (x >>= f) = .ok b ↔ ∃ a, x = .ok a ∧ f a = .ok b := by
  cases x with
  | error e | ok a => simp [bind, Except.bind]

lemma foldlM_fixed {f : σ → α → Option σ} {s : σ} (h : ∀ a ∈ l, f s a = some s) :
    l.foldlM f s = some s := by
  induction l with
  | nil => rfl
  | cons a l ih =>
    rw [foldlM_cons, h a mem_cons_self]
    exact ih fun b hb => h b (mem_cons_of_mem a hb)

/-! Machines that also emit: the trace collects what each step puts out. -/

section
variable (step : σ → ε → σ) (emit : σ → ε → List α)

def trace : σ → List ε → List α
  | _, [] => []
  | s, e::es => emit s e ++ trace (step s e) es

lemma trace_append (s : σ) (es fs : List ε) :
    trace step emit s (es++fs) = trace step emit s es ++ trace step emit (run step s es) fs := by
  induction es generalizing s with
  | nil => rfl
  | cons e es ih => rw [cons_append, trace, trace, ih, run_cons, append_assoc]

omit step emit in
lemma append_split {out new before after : List α} {m : α} (h : out++new = before++m::after) :
    (∃ rest, out = before++m::rest ∧ after = rest++new) ∨
    (∃ front, before = out++front ∧ new = front++m::after) := by
  rcases append_eq_append_iff.mp h with ⟨front,hb,hn⟩ | ⟨rest,ho,hr⟩
  · exact .inr ⟨front,hb,hn⟩
  · cases rest with
    | nil => exact .inr ⟨[],by simpa using ho.symm,by simpa using hr.symm⟩
    | cons x rest =>
      obtain ⟨rfl,rfl⟩ := cons.inj hr
      exact .inl ⟨rest,ho,rfl⟩

/-- A relation between the state and everything emitted so far. -/
lemma trace_invariant {step : σ → ε → σ} {emit : σ → ε → List α} {I : σ → List α → Prop}
    (hstep : ∀ s e out, I s out → I (step s e) (out ++ emit s e)) (s : σ) (out : List α)
    (es : List ε) (hs : I s out) : I (run step s es) (out ++ trace step emit s es) := by
  induction es generalizing s out with
  | nil => simpa [trace] using hs
  | cons e es ih => simpa [trace, append_assoc] using ih _ _ (hstep s e out hs)

end

end Library.Run
