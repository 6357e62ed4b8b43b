import SimBricks.Nicbm.Runner

/-!
# The event queue of the runner

`events_` of `nicbm.cc` holds pointers; the comparator looks at the time and
the priority behind them. An event is a name here, with its two fields in the
state. The device may write them, and the main time moves, between any two
calls; what a dispatched event does is calls behind the one of `EventTrigger`.
-/

set_option autoImplicit false

namespace SimBricks.Nicbm.EventQueue
open Library Library.Run Nicbm List Function

variable {E : Type*}

structure Queue (E : Type*) where
  fields : E → TimedEvent
  mainTime : UInt64 := 0
  events : List E := []

inductive Call (E : Type*) where
  | schedule (e : E)
  | cancel (e : E)
  | trigger
  | assign (e : E) (ev : TimedEvent)
  | moveTo (t : UInt64)
  deriving DecidableEq

namespace Queue

def before (q : Queue E) (a b : E) : Bool := (q.fields a).before (q.fields b)

def eventSchedule (q : Queue E) (e : E) : Queue E :=
  { q with events := OrderedMultiset.insert q.before e q.events }

def eventCancel (q : Queue E) (e : E) : Queue E :=
  { q with events := OrderedMultiset.eraseKey q.before e q.events }

def eventNext (q : Queue E) : Option UInt64 := q.events.head?.map fun e => (q.fields e).time

def eventTrigger (q : Queue E) : Queue E × Option E :=
  match q.events with
  | [] => (q,none)
  | e::rest =>
    if (q.fields e).time > q.mainTime then (q,none) else ({ q with events := rest },some e)

variable [DecidableEq E]

def perform (q : Queue E) : Call E → Queue E × Option E
  | .schedule e => (q.eventSchedule e,none)
  | .cancel e => (q.eventCancel e,none)
  | .trigger => q.eventTrigger
  | .assign e ev => ({ q with fields := update q.fields e ev },none)
  | .moveTo t => ({ q with mainTime := t },none)

def scheduled (q : Queue E) : Finset E := q.events.toFinset

end Queue

variable [DecidableEq E]

def step (q : Queue E) (c : Call E) : Queue E := (q.perform c).1

def start (fields : E → TimedEvent) : Queue E := { fields }

/-- An event is scheduled, and its fields are written, only while it is not
scheduled. -/
def Legal (q : Queue E) : Call E → Prop
  | .schedule e | .assign e _ => e ∉ q.events
  | .cancel _ | .trigger | .moveTo _ => True

instance (q : Queue E) : (c : Call E) → Decidable (Legal q c)
  | .schedule e | .assign e _ => inferInstanceAs (Decidable (e ∉ q.events))
  | .cancel _ | .trigger | .moveTo _ => .isTrue trivial

/-! ## The queue as a set -/

inductive SetStep (fields : E → TimedEvent) (mainTime : UInt64) (S : Finset E) :
    Call E → Finset E × Option E → Prop where
  | schedule (e : E) : SetStep fields mainTime S (.schedule e) (insert e S,none)
  | cancel (e : E) : SetStep fields mainTime S (.cancel e) (S.erase e,none)
  | dispatch (e : E) (he : e ∈ S) (hdue : (fields e).time ≤ mainTime)
      (hmin : ∀ x ∈ S, (fields x).before (fields e) = false) :
      SetStep fields mainTime S .trigger (S.erase e,some e)
  | idle (h : ∀ x ∈ S, mainTime < (fields x).time) : SetStep fields mainTime S .trigger (S,none)
  | assign (e : E) (ev : TimedEvent) : SetStep fields mainTime S (.assign e ev) (S,none)
  | moveTo (t : UInt64) : SetStep fields mainTime S (.moveTo t) (S,none)

def Earliest (fields : E → TimedEvent) (S : Finset E) : Option UInt64 → Prop
  | none => S = ∅
  | some t => (∃ e ∈ S, (fields e).time = t) ∧ ∀ x ∈ S, t ≤ (fields x).time

def Refines (q : Queue E) (c : Call E) : Prop :=
  SetStep q.fields q.mainTime q.scheduled c ((step q c).scheduled,(q.perform c).2)

structure AsSet (fields : E → TimedEvent) (calls : List (Call E)) : Prop where
  once : ∀ earlier later, calls = earlier++later → (run step (start fields) earlier).events.Nodup
  next : ∀ earlier later, calls = earlier++later →
    let q := run step (start fields) earlier
    Earliest q.fields q.scheduled q.eventNext
  refines : ∀ earlier c later, calls = earlier++c::later →
    Refines (run step (start fields) earlier) c

/-- No other event is scheduled for the same time with the same priority. -/
def Clear (q : Queue E) : Call E → Prop
  | .cancel e => ∀ x ∈ q.events, x ≠ e → q.fields x ≠ q.fields e
  | .schedule _ | .trigger | .assign _ _ | .moveTo _ => True

instance (q : Queue E) : (c : Call E) → Decidable (Clear q c)
  | .cancel _ => inferInstanceAs (Decidable (∀ x ∈ q.events, _))
  | .schedule _ | .trigger | .assign _ _ | .moveTo _ => .isTrue trivial

/-! ## Single calls -/

lemma before_iff {a b : TimedEvent} :
    a.before b ↔ a.time < b.time ∨ a.time = b.time ∧ a.priority < b.priority := by
  simp [TimedEvent.before]

omit [DecidableEq E] in
lemma before_strict (q : Queue E) : OrderedMultiset.Strict q.before where
  irrefl e := by
    apply Bool.of_not_eq_true
    intro h
    rcases before_iff.mp h with h | h
    · exact UInt64.lt_irrefl _ h
    · exact lt_irrefl _ h.2
  trans a b c hab hbc := by
    apply before_iff.mpr
    rcases before_iff.mp hab with hab | ⟨hab,hab'⟩
    · rcases before_iff.mp hbc with hbc | ⟨hbc,-⟩
      · exact .inl (UInt64.lt_trans hab hbc)
      · exact .inl (hbc ▸ hab)
    · rcases before_iff.mp hbc with hbc | ⟨hbc,hbc'⟩
      · exact .inl (hab ▸ hbc)
      · exact .inr ⟨hab.trans hbc,hab'.trans hbc'⟩

lemma before_or_iff {a b : TimedEvent} : a.before b ∨ b.before a ↔ a ≠ b := by
  constructor
  · rintro h rfl
    have h := before_iff.mp (h.elim id id)
    simp at h
  · intro hne
    by_cases ht : a.time = b.time
    · have hp : a.priority ≠ b.priority := by
        intro hp
        obtain ⟨_,_⟩ := a
        obtain ⟨_,_⟩ := b
        subst ht hp
        exact hne rfl
      rcases lt_or_gt_of_ne hp with hp | hp
      · exact .inl (before_iff.mpr (.inr ⟨ht,hp⟩))
      · exact .inr (before_iff.mpr (.inr ⟨ht.symm,hp⟩))
    · rcases UInt64.lt_or_lt_of_ne ht with ht | ht
      · exact .inl (before_iff.mpr (.inl ht))
      · exact .inr (before_iff.mpr (.inl ht))

/-- What is in the multiset is there once, in order. -/
structure Inv (q : Queue E) : Prop where
  nodup : q.events.Nodup
  sorted : OrderedMultiset.Sorted q.before q.events

namespace Inv
variable {q : Queue E} (h : Inv q)
include h

omit [DecidableEq E] in
lemma head_time {e : E} {rest : List E} (he : q.events = e::rest) {x : E} (hx : x ∈ q.events) :
    (q.fields x).before (q.fields e) = false ∧ (q.fields e).time ≤ (q.fields x).time := by
  have hsorted := h.sorted
  rw [he] at hsorted hx
  have hmin := OrderedMultiset.head_minimal (before_strict q) hsorted hx
  exact ⟨hmin,TimedEvent.le_of_not_before (Bool.eq_false_iff.mp hmin)⟩

lemma trigger : Inv (step q .trigger) := by
  simp only [step, Queue.perform, Queue.eventTrigger]
  cases he : q.events with
  | nil => exact h
  | cons =>
    dsimp only
    split_ifs
    · exact h
    · have hnodup := h.nodup
      have hsorted := h.sorted
      rw [he] at hnodup hsorted
      exact ⟨(nodup_cons.mp hnodup).2,hsorted.tail⟩

lemma step {c : Call E} (hl : Legal q c) : Inv (step q c) := by
  cases c with
  | schedule =>
    exact ⟨OrderedMultiset.insert_nodup h.nodup hl,
      OrderedMultiset.insert_sorted (before_strict q) h.sorted⟩
  | cancel =>
    exact ⟨OrderedMultiset.eraseKey_nodup h.nodup,OrderedMultiset.eraseKey_sorted h.sorted⟩
  | trigger => exact h.trigger
  | assign e ev =>
    -- the fields of what is scheduled stay
    refine ⟨h.nodup,h.sorted.congr ?_⟩
    have hsame : ∀ x ∈ q.events, update q.fields e ev x = q.fields x := by
      intro x hx
      apply update_of_ne
      rintro rfl
      exact hl hx
    intro x hx y hy
    show (update q.fields e ev x).before (update q.fields e ev y) = _
    rw [hsame x hx, hsame y hy]
    rfl
  | moveTo => exact ⟨h.nodup,h.sorted⟩

lemma earliest : Earliest q.fields q.scheduled q.eventNext := by
  unfold Queue.eventNext
  cases he : q.events with
  | nil => exact (congrArg toFinset he).trans toFinset_nil
  | cons e =>
    refine ⟨⟨e,by simp [Queue.scheduled, he],rfl⟩,?_⟩
    intro x hx
    exact (h.head_time he (mem_toFinset.mp hx)).2

lemma refines_trigger : Refines q .trigger := by
  unfold Refines
  simp only [EventQueue.step, Queue.perform, Queue.eventTrigger]
  cases he : q.events with
  | nil =>
    apply SetStep.idle
    simp [Queue.scheduled, he]
  | cons e rest =>
    dsimp only
    by_cases ht : (q.fields e).time > q.mainTime
    · rw [if_pos ht]
      apply SetStep.idle
      intro x hx
      exact UInt64.lt_of_lt_of_le ht (h.head_time he (mem_toFinset.mp hx)).2
    · rw [if_neg ht]
      have hnodup := h.nodup
      rw [he, nodup_cons] at hnodup
      have hrest : q.scheduled.erase e = rest.toFinset := by
        rw [Queue.scheduled, he, toFinset_cons,
          Finset.erase_insert (mt mem_toFinset.mp hnodup.1)]
      show SetStep _ _ _ _ (rest.toFinset,some e)
      rw [← hrest]
      refine .dispatch e (by simp [Queue.scheduled, he]) (UInt64.not_lt.mp ht) ?_
      intro x hx
      exact (h.head_time he (mem_toFinset.mp hx)).1

omit h in
/-- Erasing by key erases one event exactly if no other one has its key. -/
lemma refines_cancel_iff (e : E) : Refines q (.cancel e) ↔ Clear q (.cancel e) := by
  have hmem : ∀ x, x ∈ (EventQueue.step q (.cancel e)).scheduled ↔
      x ∈ q.events ∧ q.fields x ≠ q.fields e := by
    intro x
    rw [Queue.scheduled, mem_toFinset]
    exact OrderedMultiset.mem_eraseKey.trans (and_congr_right fun _ => before_or_iff)
  constructor
  · intro hr x hx hne heq
    unfold Refines at hr
    generalize hS : (EventQueue.step q (.cancel e)).scheduled = S at hr
    cases hr
    have hin : x ∈ q.scheduled.erase e := Finset.mem_erase.mpr ⟨hne,mem_toFinset.mpr hx⟩
    rw [← hS, hmem] at hin
    exact hin.2 heq
  · intro hc
    have hset : (EventQueue.step q (.cancel e)).scheduled = q.scheduled.erase e := by
      ext x
      rw [hmem, Finset.mem_erase, Queue.scheduled, mem_toFinset, and_comm]
      apply and_congr_left
      intro hx
      constructor
      · rintro hne rfl
        exact hne rfl
      · exact hc x hx
    unfold Refines
    rw [hset]
    exact .cancel e

lemma refines_call_iff {c : Call E} : Refines q c ↔ Clear q c := by
  cases c with
  | schedule e =>
    apply iff_of_true ?_ trivial
    have hset : (EventQueue.step q (.schedule e)).scheduled = insert e q.scheduled := by
      ext x
      rw [Queue.scheduled, mem_toFinset, Finset.mem_insert, Queue.scheduled, mem_toFinset]
      exact OrderedMultiset.mem_insert
    unfold Refines
    rw [hset]
    exact .schedule e
  | cancel e => exact refines_cancel_iff e
  | trigger => exact iff_of_true h.refines_trigger trivial
  | assign e ev => exact iff_of_true (.assign e ev) trivial
  | moveTo t => exact iff_of_true (.moveTo t) trivial

end Inv

/-! ## Whole runs -/

omit [DecidableEq E] in
lemma start_inv (fields : E → TimedEvent) : Inv (start fields) := ⟨nodup_nil,.nil⟩

theorem queue_as_set_iff (fields : E → TimedEvent) (calls : List (Call E))
    (hlegal : Along step Legal (start fields) calls) :
    AsSet fields calls ↔ Along step Clear (start fields) calls := by
  have hinv : ∀ earlier later, calls = earlier++later → Inv (run step (start fields) earlier) := by
    rintro earlier later rfl
    exact run_invariant (fun q c hi hl => hi.step hl) (start_inv fields)
      ((along_append _ _ _ _ _).mp hlegal).1
  constructor
  · intro h
    apply along_imp (C := fun q c => Legal q c ∧ Refines q c) (fun q c hi hl => hi.step hl.1)
      (fun q c hi hl => hi.refines_call_iff.mp hl.2) (start_inv fields)
    exact (along_and step).mpr ⟨hlegal,(along_iff _ _ _ _).mpr h.refines⟩
  · intro h
    refine ⟨fun earlier later he => (hinv earlier later he).nodup,
      fun earlier later he => (hinv earlier later he).earliest,?_⟩
    intro earlier c later he
    have hclear := (along_iff _ _ _ _).mp h earlier c later he
    exact (hinv earlier (c::later) he).refines_call_iff.mpr hclear

theorem queue_as_set_two_times : AsSet (fun e : Bool => ⟨if e then 5 else 7,0⟩)
      [.schedule true,.schedule false,.cancel true,.moveTo 7,.trigger] :=
  (queue_as_set_iff _ _ (by decide)).mpr (by decide)

def sameTime (_ : Bool) : TimedEvent := ⟨5,0⟩

/-- Cancelling one of two events for the same time removes both; cancelling
an event that is not scheduled removes the other one. -/
theorem tie_cancelled : ¬ AsSet sameTime [.schedule true,.schedule false,.cancel true] ∧
    ¬ AsSet sameTime [.schedule true,.cancel false] := by
  constructor
  · intro h
    have hc := (Inv.refines_cancel_iff true).mp (h.refines [.schedule true,.schedule false] _
        [] rfl)
    exact hc false (by decide) (by decide) rfl
  · intro h
    have hc := (Inv.refines_cancel_iff false).mp (h.refines [.schedule true] _ [] rfl)
    exact hc true (by decide) (by decide) rfl

end SimBricks.Nicbm.EventQueue
