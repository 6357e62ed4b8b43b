import SimBricks.Nicbm.Runner

/-!
# Interrupts of the i40e model

`SignalInterrupt` arms one timed event per vector and gives it to the runner,
which holds the events of all vectors in one multiset ordered by time and
priority. Cancelling an event erases every event that is equivalent to it in
that order.
-/

set_option autoImplicit false

namespace SimBricks.I40e
open Library Library.Run Nicbm List Function UInt64

abbrev Vec := Fin 128

structure IntEv extends TimedEvent where
  armed : Bool

/-- The device, the time and the events of its runner, and the interrupts
issued so far with their time. -/
structure World where
  mainTime : UInt64 := 0
  events : List Vec := []
  intevs : Vec → IntEv := fun _ => ⟨⟨0,0⟩,false⟩
  pfintItr0 : Fin 3 → UInt32 := fun _ => 0
  pfintItrn : Fin 3 → Vec → UInt32 := fun _ _ => 0
  intMsixEn : Bool := false
  issued : List (Vec × UInt64) := []
  halted : Bool := false

namespace World

def before (w : World) (a b : Vec) : Bool :=
  (w.intevs a).toTimedEvent.before (w.intevs b).toTimedEvent

def eventSchedule (w : World) (v : Vec) : World :=
  { w with events := w.events.orderedInsert (fun a b => w.before a b) v }

def eventCancel (w : World) (v : Vec) : World :=
  { w with events := w.events.filter fun x => w.before x v || w.before v x }

def setEv (w : World) (v : Vec) (ev : IntEv) : World := { w with intevs := update w.intevs v ev }

/-- `abort` ends the run. -/
def timed (w : World) (v : Vec) : World :=
  let w := w.setEv v { w.intevs v with armed := false }
  if w.intMsixEn then { w with issued := w.issued++[(v,w.mainTime)] }
  else if v ≠ 0 then { w with halted := true }
  else { w with issued := w.issued++[(0,w.mainTime)] }

/-- Throttling in units of two microseconds; `itr` 3 is no throttling. -/
def mindelay (w : World) (v : Vec) (itr : Fin 4) : UInt64 :=
  if h : itr.val < 3 then
    (if v = 0 then w.pfintItr0 ⟨itr,h⟩ else w.pfintItrn ⟨itr,h⟩ v).toUInt64*2000000
  else 0

def newtime (w : World) (v : Vec) (itr : Fin 4) : UInt64 := w.mainTime+w.mindelay v itr

def signalInterrupt (w : World) (v : Vec) (itr : Fin 4) : World :=
  if (w.intevs v).armed && (w.intevs v).time ≤ w.newtime v itr then w
  else
    let newtime := w.newtime v itr
    let w := if (w.intevs v).armed then w.eventCancel v else w
    (w.setEv v { w.intevs v with armed := true, time := newtime }).eventSchedule v

def eventTrigger (w : World) : World :=
  match w.events with
  | [] => w
  | v::rest =>
    if w.mainTime < (w.intevs v).time then w
    else { w with events := rest }.timed v

def resetEv (w : World) (v : Vec) : World :=
  let w := if (w.intevs v).armed then
      (w.eventCancel v).setEv v { w.intevs v with armed := false }
    else w
  w.setEv v { w.intevs v with time := 0 }

def reset (w : World) : World := (finRange 128).foldl resetEv
    { w with pfintItr0 := fun _ => 0, pfintItrn := fun _ _ => 0 }

/-- The time the loop goes on to: of the first event, or what the interfaces
and the step size allow. -/
def nextTs (w : World) (limit : UInt64) : UInt64 :=
  match w.events with
  | [] => limit
  | v::_ => if (w.intevs v).time < limit then (w.intevs v).time else limit

def advance (w : World) (limit : UInt64) : World :=
  if w.nextTs limit ≤ w.mainTime then w else { w with mainTime := w.nextTs limit }

end World

inductive Event where
  | signal (v : Vec) (itr : Fin 4)
  | trigger
  | advance (limit : UInt64)
  | reset
  | writeItr0 (i : Fin 3) (val : UInt32)
  | writeItrn (i : Fin 3) (v : Vec) (val : UInt32)
  | devctrl (msixEn : Bool)
  deriving DecidableEq

def World.act (w : World) : Event → World
  | .signal v itr => w.signalInterrupt v itr
  | .trigger => w.eventTrigger
  | .advance limit => w.advance limit
  | .reset => w.reset
  | .writeItr0 i val => { w with pfintItr0 := update w.pfintItr0 i val }
  | .writeItrn i v val =>
    { w with pfintItrn := update w.pfintItrn i (update (w.pfintItrn i) v val) }
  | .devctrl msixEn => { w with intMsixEn := msixEn }

def World.step (w : World) (e : Event) : World := if w.halted then w else w.act e

/-! ## Armed once, issued in time -/

def ArmedOnce (w : World) : Prop := ∀ v, (w.intevs v).armed ↔ w.events.count v = 1

def World.deadline (w : World) (v : Vec) (itr : Fin 4) : ℕ :=
  w.mainTime.toNat+(w.mindelay v itr).toNat

/-- An interrupt for the vector was issued in time since the state `w₀`, or
time has not passed the deadline and the event is still there; with the time
of the event reached, dispatching what is due issues it. -/
def Met (w₀ : World) (v : Vec) (deadline : ℕ) (w : World) : Prop :=
  (∃ x ∈ w.issued.drop w₀.issued.length, x.1 = v ∧ x.2.toNat ≤ deadline) ∨
  (w.mainTime.toNat ≤ deadline ∧ v ∈ w.events ∧ (w.intevs v).time.toNat ≤ deadline ∧
    ((w.intevs v).time ≤ w.mainTime → w.intMsixEn → ∃ n, (v,w.mainTime) ∈
        (run World.step w (replicate n .trigger)).issued.drop w.issued.length))

/-- An event that is moved to an earlier time was not due together with the
armed event of another vector. -/
def Apart (w : World) : Event → Prop
  | .signal v itr => w.halted = false → (w.intevs v).armed →
      w.newtime v itr < (w.intevs v).time → ∀ u ≠ v, (w.intevs u).armed →
      (w.intevs u).time ≠ (w.intevs v).time
  | _ => True

/-- The event dispatched is of vector 0, or MSI-X is enabled. -/
def Deliverable (w : World) : Event → Prop
  | .trigger => ∀ v ∈ w.events.head?, (w.intevs v).time ≤ w.mainTime → w.intMsixEn ∨ v = 0
  | _ => True

/-! ## The events of the runner -/

structure Inv (w : World) : Prop where
  priority : ∀ v, (w.intevs v).priority = 0
  nodup : w.events.Nodup
  armed : ∀ v ∈ w.events, (w.intevs v).armed
  sorted : w.events.Pairwise fun a b => (w.intevs a).time ≤ (w.intevs b).time

variable {w : World}

lemma Inv.init : Inv {} := ⟨fun _ => rfl,nodup_nil,by simp,List.Pairwise.nil⟩

open World

lemma Inv.before_eq (h : Inv w) (a b : Vec) :
    w.before a b = decide ((w.intevs a).time < (w.intevs b).time) := by
  simp [before, TimedEvent.before, h.priority]

variable {u v : Vec} {D n : ℕ}

lemma Inv.mem_cancel (h : Inv w) :
    u ∈ (w.eventCancel v).events ↔ u ∈ w.events ∧ (w.intevs u).time ≠ (w.intevs v).time := by
  simp only [eventCancel, List.mem_filter, h.before_eq, Bool.or_eq_true, decide_eq_true_eq]
  refine and_congr_right fun _ => ?_
  rw [UInt64.lt_iff_toNat_lt, UInt64.lt_iff_toNat_lt, ne_eq, ← UInt64.toNat_inj]
  omega

lemma Inv.cancel (h : Inv w) (v : Vec) : Inv (w.eventCancel v) where
  priority := h.priority
  nodup := h.nodup.filter _
  armed u hu := h.armed u (mem_filter.mp hu).1
  sorted := h.sorted.filter _

lemma Inv.setEv (h : Inv w) (hv : v ∉ w.events) {ev : IntEv} (hp : ev.priority = 0) :
    Inv (w.setEv v ev) := by
  have hother : ∀ u ∈ w.events, (w.setEv v ev).intevs u = w.intevs u := fun u hu =>
    update_of_ne (ne_of_mem_of_not_mem hu hv) _ _
  refine ⟨fun u => ?_,h.nodup,fun u hu => ?_,?_⟩
  · by_cases hu : u = v
    · rw [hu]
      simpa [World.setEv] using hp
    · simpa [World.setEv, hu] using h.priority u
  · rw [hother u hu]
    exact h.armed u hu
  · refine h.sorted.imp_of_mem fun hx hy hxy => ?_
    rwa [hother _ hx, hother _ hy]

lemma map_orderedInsert (w : World) (v : Vec) (l : List Vec) :
    (l.orderedInsert (fun a b => w.before a b) v).map (fun x => (w.intevs x).toTimedEvent) =
    eventInsert (w.intevs v).toTimedEvent (l.map fun x => (w.intevs x).toTimedEvent) := by
  induction l with
  | nil => rfl
  | cons x l ih =>
    rw [orderedInsert_cons, map_cons, eventInsert, OrderedMultiset.insert]
    unfold before
    split_ifs with hb
    · rfl
    · exact congrArg _ ih

lemma mem_schedule : u ∈ (w.eventSchedule v).events ↔ u = v ∨ u ∈ w.events := mem_orderedInsert _

lemma Inv.schedule (h : Inv w) (hv : v ∉ w.events) (ha : (w.intevs v).armed) :
    Inv (w.eventSchedule v) := by
  refine ⟨h.priority,?_,fun u hu => ?_,?_⟩
  · exact (perm_orderedInsert _ v w.events).nodup_iff.mpr (nodup_cons.mpr ⟨hv,h.nodup⟩)
  · rcases mem_schedule.mp hu with rfl | hu
    · exact ha
    · exact h.armed u hu
  · have hs := eventInsert_sorted (w.intevs v).toTimedEvent (pairwise_map.mpr h.sorted)
    rw [← map_orderedInsert, pairwise_map] at hs
    exact hs

/-- The state in which `SignalInterrupt` schedules its event: it is not in the
runner's set. -/
def World.released (w : World) (v : Vec) : World :=
  if (w.intevs v).armed then w.eventCancel v else w

lemma Inv.released (h : Inv w) (v : Vec) :
    Inv (w.released v) ∧ (w.released v).intevs = w.intevs ∧ v ∉ (w.released v).events ∧ ∀ u,
    u ∈ (w.released v).events ↔ u ∈ w.events ∧
    ((w.intevs v).armed → (w.intevs u).time ≠ (w.intevs v).time) := by
  unfold World.released
  split_ifs with ha
  · refine ⟨h.cancel v,rfl,fun hv => (h.mem_cancel.mp hv).2 rfl,fun u => ?_⟩
    rw [h.mem_cancel]
    simp [ha]
  · exact ⟨h,rfl,fun hv => ha (h.armed v hv),fun u => by simp [ha]⟩

/-- What `SignalInterrupt` does unless the event is armed for an earlier time. -/
lemma signal_eq (w : World) (v : Vec) (itr : Fin 4) : w.signalInterrupt v itr =
      if (w.intevs v).armed ∧ (w.intevs v).time ≤ w.newtime v itr then w
      else ((w.released v).setEv v { (w.released v).intevs v with
        armed := true, time := w.newtime v itr }).eventSchedule v := by
  unfold signalInterrupt
  simp only [Bool.and_eq_true, decide_eq_true_eq]
  rfl

/-- The event is armed for the new time; another one stays if it is not due
at the time the event was armed for. -/
lemma Inv.armed_at (h : Inv w) (v : Vec) (t : UInt64) {w' : World}
    (hw : w' = ((w.released v).setEv v { (w.released v).intevs v with
      armed := true, time := t }).eventSchedule v) :
    Inv w' ∧ (w'.intevs v).armed ∧ (w'.intevs v).time = t ∧
      (∀ u ≠ v, w'.intevs u = w.intevs u) ∧
      ∀ u, u ∈ w'.events ↔ u = v ∨ (u ∈ w.events ∧
        ((w.intevs v).armed → (w.intevs u).time ≠ (w.intevs v).time)) := by
  obtain ⟨hrel,hevs,hnot,hmem⟩ := h.released v
  subst hw
  have hset : Inv ((w.released v).setEv v { (w.released v).intevs v with
      armed := true, time := t }) := hrel.setEv hnot (hrel.priority v)
  refine ⟨hset.schedule hnot (by simp [World.setEv]),by simp [World.setEv, World.eventSchedule],
    by simp [World.setEv, World.eventSchedule],fun u hu => ?_,fun u => ?_⟩
  · simp [World.setEv, World.eventSchedule, hu, hevs]
  · rw [mem_schedule, ← hmem]
    rfl

lemma Inv.signal (h : Inv w) (v : Vec) (itr : Fin 4) : Inv (w.signalInterrupt v itr) := by
  rw [signal_eq]
  split_ifs
  · exact h
  · exact (h.armed_at v (w.newtime v itr) rfl).1

lemma Inv.pop (h : Inv w) {rest : List Vec} (he : w.events = v::rest) :
    Inv ({ w with events := rest }.setEv v { w.intevs v with armed := false }) := by
  have hnodup := h.nodup
  have hsorted := h.sorted
  rw [he] at hnodup hsorted
  have hrest : Inv { w with events := rest } := ⟨h.priority,(nodup_cons.mp hnodup).2,
      fun u hu => h.armed u (he ▸ mem_cons_of_mem v hu),(pairwise_cons.mp hsorted).2⟩
  exact hrest.setEv (nodup_cons.mp hnodup).1 (h.priority v)

lemma not_lt_iff_le (a b : UInt64) : ¬ a < b ↔ b ≤ a := by
  rw [lt_iff_toNat_lt, le_iff_toNat_le]
  omega

lemma timed_eq (w : World) (v : Vec) : ∃ issued halted,
    w.timed v = { w.setEv v { w.intevs v with armed := false } with
      issued := issued, halted := halted } ∧
    (w.intMsixEn ∨ v = 0 → issued = w.issued++[(v,w.mainTime)] ∧ halted = w.halted) := by
  unfold timed
  dsimp only
  split_ifs with hmsix hv
  · exact ⟨_,w.halted,rfl,fun _ => ⟨rfl,rfl⟩⟩
  · exact ⟨w.issued,true,rfl,fun hor => absurd (hor.resolve_left hmsix) hv⟩
  · exact ⟨_,w.halted,rfl,fun _ => ⟨by rw [not_not.mp hv]; rfl,rfl⟩⟩

/-- What the runner does with its first event, when it is due. -/
lemma trigger_cases (w : World) : w.eventTrigger = w ∨ ∃ v rest issued halted,
    w.events = v::rest ∧ (w.intevs v).time ≤ w.mainTime ∧
    w.eventTrigger = { { w with events := rest }.setEv v { w.intevs v with armed := false } with
      issued := issued, halted := halted } ∧
    (w.intMsixEn ∨ v = 0 → issued = w.issued++[(v,w.mainTime)] ∧ halted = w.halted) := by
  unfold eventTrigger
  split
  case h_1 => exact .inl rfl
  case h_2 v rest he =>
    split_ifs with hlt
    · exact .inl rfl
    · obtain ⟨issued,halted,htimed,hok⟩ := timed_eq { w with events := rest } v
      exact .inr ⟨v,rest,issued,halted,he,(not_lt_iff_le _ _).mp hlt,htimed,hok⟩

lemma Inv.trigger (h : Inv w) : Inv w.eventTrigger := by
  rcases trigger_cases w with heq | ⟨v,rest,_,_,he,-,heq,-⟩
  · rwa [heq]
  · rw [heq]
    exact { h.pop he with }

lemma Inv.resetEv (h : Inv w) (v : Vec) : Inv (w.resetEv v) := by
  obtain ⟨hrel,_,hnot,-⟩ := h.released v
  have hout : (w.resetEv v) = (w.released v).setEv v { (w.released v).intevs v with
      armed := false, time := 0 } := by
    unfold World.resetEv World.released
    split_ifs with ha
    · simp [World.setEv, World.eventCancel]
    · simp [World.setEv, ha]
  rw [hout]
  exact hrel.setEv hnot (hrel.priority v)

lemma resetEv_armed (w : World) (u v : Vec) :
    ((w.resetEv v).intevs u).armed = if u = v then false else (w.intevs u).armed := by
  unfold resetEv
  by_cases hu : u = v
  · by_cases ha : (w.intevs v).armed = true <;> simp [setEv, hu, ha]
  · by_cases ha : (w.intevs v).armed = true <;> simp [setEv, eventCancel, hu, ha]

lemma Inv.resetLoop (h : Inv w) (vs : List Vec) : Inv (vs.foldl World.resetEv w) ∧ ∀ u,
    ((vs.foldl World.resetEv w).intevs u).armed = if u ∈ vs then false else (w.intevs u).armed := by
  induction vs generalizing w with
  | nil => exact ⟨h,fun u => by simp⟩
  | cons v vs ih =>
    obtain ⟨hinv,harmed⟩ := ih (h.resetEv v)
    refine ⟨hinv,fun u => ?_⟩
    rw [foldl_cons, harmed, resetEv_armed]
    by_cases huv : u = v <;> by_cases hu : u ∈ vs <;> simp [huv, hu]

lemma Inv.reset (h : Inv w) :
    Inv w.reset ∧ w.reset.events = [] ∧ ∀ u, (w.reset.intevs u).armed = false := by
  have h0 : Inv { w with pfintItr0 := fun _ => 0, pfintItrn := fun _ _ => 0 } := { h with }
  obtain ⟨hinv,harmed⟩ := h0.resetLoop (finRange 128)
  have hoff : ∀ u, (w.reset.intevs u).armed = false := fun u => by
    rw [World.reset, harmed u, if_pos (mem_finRange u)]
  refine ⟨hinv,eq_nil_iff_forall_not_mem.mpr fun u hu => ?_,hoff⟩
  exact absurd ((hoff u).symm.trans (hinv.armed u hu)) (by decide)

lemma Inv.advance (h : Inv w) (limit : UInt64) : Inv (w.advance limit) := by
  unfold World.advance
  split_ifs
  · exact h
  · exact { h with }

lemma Inv.act (h : Inv w) (e : Event) : Inv (w.act e) := by
  cases e with
  | signal v itr => exact h.signal v itr
  | trigger => exact h.trigger
  | advance limit => exact h.advance limit
  | reset => exact h.reset.1
  | writeItr0 i val | writeItrn i v val | devctrl msixEn => exact { h with }

lemma step_running (hrun : w.halted = false) (e : Event) : w.step e = w.act e := by
  simp [World.step, hrun]

lemma Inv.step (h : Inv w) (e : Event) : Inv (w.step e) := by
  unfold World.step
  split_ifs
  · exact h
  · exact h.act e

/-! ## Armed and scheduled -/

lemma Inv.armedOnce_iff (h : Inv w) :
    ArmedOnce w ↔ ∀ v, (w.intevs v).armed → v ∈ w.events := by
  refine forall_congr' fun v => ⟨fun hv ha => ?_,fun hv => ⟨fun ha => ?_,fun hc => ?_⟩⟩
  · exact count_pos_iff.mp ((hv.mp ha).symm ▸ Nat.one_pos)
  · exact count_eq_one_of_mem h.nodup (hv ha)
  · exact h.armed v (count_pos_iff.mp (hc.symm ▸ Nat.one_pos))

lemma Inv.signal_iff (h : Inv w) (hall : ∀ v, (w.intevs v).armed → v ∈ w.events)
    (hrun : w.halted = false) (v : Vec) (itr : Fin 4) :
    (∀ u, ((w.signalInterrupt v itr).intevs u).armed →
      u ∈ (w.signalInterrupt v itr).events) ↔ Apart w (.signal v itr) := by
  rw [signal_eq]
  split_ifs with hc
  · apply iff_of_true hall
    intro _ _ hlt
    exact absurd hc.2 (by rw [← not_lt_iff_le]; exact not_not.mpr hlt)
  · obtain ⟨-,_,-,hother,hmem⟩ := h.armed_at v (w.newtime v itr) rfl
    constructor
    · intro hkeep _ ha _ u hu hua
      have hin := hkeep u (by rwa [hother u hu])
      exact (((hmem u).mp hin).resolve_left hu).2 ha
    · intro hapart u hua
      rw [hmem]
      by_cases hu : u = v
      · exact .inl hu
      · rw [hother u hu] at hua
        refine .inr ⟨hall u hua,fun ha => hapart hrun ha ?_ u hu hua⟩
        by_contra hlt
        exact hc ⟨ha,(not_lt_iff_le _ _).mp hlt⟩

lemma trigger_armed (hall : ∀ v, (w.intevs v).armed → v ∈ w.events)
    (hv : (w.eventTrigger.intevs v).armed) : v ∈ w.eventTrigger.events := by
  rcases trigger_cases w with heq | ⟨u,rest,_,_,he,-,heq,-⟩
  · rw [heq] at hv ⊢
    exact hall v hv
  · rw [heq] at hv ⊢
    by_cases hvu : v = u
    · exact absurd hv (by simp [setEv, hvu])
    · have ha : (w.intevs v).armed := by simpa [setEv, hvu] using hv
      exact (mem_cons.mp (he ▸ hall v ha)).resolve_left hvu

lemma Inv.apart_iff (h : Inv w) (hP : ArmedOnce w) (e : Event) :
    ArmedOnce (w.step e) ↔ Apart w e := by
  have hall := h.armedOnce_iff.mp hP
  rw [(h.step e).armedOnce_iff]
  cases hrun : w.halted with
  | true =>
    have hstep : w.step e = w := by simp [World.step, hrun]
    rw [hstep]
    apply iff_of_true hall
    cases e <;> simp [Apart, hrun]
  | false =>
    rw [step_running hrun]
    cases e with
    | signal v itr => exact h.signal_iff hall hrun v itr
    | trigger => exact iff_of_true (fun v hv => trigger_armed hall hv) trivial
    | reset =>
      apply iff_of_true ?_ trivial
      intro v hv
      exact absurd ((h.reset.2.2 v).symm.trans hv) (by decide)
    | advance limit =>
      apply iff_of_true ?_ trivial
      change ∀ v, ((w.advance limit).intevs v).armed → v ∈ (w.advance limit).events
      unfold World.advance
      split_ifs <;> exact hall
    | writeItr0 i val | writeItrn i v val | devctrl msixEn => exact iff_of_true hall trivial

/-! ## Deadlines -/

lemma signal_frame (w : World) (v : Vec) (itr : Fin 4) :
    (w.signalInterrupt v itr).mainTime = w.mainTime ∧ (w.signalInterrupt v itr).issued = w.issued ∧
    (w.signalInterrupt v itr).halted = w.halted := by
  rw [signal_eq]
  unfold released
  split_ifs <;> exact ⟨rfl,rfl,rfl⟩

lemma reset_halted (w : World) : w.reset.halted = w.halted := by
  have hloop : ∀ (vs : List Vec) (w : World), (vs.foldl resetEv w).halted = w.halted := by
    intro vs
    induction vs with
    | nil => exact fun _ => rfl
    | cons v vs ih =>
      intro w
      rw [foldl_cons, ih]
      unfold resetEv
      split_ifs <;> rfl
  exact hloop _ _

lemma running_step (hrun : w.halted = false) {e : Event} (hd : Deliverable w e) :
    (w.step e).halted = false := by
  rw [step_running hrun]
  cases e with
  | signal v itr => exact (signal_frame w v itr).2.2.trans hrun
  | trigger =>
    change w.eventTrigger.halted = false
    rcases trigger_cases w with heq | ⟨v,rest,_,_,he,hdue,heq,hok⟩
    · rwa [heq]
    · have hv := hd v (by simp [he]) hdue
      rw [heq]
      exact (hok hv).2.trans hrun
  | advance limit =>
    change (w.advance limit).halted = false
    unfold advance
    split_ifs <;> exact hrun
  | reset => exact (reset_halted w).trans hrun
  | writeItr0 i val | writeItrn i v val | devctrl msixEn => exact hrun

/-- An interrupt for the vector is in the log from position `n` on, or its
event is there and time has not passed the deadline. -/
def Owed (n : ℕ) (v : Vec) (deadline : ℕ) (w : World) : Prop :=
  (∃ x ∈ w.issued.drop n, x.1 = v ∧ x.2.toNat ≤ deadline) ∨
  (w.mainTime.toNat ≤ deadline ∧ v ∈ w.events ∧ (w.intevs v).time.toNat ≤ deadline)

lemma newtime_le (w : World) (v : Vec) (itr : Fin 4) :
    (w.newtime v itr).toNat ≤ w.deadline v itr := by
  exact Nat.mod_le _ _

lemma Inv.signal_owed (h : Inv w) (hall : ∀ v, (w.intevs v).armed → v ∈ w.events) (v : Vec)
    (itr : Fin 4) : Owed w.issued.length v (w.deadline v itr) (w.signalInterrupt v itr) := by
  have hle := newtime_le w v itr
  right
  rw [(signal_frame w v itr).1]
  refine ⟨Nat.le_add_right _ _,?_⟩
  rw [signal_eq]
  split_ifs with hc
  · have htime := le_iff_toNat_le.mp hc.2
    exact ⟨hall v hc.1,htime.trans hle⟩
  · obtain ⟨-,-,htime,-,hmem⟩ := h.armed_at v (w.newtime v itr) rfl
    rw [htime]
    exact ⟨(hmem v).mpr (.inl rfl),hle⟩

/-- Other calls keep it there: for the same vector they only move it to an
earlier time. -/
lemma Inv.owed_signal (h : Inv w) (hrun : w.halted = false) {itr : Fin 4}
    (hapart : Apart w (.signal u itr)) (ho : Owed n v D w) :
    Owed n v D (w.signalInterrupt u itr) := by
  obtain ⟨htime,hissued,-⟩ := signal_frame w u itr
  unfold Owed
  rw [htime, hissued]
  refine ho.imp_right fun ⟨hnow,hv,hle⟩ => ⟨hnow,?_⟩
  rw [signal_eq]
  split_ifs with hc
  · exact ⟨hv,hle⟩
  · obtain ⟨-,-,hat,hother,hmem⟩ := h.armed_at u (w.newtime u itr) rfl
    have hlt : (w.intevs u).armed → w.newtime u itr < (w.intevs u).time := by
      intro ha
      by_contra hlt
      exact hc ⟨ha,(not_lt_iff_le _ _).mp hlt⟩
    by_cases hvu : v = u
    · subst hvu
      have hlt := lt_iff_toNat_lt.mp (hlt (h.armed v hv))
      rw [hat]
      exact ⟨(hmem v).mpr (.inl rfl),by omega⟩
    · rw [hother v hvu]
      exact ⟨(hmem v).mpr (.inr ⟨hv,fun ha => hapart hrun ha (hlt ha) v hvu (h.armed v hv)⟩),hle⟩

lemma owed_trigger (hd : Deliverable w .trigger) (hn : n ≤ w.issued.length) (ho : Owed n v D w) :
    Owed n v D w.eventTrigger := by
  rcases trigger_cases w with heq | ⟨u,rest,_,_,he,hdue,heq,hok⟩
  · rwa [heq]
  · obtain ⟨hissued,-⟩ := hok (hd u (by simp [he]) hdue)
    rw [heq, hissued]
    unfold Owed
    dsimp only [setEv]
    rw [drop_append_of_le_length hn]
    rcases ho with ⟨x,hx,hxv⟩ | ⟨hnow,hv,_⟩
    · exact .inl ⟨x,mem_append_left _ hx,hxv⟩
    · by_cases hvu : v = u
      · exact .inl ⟨_,mem_append_right _ mem_cons_self,hvu.symm,hnow⟩
      · rw [he] at hv
        refine .inr ⟨hnow,(mem_cons.mp hv).resolve_left hvu,?_⟩
        rwa [update_of_ne hvu]

lemma Inv.owed_advance (h : Inv w) (limit : UInt64) (ho : Owed n v D w) :
    Owed n v D (w.advance limit) := by
  unfold World.advance
  split_ifs with hle
  · exact ho
  · refine ho.imp_right fun ⟨_,hv,htime⟩ => ⟨?_,hv,htime⟩
    have hfirst : (w.nextTs limit).toNat ≤ (w.intevs v).time.toNat := by
      have hsorted := h.sorted
      unfold World.nextTs
      cases hev : w.events with
      | nil => exact absurd hv (by simp [hev])
      | cons u =>
        rw [hev] at hv hsorted
        have huv : (w.intevs u).time.toNat ≤ (w.intevs v).time.toNat := by
          rcases mem_cons.mp hv with rfl | hv
          · exact le_rfl
          · exact le_iff_toNat_le.mp ((pairwise_cons.mp hsorted).1 v hv)
        dsimp only
        split_ifs with hlt
        · exact huv
        · exact (le_iff_toNat_le.mp ((not_lt_iff_le _ _).mp hlt)).trans huv
    exact hfirst.trans htime

lemma trigger_issued (w : World) (hd : Deliverable w .trigger) :
    w.issued.length ≤ w.eventTrigger.issued.length := by
  rcases trigger_cases w with heq | ⟨u,rest,_,_,he,hdue,heq,hok⟩
  · rw [heq]
  · obtain ⟨hissued,-⟩ := hok (hd u (by simp [he]) hdue)
    rw [heq, hissued]
    simp

lemma advance_issued (w : World) (limit : UInt64) : (w.advance limit).issued = w.issued := by
  unfold advance
  split_ifs <;> rfl

structure Due (n : ℕ) (v : Vec) (deadline : ℕ) (w : World) : Prop where
  inv : Inv w
  running : w.halted = false
  length : n ≤ w.issued.length
  owed : Owed n v deadline w

lemma Due.step (h : Due n v D w) {e : Event} (hapart : Apart w e) (hd : Deliverable w e)
    (hne : e ≠ .reset) : Due n v D (w.step e) := by
  have hrun := h.running
  suffices n ≤ (w.act e).issued.length ∧ Owed n v D (w.act e) by
    rw [← step_running hrun] at this
    exact ⟨h.inv.step e,running_step hrun hd,this.1,this.2⟩
  cases e with
  | signal u itr =>
    exact ⟨(signal_frame w u itr).2.1 ▸ h.length,h.inv.owed_signal hrun hapart h.owed⟩
  | trigger => exact ⟨h.length.trans (trigger_issued w hd),owed_trigger hd h.length h.owed⟩
  | advance limit =>
    exact ⟨(advance_issued w limit).symm ▸ h.length,h.inv.owed_advance limit h.owed⟩
  | reset => exact absurd rfl hne
  | writeItr0 i val | writeItrn i v val | devctrl msixEn => exact ⟨h.length,h.owed⟩

/-- Dispatching what is due issues its interrupt: everything ahead of it is
due as well. -/
lemma Inv.dispatch (h : Inv w) (hrun : w.halted = false) (hmsix : w.intMsixEn) (hv : v ∈ w.events)
    (hdue : (w.intevs v).time ≤ w.mainTime) :
    ∃ n,
    (v,w.mainTime) ∈ (run World.step w (replicate n .trigger)).issued.drop w.issued.length := by
  induction hl : w.events generalizing w with
  | nil => exact absurd hv (by simp [hl])
  | cons u rest ih =>
    have hsorted := h.sorted
    rw [hl] at hv hsorted
    have hfirst : (w.intevs u).time ≤ w.mainTime := by
      rcases mem_cons.mp hv with rfl | hv
      · exact hdue
      · have huv := (pairwise_cons.mp hsorted).1 v hv
        rw [le_iff_toNat_le] at huv hdue ⊢
        omega
    obtain ⟨_,_,htimed,hok⟩ := timed_eq { w with events := rest } u
    obtain ⟨rfl,rfl⟩ := hok (.inl hmsix)
    have hstep : w.step .trigger = { w with events := rest }.timed u := by
      rw [step_running hrun]
      change w.eventTrigger = _
      unfold World.eventTrigger
      rw [hl]
      exact if_neg ((not_lt_iff_le _ _).mpr hfirst)
    by_cases hvu : v = u
    · refine ⟨1,?_⟩
      change (v,w.mainTime) ∈ (w.step .trigger).issued.drop w.issued.length
      rw [hstep, htimed, hvu]
      simp
    · have hinv := h.step .trigger
      rw [hstep, htimed] at hinv
      obtain ⟨n,hn⟩ := ih hinv hrun hmsix ((mem_cons.mp hv).resolve_left hvu)
        (by simpa [World.setEv, hvu] using hdue) rfl
      refine ⟨n+1,?_⟩
      rw [replicate_succ, run_cons, hstep, htimed]
      exact drop_subset_drop_left _ (by simp) hn

lemma Due.met {w₀ : World} (h : Due w₀.issued.length v D w) : Met w₀ v D w :=
  h.owed.imp_right fun ⟨hnow,hv,htime⟩ => ⟨hnow,hv,htime,fun hdue hmsix =>
    h.inv.dispatch h.running hmsix hv hdue⟩

/-- An event is armed exactly if it is scheduled once, all along a run, if
and only if no event that is moved was due together with another. In such a
run every interrupt is issued by its deadline. -/
theorem interrupts_issued (es : List Event) :
    ((∀ earlier later, es = earlier++later → ArmedOnce (run World.step {} earlier)) ↔
      Along World.step Apart {} es) ∧
    (Along World.step (fun w e => Apart w e ∧ Deliverable w e) {} es →
      ∀ earlier v itr later, es = earlier++.signal v itr::later → .reset ∉ later →
        Met (run World.step {} earlier) v ((run World.step {} earlier).deadline v itr)
          (run World.step {} es)) := by
  have hiff : ∀ es : List Event, (∀ earlier later, es = earlier++later →
      ArmedOnce (run World.step {} earlier)) ↔ Along World.step Apart {} es := fun es =>
    always_iff_along (I := Inv) (fun w e _ h => Inv.step h e)
      (fun w e _ h hp => h.apart_iff hp e) Inv.init (by intro v; simp) es (fun _ _ => trivial)
  refine ⟨hiff es,?_⟩
  rintro ha earlier v itr later rfl hno
  have hsplit := (along_append World.step _ {} earlier (.signal v itr::later)).mp ha
  have hboth := (along_and World.step).mp hsplit.1
  -- the state of the call
  have hinv : Inv (run World.step {} earlier) :=
    run_always (I := Inv) (fun w e h => Inv.step h e) Inv.init earlier
  have hrun : (run World.step {} earlier).halted = false :=
    run_invariant (I := fun w => w.halted = false) (fun w e h hd => running_step h hd) rfl hboth.2
  have hall := hinv.armedOnce_iff.mp ((hiff earlier).mpr hboth.1 earlier [] (by simp))
  obtain ⟨⟨_,hd⟩,hlater⟩ := hsplit.2
  have hdue : Due (run World.step {} earlier).issued.length v
      ((run World.step {} earlier).deadline v itr)
      ((run World.step {} earlier).step (.signal v itr)) := by
    refine ⟨hinv.step _,running_step hrun hd,?_,?_⟩
    · rw [step_running hrun]
      exact (signal_frame _ v itr).2.1 ▸ le_rfl
    · rw [step_running hrun]
      exact hinv.signal_owed hall v itr
  rw [run_append, run_cons]
  refine Due.met (run_invariant (C := fun w e => (Apart w e ∧ Deliverable w e) ∧ e ≠ .reset)
    (fun w e h hc => h.step hc.1.1 hc.1.2 hc.2) hdue ?_)
  have hkeep : ∀ e ∈ later, e ≠ .reset := fun e he => ne_of_mem_of_not_mem he hno
  exact (along_and World.step).mpr ⟨hlater,along_of_forall World.step hkeep _⟩

def twoVectors : List Event := [.devctrl true,.writeItrn 0 1 5,.writeItrn 0 2 5]

def bothDue : List Event :=
  [.advance 4000000,.signal 2 0,.advance 20000000,.trigger,.advance 20000000,.trigger]

/-- Each vector is dispatched at its time. -/
theorem interrupts_issued_both :
    Along World.step (fun w e => Apart w e ∧ Deliverable w e) {}
      (twoVectors++.signal 1 0::bothDue) ∧
    Met (run World.step {} twoVectors) 1 ((run World.step {} twoVectors).deadline 1 0)
      (run World.step {} (twoVectors++.signal 1 0::bothDue)) ∧
    (run World.step {} (twoVectors++.signal 1 0::bothDue)).issued =
      [(1,10000000),(2,14000000)] := by
  have ha : Along World.step (fun w e => Apart w e ∧ Deliverable w e) {}
      (twoVectors++.signal 1 0::bothDue) := by
    refine ⟨⟨trivial,trivial⟩,⟨trivial,trivial⟩,⟨trivial,trivial⟩,⟨?_,trivial⟩,
      ⟨trivial,trivial⟩,⟨?_,trivial⟩,⟨trivial,trivial⟩,⟨trivial,?_⟩,⟨trivial,trivial⟩,
      ⟨trivial,?_⟩,trivial⟩
    · exact fun _ harmed => absurd harmed (by decide +kernel)
    · exact fun _ harmed => absurd harmed (by decide +kernel)
    · exact fun _ _ _ => .inl (by decide +kernel)
    · exact fun _ _ _ => .inl (by decide +kernel)
  exact ⟨ha,(interrupts_issued _).2 ha twoVectors 1 0 bothDue rfl (by decide),by decide +kernel⟩

def moved : List Event := twoVectors++[.signal 1 0,.signal 2 0,.signal 1 3]

def passed : List Event := moved++[.trigger,.advance 20000000]

/-- Two vectors are due at the same time. Moving the first one to now takes
the second one out of the runner's set: it stays armed, and no interrupt is
issued for it when time has passed its deadline. -/
theorem equal_times_cancelled : ((run World.step {} moved).intevs 2).armed ∧
    (run World.step {} moved).events = [1] ∧
    (run World.step {} (twoVectors++[.signal 1 0])).deadline 2 0 = 10000000 ∧
    (run World.step {} passed).mainTime = 20000000 ∧
    (run World.step {} passed).issued = [(1,0)] ∧
    ¬ ArmedOnce (run World.step {} moved) := by
  refine ⟨by decide +kernel,by decide +kernel,by decide +kernel,by decide +kernel,
    by decide +kernel,fun h => ?_⟩
  exact absurd ((h 2).mp (by decide +kernel)) (by decide +kernel)

end SimBricks.I40e
