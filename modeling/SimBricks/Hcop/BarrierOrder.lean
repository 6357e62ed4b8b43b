import SimBricks.Hcop.BarrierPeriods

/-!
# Arrival order at a barrier

With senders below 64 the arrival count is the number of bits in the bitmap.
Two arrivals for the same generation commute, so a set of arrivals has one
outcome whatever its order, and as long as a barrier is not configured again
its RELEASE messages count the generations from zero.
-/

set_option autoImplicit false

namespace SimBricks.BarrierOrder
open Library Library.Run Library.Bytes BarrierProto BarrierState List Function Finset
  BarrierPeriods

def step (s : BarrierManager) : Op → BarrierManager
  | .setParticipants barrierId n => (s.setParticipants barrierId n).1
  | .arrive barrierId generation senderId => (s.arrive barrierId generation senderId).mgr
  | .handleMessage data len => (s.handleMessage data len).mgr

def releaseOf (id : UInt32) (m : OutMessage) : Option UInt16 :=
  match m.msg with
  | .release hdr => if hdr.barrierId = id then some hdr.generation else none
  | .arrive _ => none

def releases (s : BarrierManager) (ops : List Op) (id : UInt32) : List UInt16 :=
  (trace step emitted s ops).filterMap (releaseOf id)

def Touches (id : UInt32) (op : Op) : Prop :=
  match op with
  | .setParticipants barrierId _ => barrierId = id
  | op => ∃ hdr ∈ arrivalOf op, hdr.barrierId = id

/-- A barrier is configured at most once, and before its first arrival. -/
def ConfiguredFirst (ops : List Op) : Prop :=
  ∀ earlier id n later, ops = earlier++.setParticipants id n::later →
    ∀ op ∈ earlier, ¬ Touches id op

/-- The generation a barrier is in, tracked or not. -/
def generationOf (s : BarrierManager) (id : UInt32) : UInt16 :=
  match s.barriers.lookup id with
  | some b => b.currentGeneration
  | none => 0

def arrivals (id : UInt32) (gen : UInt16) (senders : List UInt8) : List Op :=
  senders.map fun sender => .arrive id gen sender

structure BarrierOk (b : Barrier) : Prop where
  participants : 2 ≤ b.numParticipants.toNat ∧ b.numParticipants.toNat ≤ 64
  count : b.arrivedCount.toNat = Bitmap.popcount b.arrivedBitmap
  below : b.arrivedCount < b.numParticipants

/-! ## Arrivals commute -/

lemma next_generation_ne (g : UInt16) : g ≠ g+1 := by
  intro h
  have := congrArg UInt16.toNat h
  rw [UInt16.toNat_add] at this
  simp only [UInt16.toNat_one] at this
  omega

def arrived (id : UInt32) (gen : UInt16) (b : Barrier) (sender : UInt8) : Barrier :=
  (b.arrive id gen sender).1

variable {b : Barrier} {p : Period} {op : Op} {w : Watch}

section
variable {id : UInt32} {gen : UInt16}

lemma arrived_elsewhere (h : gen ≠ b.currentGeneration) (sender : UInt8) :
    b.arrive id gen sender = (b,[],(b.arrive id gen sender).2.2) := by
  cases b.arrive_spec id gen sender with
  | elsewhere _ _ hb ho => exact Prod.ext hb (Prod.ext ho rfl)
  | duplicate _ hg _ _ _ | counted _ hg _ _ _ _ | release _ hg _ _ _ _ => exact absurd hg h

variable {sender : UInt8} {s : BarrierManager}

lemma arrived_marked (h : b.marked sender) : arrived id gen b sender = b := by
  cases b.arrive_spec id gen sender with
  | elsewhere _ _ hb _ | duplicate _ _ _ hb _ => exact hb
  | counted _ _ hm _ _ _ | release _ _ hm _ _ _ => simp [h] at hm

/-- An arrival that counts either ends the period or marks its sender. -/
lemma arrived_unmarked (hg : gen = b.currentGeneration) (h : b.marked sender = false) : arrived id
    gen b sender = if b.numParticipants ≤ b.arrivedCount+1 then
    ⟨b.currentGeneration+1,b.numParticipants,0,0⟩ else b.countArrival sender := by
  cases b.arrive_spec id gen sender with
  | elsewhere _ hne => exact absurd hg hne
  | duplicate _ _ hm => simp [h] at hm
  | counted _ _ _ hn hb =>
    rw [if_neg hn]
    exact hb
  | release _ _ _ hn hb =>
    rw [if_pos hn]
    exact hb

lemma marked_countArrival (b : Barrier) (x y : UInt8) :
    (b.countArrival x).marked y ↔ b.marked y ∨ (y = x ∧ x < 64) := by
  unfold Barrier.marked Barrier.countArrival
  simp only [Bool.and_eq_true, decide_eq_true_eq]
  by_cases hx : x < 64
  · rw [if_pos hx]
    constructor
    · rintro ⟨hy,hm⟩
      rcases (Bitmap.has_add _ hx hy).mp hm with h | h
      · exact .inr ⟨h,hx⟩
      · exact .inl ⟨hy,h⟩
    · rintro (⟨hy,hm⟩ | ⟨rfl,-⟩)
      · exact ⟨hy,(Bitmap.has_add _ hx hy).mpr (.inr hm)⟩
      · exact ⟨hx,(Bitmap.has_add _ hx hx).mpr (.inl rfl)⟩
  · simp [hx]

lemma countArrival_comm (b : Barrier) (x y : UInt8) :
    (b.countArrival x).countArrival y = (b.countArrival y).countArrival x := by
  unfold Barrier.countArrival
  have hor : ∀ m : UInt64, Bitmap.add (Bitmap.add m x) y = Bitmap.add (Bitmap.add m y) x := by
    intro m
    simp only [Bitmap.add, UInt64.or_assoc]
    rw [UInt64.or_comm (1 <<< x.toUInt64)]
  by_cases hx : x < 64
  · by_cases hy : y < 64
    · simp [hx, hy, hor]
    · simp [hx, hy]
  · by_cases hy : y < 64
    · simp [hx, hy]
    · simp [hx, hy]

lemma arrived_past (h : gen ≠ b.currentGeneration) (sender : UInt8) :
    arrived id gen b sender = b := by
  rw [arrived, arrived_elsewhere h]

lemma arrived_absorbed {x : UInt8} (hx : b.marked x) (y : UInt8) :
    arrived id gen (arrived id gen b y) x = arrived id gen b y := by
  by_cases hg : gen = b.currentGeneration
  · cases hy : b.marked y with
    | true => rw [arrived_marked hy, arrived_marked hx]
    | false =>
      rw [arrived_unmarked hg hy]
      split_ifs with hn
      · exact arrived_past (by rw [hg]; exact next_generation_ne _) x
      · exact arrived_marked ((marked_countArrival b y x).mpr (.inl hx))
  · rw [arrived_past hg y, arrived_past hg x]

lemma arrived_comm (b : Barrier) (x y : UInt8) :
    arrived id gen (arrived id gen b x) y = arrived id gen (arrived id gen b y) x := by
  by_cases hg : gen = b.currentGeneration
  · cases hx : b.marked x with
    | true => rw [arrived_absorbed hx, arrived_marked hx]
    | false =>
      cases hy : b.marked y with
      | true => rw [arrived_absorbed hy, arrived_marked hy]
      | false =>
        rw [arrived_unmarked hg hx, arrived_unmarked hg hy]
        split_ifs with hn
        · have hpast : gen ≠ b.currentGeneration+1 := by
            rw [hg]
            exact next_generation_ne _
          rw [arrived_past hpast, arrived_past hpast]
        · by_cases hxy : x = y
          · rw [hxy]
          · -- neither marks the other, so the second one counts as well
            have hy' : (b.countArrival x).marked y = false := by
              rw [← Bool.not_eq_true, marked_countArrival]
              simp [hy, Ne.symm hxy]
            have hx' : (b.countArrival y).marked x = false := by
              rw [← Bool.not_eq_true, marked_countArrival]
              simp [hx, hxy]
            rw [arrived_unmarked (b := b.countArrival x) hg hy',
              arrived_unmarked (b := b.countArrival y) hg hx', countArrival_comm b x y]
            rfl
  · rw [arrived_past hg x, arrived_past hg y, arrived_past hg x]

open BarrierManager

lemma getOrCreate_put (t : BarrierManager) (id : UInt32) (b : Barrier) :
    (t.put id b).getOrCreate id = .ok (b,t.put id b) := by
  simp [getOrCreate]

lemma step_found {t : BarrierManager} (h : s.getOrCreate id = .ok (b,t)) (x : UInt8) :
    step s (.arrive id gen x) = t.put id (arrived id gen b x) := by
  simp [step, arrive, h, arrived]

lemma run_arrivals {t : BarrierManager} (h : s.getOrCreate id = .ok (b,t)) (x : UInt8)
    (senders : List UInt8) :
    run step s (arrivals id gen (x::senders)) = t.put id
    ((x::senders).foldl (arrived id gen) b) := by
  induction senders generalizing s t b x with
  | nil => exact step_found h x
  | cons y rest ih =>
    have htwice : ∀ c d : Barrier, (t.put id c).put id d = t.put id d := by
      intro c d
      simp [put]
    have hrest := ih (getOrCreate_put t id (arrived id gen b x)) y
    rw [htwice] at hrest
    rw [arrivals, List.map_cons, run_cons, step_found h]
    exact hrest

lemma run_arrivals_refused {status : BarrierStatus} (h : s.getOrCreate id = .error status)
    (senders : List UInt8) : run step s (arrivals id gen senders) = s := by
  induction senders with
  | nil => rfl
  | cons x rest ih =>
    have hs : step s (.arrive id gen x) = s := by simp [step, arrive, h]
    rw [arrivals, List.map_cons, run_cons, hs]
    exact ih

lemma run_arrivals_perm (s : BarrierManager) {senders others : List UInt8}
    (h : senders.Perm others) :
    run step s (arrivals id gen senders) = run step s (arrivals id gen others) := by
  cases hg : s.getOrCreate id with
  | error => rw [run_arrivals_refused hg, run_arrivals_refused hg]
  | ok x =>
    cases senders with
    | nil => rw [nil_perm.mp h]
    | cons =>
      cases others with
      | nil => exact absurd h.eq_nil (by simp)
      | cons =>
        have : RightCommutative (arrived id gen) := ⟨arrived_comm⟩
        rw [run_arrivals hg, run_arrivals hg, h.foldl_eq]

def answer (id : UInt32) (gen : UInt16) (b : Barrier) (sender : UInt8) : List OutMessage :=
  (b.arrive id gen sender).2.1

lemma trace_arrivals {t : BarrierManager} (h : s.getOrCreate id = .ok (b,t))
    (senders : List UInt8) :
    trace step emitted s (arrivals id gen senders) = trace (arrived id gen) (answer id gen) b
    senders := by
  induction senders generalizing s t b with
  | nil => rfl
  | cons x rest ih =>
    have ho : emitted s (.arrive id gen x) = answer id gen b x := by
      simp [emitted, arrive, h, answer]
    rw [arrivals, List.map_cons, trace, trace, step_found h, ho]
    exact congrArg _ (ih (getOrCreate_put t id _))

lemma trace_past (h : gen ≠ b.currentGeneration) (senders : List UInt8) :
    trace (arrived id gen) (answer id gen) b senders = [] := by
  induction senders with
  | nil => rfl
  | cons x rest ih =>
    rw [trace, arrived_past h, ih, answer, arrived_elsewhere h]
    rfl

structure Narrow (p : Period) : Prop where
  senders : ∀ i ∈ p.senders, i < 64
  repeats : p.repeats = 0

lemma Narrow.join (h : Narrow p) (hs : sender < 64) : Narrow (p.join sender) := by
  refine ⟨?_,?_⟩
  · intro i hi
    rcases mem_insert.mp hi with rfl | hi
    · exact hs
    · exact h.senders i hi
  · have h64 : ¬ 64 ≤ sender := UInt8.not_le.mpr hs
    simp [Period.join, h64, h.repeats]

lemma narrow_empty (index : ℕ) : Narrow { index := index } := ⟨by simp,rfl⟩

/-- The senders of a period and those that arrive reach the number of
participants together, or there is no RELEASE; there is never a second one. -/
lemma trace_answer (h : Tallied b p) (hp : Narrow p) (hg : gen = b.currentGeneration)
    {senders : List UInt8} (hs : ∀ x ∈ senders, x < 64) : trace (arrived id gen) (answer id gen) b
    senders = if b.numParticipants.toNat ≤ (p.senders ∪ senders.toFinset).card then
    [makeRelease id gen] else [] := by
  induction senders generalizing b p with
  | nil =>
    have hlt := h.below
    rw [h.count, hp.repeats] at hlt
    rw [trace, toFinset_nil, union_empty, if_neg (by omega)]
  | cons x rest ih =>
    have hx := hs x mem_cons_self
    have hrest : ∀ y ∈ rest, y < 64 := fun y hy => hs y (mem_cons_of_mem x hy)
    have hjoin := hp.join hx
    have hunion : (p.join x).senders ∪ rest.toFinset = p.senders ∪ (x::rest).toFinset := by
      simp [Period.join, insert_union, union_insert]
    have hnext := h.arrive id gen x
    rw [if_pos (hg.trans h.generation)] at hnext
    have hn : (arrived id gen b x).numParticipants = b.numParticipants :=
      numParticipants_arrive b id gen x
    rw [trace]
    cases b.arrive_spec id gen x with
    | elsewhere _ hne => exact absurd hg hne
    | duplicate _ _ hm hb ho | counted _ _ hm _ hb ho =>
      rw [ho, if_pos rfl] at hnext
      have hrec := ih (b := arrived id gen b x) hnext hjoin (by rw [arrived, hb]; exact hg) hrest
      rw [hrec, hunion, hn, answer, ho, nil_append]
    | release _ _ hm hfull hb ho =>
      have hpast : gen ≠ (arrived id gen b x).currentGeneration := by
        rw [arrived, hb, hg]
        exact next_generation_ne _
      have hcount := h.join_count hm
      have hle := UInt16.le_iff_toNat_le.mp hfull
      rw [h.count_succ, ← hcount, hjoin.repeats] at hle
      have hcard : (p.join x).senders.card ≤ (p.senders ∪ (x::rest).toFinset).card := by
        rw [← hunion]
        exact card_le_card subset_union_left
      rw [trace_past hpast, answer, ho, if_pos (by omega), append_nil]

end

/-! ## Runs -/

inductive Moved (w : Watch) (op : Op) : Prop where
  | same (hp : (w.step op).period = w.period) (ho : emitted w.mgr op = [])
  | configured (id : UInt32) (n : UInt16) (hop : op = .setParticipants id n)
      (hp : (w.step op).period = update w.period id {}) (ho : emitted w.mgr op = [])
  | joined (hdr : MsgHeader) (ha : arrivalOf op = some hdr)
      (hp : (w.step op).period = update w.period hdr.barrierId
        ((w.period hdr.barrierId).join hdr.senderId))
      (ho : emitted w.mgr op = [])
  | released (hdr : MsgHeader) (ha : arrivalOf op = some hdr)
      (hp : (w.step op).period = update w.period hdr.barrierId
        (w.period hdr.barrierId).next)
      (ho : emitted w.mgr op = [makeRelease hdr.barrierId (w.period hdr.barrierId).generation])

lemma moved_arrival (hdr : MsgHeader) (h : InStep w) (ha : arrivalOf op = some hdr)
    (hs : w.step op = w.observe hdr (w.mgr.arrive hdr.barrierId hdr.generation hdr.senderId))
    (ho : emitted w.mgr op = (w.mgr.arrive hdr.barrierId hdr.generation hdr.senderId).out) :
    Moved w op := by
  cases h.observed hdr with
  | passed hp hout => exact .same (by rw [hs, hp]) (ho.trans hout)
  | joined _ hp hout => exact .joined hdr ha (by rw [hs, hp]) (ho.trans hout)
  | released b hl hg _ _ hp hout =>
    refine .released hdr ha (by rw [hs, hp]) ?_
    rw [ho, hout, hg, (h.tracked hl).generation]

lemma moved (w : Watch) (op : Op) (h : InStep w) : Moved w op := by
  cases op with
  | setParticipants id n =>
    by_cases hn : n < 2 ∨ 64 < n
    · exact .same (by simp [Watch.step, BarrierManager.setParticipants, hn]) rfl
    · exact .configured id n rfl (by simp [Watch.step, BarrierManager.setParticipants, hn]) rfl
  | arrive id gen sender => exact moved_arrival ⟨sender,gen,id⟩ h rfl rfl rfl
  | handleMessage data len =>
    cases hp : parse data len with
    | none =>
      refine .same ?_ ?_
      · simp [Watch.step, hp]
      · simp [emitted, BarrierManager.handleMessage, hp]
    | some hdr =>
      refine moved_arrival hdr h hp ?_ ?_
      · simp [Watch.step, BarrierManager.handleMessage, hp]
      · simp [emitted, BarrierManager.handleMessage, hp]

lemma watch_mgr_step (w : Watch) (op : Op) : (w.step op).mgr = step w.mgr op := by
  cases op with
  | setParticipants id n =>
    by_cases hn : n < 2 ∨ 64 < n
    · simp [Watch.step, step, BarrierManager.setParticipants, hn]
    · simp [Watch.step, step, BarrierManager.setParticipants, hn]
  | arrive => exact w.observe_mgr _ _
  | handleMessage data len =>
    simp only [Watch.step, step]
    cases hp : parse data len with
    | none => rfl
    | some => exact w.observe_mgr _ _

lemma watch_mgr (w : Watch) (ops : List Op) : (run Watch.step w ops).mgr = run step w.mgr ops := by
  induction ops generalizing w with
  | nil => rfl
  | cons op rest ih =>
    rw [run_cons, run_cons, ih, watch_mgr_step]

def Numbered (op : Op) : Prop := ∀ hdr ∈ arrivalOf op, hdr.senderId < 64

structure Counted (w : Watch) : Prop where
  inStep : InStep w
  narrow : ∀ id, Narrow (w.period id)

lemma narrow_update {period : UInt32 → Period} (h : ∀ id, Narrow (period id)) (id : UInt32)
    (hp : Narrow p) (i : UInt32) : Narrow (update period id p i) := by
  by_cases hi : i = id
  · subst hi
    simpa using hp
  · simpa [hi] using h i

lemma Counted.step (h : Counted w) (hop : Numbered op) : Counted (w.step op) := by
  refine ⟨h.inStep.step op,?_⟩
  cases moved w op h.inStep with
  | same hp =>
    rw [hp]
    exact h.narrow
  | configured id n _ hp =>
    rw [hp]
    exact narrow_update h.narrow id (narrow_empty 0)
  | joined hdr ha hp =>
    rw [hp]
    exact narrow_update h.narrow _ ((h.narrow _).join (hop hdr ha))
  | released hdr _ hp =>
    rw [hp]
    exact narrow_update h.narrow _ (narrow_empty _)

lemma counted_init (maxBarriers : UInt32) (defaultParticipants : UInt16) :
    Counted (.init maxBarriers defaultParticipants) :=
  ⟨fun _ => rfl,fun _ => narrow_empty 0⟩

lemma Counted.barrierOk (h : Counted w) {id : UInt32} (hl : w.mgr.barriers.lookup id = some b) :
    BarrierOk b := by
  have ht := h.inStep.tracked hl
  have hn := h.narrow id
  refine ⟨ht.valid,?_,UInt16.lt_iff_toNat_lt.mpr ht.below⟩
  rw [ht.count, hn.repeats, add_zero, Bitmap.popcount_eq_card hn.senders ht.bitmap]

lemma releases_snoc (s : BarrierManager) (ops : List Op) (op : Op) (id : UInt32) :
    releases s (ops++[op]) id = releases s ops id++(emitted (run step s ops) op).filterMap
    (releaseOf id) := by
  rw [releases, trace_append, filterMap_append]
  simp only [trace, append_nil]
  rfl

lemma ConfiguredFirst.initial {ops : List Op} (h : ConfiguredFirst (ops++[op])) :
    ConfiguredFirst ops :=
  fun earlier id n later hs => h earlier id n (later++[op]) (by rw [hs]; simp)

lemma touches_arrival {hdr : MsgHeader} (h : arrivalOf op = some hdr) :
    Touches hdr.barrierId op := by
  cases op with
  | setParticipants => cases h
  | arrive _ _ _ | handleMessage _ _ => exact ⟨hdr,h,rfl⟩

/-- The RELEASE messages of a barrier count its periods; a barrier nothing has
touched has none. -/
lemma releases_counted (maxBarriers : UInt32) (defaultParticipants : UInt16) (ops : List Op)
    (h : ConfiguredFirst ops) (id : UInt32) :
    releases (.new maxBarriers defaultParticipants) ops id =
      (List.range ((run Watch.step (.init maxBarriers defaultParticipants) ops).period
      id).index).map
        UInt16.ofNat ∧
    ((∀ op ∈ ops, ¬ Touches id op) →
      (run Watch.step (.init maxBarriers defaultParticipants) ops).period id = {}) := by
  induction ops using List.reverseRecOn with
  | nil => exact ⟨rfl,fun _ => rfl⟩
  | append_singleton ops op ih =>
    obtain ⟨hlog,hfresh⟩ := ih h.initial
    have hw : (run Watch.step (.init maxBarriers defaultParticipants) ops).mgr =
        run step (.new maxBarriers defaultParticipants) ops := watch_mgr _ _
    have hin : InStep (run Watch.step (.init maxBarriers defaultParticipants) ops) :=
      run_always (fun w op hw => hw.step op) (counted_init _ _).inStep ops
    rw [releases_snoc, ← hw, hlog, run_append, run_cons, run_nil]
    generalize run Watch.step (.init maxBarriers defaultParticipants) ops = w at hfresh hin
    have hfresh' : (∀ o ∈ ops++[op], ¬ Touches id o) → w.period id = {} :=
      fun hno => hfresh fun o ho => hno o (mem_append_left _ ho)
    cases moved w op hin with
    | same hp ho =>
      rw [hp, ho]
      exact ⟨append_nil _,hfresh'⟩
    | configured i n hop hp ho =>
      subst hop
      have hbefore := h ops i n [] rfl
      rw [hp, ho]
      by_cases hi : id = i
      · subst hi
        simp [hfresh hbefore]
      · rw [update_of_ne hi]
        exact ⟨append_nil _,hfresh'⟩
    | joined hdr ha hp ho =>
      rw [hp, ho]
      by_cases hi : id = hdr.barrierId
      · subst hi
        exact ⟨by simp [Period.join],fun hno => absurd (touches_arrival ha) (hno op (by simp))⟩
      · rw [update_of_ne hi]
        exact ⟨append_nil _,hfresh'⟩
    | released hdr ha hp ho =>
      rw [hp, ho]
      by_cases hi : id = hdr.barrierId
      · subst hi
        refine ⟨?_,fun hno => absurd (touches_arrival ha) (hno op (by simp))⟩
        simp [Period.next, range_succ, makeRelease, releaseOf, Period.generation]
      · rw [update_of_ne hi]
        refine ⟨?_,hfresh'⟩
        simp [makeRelease, releaseOf, Ne.symm hi]

lemma Counted.found (h : Counted w) {id : UInt32} {N : ℕ} (hN : participants w.mgr id = some N) :
    ∃ b t, w.mgr.getOrCreate id = .ok (b,t) ∧ Tallied b (w.period id) ∧ b.numParticipants.toNat =
    N ∧ generationOf w.mgr id = b.currentGeneration := by
  unfold participants at hN
  cases hg : w.mgr.getOrCreate id with
  | error => simp [hg] at hN
  | ok x =>
    obtain ⟨b,t⟩ := x
    refine ⟨b,t,rfl,(h.inStep.found hg).1,by simpa [hg] using hN,?_⟩
    rcases BarrierManager.getOrCreate_ok hg with ⟨hl,-⟩ | ⟨hl,-,-,-,rfl,-⟩
    · simp [generationOf, hl]
    · simp [generationOf, hl]

/-- In every run with senders below 64 in which a barrier is configured at
most once and before its first arrival: the barriers are consistent, each
one's RELEASE messages carry the generations from zero on, and arrivals for
the current generation have the same outcome in every order, with one RELEASE
if they come from as many senders as there are participants. -/
theorem barrier_order (maxBarriers : UInt32) (defaultParticipants : UInt16) (ops : List Op)
    (hops : ∀ op ∈ ops, Numbered op) (hfirst : ConfiguredFirst ops) :
    let s := run step (.new maxBarriers defaultParticipants) ops
    (∀ id b, s.barriers.lookup id = some b → BarrierOk b) ∧
    (∀ id, ∃ k, releases (.new maxBarriers defaultParticipants) ops id =
      (List.range k).map UInt16.ofNat) ∧
    (∀ id (senders : List UInt8), (∀ x ∈ senders, x < 64) → ∀ others, senders.Perm others →
      run step s (arrivals id (generationOf s id) senders) =
        run step s (arrivals id (generationOf s id) others) ∧
      ∀ N, participants s id = some N → senders.toFinset.card = N →
        trace step emitted s (arrivals id (generationOf s id) others) =
          [makeRelease id (generationOf s id)]) := by
  intro s
  have hc : Counted (run Watch.step (.init maxBarriers defaultParticipants) ops) :=
    run_invariant (fun w op hw hop => hw.step hop) (counted_init _ _)
      (along_of_forall _ hops _)
  have hs : (run Watch.step (.init maxBarriers defaultParticipants) ops).mgr = s := watch_mgr _ _
  refine ⟨?_,fun id => ⟨_,(releases_counted _ _ ops hfirst id).1⟩,?_⟩
  · intro id b hl
    exact hc.barrierOk (hs ▸ hl)
  · intro id senders hsend others hperm
    refine ⟨run_arrivals_perm s hperm,fun N hN hcard => ?_⟩
    obtain ⟨b,t,hg,ht,hn,hgen⟩ := hc.found (hs ▸ hN)
    rw [hs] at hg hgen
    have hothers : ∀ x ∈ others, x < 64 := fun x hx => hsend x (hperm.mem_iff.mpr hx)
    rw [trace_arrivals hg, trace_answer ht (hc.narrow id) hgen hothers, if_pos]
    rw [hn, ← hcard, toFinset_eq_of_perm _ _ hperm]
    exact card_le_card subset_union_right

/-- A barrier of two after one period; senders 0 and 3 arrive in either order,
one of them twice. -/
theorem barrier_order_pair :
    (∀ op ∈ [Op.setParticipants 5 2,.arrive 5 0 0,.arrive 5 0 1],Numbered op) ∧
    ConfiguredFirst [.setParticipants 5 2,.arrive 5 0 0,.arrive 5 0 1] ∧
    trace step emitted
      (run step (.new 1000 3) [.setParticipants 5 2,.arrive 5 0 0,.arrive 5 0 1])
      (arrivals 5 1 [3,0,3]) = [makeRelease 5 1] := by
  have hops : ∀ op ∈ [Op.setParticipants 5 2,.arrive 5 0 0,.arrive 5 0 1],Numbered op := by
    simp [Numbered, arrivalOf]
  have hfirst : ConfiguredFirst [.setParticipants 5 2,.arrive 5 0 0,.arrive 5 0 1] := by
    intro earlier id n later hs op hop
    rcases earlier with _ | ⟨a,_ | ⟨b,_ | ⟨c,_⟩⟩⟩
    · cases hop
    · simp at hs
    · simp at hs
    · simp at hs
  refine ⟨hops,hfirst,?_⟩
  have hperm : List.Perm [3,3,0] [(3 : UInt8),0,3] := by decide
  exact ((barrier_order 1000 3 _ hops hfirst).2.2 5 [3,3,0] (by simp) [3,0,3] hperm).2 2
    (by decide +kernel) (by decide)

end SimBricks.BarrierOrder
