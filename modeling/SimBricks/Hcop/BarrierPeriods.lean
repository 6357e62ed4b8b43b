import SimBricks.Hcop.BarrierState

/-!
# Periods of a barrier

A barrier seen as the set of senders that have arrived since its last
RELEASE. Senders from 64 up leave no mark in the bitmap, so the arrival
count is the size of that set plus the arrivals such senders repeat. The
RELEASE comes with the last participant exactly when nothing was repeated.
-/

set_option autoImplicit false

namespace SimBricks.BarrierPeriods
open Library Library.Run Library.Bytes BarrierProto BarrierState Function UInt16 Finset

/-- The senders of the current period, the repetitions the bitmap does not
see, and the number of RELEASE messages since the barrier was configured. -/
structure Period where
  senders : Finset UInt8 := ∅
  repeats : ℕ := 0
  index : ℕ := 0

namespace Period

def generation (p : Period) : UInt16 := ofNat p.index

def join (p : Period) (senderId : UInt8) : Period := { p with
    senders := insert senderId p.senders
    repeats := if 64 ≤ senderId ∧ senderId ∈ p.senders then p.repeats+1 else p.repeats }

def next (p : Period) : Period := { index := p.index+1 }

end Period

inductive Op where
  | setParticipants (barrierId : UInt32) (n : UInt16)
  | arrive (barrierId : UInt32) (generation : UInt16) (senderId : UInt8)
  | handleMessage (data : Memory) (len : ℕ)

structure Watch where
  mgr : BarrierManager
  period : UInt32 → Period

def arrivalOf : Op → Option MsgHeader
  | .setParticipants _ _ => none
  | .arrive barrierId generation senderId => some ⟨senderId,generation,barrierId⟩
  | .handleMessage data len => parse data len

def emitted (s : BarrierManager) : Op → List OutMessage
  | .setParticipants _ _ => []
  | .arrive barrierId generation senderId => (s.arrive barrierId generation senderId).out
  | .handleMessage data len => (s.handleMessage data len).out

/-- An ARRIVE at a configured barrier for its current generation joins the
period, or ends it if it is answered. -/
def Watch.observe (w : Watch) (hdr : MsgHeader) (o : Outcome) : Watch :=
  let p := w.period hdr.barrierId
  match w.mgr.getOrCreate hdr.barrierId with
  | .error _ => ⟨o.mgr,w.period⟩
  | .ok _ =>
    if hdr.generation = p.generation then
      ⟨o.mgr,update w.period hdr.barrierId
        (if o.out = [] then p.join hdr.senderId else p.next)⟩
    else ⟨o.mgr,w.period⟩

def Watch.step (w : Watch) : Op → Watch
  | .setParticipants barrierId n =>
    match w.mgr.setParticipants barrierId n with
    | (mgr,.kOk) => ⟨mgr,update w.period barrierId {}⟩
    | (mgr,_) => ⟨mgr,w.period⟩
  | .arrive barrierId generation senderId =>
    w.observe ⟨senderId,generation,barrierId⟩ (w.mgr.arrive barrierId generation senderId)
  | .handleMessage data len =>
    match parse data len with
    | none => ⟨(w.mgr.handleMessage data len).mgr,w.period⟩
    | some hdr => w.observe hdr (w.mgr.handleMessage data len)

def Watch.init (maxBarriers : UInt32) (defaultParticipants : UInt16) : Watch :=
  ⟨.new maxBarriers defaultParticipants,fun _ => {}⟩

lemma Watch.observe_mgr (w : Watch) (hdr : MsgHeader) (o : Outcome) :
    (w.observe hdr o).mgr = o.mgr := by
  unfold observe
  dsimp only
  cases w.mgr.getOrCreate hdr.barrierId with
  | error => rfl
  | ok =>
    split_ifs <;> rfl

def participants (s : BarrierManager) (barrierId : UInt32) : Option ℕ :=
  match s.getOrCreate barrierId with
  | .error _ => none
  | .ok (b,_) => some b.numParticipants.toNat

/-- This ARRIVE makes the number of distinct senders of the current generation
equal to the number of participants. -/
def Completes (w : Watch) (hdr : MsgHeader) : Prop := ∃ N ∈ participants w.mgr hdr.barrierId,
    hdr.generation = (w.period hdr.barrierId).generation ∧
    (w.period hdr.barrierId).senders.card < N ∧
    (insert hdr.senderId (w.period hdr.barrierId).senders).card = N

/-- A RELEASE is put out exactly by the ARRIVE that completes a period. -/
def ReleaseExact (w : Watch) (op : Op) : Prop :=
  match arrivalOf op with
  | none => emitted w.mgr op = []
  | some hdr =>
    (Completes w hdr → emitted w.mgr op = [makeRelease hdr.barrierId hdr.generation]) ∧
    (¬ Completes w hdr → emitted w.mgr op = [])

/-- The ARRIVE brings the count to the number of participants, and in its
period, itself included, a sender from 64 up has arrived twice. -/
def Overcounted (w : Watch) (op : Op) : Prop :=
  ∃ hdr ∈ arrivalOf op, ∃ b t, w.mgr.getOrCreate hdr.barrierId = .ok (b,t) ∧
    hdr.generation = b.currentGeneration ∧ b.marked hdr.senderId = false ∧
    b.numParticipants ≤ b.arrivedCount+1 ∧
    0 < ((w.period hdr.barrierId).join hdr.senderId).repeats

/-! ## One barrier -/

structure Tallied (b : Barrier) (p : Period) : Prop where
  valid : 2 ≤ b.numParticipants.toNat ∧ b.numParticipants.toNat ≤ 64
  count : b.arrivedCount.toNat = p.senders.card+p.repeats
  below : b.arrivedCount.toNat < b.numParticipants.toNat
  bitmap : ∀ i < 64, Bitmap.has b.arrivedBitmap i ↔ i ∈ p.senders
  generation : b.currentGeneration = p.generation

lemma tallied_fresh {n : UInt16} (h2 : 2 ≤ n) (h64 : n ≤ 64) : Tallied ⟨0,n,0,0⟩ {} := by
  have h2' : 2 ≤ n.toNat := le_iff_toNat_le.mp h2
  have h64' : n.toNat ≤ 64 := le_iff_toNat_le.mp h64
  refine ⟨⟨h2',h64'⟩,rfl,?_,?_,rfl⟩
  · show 0 < n.toNat
    omega
  · intro i hi
    simp [Bitmap.has_zero hi]

section
variable {b : Barrier} {p : Period} {sender : UInt8}

variable (h : Tallied b p)
include h

lemma Tallied.marked : b.marked sender ↔ sender < 64 ∧ sender ∈ p.senders := by
  rw [Barrier.marked, Bool.and_eq_true, decide_eq_true_eq]
  exact and_congr_right fun hs => h.bitmap sender hs

lemma Tallied.count_succ : (b.arrivedCount+1).toNat = b.arrivedCount.toNat+1 := by
  have hb := h.below
  have hv := h.valid.2
  rw [UInt16.toNat_add]
  apply Nat.mod_eq_of_lt
  simp only [UInt16.toNat_one]
  omega

/-- An unmarked sender is new, or it repeats itself from 64 up. -/
lemma Tallied.join_count (hm : b.marked sender = false) :
    (p.join sender).senders.card+(p.join sender).repeats = b.arrivedCount.toNat+1 := by
  rw [← Bool.not_eq_true, h.marked, not_and] at hm
  have hc := h.count
  by_cases hs : sender ∈ p.senders
  · have h64 : 64 ≤ sender := UInt8.not_lt.mp fun hlt => hm hlt hs
    simp only [Period.join, insert_eq_of_mem hs, h64, hs, true_and, if_true]
    omega
  · simp only [Period.join, card_insert_of_notMem hs, hs, and_false, if_false]
    omega

lemma Tallied.join_marked (hm : b.marked sender) : p.join sender = p := by
  obtain ⟨hlt,hs⟩ := h.marked.mp hm
  have h64 : ¬ 64 ≤ sender := UInt8.not_le.mpr hlt
  simp only [Period.join, insert_eq_of_mem hs, h64, false_and, if_false]

lemma Tallied.countArrival (hm : b.marked sender = false)
    (hn : ¬ b.numParticipants ≤ b.arrivedCount+1) :
    Tallied (b.countArrival sender) (p.join sender) := by
  refine ⟨h.valid,?_,?_,?_,h.generation⟩
  · exact h.count_succ.trans (h.join_count hm).symm
  · exact UInt16.lt_iff_toNat_lt.mp (UInt16.not_le.mp hn)
  · intro i hi
    have hb := h.bitmap i hi
    unfold Barrier.countArrival Period.join
    by_cases hs : sender < 64
    · simp only [hs, if_true, Bitmap.has_add _ hs hi, mem_insert, hb]
    · have hne : i ≠ sender := fun he => hs (he ▸ hi)
      simp only [hs, if_false, mem_insert, hne, false_or, hb]

lemma Tallied.next : Tallied ⟨b.currentGeneration+1,b.numParticipants,0,0⟩ p.next := by
  refine ⟨h.valid,rfl,?_,?_,?_⟩
  · have hv := h.valid.1
    show 0 < b.numParticipants.toNat
    omega
  · intro i hi
    simp [Bitmap.has_zero hi, Period.next]
  · show b.currentGeneration+1 = ofNat (p.index+1)
    rw [h.generation, ofNat_add]
    rfl

/-- Whatever the arrival, barrier and period stay in step. -/
lemma Tallied.arrive (id : UInt32) (gen : UInt16) (sender : UInt8) :
    Tallied (b.arrive id gen sender).1 (if gen = p.generation then if (b.arrive id gen sender).2.1 =
    [] then p.join sender else p.next else p) := by
  rw [← h.generation]
  cases b.arrive_spec id gen sender with
  | elsewhere _ hg hb =>
    rw [if_neg hg, hb]
    exact h
  | duplicate _ hg hm hb ho =>
    rw [if_pos hg, if_pos ho, hb, h.join_marked hm]
    exact h
  | counted _ hg hm hn hb ho =>
    rw [if_pos hg, if_pos ho, hb]
    exact h.countArrival hm hn
  | release _ hg hm hn hb ho =>
    rw [if_pos hg, ho, if_neg (by simp), hb]
    exact h.next

omit h

lemma arrive_out (b : Barrier) (id : UInt32) (gen : UInt16) (sender : UInt8) :
    (b.arrive id gen sender).2.1 = if gen = b.currentGeneration ∧ b.marked sender = false ∧
    b.numParticipants ≤ b.arrivedCount+1 then [makeRelease id gen] else [] := by
  cases b.arrive_spec id gen sender with
  | elsewhere _ hg hb ho => rw [ho, if_neg fun hc => hg hc.1]
  | duplicate _ hg hm hb ho => rw [ho, if_neg fun hc => by simp [hm] at hc]
  | counted _ hg hm hn hb ho => rw [ho, if_neg fun hc => hn hc.2.2]
  | release _ hg hm hn hb ho => rw [ho, if_pos ⟨hg,hm,hn⟩]

/-- The distinct senders reach the number of participants exactly if the count
does without a repetition. -/
lemma Tallied.completes_iff (h : Tallied b p) (sender : UInt8) :
    (p.senders.card < b.numParticipants.toNat ∧
      (insert sender p.senders).card = b.numParticipants.toNat) ↔
    (b.marked sender = false ∧ b.numParticipants ≤ b.arrivedCount+1) ∧
      (p.join sender).repeats = 0 := by
  have hc := h.count
  have hb := h.below
  cases hm : b.marked sender with
  | true =>
    have hs := (h.marked.mp hm).2
    rw [insert_eq_of_mem hs]
    simp only [Bool.true_eq_false, false_and, iff_false]
    omega
  | false =>
    have ha := h.join_count hm
    have hsucc := h.count_succ
    have hle : b.numParticipants ≤ b.arrivedCount+1 ↔
        b.numParticipants.toNat ≤ b.arrivedCount.toNat+1 := by
      rw [le_iff_toNat_le, hsucc]
    have hins : (p.join sender).senders = insert sender p.senders := rfl
    rw [hins] at ha
    simp only [true_and, hle]
    omega

end

/-! ## All barriers -/

/-- Tracked barriers agree with their periods, untracked ones have none. -/
def InStep (w : Watch) : Prop := ∀ id, match w.mgr.barriers.lookup id with
    | some b => Tallied b (w.period id)
    | none => w.period id = {}

variable {id : UInt32} {w : Watch}

lemma InStep.tracked (h : InStep w) {b : Barrier} (hl : w.mgr.barriers.lookup id = some b) :
    Tallied b (w.period id) := by
  have hid := h id
  simp only [hl] at hid
  exact hid

open BarrierManager

lemma InStep.found (h : InStep w) {b : Barrier} {t : BarrierManager}
    (hg : w.mgr.getOrCreate id = .ok (b,t)) :
    Tallied b (w.period id) ∧ ∀ i, i ≠ id → t.barriers.lookup i = w.mgr.barriers.lookup i := by
  rcases getOrCreate_ok hg with ⟨hl,rfl⟩ | ⟨hl,-,h2,h64,rfl,rfl⟩
  · exact ⟨h.tracked hl,fun _ _ => rfl⟩
  · have hid := h id
    simp only [hl] at hid
    rw [hid]
    exact ⟨tallied_fresh h2 h64,fun i hi => by simp [hi]⟩

lemma InStep.put (h : InStep w) {t : BarrierManager} {b : Barrier} {p : Period}
    (ht : ∀ i, i ≠ id → t.barriers.lookup i = w.mgr.barriers.lookup i) (hb : Tallied b p) :
    InStep ⟨t.put id b,update w.period id p⟩ := by
  intro i
  by_cases hi : i = id
  · subst hi
    simpa using hb
  · simpa [hi, ht i hi] using h i

lemma InStep.observe (h : InStep w) (hdr : MsgHeader) :
    InStep (w.observe hdr (w.mgr.arrive hdr.barrierId hdr.generation hdr.senderId)) := by
  unfold Watch.observe arrive
  cases hg : w.mgr.getOrCreate hdr.barrierId with
  | error => exact h
  | ok x =>
    obtain ⟨b,t⟩ := x
    obtain ⟨hb,ht⟩ := h.found hg
    have hput := h.put ht (hb.arrive hdr.barrierId hdr.generation hdr.senderId)
    by_cases hgen : hdr.generation = (w.period hdr.barrierId).generation
    · simpa [hgen] using hput
    · simpa [hgen] using hput

lemma InStep.step (h : InStep w) (op : Op) : InStep (w.step op) := by
  cases op with
  | setParticipants id n =>
    simp only [Watch.step, setParticipants]
    by_cases hn : n < 2 ∨ 64 < n
    · simpa only [hn, if_true] using h
    · simp only [hn, if_false]
      obtain ⟨h2,h64⟩ := not_or.mp hn
      exact h.put (fun _ _ => rfl) (tallied_fresh (UInt16.not_lt.mp h2) (UInt16.not_lt.mp h64))
  | arrive id gen sender => exact h.observe ⟨sender,gen,id⟩
  | handleMessage data len =>
    simp only [Watch.step, handleMessage]
    cases parse data len with
    | none => exact h
    | some hdr => exact h.observe hdr

inductive Observed (w : Watch) (hdr : MsgHeader) (o : Outcome) : Prop where
  | passed (hp : (w.observe hdr o).period = w.period) (ho : o.out = [])
  | joined (hg : hdr.generation = (w.period hdr.barrierId).generation)
      (hp : (w.observe hdr o).period = update w.period hdr.barrierId
        ((w.period hdr.barrierId).join hdr.senderId))
      (ho : o.out = [])
  | released (b : Barrier) (hl : w.mgr.barriers.lookup hdr.barrierId = some b)
      (hg : hdr.generation = b.currentGeneration) (hm : b.marked hdr.senderId = false)
      (hn : b.numParticipants ≤ b.arrivedCount+1)
      (hp : (w.observe hdr o).period = update w.period hdr.barrierId (w.period hdr.barrierId).next)
      (ho : o.out = [makeRelease hdr.barrierId hdr.generation])

lemma InStep.observed (h : InStep w) (hdr : MsgHeader) :
    Observed w hdr (w.mgr.arrive hdr.barrierId hdr.generation hdr.senderId) := by
  cases hg : w.mgr.getOrCreate hdr.barrierId with
  | error =>
    refine .passed ?_ ?_
    · simp [Watch.observe, hg]
    · simp [arrive, hg]
  | ok x =>
    obtain ⟨b,t⟩ := x
    obtain ⟨hb,-⟩ := h.found hg
    have hout : (w.mgr.arrive hdr.barrierId hdr.generation hdr.senderId).out =
        (b.arrive hdr.barrierId hdr.generation hdr.senderId).2.1 := by
      simp [arrive, hg]
    by_cases hgen : hdr.generation = (w.period hdr.barrierId).generation
    · rw [arrive_out] at hout
      split_ifs at hout with hn
      · obtain ⟨hcur,hm,hn⟩ := hn
        have hl : w.mgr.barriers.lookup hdr.barrierId = some b := by
          rcases getOrCreate_ok hg with ⟨hl,-⟩ | ⟨-,-,h2,-,rfl,-⟩
          · exact hl
          · have h1 : w.mgr.defaultParticipants ≤ 1 := hn
            exact absurd (UInt16.le_trans h2 h1) (by decide)
        refine .released b hl hcur hm hn ?_ hout
        simp only [Watch.observe, hg, if_pos hgen, hout, List.cons_ne_nil, if_false]
      · refine .joined hgen ?_ hout
        simp only [Watch.observe, hg, if_pos hgen, hout, if_true]
    · refine .passed ?_ ?_
      · simp [Watch.observe, hg, hgen]
      · rw [hout, arrive_out, if_neg fun hn => hgen (hn.1.trans hb.generation)]

/-- One arrival is answered exactly if it completes its period, unless it is
counted on top of a repetition. -/
lemma InStep.exact_iff (h : InStep w) (hdr : MsgHeader) :
    ((Completes w hdr →
        (w.mgr.arrive hdr.barrierId hdr.generation hdr.senderId).out =
          [makeRelease hdr.barrierId hdr.generation]) ∧
      (¬ Completes w hdr →
        (w.mgr.arrive hdr.barrierId hdr.generation hdr.senderId).out = [])) ↔
    ¬ ∃ b t, w.mgr.getOrCreate hdr.barrierId = .ok (b,t) ∧
      hdr.generation = b.currentGeneration ∧ b.marked hdr.senderId = false ∧
      b.numParticipants ≤ b.arrivedCount+1 ∧
      0 < ((w.period hdr.barrierId).join hdr.senderId).repeats := by
  unfold Completes participants arrive
  cases hg : w.mgr.getOrCreate hdr.barrierId with
  | error => simp
  | ok x =>
    obtain ⟨b,t⟩ := x
    obtain ⟨hb,-⟩ := h.found hg
    have hcomp := hb.completes_iff hdr.senderId
    have hout := arrive_out b hdr.barrierId hdr.generation hdr.senderId
    simp only [Option.mem_def, Option.some.injEq, exists_eq_left', hout, ← hb.generation, hcomp,
      Except.ok.injEq, Prod.mk.injEq, pos_iff_ne_zero]
    by_cases hn : hdr.generation = b.currentGeneration ∧ b.marked hdr.senderId = false ∧
        b.numParticipants ≤ b.arrivedCount+1
    · obtain ⟨hgen,hm,hle⟩ := hn
      by_cases hr : ((w.period hdr.barrierId).join hdr.senderId).repeats = 0
      · simp [hgen, hm, hle, hr]
      · simp [hgen, hm, hle, hr]
    · rw [if_neg hn]
      apply iff_of_true
      · exact ⟨fun hc => absurd ⟨hc.1,hc.2.1⟩ hn,fun _ => rfl⟩
      · rintro ⟨_,_,⟨rfl,rfl⟩,hgen,hm,hle,-⟩
        exact hn ⟨hgen,hm,hle⟩

lemma releaseExact_iff (w : Watch) (op : Op) (h : InStep w) :
    ReleaseExact w op ↔ ¬ Overcounted w op := by
  cases op with
  | setParticipants => simp [ReleaseExact, Overcounted, arrivalOf, emitted]
  | arrive id gen sender =>
    simpa [ReleaseExact, Overcounted, arrivalOf, emitted] using h.exact_iff ⟨sender,gen,id⟩
  | handleMessage data len =>
    simp only [ReleaseExact, Overcounted, arrivalOf, emitted, handleMessage]
    cases parse data len with
    | none => simp
    | some hdr => simpa using h.exact_iff hdr

/-- In every run a RELEASE is put out exactly at the ARRIVE that brings the
distinct senders of a period to the number of participants, exactly if no
ARRIVE completes the count of a period with a repeated sender from 64 up. -/
theorem barrier_release_exact_iff (maxBarriers : UInt32) (defaultParticipants : UInt16)
    (ops : List Op) :
    (∀ earlier op later, ops = earlier++op::later →
      ReleaseExact (run Watch.step (.init maxBarriers defaultParticipants) earlier) op) ↔
    Along Watch.step (fun w op => ¬ Overcounted w op) (.init maxBarriers defaultParticipants)
      ops := by
  rw [← along_iff]
  refine along_congr (fun w op hw => hw.step op) releaseExact_iff ?_ ops
  intro id
  rfl

/-- Sender 64 arrives twice at a barrier of two. -/
theorem released_by_one_sender :
    emitted (run Watch.step (.init 1000 3) [.setParticipants 5 2,.arrive 5 0 64]).mgr
      (.arrive 5 0 64) = [makeRelease 5 0] ∧
    ¬ ReleaseExact (run Watch.step (.init 1000 3) [.setParticipants 5 2,.arrive 5 0 64])
      (.arrive 5 0 64) := by
  have hout : emitted (run Watch.step (.init 1000 3) [.setParticipants 5 2,.arrive 5 0 64]).mgr
      (.arrive 5 0 64) = [makeRelease 5 0] := by decide +kernel
  have hcard : (insert 64 ((run Watch.step (.init 1000 3)
      [.setParticipants 5 2,.arrive 5 0 64]).period 5).senders).card = 1 := by decide +kernel
  have hpart : participants (run Watch.step (.init 1000 3)
      [.setParticipants 5 2,.arrive 5 0 64]).mgr 5 = some 2 := by decide +kernel
  refine ⟨hout,fun h => ?_⟩
  have hnone := h.2 (fun ⟨N,hN,_,_,hc⟩ => by
    rw [Option.mem_def, hpart] at hN
    rw [hcard] at hc
    simp [← hc] at hN)
  rw [hout] at hnone
  cases hnone

end SimBricks.BarrierPeriods
