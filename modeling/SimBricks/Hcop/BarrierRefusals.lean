import SimBricks.Hcop.BarrierOrder

/-!
# Refused calls of the barrier manager

Generations are compared as plain 16-bit numbers. After a RELEASE of
generation g the barrier is in generation g+1 modulo 2^16, so around the wrap
an old generation looks like a future one and a future one like an old one.
Calls that are refused should leave no trace, and the table should keep to
its capacity; `SetParticipants` does not look at the capacity, and an arrival
configures its barrier before it looks at the generation.
-/

set_option autoImplicit false

namespace SimBricks.BarrierRefusals
open Library Library.Run Library.Bytes BarrierProto BarrierState UInt16
  BarrierPeriods BarrierOrder

def outcomeOf (s : BarrierManager) : Op → Outcome
  | .setParticipants barrierId n =>
    let (mgr,status) := s.setParticipants barrierId n
    ⟨mgr,[],status⟩
  | .arrive barrierId generation senderId => s.arrive barrierId generation senderId
  | .handleMessage data len => s.handleMessage data len

lemma step_eq (s : BarrierManager) (op : Op) : step s op = (outcomeOf s op).mgr := by
  cases op <;> rfl

lemma emitted_eq (s : BarrierManager) (op : Op) : emitted s op = (outcomeOf s op).out := by
  cases op <;> rfl

open BarrierManager

lemma outcomeOf_arrival {op : Op} {hdr : MsgHeader} (h : arrivalOf op = some hdr)
    (s : BarrierManager) : outcomeOf s op = s.arrive hdr.barrierId hdr.generation hdr.senderId := by
  cases op with
  | setParticipants => cases h
  | arrive =>
    cases h
    rfl
  | handleMessage data len =>
    have hp : parse data len = some hdr := h
    simp [outcomeOf, handleMessage, hp]

inductive Shape (op : Op) : Prop where
  | configure (id : UInt32) (n : UInt16) (h : op = .setParticipants id n)
  | arrival (hdr : MsgHeader) (h : arrivalOf op = some hdr)
  | garbage (data : Memory) (len : ℕ) (h : op = .handleMessage data len)
      (ha : arrivalOf op = none) (ho : ∀ s, outcomeOf s op = ⟨s,[],.kInvalidMessage⟩)

lemma shape (op : Op) : Shape op := by
  cases op with
  | setParticipants id n => exact .configure id n rfl
  | arrive id gen sender => exact .arrival ⟨sender,gen,id⟩ rfl
  | handleMessage data len =>
    cases hp : parse data len with
    | some hdr => exact .arrival hdr hp
    | none =>
      refine .garbage data len rfl hp fun s => ?_
      simp [outcomeOf, handleMessage, hp]

/-! ## Generations around the wrap -/

inductive Advanced (s : BarrierManager) (id : UInt32) (gen : UInt16) (o : Outcome) : Prop where
  | none (ho : o.out = []) (h : ∀ i b, s.barriers.lookup i = some b →
      ∃ c, o.mgr.barriers.lookup i = some c ∧ c.currentGeneration = b.currentGeneration)
  | released (ho : o.out = [makeRelease id gen])
      (h : ∃ c, o.mgr.barriers.lookup id = some c ∧ c.currentGeneration = gen+1)
      (hother : ∀ i, i ≠ id → o.mgr.barriers.lookup i = s.barriers.lookup i)

variable {t : BarrierManager} {ops : List Op}

lemma arrive_advanced (s : BarrierManager) (id : UInt32) (gen : UInt16) (sender : UInt8) :
    Advanced s id gen (s.arrive id gen sender) := by
  cases s.arrive_spec id gen sender with
  | refused status _ ho =>
    rw [ho]
    exact .none rfl fun i b hl => ⟨b,hl,rfl⟩
  | found b hb ho =>
    rw [ho]
    have hsame : ∀ c, s.barriers.lookup id = some c → c = b := by
      intro c hc
      rcases hb with hl | ⟨hl,-⟩
      · exact Option.some.inj (hc.symm.trans hl)
      · simp [hl] at hc
    -- unless it is released, the barrier stays in its generation
    have hkept : (b.arrive id gen sender).1.currentGeneration = b.currentGeneration →
        (b.arrive id gen sender).2.1 = [] → Advanced s id gen
          ⟨s.put id (b.arrive id gen sender).1,(b.arrive id gen sender).2.1,
            (b.arrive id gen sender).2.2⟩ := by
      intro hgen ho
      refine .none ho fun i c hc => ?_
      by_cases hi : i = id
      · subst hi
        exact ⟨(b.arrive i gen sender).1,by simp,by rw [hgen, hsame c hc]⟩
      · exact ⟨c,by simpa [hi] using hc,rfl⟩
    cases b.arrive_spec id gen sender with
    | elsewhere _ _ hb ho | duplicate _ _ _ hb ho => exact hkept (by rw [hb]) ho
    | counted _ _ _ _ hb ho => exact hkept (by rw [hb]; rfl) ho
    | release _ hgen _ _ hb ho =>
      exact .released ho ⟨(b.arrive id gen sender).1,by simp,by rw [hb, hgen]⟩
        fun i hi => by simp [hi]

/-- No accepted `SetParticipants` of this barrier follows an arrival at it. -/
def NotReconfigured (id : UInt32) (ops : List Op) : Prop :=
  ∀ earlier n later, ops = earlier++.setParticipants id n::later → 2 ≤ n → n ≤ 64 →
    ∀ op ∈ earlier, ∀ hdr ∈ arrivalOf op, hdr.barrierId ≠ id

lemma NotReconfigured.initial {id : UInt32} {op : Op} (h : NotReconfigured id (ops++[op])) :
    NotReconfigured id ops :=
  fun earlier n later hs => h earlier n (later++[op]) (by rw [hs]; simp)

lemma releases_step (s : BarrierManager) (ops : List Op) (op : Op) (id : UInt32) :
    releases s (ops++[op]) id = releases s ops id++(outcomeOf (run step s ops) op).out.filterMap
    (releaseOf id) := by
  rw [releases_snoc, emitted_eq]

lemma releases_unvisited {s : BarrierManager} {id : UInt32}
    (h : ∀ op ∈ ops, ∀ hdr ∈ arrivalOf op, hdr.barrierId ≠ id) : releases s ops id = [] := by
  induction ops using List.reverseRecOn with
  | nil => rfl
  | append_singleton ops op ih =>
    rw [releases_step, ih fun o ho => h o (List.mem_append_left _ ho), List.nil_append]
    cases shape op with
    | configure i n hop => rw [hop]; rfl
    | garbage _ _ _ _ ho => rw [ho]; rfl
    | arrival hdr ha =>
      have hne := h op (by simp) hdr ha
      rw [outcomeOf_arrival ha]
      cases arrive_advanced (run step s ops) hdr.barrierId hdr.generation hdr.senderId with
      | none ho => rw [ho]; rfl
      | released ho => simp [ho, releaseOf, makeRelease, hne]

lemma generation_after_release (s : BarrierManager) {id : UInt32} {g : UInt16}
    (hcfg : NotReconfigured id ops) (hlast : (releases s ops id).getLast? = some g) :
    ∃ b, (run step s ops).barriers.lookup id = some b ∧ b.currentGeneration = g+1 := by
  induction ops using List.reverseRecOn with
  | nil => cases hlast
  | append_singleton ops op ih =>
    rw [releases_step] at hlast
    rw [run_append, run_cons, run_nil, step_eq]
    have hih := ih hcfg.initial
    -- an operation that adds no RELEASE has to keep the generation
    have hquiet : (outcomeOf (run step s ops) op).out.filterMap (releaseOf id) = [] →
        (releases s ops id).getLast? = some g := by
      intro hnil
      rwa [hnil, List.append_nil] at hlast
    cases shape op with
    | configure i n hop =>
      subst hop
      have hold := hquiet rfl
      obtain ⟨b,hl,hb⟩ := hih hold
      by_cases hn : n < 2 ∨ 64 < n
      · exact ⟨b,by simpa [outcomeOf, setParticipants, hn] using hl,hb⟩
      · by_cases hi : i = id
        · subst hi
          obtain ⟨h2,h64⟩ := not_or.mp hn
          have hno := hcfg ops n [] rfl (UInt16.not_lt.mp h2) (UInt16.not_lt.mp h64)
          rw [releases_unvisited hno] at hold
          cases hold
        · refine ⟨b,?_,hb⟩
          simpa [outcomeOf, setParticipants, hn, Ne.symm hi] using hl
    | garbage _ _ _ _ ho =>
      rw [ho] at hquiet ⊢
      exact hih (hquiet rfl)
    | arrival hdr ha =>
      rw [outcomeOf_arrival ha] at hquiet hlast ⊢
      cases arrive_advanced (run step s ops) hdr.barrierId hdr.generation hdr.senderId with
      | none ho h =>
        rw [ho] at hquiet
        obtain ⟨b,hl,hb⟩ := hih (hquiet rfl)
        obtain ⟨c,hc,hgen⟩ := h id b hl
        exact ⟨c,hc,hgen.trans hb⟩
      | released ho h hother =>
        by_cases hi : hdr.barrierId = id
        · subst hi
          obtain rfl : hdr.generation = g := by
            simpa [ho, releaseOf, makeRelease] using hlast
          exact h
        · rw [ho] at hquiet
          obtain ⟨b,hl,hb⟩ := hih (hquiet (by simp [releaseOf, makeRelease, hi]))
          exact ⟨b,by rw [hother id (Ne.symm hi)]; exact hl,hb⟩

section
variable {s : BarrierManager} {id : UInt32} {b : Barrier}

lemma put_self (hl : s.barriers.lookup id = some b) : s.put id b = s := by
  have ht : s.barriers.insert id b = s.barriers := by
    apply Finmap.ext_lookup
    intro i
    rw [Table.lookup_insert_ite]
    split_ifs with hi
    · rw [hi, hl]
    · rfl
  rw [put, ht]

lemma arrive_of_lookup (hl : s.barriers.lookup id = some b) (gen : UInt16) (sender : UInt8) :
    s.arrive id gen sender = ⟨s.put id (b.arrive id gen sender).1,
      (b.arrive id gen sender).2.1,(b.arrive id gen sender).2.2⟩ := by
  simp [arrive, getOrCreate, hl]

lemma arrive_elsewhere (hl : s.barriers.lookup id = some b) {gen : UInt16}
    (hg : gen ≠ b.currentGeneration) (sender : UInt8) :
    s.arrive id gen sender =
    ⟨s,[],if gen < b.currentGeneration then .kLateArrival else .kFutureArrival⟩ := by
  rw [arrive_of_lookup hl]
  unfold Barrier.arrive
  by_cases h1 : gen < b.currentGeneration
  · simp [if_pos h1, put_self hl]
  · have h2 : b.currentGeneration < gen := UInt16.lt_of_le_of_ne (UInt16.not_lt.mp h1) (Ne.symm hg)
    simp [if_neg h1, if_pos h2, put_self hl]

end

lemma lt_succ_iff (g : UInt16) : g < g+1 ↔ g ≠ 65535 := by
  have hlt := g.toNat_lt
  rw [UInt16.lt_iff_toNat_lt, UInt16.toNat_add, ne_eq, ← UInt16.toNat_inj]
  show g.toNat < (g.toNat+1) % 2^16 ↔ ¬ g.toNat = 65535
  omega

lemma succ_lt_iff (g : UInt16) : g+2 < g+1 ↔ g = 65534 := by
  have hlt := g.toNat_lt
  rw [UInt16.lt_iff_toNat_lt, UInt16.toNat_add, UInt16.toNat_add, ← UInt16.toNat_inj]
  show (g.toNat+2) % 2^16 < (g.toNat+1) % 2^16 ↔ g.toNat = 65534
  omega

lemma two_ahead_ne (g : UInt16) : g+2 ≠ g+1 := by
  intro h
  have := congrArg UInt16.toNat h
  rw [UInt16.toNat_add, UInt16.toNat_add] at this
  simp only [UInt16.toNat_one, UInt16.reduceToNat] at this
  omega

/-- After a RELEASE of generation g an ARRIVE for g is late and one for g+2
is early, unless the wrap of the counter lies between them; neither of them
ever changes the barrier. -/
theorem classified_iff_away_from_wrap (maxBarriers : UInt32) (defaultParticipants : UInt16)
    (ops : List Op) (id : UInt32) (g : UInt16) (hcfg : NotReconfigured id ops)
    (hlast : (releases (.new maxBarriers defaultParticipants) ops id).getLast? = some g) :
    let s := run step (.new maxBarriers defaultParticipants) ops
    ((∀ op hdr, arrivalOf op = some hdr → hdr.barrierId = id →
        (hdr.generation = g → (outcomeOf s op).status = .kLateArrival) ∧
        (hdr.generation = g+2 → (outcomeOf s op).status = .kFutureArrival)) ↔
      g ≠ 65534 ∧ g ≠ 65535) ∧
    ∀ op hdr, arrivalOf op = some hdr → hdr.barrierId = id →
      hdr.generation = g ∨ hdr.generation = g+2 → step s op = s ∧ emitted s op = [] := by
  intro s
  obtain ⟨b,hl,hb⟩ := generation_after_release (.new maxBarriers defaultParticipants) hcfg hlast
  have hnow : g ≠ b.currentGeneration := by
    rw [hb]
    exact next_generation_ne g
  have hahead : g+2 ≠ b.currentGeneration := by
    rw [hb]
    exact two_ahead_ne g
  have hold : ∀ sender, s.arrive id g sender =
      ⟨s,[],if g ≠ 65535 then .kLateArrival else .kFutureArrival⟩ := by
    intro sender
    rw [arrive_elsewhere hl hnow, hb]
    simp only [lt_succ_iff]
    rfl
  have hnew : ∀ sender, s.arrive id (g+2) sender =
      ⟨s,[],if g = 65534 then .kLateArrival else .kFutureArrival⟩ := by
    intro sender
    rw [arrive_elsewhere hl hahead, hb]
    simp only [succ_lt_iff]
    rfl
  refine ⟨⟨?_,?_⟩,?_⟩
  · intro h
    have hlate := (h (.arrive id g 0) ⟨0,g,id⟩ rfl rfl).1 rfl
    have hfuture := (h (.arrive id (g+2) 0) ⟨0,g+2,id⟩ rfl rfl).2 rfl
    simp only [outcomeOf, hold, hnew] at hlate hfuture
    split_ifs at hlate with h35
    split_ifs at hfuture with h34
    exact ⟨h34,h35⟩
  · rintro ⟨h34,h35⟩ op hdr ha rfl
    rw [outcomeOf_arrival ha]
    constructor
    · intro hg
      rw [hg, hold, if_pos h35]
    · intro hg
      rw [hg, hnew, if_neg h34]
  · rintro op hdr ha rfl hg
    rw [step_eq, emitted_eq, outcomeOf_arrival ha]
    rcases hg with hg | hg
    · rw [hg, hold]
      exact ⟨rfl,rfl⟩
    · rw [hg, hnew]
      exact ⟨rfl,rfl⟩

/-- The first generation of a barrier of two, and the third one after it. -/
theorem classified_after_first_release :
    (outcomeOf (run step (.new 8 2) [.arrive 1 0 0,.arrive 1 0 1]) (.arrive 1 0 5)).status =
      .kLateArrival ∧
    (outcomeOf (run step (.new 8 2) [.arrive 1 0 0,.arrive 1 0 1]) (.arrive 1 2 0)).status =
      .kFutureArrival := by
  have hcfg : NotReconfigured 1 [.arrive 1 0 0,.arrive 1 0 1] := by
    intro earlier n later hs
    have hm : Op.setParticipants 1 n ∈ [Op.arrive 1 0 0,.arrive 1 0 1] := by simp [hs]
    simp at hm
  have h := (classified_iff_away_from_wrap 8 2 _ 1 0 hcfg (by decide +kernel)).1.mpr (by decide)
  exact ⟨(h _ ⟨5,0,1⟩ rfl rfl).1 rfl,(h _ ⟨0,2,1⟩ rfl rfl).2 rfl⟩

def rounds (n : ℕ) : List Op := (List.range n).flatMap fun k => arrivals 1 (UInt16.ofNat k) [0,1]

lemma rounds_succ (n : ℕ) : rounds (n+1) = rounds n++arrivals 1 (UInt16.ofNat n) [0,1] := by
  simp [rounds, List.range_succ, List.flatMap_append]

lemma run_round {s : BarrierManager} {g : UInt16} (h : s.getOrCreate 1 = .ok (⟨g,2,0,0⟩,t)) :
    run step s (arrivals 1 g [0,1]) = t.put 1 ⟨g+1,2,0,0⟩ ∧
    trace step emitted s (arrivals 1 g [0,1]) = [makeRelease 1 g] := by
  have h0 : Barrier.arrive ⟨g,2,0,0⟩ 1 g 0 = (⟨g,2,1,1⟩,[],.kOk) := by
    simp [Barrier.arrive, Barrier.marked, Barrier.countArrival, Bitmap.has, Bitmap.add]
  have hbit : (1 : UInt64) &&& ((1 : UInt64) <<< (1 : UInt64)) = 0 := by decide
  have h1 : Barrier.arrive ⟨g,2,1,1⟩ 1 g 1 = (⟨g+1,2,0,0⟩,[makeRelease 1 g],.kRelease) := by
    simp [Barrier.arrive, Barrier.marked, Barrier.countArrival, Bitmap.has, Bitmap.add, hbit]
  rw [run_arrivals h, trace_arrivals h]
  simp [trace, arrived, answer, h0, h1]

lemma run_rounds (n : ℕ) :
    run step (.new 1 2) (rounds (n+1)) = (new 1 2).put 1 ⟨UInt16.ofNat (n+1),2,0,0⟩ := by
  induction n with
  | zero =>
    have hg : (new 1 2).getOrCreate 1 = .ok (⟨0,2,0,0⟩,(new 1 2).put 1 ⟨0,2,0,0⟩) := rfl
    exact (run_round hg).1.trans (by simp [put])
  | succ n ih =>
    have hg : ((new 1 2).put 1 ⟨UInt16.ofNat (n+1),2,0,0⟩).getOrCreate 1 =
        .ok (⟨UInt16.ofNat (n+1),2,0,0⟩, (new 1 2).put 1 ⟨UInt16.ofNat (n+1),2,0,0⟩) := by
      simp [getOrCreate]
    rw [rounds_succ, run_append, ih, (run_round hg).1, UInt16.ofNat_add (n+1) 1]
    simp [put]

lemma rounds_last (n : ℕ) :
    (releases (.new 1 2) (rounds (n+2)) 1).getLast? = some (ofNat (n+1)) := by
  have hg : ((new 1 2).put 1 ⟨ofNat (n+1),2,0,0⟩).getOrCreate 1 = .ok (⟨ofNat (n+1),2,0,0⟩,
        (new 1 2).put 1 ⟨ofNat (n+1),2,0,0⟩) := by
    simp [getOrCreate]
  rw [releases, rounds_succ, trace_append, run_rounds, (run_round hg).2]
  simp [releaseOf, makeRelease]

lemma rounds_not_reconfigured (n : ℕ) : NotReconfigured 1 (rounds n) := by
  intro earlier m later hs
  have hm : Op.setParticipants 1 m ∈ rounds n := by simp [hs]
  simp [rounds, arrivals] at hm

/-- After 65535 rounds the next but one generation is 0 and called late; after
65536 rounds the last generation is 65535 and called a future one. -/
theorem misclassified_at_wrap :
    ∃ s t : List Op,
      (NotReconfigured 1 s ∧ (releases (.new 1 2) s 1).getLast? = some 65534 ∧
        (outcomeOf (run step (.new 1 2) s) (.arrive 1 (65534+2) 0)).status = .kLateArrival) ∧
      (NotReconfigured 1 t ∧ (releases (.new 1 2) t 1).getLast? = some 65535 ∧
        (outcomeOf (run step (.new 1 2) t) (.arrive 1 65535 0)).status = .kFutureArrival) := by
  refine ⟨rounds (65533+2),rounds (65534+2),
    ⟨rounds_not_reconfigured _,rounds_last 65533,?_⟩,rounds_not_reconfigured _,rounds_last 65534,?_⟩
  · rw [run_rounds]
    decide +kernel
  · rw [run_rounds]
    decide +kernel

/-! ## Capacity and refused calls -/

def Refused (status : BarrierStatus) : Prop :=
  status ∈ [.kLateArrival,.kFutureArrival,.kDuplicateArrival,.kLayoutOverflow,
    .kInvalidConfiguration,.kInvalidMessage]

/-- A refused call changes nothing and puts nothing out. -/
def Traceless (s : BarrierManager) (op : Op) : Prop :=
  Refused (outcomeOf s op).status → step s op = s ∧ emitted s op = []

def Within (s : BarrierManager) : Prop := Table.size s.barriers ≤ s.maxBarriers.toNat

/-- A barrier configured by `SetParticipants` is tracked already or fits. -/
def FitsTable (s : BarrierManager) : Op → Prop
  | .setParticipants id n =>
    2 ≤ n → n ≤ 64 → id ∈ s.barriers.keys ∨ Table.size s.barriers < s.maxBarriers.toNat
  | _ => True

def StartsAtZero (s : BarrierManager) (op : Op) : Prop :=
  ∀ hdr ∈ arrivalOf op, hdr.barrierId ∉ s.barriers.keys →
    Table.size s.barriers < s.maxBarriers.toNat →
    2 ≤ s.defaultParticipants → s.defaultParticipants ≤ 64 → hdr.generation = 0

lemma within_step_iff {s : BarrierManager} (h : Within s) (op : Op) :
    Within (step s op) ↔ FitsTable s op := by
  have harrive : ∀ id gen sender, Within (s.arrive id gen sender).mgr := by
    intro id gen sender
    obtain ⟨hg,hmax⟩ := s.arrive_grows id gen sender
    rw [Within, Table.size, hmax]
    rcases hg with hk | ⟨hk,hin | hroom⟩
    · rw [hk]
      exact h
    · rw [hk, Finset.insert_eq_of_mem hin]
      exact h
    · rw [hk]
      exact (Finset.card_insert_le _ _).trans hroom
  rw [step_eq]
  cases shape op with
  | configure id n hop =>
    subst hop
    by_cases hn : n < 2 ∨ 64 < n
    · have hno : FitsTable s (.setParticipants id n) := fun h2 h64 =>
        absurd hn (not_or.mpr ⟨UInt16.not_lt.mpr h2,UInt16.not_lt.mpr h64⟩)
      simpa [outcomeOf, setParticipants, hn, hno] using h
    · have hput : (outcomeOf s (.setParticipants id n)).mgr = s.put id ⟨0,n,0,0⟩ := by
        simp [outcomeOf, setParticipants, hn]
      have hvalid : 2 ≤ n ∧ n ≤ 64 := by
        obtain ⟨h2,h64⟩ := not_or.mp hn
        exact ⟨UInt16.not_lt.mp h2,UInt16.not_lt.mp h64⟩
      simp only [hput, Within, FitsTable, hvalid.1, hvalid.2, true_imp_iff, Table.size,
        put, Table.keys_insert]
      by_cases hin : id ∈ s.barriers.keys
      · rw [Finset.insert_eq_of_mem hin]
        exact iff_of_true h (.inl hin)
      · rw [Finset.card_insert_of_notMem hin]
        simp only [hin, false_or]
        exact Nat.succ_le_iff
  | arrival hdr ha =>
    rw [outcomeOf_arrival ha]
    apply iff_of_true (harrive _ _ _)
    cases op with
    | setParticipants => cases ha
    | arrive _ _ _ | handleMessage _ _ => trivial
  | garbage data len hop _ ho =>
    rw [ho, hop]
    exact iff_of_true h trivial

/-- An arrival that creates its barrier is counted, or it is early and the
barrier stays. -/
lemma created_traceless_iff {s : BarrierManager} {id : UInt32} (hl : s.barriers.lookup id = none)
    (b : Barrier) (gen : UInt16) (sender : UInt8) (hm : b.marked sender = false) :
    (Refused (b.arrive id gen sender).2.2 →
      s.put id (b.arrive id gen sender).1 = s ∧ (b.arrive id gen sender).2.1 = []) ↔
    gen = b.currentGeneration := by
  cases b.arrive_spec id gen sender with
  | elsewhere hst hne =>
    apply iff_of_false ?_ hne
    intro h
    have hr : Refused (b.arrive id gen sender).2.2 := by
      rcases hst with hst | hst <;> simp [hst, Refused]
    have hback := congrArg (fun m => m.barriers.lookup id) (h hr).1
    simp [hl] at hback
  | duplicate _ _ hm' => simp [hm] at hm'
  | counted hst hgen _ _ _ _ | release hst hgen _ _ _ _ =>
    exact iff_of_true (fun hr => by simp [hst, Refused] at hr) hgen

lemma traceless_iff (s : BarrierManager) (op : Op) : Traceless s op ↔ StartsAtZero s op := by
  unfold Traceless StartsAtZero
  rw [step_eq, emitted_eq]
  cases shape op with
  | configure id n hop =>
    subst hop
    by_cases hn : n < 2 ∨ 64 < n
    · simp [outcomeOf, setParticipants, hn, arrivalOf]
    · simp [outcomeOf, setParticipants, hn, arrivalOf, Refused]
  | garbage _ _ _ ha ho => simp [ho, ha]
  | arrival hdr ha =>
    simp only [outcomeOf_arrival ha, ha, Option.mem_def, Option.some.injEq, forall_eq']
    cases s.arrive_spec hdr.barrierId hdr.generation hdr.senderId with
    | refused status hg ho =>
      rw [ho]
      apply iff_of_true (fun _ => ⟨rfl,rfl⟩)
      intro _ hroom h2 h64
      rcases getOrCreate_error hg with ⟨-,⟨-,hfull⟩ | ⟨-,-,hbad⟩⟩
      · exact absurd hfull (not_le.mpr hroom)
      · exact absurd hbad (not_or.mpr ⟨UInt16.not_lt.mpr h2,UInt16.not_lt.mpr h64⟩)
    | found b hb ho =>
      rw [ho]
      rcases hb with hl | ⟨hl,hroom,h2,h64,rfl⟩
      · have hin := Table.mem_keys_of_lookup hl
        apply iff_of_true ?_ (fun hout => absurd hin hout)
        intro hr
        cases b.arrive_spec hdr.barrierId hdr.generation hdr.senderId with
        | elsewhere _ _ hb ho | duplicate _ _ _ hb ho => exact ⟨by rw [hb, put_self hl],ho⟩
        | counted hst _ _ _ _ _ | release hst _ _ _ _ _ => simp [hst, Refused] at hr
      · rw [created_traceless_iff hl _ _ _ (by simp [Barrier.marked, Bitmap.has])]
        have hout := Table.not_mem_keys_of_lookup hl
        simp [hout, hroom, h2, h64]

/-- The table keeps to its capacity and refused calls leave no trace, exactly
in the runs in which `SetParticipants` adds no barrier beyond the capacity and
every arrival that creates its barrier is for generation zero. -/
theorem refusals_traceless_iff (maxBarriers : UInt32) (defaultParticipants : UInt16)
    (ops : List Op) :
    ((∀ earlier later, ops = earlier++later →
        Within (run step (.new maxBarriers defaultParticipants) earlier)) ∧
      Along step Traceless (.new maxBarriers defaultParticipants) ops) ↔
    Along step (fun s op => FitsTable s op ∧ StartsAtZero s op)
      (.new maxBarriers defaultParticipants) ops := by
  have hnew : Within (.new maxBarriers defaultParticipants) := Nat.zero_le _
  rw [along_and]
  apply and_congr
  · exact always_iff_along (I := fun _ => True) (P := Within)
      (fun _ _ _ _ => trivial) (fun s op _ _ h => within_step_iff h op) trivial hnew ops
      (fun _ _ => trivial)
  · exact along_congr (I := fun _ => True) (fun _ _ _ => trivial)
      (fun s op _ => traceless_iff s op) trivial ops

/-- Two configurations in a table of one, and an arrival for generation 5 at a
barrier nobody has configured. -/
theorem refusals_leave_traces :
    ¬ Within (run step (.new 1 2) [.setParticipants 0 2,.setParticipants 1 2]) ∧
    (outcomeOf (.new 8 2) (.arrive 1 5 0)).status = .kFutureArrival ∧
    (step (.new 8 2) (.arrive 1 5 0)).barriers.lookup 1 = some ⟨0,2,0,0⟩ := by
  refine ⟨?_,?_,?_⟩
  · unfold Within
    decide +kernel
  · decide +kernel
  · decide +kernel

end SimBricks.BarrierRefusals
