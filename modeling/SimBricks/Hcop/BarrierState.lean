import SimBricks.Hcop.BarrierProto
import SimBricks.Library.Bitmap
import SimBricks.Library.Table

/-!
# The barrier manager of `barrier_state.cc`

A tracked barrier counts arrivals of its current generation and keeps a
bitmap of the senders below 64. An arrival at an untracked barrier
configures it with the default number of participants. The exception
callback is telemetry and read by nothing.
-/

set_option autoImplicit false

namespace SimBricks.BarrierState
open Library Library.Bytes BarrierProto

inductive BarrierStatus where
  | kOk | kRelease | kLateArrival | kFutureArrival | kDuplicateArrival | kLayoutOverflow
  | kInvalidMessage | kInvalidConfiguration
  deriving DecidableEq, Repr

structure Barrier where
  currentGeneration : UInt16 := 0
  numParticipants : UInt16 := 0
  arrivedCount : UInt16 := 0
  arrivedBitmap : UInt64 := 0
  deriving DecidableEq, Repr

structure OutMessage where
  destId : UInt8
  msg : Msg
  deriving DecidableEq, Repr

def OutMessage.data (m : OutMessage) : List UInt8 := m.msg.serialize

def kBroadcast : UInt8 := 255

structure BarrierManager where
  maxBarriers : UInt32
  defaultParticipants : UInt16
  barriers : Table UInt32 Barrier

structure Outcome where
  mgr : BarrierManager
  out : List OutMessage
  status : BarrierStatus

def makeRelease (barrierId : UInt32) (gen : UInt16) : OutMessage :=
  ⟨kBroadcast,.release ⟨kBroadcast,gen,barrierId⟩⟩

def Barrier.marked (b : Barrier) (senderId : UInt8) : Bool :=
  senderId < 64 && Bitmap.has b.arrivedBitmap senderId

def Barrier.countArrival (b : Barrier) (senderId : UInt8) : Barrier := { b with
    arrivedBitmap := if senderId < 64 then Bitmap.add b.arrivedBitmap senderId else b.arrivedBitmap
    arrivedCount := b.arrivedCount+1 }

def Barrier.arrive (b : Barrier) (barrierId : UInt32) (generation : UInt16) (senderId : UInt8) :
    Barrier × List OutMessage × BarrierStatus :=
  if generation < b.currentGeneration then (b,[],.kLateArrival)
  else if b.currentGeneration < generation then (b,[],.kFutureArrival)
  else if b.marked senderId then (b,[],.kDuplicateArrival)
  else
    let c := b.countArrival senderId
    if c.numParticipants ≤ c.arrivedCount then
      ({ c with currentGeneration := c.currentGeneration+1, arrivedCount := 0, arrivedBitmap := 0 },
        [makeRelease barrierId c.currentGeneration],.kRelease)
    else (c,[],.kOk)

inductive Arrived (b : Barrier) (id : UInt32) (gen : UInt16) (sender : UInt8)
    (r : Barrier × List OutMessage × BarrierStatus) : Prop where
  | elsewhere (hst : r.2.2 = .kLateArrival ∨ r.2.2 = .kFutureArrival)
      (hg : gen ≠ b.currentGeneration) (hb : r.1 = b) (ho : r.2.1 = [])
  | duplicate (hst : r.2.2 = .kDuplicateArrival) (hg : gen = b.currentGeneration)
      (hm : b.marked sender) (hb : r.1 = b) (ho : r.2.1 = [])
  | counted (hst : r.2.2 = .kOk) (hg : gen = b.currentGeneration) (hm : b.marked sender = false)
      (hn : ¬ b.numParticipants ≤ b.arrivedCount+1) (hb : r.1 = b.countArrival sender)
      (ho : r.2.1 = [])
  | release (hst : r.2.2 = .kRelease) (hg : gen = b.currentGeneration)
      (hm : b.marked sender = false) (hn : b.numParticipants ≤ b.arrivedCount+1)
      (hb : r.1 = ⟨b.currentGeneration+1,b.numParticipants,0,0⟩) (ho : r.2.1 = [makeRelease id gen])

lemma Barrier.arrive_spec (b : Barrier) (id : UInt32) (gen : UInt16) (sender : UInt8) :
    Arrived b id gen sender (b.arrive id gen sender) := by
  unfold Barrier.arrive
  dsimp only
  split_ifs with h1 h2 h3 h4
  · exact .elsewhere (.inl rfl) (UInt16.ne_of_lt h1) rfl rfl
  · exact .elsewhere (.inr rfl) (UInt16.ne_of_lt h2).symm rfl rfl
  · have hg := UInt16.le_antisymm (UInt16.not_lt.mp h2) (UInt16.not_lt.mp h1)
    exact .duplicate rfl hg h3 rfl rfl
  · have hg := UInt16.le_antisymm (UInt16.not_lt.mp h2) (UInt16.not_lt.mp h1)
    subst hg
    exact .release rfl rfl (by simpa using h3) h4 rfl rfl
  · have hg := UInt16.le_antisymm (UInt16.not_lt.mp h2) (UInt16.not_lt.mp h1)
    exact .counted rfl hg (by simpa using h3) h4 rfl rfl

lemma Barrier.arrive_late_iff (b : Barrier) (id : UInt32) (gen : UInt16) (sender : UInt8) :
    (b.arrive id gen sender).2.2 = .kLateArrival ↔ gen < b.currentGeneration := by
  unfold Barrier.arrive
  dsimp only
  split_ifs with h1 <;> simp [h1]

lemma Barrier.arrive_tracked (b : Barrier) (id : UInt32) (gen : UInt16) (sender : UInt8) :
    (b.arrive id gen sender).2.2 ≠ .kLayoutOverflow := by
  unfold Barrier.arrive
  dsimp only
  split_ifs <;> simp

namespace BarrierManager

def new (maxBarriers : UInt32) (defaultParticipants : UInt16) : BarrierManager :=
  ⟨maxBarriers,defaultParticipants,∅⟩

def put (s : BarrierManager) (barrierId : UInt32) (b : Barrier) : BarrierManager :=
  { s with barriers := s.barriers.insert barrierId b }

def setParticipants (s : BarrierManager) (barrierId : UInt32) (n : UInt16) :
    BarrierManager × BarrierStatus :=
  if n < 2 ∨ 64 < n then (s,.kInvalidConfiguration)
  else (s.put barrierId ⟨0,n,0,0⟩,.kOk)

def getOrCreate (s : BarrierManager) (barrierId : UInt32) :
    Except BarrierStatus (Barrier × BarrierManager) :=
  match s.barriers.lookup barrierId with
  | some b => .ok (b,s)
  | none =>
    if s.maxBarriers.toNat ≤ Table.size s.barriers then .error .kLayoutOverflow
    else match s.setParticipants barrierId s.defaultParticipants with
    | (s,.kOk) =>
      match s.barriers.lookup barrierId with
      | some b => .ok (b,s)
      | none => .error .kInvalidConfiguration
    | (_,status) => .error status

def arrive (s : BarrierManager) (barrierId : UInt32) (generation : UInt16) (senderId : UInt8) :
    Outcome :=
  match s.getOrCreate barrierId with
  | .error status => ⟨s,[],status⟩
  | .ok (b,s) =>
    let (b,out,status) := b.arrive barrierId generation senderId
    ⟨s.put barrierId b,out,status⟩

def handleMessage (s : BarrierManager) (data : Memory) (len : ℕ) : Outcome :=
  match parse data len with
  | none => ⟨s,[],.kInvalidMessage⟩
  | some hdr => s.arrive hdr.barrierId hdr.generation hdr.senderId

@[simp] lemma lookup_put (s : BarrierManager) (id i : UInt32) (b : Barrier) :
    (s.put id b).barriers.lookup i = if i = id then some b else s.barriers.lookup i :=
  Table.lookup_insert_ite _ _ _ _

variable {id : UInt32} {s : BarrierManager}

/-- A barrier found or created is the tracked one, or a fresh one with a valid
number of participants; no other barrier is touched. -/
lemma getOrCreate_ok {t : BarrierManager} {b : Barrier} (h : s.getOrCreate id = .ok (b,t)) :
    (s.barriers.lookup id = some b ∧ t = s) ∨
    (s.barriers.lookup id = none ∧ Table.size s.barriers < s.maxBarriers.toNat ∧
      2 ≤ s.defaultParticipants ∧ s.defaultParticipants ≤ 64 ∧
      b = ⟨0,s.defaultParticipants,0,0⟩ ∧ t = s.put id b) := by
  unfold getOrCreate at h
  cases hl : s.barriers.lookup id with
  | some c =>
    obtain ⟨rfl,rfl⟩ : c = b ∧ s = t := by simpa [hl] using h
    exact .inl ⟨rfl,rfl⟩
  | none =>
    simp only [hl] at h
    split_ifs at h with hm
    unfold setParticipants at h
    split_ifs at h with hn
    obtain ⟨rfl,rfl⟩ : ⟨0,s.defaultParticipants,0,0⟩ = b ∧
        s.put id ⟨0,s.defaultParticipants,0,0⟩ = t := by simpa using h
    obtain ⟨h2,h64⟩ := not_or.mp hn
    exact .inr ⟨rfl,not_le.mp hm,UInt16.not_lt.mp h2,UInt16.not_lt.mp h64,rfl,rfl⟩

lemma getOrCreate_of_closed (h : Table.Closed s.maxBarriers.toNat s.barriers.keys id) :
    s.getOrCreate id = .error .kLayoutOverflow := by
  have hl := Finmap.lookup_eq_none.mpr (mt Finmap.mem_keys.mpr h.1)
  rw [getOrCreate, hl]
  exact if_pos h.2

lemma getOrCreate_error {status : BarrierStatus} (h : s.getOrCreate id = .error status) :
    s.barriers.lookup id = none ∧
    ((status = .kLayoutOverflow ∧ s.maxBarriers.toNat ≤ Table.size s.barriers) ∨
      (status = .kInvalidConfiguration ∧ Table.size s.barriers < s.maxBarriers.toNat ∧
        (s.defaultParticipants < 2 ∨ 64 < s.defaultParticipants))) := by
  unfold getOrCreate at h
  cases hl : s.barriers.lookup id with
  | some => simp [hl] at h
  | none =>
    simp only [hl] at h
    split_ifs at h with hm
    · exact ⟨rfl,.inl ⟨(Except.error.inj h).symm,hm⟩⟩
    · unfold setParticipants at h
      split_ifs at h with hn
      · exact ⟨rfl,.inr ⟨(Except.error.inj h).symm,not_le.mp hm,hn⟩⟩
      · simp at h

/-- The barrier at which an arrival is looked at: the tracked one, or a fresh
one that fits. -/
def Finds (s : BarrierManager) (id : UInt32) (b : Barrier) : Prop :=
  s.barriers.lookup id = some b ∨ (s.barriers.lookup id = none ∧
    Table.size s.barriers < s.maxBarriers.toNat ∧ 2 ≤ s.defaultParticipants ∧
    s.defaultParticipants ≤ 64 ∧ b = ⟨0,s.defaultParticipants,0,0⟩)

inductive Reached (s : BarrierManager) (id : UInt32) (gen : UInt16) (sender : UInt8)
    (o : Outcome) : Prop where
  | refused (status : BarrierStatus) (hg : s.getOrCreate id = .error status)
      (ho : o = ⟨s,[],status⟩)
  | found (b : Barrier) (hb : s.Finds id b)
      (ho : o = ⟨s.put id (b.arrive id gen sender).1,(b.arrive id gen sender).2.1,
        (b.arrive id gen sender).2.2⟩)

lemma arrive_spec (s : BarrierManager) (id : UInt32) (gen : UInt16) (sender : UInt8) :
    Reached s id gen sender (s.arrive id gen sender) := by
  unfold arrive
  cases hg : s.getOrCreate id with
  | error status => exact .refused status hg rfl
  | ok x =>
    obtain ⟨b,t⟩ := x
    rcases getOrCreate_ok hg with ⟨hl,rfl⟩ | ⟨hl,hroom,h2,h64,rfl,rfl⟩
    · exact .found b (.inl hl) rfl
    · exact .found _ (.inr ⟨hl,hroom,h2,h64,rfl⟩) (by simp [put])

lemma Finds.not_closed {b : Barrier} (h : s.Finds id b) :
    ¬ Table.Closed s.maxBarriers.toNat s.barriers.keys id := by
  rintro ⟨hout,hfull⟩
  rcases h with hl | ⟨-,hroom,-⟩
  · exact hout (Table.mem_keys_of_lookup hl)
  · exact not_le.mpr hroom hfull

lemma arrive_overflow_iff (s : BarrierManager) (id : UInt32) (gen : UInt16) (sender : UInt8) :
    (s.arrive id gen sender).status = .kLayoutOverflow ↔
    Table.Closed s.maxBarriers.toNat s.barriers.keys id := by
  cases s.arrive_spec id gen sender with
  | refused status hg ho =>
    rw [ho]
    rcases getOrCreate_error hg with ⟨hl,⟨rfl,hfull⟩ | ⟨rfl,hroom,-⟩⟩
    · exact iff_of_true rfl ⟨Table.not_mem_keys_of_lookup hl,hfull⟩
    · exact iff_of_false nofun fun hc => not_le.mpr hroom hc.2
  | found b hb ho =>
    rw [ho]
    exact iff_of_false (b.arrive_tracked id gen sender) hb.not_closed

def Late (s : BarrierManager) (id : UInt32) (gen : UInt16) : Prop :=
  ∃ b ∈ s.barriers.lookup id, gen < b.currentGeneration

lemma arrive_late_iff (s : BarrierManager) (id : UInt32) (gen : UInt16) (sender : UInt8) :
    (s.arrive id gen sender).status = .kLateArrival ↔ s.Late id gen := by
  unfold Late
  cases s.arrive_spec id gen sender with
  | refused status hg ho =>
    rw [ho]
    rcases getOrCreate_error hg with ⟨hl,⟨rfl,-⟩ | ⟨rfl,-⟩⟩ <;> simp [hl]
  | found b hb ho =>
    rw [ho, b.arrive_late_iff id gen sender]
    rcases hb with hl | ⟨hl,-,-,-,rfl⟩ <;> simp [hl]

lemma arrive_exception_iff (s : BarrierManager) (id : UInt32) (gen : UInt16) (sender : UInt8) :
    (s.arrive id gen sender).status = .kLateArrival ∨ (s.arrive id gen sender).status =
    .kLayoutOverflow ↔ s.Late id gen ∨ Table.Closed s.maxBarriers.toNat s.barriers.keys id :=
  or_congr (s.arrive_late_iff id gen sender) (s.arrive_overflow_iff id gen sender)

/-- An arrival adds its barrier to the table if it fits and touches no other. -/
lemma arrive_grows (s : BarrierManager) (id : UInt32) (gen : UInt16) (sender : UInt8) :
    Table.Grows s.maxBarriers.toNat id s.barriers.keys (s.arrive id gen sender).mgr.barriers.keys ∧
    (s.arrive id gen sender).mgr.maxBarriers = s.maxBarriers := by
  cases s.arrive_spec id gen sender with
  | refused _ _ ho =>
    rw [ho]
    exact ⟨.inl rfl,rfl⟩
  | found b hb ho =>
    rw [ho]
    exact ⟨.inr ⟨Table.keys_insert _ _ _,hb.imp Table.mem_keys_of_lookup fun h => h.2.1⟩,rfl⟩

def Uniform (s : BarrierManager) : Prop :=
  ∀ id, ∀ b ∈ s.barriers.lookup id, b.numParticipants = s.defaultParticipants

lemma numParticipants_arrive (b : Barrier) (id : UInt32) (gen : UInt16) (sender : UInt8) :
    (b.arrive id gen sender).1.numParticipants = b.numParticipants := by
  unfold Barrier.arrive
  dsimp only
  split_ifs <;> rfl

lemma Uniform.arrive (h : s.Uniform) (id : UInt32) (gen : UInt16) (sender : UInt8) :
    (s.arrive id gen sender).mgr.Uniform ∧ (s.arrive id gen sender).mgr.defaultParticipants =
    s.defaultParticipants := by
  cases s.arrive_spec id gen sender with
  | refused _ _ ho =>
    rw [ho]
    exact ⟨h,rfl⟩
  | found b hb ho =>
    rw [ho]
    refine ⟨fun i c hc => ?_,rfl⟩
    rw [lookup_put] at hc
    split_ifs at hc with hi
    · rw [← Option.some.inj hc, numParticipants_arrive]
      rcases hb with hl | ⟨-,-,-,-,rfl⟩
      · exact h id b hl
      · rfl
    · exact h i c hc

lemma arrive_keys {gen : UInt16} {sender : UInt8}
    (h : (s.arrive id gen sender).status = .kOk ∨ (s.arrive id gen sender).status = .kRelease) :
    id ∈ (s.arrive id gen sender).mgr.barriers.keys := by
  cases s.arrive_spec id gen sender with
  | refused status hg ho =>
    rw [ho] at h
    rcases getOrCreate_error hg with ⟨-,⟨rfl,-⟩ | ⟨rfl,-⟩⟩ <;> simp at h
  | found b hb ho =>
    rw [ho, put, Table.keys_insert]
    exact Finset.mem_insert_self _ _

end BarrierManager

end SimBricks.BarrierState
