import SimBricks.Base.Channel
import SimBricks.Mem.NetworkMemory

/-!
# Requests under back-pressure

The polling functions of `netmem.c` and `memnic.c` on a ring of shared
memory. `InPoll` moves the read position before the handler knows whether
`OutAlloc` has a slot for the answer; the three differ in what they do then.
The logs of a queue are not part of the code.
-/

set_option autoImplicit false

namespace SimBricks.BackPressure
open Library Library.Bytes Library.Run BaseIf NetProto List Function Nat Prod
open SpscChannel (Slot Msg)
open NetworkMemory

/-! ## An incoming queue with both of its ends -/

structure Queue (α : Type) where
  slots : ℕ → Slot α
  reader : Handle
  tail : ℕ := 0
  submitted : List (Msg α) := []
  taken : List (ℕ × Msg α) := []
  released : List ℕ := []

namespace Queue
variable {α : Type}

def submit (q : Queue α) (type : MsgType) (payload : α) (timestamp : UInt64) : Queue α :=
  if proOwned (q.slots q.tail).ownType then
    { q with
      slots := update q.slots q.tail ⟨payload,timestamp,sendType type⟩
      tail := (q.tail+1) % q.reader.inEnum
      submitted := q.submitted++[⟨type.val,payload,timestamp⟩] }
  else q

def ready (q : Queue α) : Option (UInt64 × UInt8) :=
  let c := q.slots q.reader.inPos
  if conOwned c.ownType then some (c.timestamp,inType c.ownType) else none

def poll (q : Queue α) (curTs : UInt64) : Queue α × Option (ℕ × Msg α) :=
  let i := q.reader.inPos
  match q.reader.inPoll q.ready curTs with
  | (b,true) =>
    ({ q with reader := b, taken := q.taken++[(i,(q.slots i).msg)] },some (i,(q.slots i).msg))
  | (b,false) => ({ q with reader := b },none)

def done (q : Queue α) (i : ℕ) : Queue α := { q with
    slots := update q.slots i { q.slots i with ownType := doneType (q.slots i).ownType }
    released := q.released++[i] }

end Queue

structure State (α β μ : Type) where
  queue : Queue α
  mem : μ
  outs : List β := []

def State.done {α β μ : Type} (s : State α β μ) (i : ℕ) : State α β μ :=
  { s with queue := s.queue.done i }

def kNetMsgPacket : UInt8 := 0x40

/-! ## `netmem.c` -/

def netmemHandleRequest (node : NetMem) (s : State Frame Frame Memory) (f : Frame) (free : Bool)
    (stale : UInt8) : Option (State Frame Frame Memory) :=
  if free then
    let (mem,reply) := node.handleRequest s.mem f stale
    some { s with mem, outs := s.outs++[reply] }
  else none

def netmemPollN2M (node : NetMem) (s : State Frame Frame Memory) (curTs : UInt64) (free : Bool)
    (stale : UInt8) : State Frame Frame Memory :=
  match s.queue.poll curTs with
  | (queue,none) => { s with queue }
  | (queue,some (i,m)) =>
    let s := { s with queue }
    if m.type = kNetMsgPacket then
      match netmemHandleRequest node s m.payload free stale with
      | none => s
      | some s => s.done i
    else s.done i

/-! ## `memnic.c` -/

section
variable {α β : Type}

end

section
variable {α β μ : Type}

/-- What a poll can do, for the requests of a simulator and its service. -/
inductive Polled (isRequest : UInt8 → Bool) (serve : μ → α → μ × List β) (s : State α β μ)
    (curTs : UInt64) (free : Bool) : State α β μ → Prop where
  | quiet (q : Queue α) (h : s.queue.poll curTs = (q,none)) :
      Polled isRequest serve s curTs free { s with queue := q }
  | other (q : Queue α) (i : ℕ) (m : Msg α) (h : s.queue.poll curTs = (q,some (i,m)))
      (hr : isRequest m.type = false) :
      Polled isRequest serve s curTs free { s with queue := q.done i }
  | served (q : Queue α) (i : ℕ) (m : Msg α) (h : s.queue.poll curTs = (q,some (i,m)))
      (hr : isRequest m.type) (hf : free) :
      Polled isRequest serve s curTs free
        ⟨q.done i,(serve s.mem m.payload).1,s.outs++(serve s.mem m.payload).2⟩
  | refused (q q' : Queue α) (i : ℕ) (m : Msg α) (h : s.queue.poll curTs = (q,some (i,m)))
      (hr : isRequest m.type) (hf : free = false) (ht : q'.taken = q.taken) :
      Polled isRequest serve s curTs free { s with queue := q' }

/-- A simulator that polls a queue: its requests, which of them are well formed,
and the one answer that each of these should get. -/
structure Service (α β μ : Type) where
  poll : State α β μ → UInt64 → Bool → UInt8 → State α β μ
  isRequest : UInt8 → Bool
  WellFormed : Msg α → Prop
  serve : μ → α → μ × List β
  one : ∀ m mem, isRequest m.type → WellFormed m → (serve mem m.payload).2.length = 1
  polled : ∀ s curTs free stale, (∀ q i m, s.queue.poll curTs = (q,some (i,m)) → WellFormed m) →
      Polled isRequest serve s curTs free (poll s curTs free stale)

inductive Event (α : Type) where
  | submit (type : MsgType) (payload : α) (timestamp : UInt64)
  | poll (curTs : UInt64) (free : Bool) (stale : UInt8)

namespace Service
variable (S : Service α β μ)

def step (s : State α β μ) : Event α → State α β μ
  | .submit type payload timestamp => { s with queue := s.queue.submit type payload timestamp }
  | .poll curTs free stale => S.poll s curTs free stale

def start (n : ℕ) (cells : ℕ → α × UInt64) (reader : Handle) (mem : μ) : State α β μ where
  queue := ⟨fun i => ⟨(cells i).1,(cells i).2,0⟩,{ reader with inPos := 0, inEnum := n },0,[],[],[]⟩
  mem := mem

end Service

/-! ## The ring -/

def Holding (m : Msg α) (c : Slot α) : Prop := c.msg = m ∧ conOwned c.ownType

lemma poll_cases (q : Queue α) (curTs : UInt64) :
    (∃ b, q.poll curTs = ({ q with reader := b },none) ∧ b.inEnum = q.reader.inEnum ∧
      b.inPos = q.reader.inPos) ∨
    ∃ b i m, q.poll curTs = ({ q with reader := b, taken := q.taken++[(i,m)] },some (i,m)) ∧
      b.inEnum = q.reader.inEnum ∧ b.inPos = (q.reader.inPos+1) % q.reader.inEnum ∧
      i = q.reader.inPos ∧ m = (q.slots i).msg ∧ conOwned (q.slots i).ownType := by
  unfold Queue.poll Queue.ready Handle.inPoll
  dsimp only
  cases hcon : conOwned (q.slots q.reader.inPos).ownType with
  | false => exact .inl ⟨q.reader,rfl,rfl,rfl⟩
  | true =>
    simp only [if_true, Option.map_some, Handle.inPeek]
    split_ifs
    · exact .inl ⟨_,rfl,rfl,rfl⟩
    · refine .inr ⟨_,_,_,rfl,?_,?_,rfl,rfl,hcon⟩
      · exact (SpscChannel.inTake_pos _ _).1
      · exact (SpscChannel.inTake_pos _ _).2

/-- Both positions and every ownership bit follow from the lengths of the logs. -/
structure Tidy (n : ℕ) (q : Queue α) : Prop where
  inEnum : q.reader.inEnum = n
  inPos : q.reader.inPos = q.taken.length % n
  tail : q.tail = q.submitted.length % n
  behind : q.taken.length ≤ q.submitted.length
  room : q.submitted.length ≤ q.taken.length+n
  cells : Ring.Holds n Holding (fun c => proOwned c.ownType) q.taken.length q.submitted
    q.slots

namespace Tidy
variable {n : ℕ} {q q' : Queue α} (h : Tidy n q)
include h

lemma submit (hn : 0 < n) (type : MsgType) (payload : α) (timestamp : UInt64) :
    Tidy n (q.submit type payload timestamp) := by
  unfold Queue.submit
  split_ifs with hfree
  · -- a slot that belongs to the writer is not one of those that were not read
    have hlt : q.submitted.length < q.taken.length+n := by
      refine lt_of_le_of_ne h.room fun he => ?_
      have hold := h.cells.full q.taken.length
      obtain ⟨m,hm⟩ : ∃ m, q.submitted[q.taken.length]? = some m :=
        ⟨_,getElem?_eq_getElem (by omega)⟩
      have hcon := (hold m le_rfl hm).2
      rw [h.tail, he, add_mod_right, proOwned_eq_not, hcon] at hfree
      cases hfree
    refine ⟨h.inEnum,h.inPos,?_,?_,?_,?_⟩
    · show (q.tail+1) % q.reader.inEnum = _
      rw [h.tail, h.inEnum, length_append, length_singleton, mod_add_mod]
    · rw [length_append]
      exact h.behind.trans (le_add_right _ _)
    · rw [length_append, length_singleton]
      exact hlt
    · show Ring.Holds n Holding _ _ _ (update q.slots q.tail _)
      rw [h.tail]
      refine h.cells.push h.behind hlt ⟨?_,conOwned_sendType type⟩
      rw [Slot.msg, inType_sendType]
  · exact h

lemma next (hn : 0 < n) (hcon : conOwned (q.slots q.reader.inPos).ownType) :
    q.submitted[q.taken.length]? = some (q.slots q.reader.inPos).msg := by
  rw [h.inPos] at hcon ⊢
  rcases h.behind.lt_or_eq with hlt | he
  · have hm := getElem?_eq_getElem hlt
    rw [(h.cells.full _ _ le_rfl hm).1, hm]
  · have hpro := h.cells.free q.taken.length he.ge (by omega)
    rw [proOwned_eq_not, hcon] at hpro
    cases hpro

lemma done (hn : 0 < n) {b : Handle} {i : ℕ} {m : Msg α} (hpos : i = q.reader.inPos)
    (hcon : conOwned (q.slots i).ownType) (henum : b.inEnum = q.reader.inEnum)
    (hb : b.inPos = (q.reader.inPos+1) % q.reader.inEnum) :
    Tidy n ({ q with reader := b, taken := q.taken++[(i,m)] }.done i) := by
  subst hpos
  have hlt := (List.getElem?_eq_some_iff.mp (h.next hn hcon)).1
  have hlen : (q.taken++[(q.reader.inPos,m)]).length = q.taken.length+1 := List.length_append
  refine ⟨henum.trans h.inEnum,?_,h.tail,?_,?_,?_⟩
  · show b.inPos = (q.taken++[(q.reader.inPos,m)]).length % n
    rw [hlen, hb, h.inPos, h.inEnum, Nat.mod_add_mod]
  · show (q.taken++[(q.reader.inPos,m)]).length ≤ _
    rw [hlen]
    exact hlt
  · show q.submitted.length ≤ (q.taken++[(q.reader.inPos,m)]).length+n
    have := h.room
    omega
  · show Ring.Holds n Holding _ (q.taken++[(q.reader.inPos,m)]).length q.submitted
      (Function.update q.slots q.reader.inPos _)
    rw [hlen, h.inPos]
    exact h.cells.pop hlt h.room (proOwned_doneType _)

end Tidy

/-! ## One step and whole runs -/

namespace Service
variable {S : Service α β μ} {n : ℕ} {s : State α β μ} {mem : μ}

/-- The invariant beside the property: the ring is tidy and holds well-formed
messages. -/
structure Inv (S : Service α β μ) (n : ℕ) (s : State α β μ) : Prop where
  tidy : Tidy n s.queue
  wellFormed : ∀ m ∈ s.queue.submitted, S.WellFormed m

lemma Inv.quiet (h : Inv S n s) {curTs : UInt64} {q : Queue α}
    (hp : s.queue.poll curTs = (q,none)) : Inv S n { s with queue := q } ∧ q.taken = s.queue.taken ∧
    q.released = s.queue.released ∧
      q.submitted = s.queue.submitted := by
  rcases poll_cases s.queue curTs with ⟨b,hq,henum,hpos⟩ | ⟨b,i,m,hq,-⟩
  · cases hp.symm.trans hq
    have ht := h.tidy
    exact ⟨⟨⟨henum.trans ht.inEnum,hpos.trans ht.inPos,ht.tail,ht.behind,ht.room,ht.cells⟩,
      h.wellFormed⟩,rfl,rfl,rfl⟩
  · cases hp.symm.trans hq

lemma Inv.taken (h : Inv S n s) (hn : 0 < n) {curTs : UInt64} {q : Queue α} {i : ℕ} {m : Msg α}
    (hp : s.queue.poll curTs = (q,some (i,m))) :
    (∀ mem outs, Inv S n ⟨q.done i,mem,outs⟩) ∧ q.taken = s.queue.taken++[(i,m)] ∧
    q.released = s.queue.released ∧ q.submitted = s.queue.submitted ∧
    s.queue.submitted[s.queue.taken.length]? = some m ∧ S.WellFormed m := by
  rcases poll_cases s.queue curTs with ⟨b,hq,-⟩ | ⟨b,_,_,hq,henum,hpos,hi,rfl,hcon⟩
  · cases hp.symm.trans hq
  · cases hp.symm.trans hq
    have hnext := h.tidy.next hn (hi ▸ hcon)
    rw [← hi] at hnext
    exact ⟨fun _ _ => ⟨h.tidy.done hn hi hcon henum hpos,h.wellFormed⟩,rfl,rfl,rfl,hnext,
      h.wellFormed _ (mem_of_getElem? hnext)⟩

end Service

end

/-! ## The three simulators -/

def IsReadOrWrite (f : Frame) : Prop := f.memop.opType = kH2MRead ∨ f.memop.opType = kH2MWrite

def netmem (node : NetMem) : Service Frame Frame Memory where
  poll := netmemPollN2M node
  isRequest := (· = kNetMsgPacket)
  WellFormed m := m.type = kNetMsgPacket → IsReadOrWrite m.payload
  serve mem f := ((node.handleRequest mem f 0).1,[(node.handleRequest mem f 0).2])
  one _ _ _ _ := rfl
  polled s curTs free stale hwf := by
    unfold netmemPollN2M
    cases hp : s.queue.poll curTs with
    | mk q found =>
      cases found with
      | none => exact .quiet q hp
      | some x =>
        obtain ⟨i,m⟩ := x
        by_cases htype : m.type = kNetMsgPacket
        · have hstale : node.handleRequest s.mem m.payload stale =
              node.handleRequest s.mem m.payload 0 := by
            have hne : kH2MWrite ≠ kH2MRead := by decide
            rcases hwf q i m hp htype with h | h <;> simp [NetMem.handleRequest, h, hne]
          cases free with
          | true =>
            simp only [htype, if_true, netmemHandleRequest, hstale]
            exact .served q i m hp (decide_eq_true htype) rfl
          | false =>
            simp only [htype, if_true, netmemHandleRequest, Bool.false_eq_true, if_false]
            exact .refused q q i m hp (decide_eq_true htype) rfl rfl
        · simp only [htype, if_false]
          exact .other q i m hp (decide_eq_false htype)

def IsCompletion (f : Frame) : Prop :=
  f.memop.opType = kM2HReadcomp ∨ f.memop.opType = kM2HWritecomp

def packet : MsgType := ⟨kNetMsgPacket,by decide⟩

def sampleNic : MemNic := ⟨Vector.replicate 6 4,9,1,2⟩

def sampleFrame (opType : UInt8) : Frame := sampleNic.frame ⟨opType,1,0,8,0⟩ []

/-- The number of requests taken and of answers, and the slots released. -/
def State.counts {α β μ : Type} (s : State α β μ) : ℕ × ℕ × List ℕ :=
  (s.queue.taken.length,s.outs.length,s.queue.released)

end SimBricks.BackPressure
