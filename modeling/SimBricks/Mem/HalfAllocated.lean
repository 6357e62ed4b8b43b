import SimBricks.Mem.BackPressure

/-!
# Entries of the memory channel of `memnic.c`

`OutAlloc` moves the write position at once, so an entry that is allocated
and never sent stops the host, which waits for it, for good. The log of the
calls is not part of the code.
-/

set_option autoImplicit false

namespace SimBricks.HalfAllocated
open Library Library.Run BaseIf NetProto NetworkMemory List Function Nat
open BackPressure (IsCompletion sampleFrame)

inductive Call where
  | alloc (slot : ℕ)
  | send (slot : ℕ)
  deriving DecidableEq, Repr

/-- The ring from the network interface to the host: which slots belong to the
host, its read position, and the calls so far. -/
structure Out where
  con : ℕ → Bool
  writer : Handle
  readPos : ℕ := 0
  log : List Call := []

namespace Out

def alloc (o : Out) (curTs : UInt64) : Option (Out × ℕ) :=
  let slot := o.writer.outPos
  (o.writer.outAlloc (!o.con slot) curTs).map fun (b,_) =>
    ({ o with writer := b, log := o.log++[.alloc slot] },slot)

def send (o : Out) (slot : ℕ) : Out :=
  { o with con := update o.con slot true, log := o.log++[.send slot] }

def forwardToMEM (o : Out) (curTs : UInt64) (f : Frame) : Out :=
  match o.alloc curTs with
  | none => o
  | some (o,slot) => if (NetworkMemory.forwardToMEM f).isEmpty then o else o.send slot

def outSync (o : Out) (curTs : UInt64) : Out :=
  if o.writer.upToDate curTs then o
  else
    match o.alloc curTs with
    | none => o
    | some (o,slot) => o.send slot

def hostPoll (o : Out) : Out :=
  if o.con o.readPos then
    { o with
      con := update o.con o.readPos false
      readPos := (o.readPos+1) % o.writer.outEnum }
  else o

def start (n : ℕ) (writer : Handle) : Out where
  con _ := false
  writer := { writer with outPos := 0, outEnum := n }

end Out

inductive Event where
  | packet (curTs : UInt64) (f : Frame)
  | sync (curTs : UInt64)
  | host

def step (o : Out) : Event → Out
  | .packet curTs f => o.forwardToMEM curTs f
  | .sync curTs => o.outSync curTs
  | .host => o.hostPoll

def paired (slots : List ℕ) : List Call := slots.flatMap fun i => [.alloc i,.send i]

/-- Every entry allocated was sent before the next one, and if anything waits for
the host, something waits at its position. -/
structure Flows (o : Out) : Prop where
  paired : ∃ slots, o.log = paired slots
  found : (∃ i, o.con i) → o.con o.readPos

/-- A packet that gets an entry is a completion. -/
def Supported (o : Out) : Event → Prop
  | .packet _ f => o.con o.writer.outPos = false → IsCompletion f
  | _ => True

/-- Positions and ownership from the entries sent and the number of those read. -/
structure Inv (n : ℕ) (slots : List ℕ) (r : ℕ) (o : Out) : Prop where
  log : o.log = paired slots
  outEnum : o.writer.outEnum = n
  outPos : o.writer.outPos = slots.length % n
  readPos : o.readPos = r % n
  behind : r ≤ slots.length
  room : slots.length ≤ r+n
  cells : Ring.Holds n (fun _ c => c = true) (fun c => c = false) r slots o.con
  inside : ∀ i, o.con i → i < n

section
variable {n r : ℕ} {slots : List ℕ} {o : Out}

lemma forwardToMEM_isEmpty (f : Frame) :
    (NetworkMemory.forwardToMEM f).isEmpty ↔ ¬ IsCompletion f := by
  unfold NetworkMemory.forwardToMEM IsCompletion
  split_ifs <;> simp [*]

lemma Inv.flows (h : Inv n slots r o) : Flows o := by
  refine ⟨⟨slots,h.log⟩,?_⟩
  rintro ⟨i,hi⟩
  obtain ⟨k,_,hkn,rfl⟩ := Ring.exists_in_round r (h.inside i hi)
  by_cases hr : r < slots.length
  · rw [h.readPos]
    exact h.cells.full r _ le_rfl (getElem?_eq_getElem hr)
  · rw [h.cells.free k (by omega) hkn] at hi
    cases hi

lemma alloc_eq (o : Out) (curTs : UInt64) :
    (o.con o.writer.outPos ∧ o.alloc curTs = none) ∨ (o.con o.writer.outPos = false ∧ ∃ b,
    b.outEnum = o.writer.outEnum ∧ b.outPos = (o.writer.outPos+1) % o.writer.outEnum ∧ o.alloc
    curTs = some ({ o with writer := b, log := o.log++[.alloc
    o.writer.outPos] },o.writer.outPos)) := by
  unfold Out.alloc Handle.outAlloc
  dsimp only
  cases o.con o.writer.outPos with
  | true => exact .inl ⟨rfl,rfl⟩
  | false =>
    exact .inr ⟨rfl,{ o.writer with
      outPos := (o.writer.outPos+1) % o.writer.outEnum, outTimestamp := curTs },rfl,rfl,rfl⟩

lemma Inv.sent (h : Inv n slots r o) (hn : 0 < n) (hfree : o.con o.writer.outPos = false)
    {b : Handle} (henum : b.outEnum = o.writer.outEnum)
    (hpos : b.outPos = (o.writer.outPos+1) % o.writer.outEnum) : Inv n (slots++[o.writer.outPos]) r
    (Out.send { o with writer := b, log := o.log++[.alloc o.writer.outPos] } o.writer.outPos) := by
  have hlen : (slots++[o.writer.outPos]).length = slots.length+1 := length_append
  have hlt : slots.length < r+n := by
    refine lt_of_le_of_ne h.room fun he => ?_
    have hfull := h.cells.full r _ le_rfl (getElem?_eq_getElem (by omega))
    rw [h.outPos, he, add_mod_right, hfull] at hfree
    cases hfree
  constructor
  · show (o.log++[.alloc o.writer.outPos])++[.send o.writer.outPos] = _
    rw [h.log, append_assoc, paired, paired, flatMap_append]
    rfl
  · exact henum.trans h.outEnum
  · rw [hlen]
    show b.outPos = _
    rw [hpos, h.outPos, h.outEnum, mod_add_mod]
  · exact h.readPos
  · rw [hlen]
    exact h.behind.trans (le_succ _)
  · rw [hlen]
    exact hlt
  · show Ring.Holds n _ _ r (slots++[o.writer.outPos]) (update o.con o.writer.outPos true)
    rw [h.outPos]
    exact h.cells.push h.behind hlt rfl
  · intro i (hi : update o.con o.writer.outPos true i)
    rw [update_apply] at hi
    split_ifs at hi with he
    · rw [he, h.outPos]
      exact mod_lt _ hn
    · exact h.inside i hi

lemma Inv.hostPoll (h : Inv n slots r o) (hn : 0 < n) : ∃ r, Inv n slots r o.hostPoll := by
  unfold Out.hostPoll
  split_ifs with hcon
  · have hlt : r < slots.length := by
      refine lt_of_le_of_ne h.behind fun he => ?_
      rw [h.readPos, h.cells.free r he.ge (by omega)] at hcon
      cases hcon
    have hroom := h.room
    refine ⟨r+1,h.log,h.outEnum,h.outPos,?_,hlt,by omega,?_,?_⟩
    · show (o.readPos+1) % o.writer.outEnum = (r+1) % n
      rw [h.readPos, h.outEnum, mod_add_mod]
    · show Ring.Holds n _ _ (r+1) slots (update o.con o.readPos false)
      rw [h.readPos]
      exact h.cells.pop hlt h.room rfl
    · intro i (hi : update o.con o.readPos false i)
      rw [update_apply] at hi
      split_ifs at hi
      exact h.inside i hi
  · exact ⟨r,h⟩

lemma paired_ne (slots slots' : List ℕ) (i : ℕ) : paired slots++[.alloc i] ≠ paired slots' := by
  intro he
  have hlen := congrArg length he
  have heven : ∀ l : List ℕ, (paired l).length = 2*l.length := by
    intro l
    simp [paired, length_flatMap, mul_comm]
  rw [length_append, heven, heven, length_singleton] at hlen
  omega

lemma flows_step_iff (h : Inv n slots r o) (hn : 0 < n) (e : Event) :
    (Flows (step o e) ↔ Supported o e) ∧ (Supported o e → ∃ slots r, Inv n slots r (step o e)) := by
  have hkept : ∀ {o' : Out} {e : Event}, Supported o e → (∃ slots r, Inv n slots r o') →
      (Flows o' ↔ Supported o e) ∧ (Supported o e → ∃ slots r, Inv n slots r o') := by
    rintro o' e hs ⟨slots,r,hinv⟩
    exact ⟨iff_of_true hinv.flows hs,fun _ => ⟨slots,r,hinv⟩⟩
  cases e with
  | host => exact hkept (e := .host) trivial ⟨slots,h.hostPoll hn⟩
  | sync curTs =>
    apply hkept (e := .sync curTs) trivial
    unfold step Out.outSync
    dsimp only
    split_ifs
    · exact ⟨slots,r,h⟩
    · rcases alloc_eq o curTs with ⟨-,ha⟩ | ⟨hfree,b,henum,hpos,ha⟩
      · rw [ha]
        exact ⟨slots,r,h⟩
      · rw [ha]
        exact ⟨_,r,h.sent hn hfree henum hpos⟩
  | packet curTs f =>
    unfold step Out.forwardToMEM
    dsimp only
    rcases alloc_eq o curTs with ⟨hfull,ha⟩ | ⟨hfree,b,henum,hpos,ha⟩
    · rw [ha]
      exact hkept (e := .packet curTs f) (fun hf => absurd (hf.symm.trans hfull) (by decide))
        ⟨slots,r,h⟩
    · rw [ha]
      dsimp only
      split_ifs with hempty
      · -- nothing is sent: the calls end with the entry that was allocated
        have hno : ¬ Supported o (.packet curTs f) := fun hs =>
          (forwardToMEM_isEmpty f).mp hempty (hs hfree)
        refine ⟨iff_of_false ?_ hno,fun hs => absurd hs hno⟩
        rintro ⟨⟨slots',hs⟩,-⟩
        rw [h.log] at hs
        exact paired_ne slots slots' _ hs
      · have hyes : IsCompletion f := by
          by_contra hno
          exact hempty ((forwardToMEM_isEmpty f).mpr hno)
        exact hkept (e := .packet curTs f) (fun _ => hyes) ⟨_,r,h.sent hn hfree henum hpos⟩

end

/-- No entry is left half allocated, and the host is never stopped, exactly if
every packet that gets an entry is a completion. -/
theorem entries_sent_iff (n : ℕ) (writer : Handle) (es : List Event) :
    (∀ earlier later, es = earlier++later → Flows (run step (Out.start (n+1) writer) earlier)) ↔
    Along step Supported (Out.start (n+1) writer) es := by
  have hstart : Inv (n+1) [] 0 (Out.start (n+1) writer) :=
    ⟨rfl,rfl,(zero_mod _).symm,(zero_mod _).symm,le_rfl,zero_le _,
      Ring.Holds.empty fun _ => rfl,fun _ hi => by cases hi⟩
  apply always_iff_along_kept (I := fun o => ∃ slots r, Inv (n+1) slots r o)
    ?_ ?_ ⟨[],0,hstart⟩ hstart.flows es fun _ _ => trivial
  · rintro o e - ⟨slots,r,h⟩ - hs
    exact (flows_step_iff h n.succ_pos e).2 hs
  · rintro o e - ⟨slots,r,h⟩ -
    exact (flows_step_iff h n.succ_pos e).1

/-- A packet that is no completion takes slot 0; the next completion goes to
slot 1, and the host waits at slot 0. -/
theorem entry_never_sent :
    let o := run step (Out.start 2 ⟨0,2,0,0,2,0,false,false,0,0⟩)
      [.packet 0 (sampleFrame 0x42),.packet 0 (sampleFrame kM2HWritecomp),.host]
    o.log = [.alloc 0,.alloc 1,.send 1] ∧ o.con 1 ∧ o.con o.readPos = false := by
  decide

end SimBricks.HalfAllocated
