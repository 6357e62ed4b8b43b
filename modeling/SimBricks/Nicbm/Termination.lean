import SimBricks.Nicbm.Runner

/-!
# A peer that has terminated

`InPoll` answers a TERMINATE message by moving both timestamps of the
interface out of the way. `OutAlloc` and `InPeek` know nothing of this and
write their timestamps over it. A runner that sends on such an interface
stops at the end of the next synchronization interval, since no SYNC will
ever move the deadline on.
-/

set_option autoImplicit false

namespace SimBricks.Termination
open Library.Run BaseIf Nicbm

/-- A call on an interface, with what it finds in shared memory. `InDone` and
`OutSend` write to the slot only. -/
inductive Call where
  | inPeek (ready : Option UInt64) (timestamp : UInt64)
  | inPoll (ready : Option (UInt64 × UInt8)) (timestamp : UInt64)
  | inDone
  | outAlloc (free : Bool) (timestamp : UInt64)
  | outSend
  | outSync (free : Bool) (timestamp : UInt64)
  deriving DecidableEq, Repr

structure Watch where
  base : Handle
  ended : Bool := false
  deriving DecidableEq, Repr

def Watch.step (w : Watch) : Call → Watch
  | .inPeek ready timestamp => { w with base := (w.base.inPeek ready timestamp).1 }
  | .inPoll ready timestamp =>
    let (base,taken) := w.base.inPoll ready timestamp
    ⟨base,w.ended || (taken && ready.any fun m => m.2 = kTypeTerminate)⟩
  | .inDone => w
  | .outAlloc free timestamp =>
    match w.base.outAlloc free timestamp with
    | some (base,_) => { w with base }
    | none => w
  | .outSend => w
  | .outSync free timestamp => { w with base := (w.base.outSync free timestamp).1 }

def sendsSync (b : Handle) : Call → Bool
  | .outSync free timestamp => (b.outSync free timestamp).2.1.isSome
  | _ => false

def Unbounded (w : Watch) : Prop :=
  w.ended → w.base.inTimestamp = kTimestampMax ∧ w.base.outNextSync = kTimestampMax

/-- The call leaves the timestamps of a terminated interface out of the way:
no message follows the TERMINATE, except with the largest timestamp or another
TERMINATE, and none is sent, except so late that its deadline is the largest. -/
def Harmless (w : Watch) (c : Call) : Prop := w.ended →
    match c with
    | .inPeek (some t) _ => t = kTimestampMax
    | .inPoll (some (t,type)) _ => t = kTimestampMax ∨ type = kTypeTerminate
    | .outAlloc true timestamp =>
      timestamp = kTimestampMax ∨ timestamp+w.base.syncInterval = kTimestampMax
    | _ => True

/-! ## One call -/

def Detached (w : Watch) : Prop := w.ended → w.base.sync = false

section
variable {b : Handle}

open Handle

lemma inPeek_sync (ready : Option UInt64) (timestamp : UInt64) :
    (b.inPeek ready timestamp).1.sync = b.sync := by
  unfold inPeek
  cases ready with
  | none => rfl
  | some =>
    dsimp only
    split_ifs <;> rfl

lemma inPoll_unsynced (h : b.sync = false) (t : UInt64) (type : UInt8) (timestamp : UInt64) :
    b.inPoll (some (t,type)) timestamp = ({ b with inTimestamp := t }.inTake type,true) := by
  simp [inPoll, inPeek, h]

lemma inTake_terminate (b : Handle) :
    (b.inTake kTypeTerminate).sync = false ∧ (b.inTake kTypeTerminate).inTimestamp = kTimestampMax ∧
    (b.inTake kTypeTerminate).outNextSync = kTimestampMax := by
  simp [inTake, outNextSync]

lemma outSync_unsynced (h : b.sync = false) (free : Bool) (timestamp : UInt64) :
    b.outSync free timestamp = (b,none,true) := by
  simp [outSync, upToDate, h]

lemma inPoll_taken {ready : Option (UInt64 × UInt8)} {timestamp : UInt64}
    (h : (b.inPoll ready timestamp).2)
    (ht : (ready.any fun m => m.2 = kTypeTerminate)) :
    ∃ c : Handle, (b.inPoll ready timestamp).1 = c.inTake kTypeTerminate := by
  cases ready with
  | none => cases ht
  | some m =>
    obtain ⟨t,type⟩ := m
    obtain rfl : type = kTypeTerminate := by simpa using ht
    unfold inPoll at h ⊢
    simp only [Option.map_some] at h ⊢
    cases hp : b.inPeek (some t) timestamp with
    | mk c taken =>
      rw [hp] at h
      cases taken with
      | true => exact ⟨c,rfl⟩
      | false => cases h

lemma inTake_sync (type : UInt8) (h : b.sync = false) : (b.inTake type).sync = false := by
  unfold inTake
  dsimp only
  split_ifs
  · rfl
  · exact h

lemma outAlloc_eq (timestamp : UInt64) : b.outAlloc true timestamp =
    some ({ b with outTimestamp := timestamp, outPos := (b.outPos+1) % b.outEnum },
      timestamp+b.linkLatency) := by
  simp [outAlloc]

end

lemma Detached.step {w : Watch} (h : Detached w) (c : Call) : Detached (w.step c) := by
  cases c with
  | inPeek ready timestamp =>
    intro he
    exact (inPeek_sync ready timestamp).trans (h he)
  | inPoll ready timestamp =>
    intro he
    simp only [Watch.step, Bool.or_eq_true, Bool.and_eq_true] at he ⊢
    by_cases hnow : (w.base.inPoll ready timestamp).2 ∧
        (ready.any fun m => m.2 = kTypeTerminate)
    · obtain ⟨c,hc⟩ := inPoll_taken hnow.1 hnow.2
      rw [hc]
      exact (inTake_terminate c).1
    · have hs := h (he.resolve_right hnow)
      cases ready with
      | none => exact hs
      | some =>
        rw [inPoll_unsynced hs]
        exact inTake_sync _ hs
  | inDone | outSend => exact h
  | outAlloc free =>
    cases free with
    | false => exact h
    | true =>
      simp only [Watch.step, outAlloc_eq]
      exact h
  | outSync =>
    intro he
    have hs := h he
    simp only [Watch.step, outSync_unsynced hs]
    exact hs

lemma unbounded_iff (b : Handle) {e : Bool} (h : e) :
    Unbounded ⟨b,e⟩ ↔ b.inTimestamp = kTimestampMax ∧ b.outNextSync = kTimestampMax :=
  forall_prop_of_true h

/-- A call keeps a terminated interface out of the way exactly if it is harmless. -/
lemma step_unbounded (w : Watch) (c : Call) (hd : Detached w) (hu : Unbounded w) :
    Unbounded (w.step c) ↔ Harmless w c := by
  by_cases he : w.ended
  · have hs := hd he
    obtain ⟨hin,hout⟩ := hu he
    simp only [Harmless, he, forall_true_left]
    cases c with
    | inPeek ready timestamp =>
      cases ready with
      | none => exact iff_of_true hu trivial
      | some t =>
        have hp : (w.base.inPeek (some t) timestamp).1 = { w.base with inTimestamp := t } := by
          simp [Handle.inPeek, hs]
        simp only [Watch.step, hp]
        rw [unbounded_iff _ he]
        exact and_iff_left hout
    | inPoll ready =>
      cases ready with
      | none =>
        exact iff_of_true (by simpa [Watch.step, Handle.inPoll, Handle.inPeek] using hu) trivial
      | some m =>
        obtain ⟨t,type⟩ := m
        simp only [Watch.step, inPoll_unsynced hs, he, Bool.true_or]
        rw [unbounded_iff _ rfl]
        by_cases ht : type = kTypeTerminate
        · subst ht
          exact iff_of_true (inTake_terminate _).2 (.inr rfl)
        · simp only [Handle.inTake, ht, or_false]
          exact and_iff_left hout
    | inDone | outSend => exact iff_of_true hu trivial
    | outAlloc free timestamp =>
      cases free with
      | false => exact iff_of_true hu trivial
      | true =>
        simp only [Watch.step, outAlloc_eq]
        rw [unbounded_iff _ he]
        simp only [hin, true_and, Handle.outNextSync]
        by_cases ht : timestamp = kTimestampMax
        · simp [ht]
        · simp [ht]
    | outSync =>
      simp only [Watch.step, outSync_unsynced hs]
      exact iff_of_true hu trivial
  · refine iff_of_true ?_ fun h => absurd h he
    intro hend
    cases c with
    | inPoll =>
      simp only [Watch.step, Bool.or_eq_true, Bool.and_eq_true] at hend ⊢
      obtain ⟨ht,hx⟩ := hend.resolve_left he
      obtain ⟨c,hc⟩ := inPoll_taken ht hx
      rw [hc]
      exact (inTake_terminate c).2
    | inPeek ready timestamp | inDone | outSend | outSync free timestamp => exact absurd hend he
    | outAlloc free =>
      cases free with
      | false => exact absurd hend he
      | true =>
        simp only [Watch.step, outAlloc_eq] at hend
        exact absurd hend he

/-! ## Whole runs -/

/-- From its first TERMINATE message on, an interface has the largest input
timestamp and deadline at every point and sends no SYNC, exactly if all calls
from then on are harmless. -/
theorem terminated_unbounded_iff (b : Handle) (calls : List Call) :
    ((∀ earlier later, calls = earlier++later → Unbounded (run Watch.step ⟨b,false⟩ earlier)) ∧
      Along Watch.step (fun w c => w.ended → sendsSync w.base c = false) ⟨b,false⟩ calls) ↔
    Along Watch.step Harmless ⟨b,false⟩ calls := by
  have hd : Detached ⟨b,false⟩ := fun h => by cases h
  have hsync : Along Watch.step (fun w c => w.ended → sendsSync w.base c = false)
      ⟨b,false⟩ calls := by
    apply along_always (fun w c h => h.step c) ?_ hd
    intro w c h he
    cases c with
    | outSync => simp [sendsSync, outSync_unsynced (h he)]
    | _ => rfl
  rw [and_iff_left hsync]
  exact always_iff_along (fun w c _ h => h.step c)
    (fun w c _ hd hu => step_unbounded w c hd hu) hd (fun h => by cases h) calls
    (fun _ _ => trivial)

/-- One message sent at time 2000, after the peer's TERMINATE at time 1000,
brings a deadline back. -/
theorem deadline_after_termination :
    (run Watch.step ⟨⟨0,64,0,0,64,0,false,true,500000,500000⟩,false⟩
      [.inPoll (some (1000,kTypeTerminate)) 1000,.inDone,.outAlloc true 2000,
        .outSend]).base.outNextSync = 502000 ∧
    ¬ (∀ earlier later,
      [.inPoll (some (1000,kTypeTerminate)) 1000,.inDone,.outAlloc true 2000,.outSend] =
        earlier++later →
      Unbounded (run Watch.step ⟨⟨0,64,0,0,64,0,false,true,500000,500000⟩,false⟩ earlier)) := by
  have hnext : (run Watch.step ⟨⟨0,64,0,0,64,0,false,true,500000,500000⟩,false⟩
      [.inPoll (some (1000,kTypeTerminate)) 1000,.inDone,.outAlloc true 2000,
        .outSend]).base.outNextSync = 502000 := by decide
  refine ⟨hnext,fun h => ?_⟩
  have hlast := (h _ [] (List.append_nil _).symm (by decide)).2
  cases hlast

/-! ## What it means for a runner -/

variable {s : Runner}

/-- The network interface is not synchronized any more, has nothing to read,
and its deadline has come. -/
structure Held (s : Runner) : Prop where
  isSync : s.isSync
  running : s.exiting = false
  detached : s.net.base.sync = false
  nothing : s.net.incoming = []
  deadline : s.net.base.outNextSync ≤ s.mainTime

/-- Neither a signal nor anything on the network side. -/
def Elsewhere : Event → Prop
  | .signal => False
  | .act (.send .net) => False
  | .arrive .net _ => False
  | _ => True

lemma Held.nextTs (h : Held s) : s.nextTs ≤ s.mainTime := by
  have hnext := UInt64.le_trans (nextTs_le_stepLimit s) (stepLimit_le h.isSync)
  have hdead := h.deadline
  unfold Runner.nicIfNextTimestamp Handle.nextTimestamp at hnext
  grind

lemma Held.pollN2D (h : Held s) : s.pollN2D = { s with pc := .trigger } := by
  simp [Runner.pollN2D, Port.poll, Port.ready, h.nothing, Handle.inPoll, Handle.inPeek]
  rw [← h.nothing]

lemma Held.same {t : Runner} (h : Held s) (hnet : t.net = s.net) (htime : t.mainTime = s.mainTime)
    (hsync : t.isSync = s.isSync) (hexit : t.exiting = s.exiting) :
    Held t ∧ t.mainTime = s.mainTime := by
  obtain ⟨hs,hr,hd,hn,hl⟩ := h
  rw [← hnet] at hd hn hl
  exact ⟨⟨hsync.trans hs,hexit.trans hr,hd,hn,htime ▸ hl⟩,htime⟩

lemma Held.call (h : Held s) (netFree pcieFree : Bool) :
    Held (step s (.runner netFree pcieFree)) ∧
    (step s (.runner netFree pcieFree)).mainTime = s.mainTime := by
  unfold Nicbm.step
  cases hpc : s.pc with
  | top =>
    simp only [h.running]
    exact h.same rfl rfl rfl h.running.symm
  | sync =>
    simp only [Runner.nicIfSync, Port.outSync, outSync_unsynced h.detached]
    split <;> exact h.same rfl rfl rfl rfl
  | pollH2D =>
    simp only [Runner.pollH2D]
    split <;> exact h.same rfl rfl rfl rfl
  | pollN2D =>
    dsimp only
    rw [h.pollN2D]
    exact h.same rfl rfl rfl rfl
  | trigger =>
    simp only [Runner.eventTrigger]
    split
    · exact h.same rfl rfl rfl rfl
    · split_ifs <;> exact h.same rfl rfl rfl rfl
  | next =>
    dsimp only
    rw [if_pos ⟨h.nextTs,h.running⟩]
    exact h.same rfl rfl rfl rfl
  | _ => exact h.same rfl rfl rfl rfl

lemma Held.step (h : Held s) {e : Event} (he : Elsewhere e) :
    Held (step s e) ∧ (step s e).mainTime = s.mainTime := by
  cases e with
  | signal => exact he.elim
  | arrive side =>
    cases side with
    | net => exact he.elim
    | pcie => exact h.same rfl rfl rfl rfl
  | act a =>
    simp only [Nicbm.step]
    split_ifs
    · cases a with
      | schedule => exact h.same rfl rfl rfl rfl
      | send side =>
        cases side with
        | net => exact he.elim
        | pcie => exact h.same rfl rfl rfl rfl
    · exact ⟨h,rfl⟩
  | runner netFree pcieFree => exact h.call netFree pcieFree

/-- A runner held by a terminated network goes round its inner loop for ever,
whatever the PCIe side sends and the device schedules. -/
theorem runner_held_back (h : Held s) {es : List Event} (hes : ∀ e ∈ es, Elsewhere e) :
    (run step s es).mainTime = s.mainTime := by
  refine (run_invariant (I := fun t => Held t ∧ t.mainTime = s.mainTime) ?_ ⟨h,rfl⟩
    (along_of_forall step hes s)).2
  intro t e ht he
  obtain ⟨hheld,hsame⟩ := ht.1.step he
  exact ⟨hheld,hsame.trans ht.2⟩

/-- The runner an interval after the message was sent. -/
def heldRunner : Runner where
  mainTime := 502000
  isSync := true
  pcie := ⟨⟨0,64,600000,0,64,500000,false,true,500000,500000⟩,[],[],[]⟩
  net := ⟨(run Watch.step ⟨⟨0,64,0,0,64,0,false,true,500000,500000⟩,false⟩
    [.inPoll (some (1000,kTypeTerminate)) 1000,.inDone,.outAlloc true 2000,.outSend]).base,[],[],[]⟩

theorem runner_held_back_later :
    (run step heldRunner (List.replicate 99 (.runner true true))).mainTime = 502000 :=
  runner_held_back (s := heldRunner) ⟨rfl,rfl,by decide,rfl,by decide⟩ (by simp [Elsewhere])

end SimBricks.Termination
