import SimBricks.Base.BaseIf
import SimBricks.Library.OrderedMultiset
import SimBricks.Library.Run

/-!
# The main loop of `nicbm.cc`

One step of the runner is one call of its loop body; messages of the peers
and the signal come in between any two of them, also while a callback of the
device runs. What a device does in a callback is sending on either side and
scheduling events, in any order; DMA, interrupts and completions are messages
to the PCIe side here. The logs of a port and of the events are not part of
the code.
-/

set_option autoImplicit false

namespace SimBricks.Nicbm
open Library Library.Run BaseIf List

def kMaxStep : UInt64 := 10000

structure Msg where
  timestamp : UInt64
  type : UInt8
  deriving DecidableEq, Repr

/-- One interface with the messages in its incoming queue. `arrived` is
everything the peer has sent, `handled` what was taken, with the main time. -/
structure Port where
  base : Handle
  incoming : List Msg := []
  arrived : List Msg := []
  handled : List (Msg × UInt64) := []
  deriving DecidableEq, Repr

structure TimedEvent where
  time : UInt64
  priority : ℤ
  deriving DecidableEq, Repr

def TimedEvent.before (a b : TimedEvent) : Bool :=
  a.time < b.time || (a.time = b.time && a.priority < b.priority)

def eventInsert (ev : TimedEvent) (xs : List TimedEvent) : List TimedEvent :=
  OrderedMultiset.insert TimedEvent.before ev xs

inductive Side where
  | pcie | net
  deriving DecidableEq, Repr

/-- `setup`, `h2d`, `n2d` and `timed` are inside a callback of the device. -/
inductive Pc where
  | setup | top | sync | pollH2D | h2d | pollN2D | n2d | trigger | timed | next | stopped
  deriving DecidableEq, Repr

structure Runner where
  mainTime : UInt64 := 0
  pcie : Port
  net : Port
  isSync : Bool
  events : List TimedEvent := []
  exiting : Bool := false
  pc : Pc := .setup
  scheduled : List TimedEvent := []
  fired : List (TimedEvent × UInt64) := []
  deriving DecidableEq, Repr

inductive Action where
  | send (side : Side)
  | schedule (ev : TimedEvent)
  deriving DecidableEq, Repr

inductive Event where
  | runner (netFree pcieFree : Bool)
  | act (a : Action)
  | arrive (side : Side) (m : Msg)
  | signal
  deriving DecidableEq, Repr

namespace Port

def ready (p : Port) : Option (UInt64 × UInt8) := p.incoming.head?.map fun m => (m.timestamp,m.type)

def poll (p : Port) (mainTime : UInt64) : Port × Option UInt8 :=
  match p.base.inPoll p.ready mainTime, p.incoming with
  | (b,true), m::rest =>
    ({ p with base := b, incoming := rest, handled := p.handled++[(m,mainTime)] },some m.type)
  | (b,_), _ => ({ p with base := b },none)

/-- `D2HAlloc` and `D2NAlloc` wait until a slot is free. -/
def send (p : Port) (mainTime : UInt64) : Port :=
  match p.base.outAlloc true mainTime with
  | some (b,_) => { p with base := b }
  | none => p

def arrive (p : Port) (m : Msg) : Port :=
  { p with incoming := p.incoming++[m], arrived := p.arrived++[m] }

def outSync (p : Port) (free : Bool) (mainTime : UInt64) : Port × Bool :=
  let (b,_,ok) := p.base.outSync free mainTime
  ({ p with base := b },ok)

end Port

def h2dCalls (type : UInt8) : Bool := 0x60 ≤ type && type ≤ 0x65

def n2dCalls (type : UInt8) : Bool := type = 0x40

namespace Runner

def act (s : Runner) : Action → Runner
  | .send .pcie => { s with pcie := s.pcie.send s.mainTime }
  | .send .net => { s with net := s.net.send s.mainTime }
  | .schedule ev => { s with events := eventInsert ev s.events, scheduled := s.scheduled++[ev] }

def nicIfSync (s : Runner) (netFree pcieFree : Bool) : Runner × Bool :=
  match s.net.outSync netFree s.mainTime with
  | (net,false) => ({ s with net },false)
  | (net,true) =>
    let (pcie,ok) := s.pcie.outSync pcieFree s.mainTime
    ({ s with net, pcie },ok)

def nicIfNextTimestamp (s : Runner) : UInt64 :=
  let net := s.net.base.nextTimestamp
  let pcie := s.pcie.base.nextTimestamp
  if net < pcie then net else pcie

def stepLimit (s : Runner) : UInt64 :=
  if s.isSync then
    if s.mainTime+kMaxStep < s.nicIfNextTimestamp then s.mainTime+kMaxStep
    else s.nicIfNextTimestamp
  else s.mainTime+kMaxStep

def nextTs (s : Runner) : UInt64 :=
  match s.events with
  | ev::_ => if ev.time < s.stepLimit then ev.time else s.stepLimit
  | [] => s.stepLimit

def pollH2D (s : Runner) : Runner :=
  match s.pcie.poll s.mainTime with
  | (pcie,some type) => { s with pcie, pc := if h2dCalls type then .h2d else .pollN2D }
  | (pcie,none) => { s with pcie, pc := .pollN2D }

def pollN2D (s : Runner) : Runner :=
  match s.net.poll s.mainTime with
  | (net,some type) => { s with net, pc := if n2dCalls type then .n2d else .trigger }
  | (net,none) => { s with net, pc := .trigger }

def eventTrigger (s : Runner) : Runner :=
  match s.events with
  | [] => { s with pc := .next }
  | ev::rest =>
    if s.mainTime < ev.time then { s with pc := .next }
    else { s with events := rest, fired := s.fired++[(ev,s.mainTime)], pc := .timed }

end Runner

/-- Nothing can be sent before the interfaces are connected. -/
def Pc.permits : Pc → Action → Bool
  | .setup, .schedule _ => true
  | .h2d, _ | .n2d, _ | .timed, _ => true
  | _, _ => false

def step (s : Runner) : Event → Runner
  | .arrive .pcie m => { s with pcie := s.pcie.arrive m }
  | .arrive .net m => { s with net := s.net.arrive m }
  | .signal => { s with exiting := true }
  | .act a => if s.pc.permits a then s.act a else s
  | .runner netFree pcieFree =>
    match s.pc with
    | .setup => { s with pc := .top }
    | .top => if s.exiting then { s with pc := .stopped } else { s with pc := .sync }
    | .sync =>
      let (t,ok) := s.nicIfSync netFree pcieFree
      if ok then { t with pc := .pollH2D } else t
    | .pollH2D => s.pollH2D
    | .h2d => { s with pc := .pollN2D }
    | .pollN2D => s.pollN2D
    | .n2d => { s with pc := .trigger }
    | .trigger => s.eventTrigger
    | .timed => { s with pc := .next }
    | .next =>
      if s.nextTs ≤ s.mainTime ∧ s.exiting = false then { s with pc := .pollH2D }
      else { s with mainTime := s.nextTs, pc := .top }
    | .stopped => s

def start (pcie net : Handle) : Runner where
  pcie := ⟨{ pcie with
    inTimestamp := 0, outTimestamp := 0, inTerminated := false, sync := true },[],[],[]⟩
  net := ⟨{ net with
    inTimestamp := 0, outTimestamp := 0, inTerminated := false, sync := true },[],[],[]⟩
  isSync := true

def Runner.port (s : Runner) : Side → Port
  | .pcie => s.pcie
  | .net => s.net

/-- The peers do not terminate and send with nondecreasing timestamps; the
device schedules nothing in the past. -/
def Legal (s : Runner) : Event → Prop
  | .arrive side m => m.type ≠ kTypeTerminate ∧
      ∀ x ∈ (s.port side).arrived, x.timestamp ≤ m.timestamp
  | .act (.schedule ev) => s.mainTime ≤ ev.time
  | _ => True

instance (s : Runner) : (e : Event) → Decidable (Legal s e)
  | .arrive _ _ => inferInstanceAs (Decidable (_ ∧ _))
  | .act (.schedule _) => inferInstanceAs (Decidable (_ ≤ _))
  | .act (.send _) | .runner _ _ | .signal => .isTrue trivial

inductive Port.Polled (p : Port) (mainTime : UInt64) : Port × Option UInt8 → Prop where
  | idle (h : p.incoming = []) : Polled p mainTime (p,none)
  | early (m : Msg) (rest : List Msg) (h : p.incoming = m::rest) (hs : p.base.sync)
      (ht : mainTime < m.timestamp) : Polled p mainTime
        ({ p with base := { p.base with inTimestamp := m.timestamp } },none)
  | taken (m : Msg) (rest : List Msg) (h : p.incoming = m::rest)
      (ht : p.base.sync → m.timestamp ≤ mainTime) : Polled p mainTime
        ({ p with
          base := ({ p.base with inTimestamp := m.timestamp } : Handle).inTake m.type
          incoming := rest, handled := p.handled++[(m,mainTime)] },some m.type)

lemma Port.poll_spec (p : Port) (mainTime : UInt64) : Polled p mainTime (p.poll mainTime) := by
  obtain ⟨base,incoming,_,_⟩ := p
  cases incoming with
  | nil => exact .idle rfl
  | cons m rest =>
    simp only [Port.poll, Port.ready, Handle.inPoll, Handle.inPeek, head?_cons,
      Option.map_some]
    by_cases h : base.sync ∧ mainTime < m.timestamp
    · simp only [if_pos h]
      exact .early m rest rfl h.1 h.2
    · simp only [if_neg h]
      exact .taken m rest rfl fun hs => UInt64.not_lt.mp fun ht => h ⟨hs,ht⟩

lemma inTake_live (b : Handle) {type : UInt8} (h : type ≠ kTypeTerminate) :
    b.inTake type = { b with inPos := (b.inPos+1) % b.inEnum } := by
  rw [Handle.inTake, if_neg h]

/-- Nothing in the queue is behind the last timestamp seen, which is not
behind the main time; what was taken was taken at its time. -/
structure Port.Inv (mainTime : UInt64) (p : Port) : Prop where
  sync : p.base.sync
  live : ∀ m ∈ p.incoming, m.type ≠ kTypeTerminate
  kept : p.arrived = p.handled.map Prod.fst++p.incoming
  sorted : p.incoming.Pairwise fun a b => a.timestamp ≤ b.timestamp
  seen : p.base.inTimestamp = 0 ∨ ∃ m ∈ p.arrived, m.timestamp = p.base.inTimestamp
  ahead : mainTime ≤ p.base.inTimestamp
  behind : ∀ m ∈ p.incoming, p.base.inTimestamp ≤ m.timestamp
  exact : ∀ x ∈ p.handled, x.1.timestamp = x.2

namespace Port.Inv

variable {mainTime : UInt64} {p : Port}

variable (h : p.Inv mainTime)
include h

lemma rebase {b : Handle} (hs : b.sync = p.base.sync)
    (hi : b.inTimestamp = p.base.inTimestamp) : Inv mainTime { p with base := b } where
  sync := hs.trans h.sync
  live := h.live
  kept := h.kept
  sorted := h.sorted
  seen := by simpa only [hi] using h.seen
  ahead := by simpa [hi] using h.ahead
  behind := by simpa only [hi] using h.behind
  exact := h.exact

lemma send (t : UInt64) : (p.send t).Inv mainTime := h.rebase rfl rfl

lemma outSync (free : Bool) (t : UInt64) : (p.outSync free t).1.Inv mainTime := by
  rcases p.base.outSync_cases free t with ⟨-,ho⟩ | ⟨-,ho⟩ | ⟨-,ho⟩ <;>
    simp only [Port.outSync, ho] <;> exact h.rebase rfl rfl

lemma arrive {m : Msg} (hm : m.type ≠ kTypeTerminate)
    (hle : ∀ x ∈ p.arrived, x.timestamp ≤ m.timestamp) : (p.arrive m).Inv mainTime where
  sync := h.sync
  live := by
    intro x hx
    rcases mem_append.mp hx with hx | hx
    · exact h.live x hx
    · exact mem_singleton.mp hx ▸ hm
  kept := by simp [Port.arrive, h.kept]
  sorted := by
    refine pairwise_append.mpr ⟨h.sorted,pairwise_singleton _ _,?_⟩
    intro x hx y hy
    rw [mem_singleton.mp hy]
    exact hle x (h.kept ▸ mem_append_right _ hx)
  seen := h.seen.imp_right fun ⟨x,hx,he⟩ => ⟨x,mem_append_left _ hx,he⟩
  ahead := h.ahead
  behind := by
    intro x hx
    rcases mem_append.mp hx with hx | hx
    · exact h.behind x hx
    · rw [mem_singleton.mp hx]
      rcases h.seen with h0 | ⟨y,hy,he⟩
      · simp [Port.arrive, h0, UInt64.le_iff_toNat_le]
      · exact he ▸ hle y hy
  exact := h.exact

lemma poll : (p.poll mainTime).1.Inv mainTime := by
  have hspec := p.poll_spec mainTime
  generalize p.poll mainTime = r at hspec
  cases hspec with
  | idle => exact h
  | early m rest hq _ ht =>
    have hsorted := h.sorted
    rw [hq] at hsorted
    have hseen : m ∈ p.arrived := by simp [h.kept, hq]
    refine { h with seen := .inr ⟨m,hseen,rfl⟩, ahead := UInt64.le_of_lt ht, behind := ?_ }
    intro x hx
    rw [hq] at hx
    rcases mem_cons.mp hx with rfl | hx
    · exact UInt64.le_refl _
    · exact (pairwise_cons.mp hsorted).1 x hx
  | taken m rest hq ht =>
    rw [inTake_live _ (h.live m (by simp [hq]))]
    have hsorted := h.sorted
    rw [hq] at hsorted
    have hseen : m ∈ p.arrived := by simp [h.kept, hq]
    have hle : mainTime ≤ m.timestamp := UInt64.le_trans h.ahead (h.behind m (by simp [hq]))
    refine { h with
      live := fun x hx => h.live x (by simp [hq, hx])
      kept := by simp [h.kept, hq]
      sorted := (pairwise_cons.mp hsorted).2
      seen := .inr ⟨m,hseen,rfl⟩
      ahead := hle
      behind := (pairwise_cons.mp hsorted).1, exact := ?_ }
    intro x hx
    rcases mem_append.mp hx with hx | hx
    · exact h.exact x hx
    · rw [mem_singleton.mp hx]
      exact UInt64.le_antisymm (ht h.sync) hle

lemma moveTo {t : UInt64} (ht : t ≤ p.base.inTimestamp) : p.Inv t :=
  { h with ahead := ht }

omit h

end Port.Inv

def Port.Past (mainTime : UInt64) (p : Port) : Prop := p.base.outTimestamp ≤ mainTime

/-- The next deadline is not behind the main time either. -/
def Port.Fresh (mainTime : UInt64) (p : Port) : Prop := p.Past mainTime ∧
  mainTime.toNat ≤ p.base.outTimestamp.toNat+p.base.syncInterval.toNat

def Port.Overrun (p : Port) : Prop := p.base.outTimestamp ≠ kTimestampMax ∧
  2^64 ≤ p.base.outTimestamp.toNat+p.base.syncInterval.toNat

namespace Port

variable {mainTime : UInt64} {p : Port}

lemma send_fresh (p : Port) (mainTime : UInt64) : (p.send mainTime).Fresh mainTime :=
  ⟨UInt64.le_refl _,Nat.le_add_right _ _⟩

def OutSame (p q : Port) : Prop :=
  q.base.outTimestamp = p.base.outTimestamp ∧ q.base.syncInterval = p.base.syncInterval

lemma Fresh.congr {q : Port} (h : p.Fresh mainTime) (hs : OutSame p q) : q.Fresh mainTime := by
  simpa only [Fresh, Past, hs.1, hs.2] using h

lemma outSync_past (h : p.Past mainTime) (hs : p.base.sync) (free : Bool) :
    (p.outSync free mainTime).1.Past mainTime ∧
    ((p.outSync free mainTime).2 → (p.outSync free mainTime).1.Fresh mainTime) := by
  rcases p.base.outSync_cases free mainTime with ⟨hu,ho⟩ | ⟨-,ho⟩ | ⟨-,ho⟩
  · have hlt := (Handle.upToDate_iff hs mainTime h).mp hu
    simp only [outSync, ho]
    exact ⟨h,fun _ => ⟨h,hlt.2.le⟩⟩
  · simp only [outSync, ho]
    exact ⟨UInt64.le_refl _,fun _ => ⟨UInt64.le_refl _,Nat.le_add_right _ _⟩⟩
  · simp only [outSync, ho]
    exact ⟨h,fun hok => by cases hok⟩

/-- A poll that leaves an interface synchronized leaves its outgoing side alone. -/
lemma poll_out (h : (p.poll mainTime).1.base.sync) :
    p.base.sync ∧ OutSame p (p.poll mainTime).1 := by
  have hspec := p.poll_spec mainTime
  generalize p.poll mainTime = r at h hspec
  cases hspec with
  | idle | early => exact ⟨h,rfl,rfl⟩
  | taken =>
    simp only [Handle.inTake] at h ⊢
    split_ifs at h ⊢ with htype
    exact ⟨h,rfl,rfl⟩

lemma outNextSync_ge (h : p.Fresh mainTime) (ho : ¬ p.Overrun) : mainTime ≤ p.base.outNextSync := by
  unfold Handle.outNextSync
  split_ifs with hmax
  · exact Nat.le_of_lt_succ mainTime.toNat_lt
  · have hlt : p.base.outTimestamp.toNat+p.base.syncInterval.toNat < 2^64 :=
      Nat.lt_of_not_le fun hle => ho ⟨hmax,hle⟩
    rw [UInt64.le_iff_toNat_le, UInt64.toNat_add, Nat.mod_eq_of_lt hlt]
    exact h.2

end Port

/-- Between `NicIfSync` and the next time. -/
def Pc.inner : Pc → Bool
  | .pollH2D | .h2d | .pollN2D | .n2d | .trigger | .timed | .next => true
  | _ => false

structure Inv (s : Runner) : Prop where
  pcie : s.pcie.Inv s.mainTime
  net : s.net.Inv s.mainTime
  isSync : s.isSync
  ahead : ∀ ev ∈ s.events, s.mainTime ≤ ev.time
  sorted : s.events.Pairwise fun a b => a.time ≤ b.time
  kept : s.scheduled.Perm (s.fired.map Prod.fst++s.events)
  exact : ∀ x ∈ s.fired, x.1.time = x.2
  fresh : s.pc.inner → s.pcie.Fresh s.mainTime ∧ s.net.Fresh s.mainTime
  past : s.pc ≠ .stopped → s.exiting = false ∨ s.pc = .sync →
    s.pcie.Past s.mainTime ∧ s.net.Past s.mainTime

lemma TimedEvent.le_of_before {a b : TimedEvent} (h : a.before b) : a.time ≤ b.time := by
  simp only [before, Bool.or_eq_true, Bool.and_eq_true, decide_eq_true_eq] at h
  rcases h with h | h
  · exact UInt64.le_of_lt h
  · rw [h.1]
    exact UInt64.le_refl _

lemma TimedEvent.le_of_not_before {a b : TimedEvent} (h : ¬ a.before b) :
    b.time ≤ a.time := by
  simp only [before, Bool.or_eq_true, decide_eq_true_eq, not_or] at h
  exact UInt64.not_lt.mp h.1

lemma eventInsert_sorted (ev : TimedEvent) {xs : List TimedEvent}
    (h : xs.Pairwise fun a b => a.time ≤ b.time) :
    (eventInsert ev xs).Pairwise fun a b => a.time ≤ b.time := by
  refine OrderedMultiset.insert_pairwise (fun y hb => ?_) (fun y => TimedEvent.le_of_not_before) h
  have hle := TimedEvent.le_of_before hb
  exact ⟨hle,fun z => UInt64.le_trans hle⟩

section
variable {s : Runner}

lemma start_inv (pcie net : Handle) : Inv (start pcie net) := by
  have hport : ∀ b : Handle, Port.Inv 0 ⟨{ b with
      inTimestamp := 0, outTimestamp := 0, inTerminated := false, sync := true },[],[],[]⟩ := by
    intro b
    exact ⟨rfl,by simp,rfl,.nil,.inl rfl,UInt64.le_refl _,by simp,by simp⟩
  refine ⟨hport pcie,hport net,rfl,by simp [start],.nil,.nil,by simp [start],?_,?_⟩
  · intro hi
    cases hi
  · exact fun _ _ => ⟨UInt64.le_refl _,UInt64.le_refl _⟩

lemma Handle.nextTimestamp_le (b : Handle) : b.nextTimestamp ≤ b.inTimestamp := by
  unfold Handle.nextTimestamp
  split_ifs with h
  · exact UInt64.le_refl _
  · exact UInt64.le_of_lt (UInt64.not_le.mp h)

lemma nicIfNextTimestamp_le (s : Runner) :
    s.nicIfNextTimestamp ≤ s.pcie.base.inTimestamp ∧
    s.nicIfNextTimestamp ≤ s.net.base.inTimestamp := by
  have hp := Handle.nextTimestamp_le s.pcie.base
  have hn := Handle.nextTimestamp_le s.net.base
  unfold Runner.nicIfNextTimestamp
  dsimp only
  split_ifs with h
  · exact ⟨UInt64.le_trans (UInt64.le_of_lt h) hp,hn⟩
  · exact ⟨hp,UInt64.le_trans (UInt64.not_lt.mp h) hn⟩

lemma stepLimit_le (hs : s.isSync) : s.stepLimit ≤ s.nicIfNextTimestamp := by
  simp only [Runner.stepLimit, hs, if_true]
  split_ifs with h
  · exact UInt64.le_of_lt h
  · exact UInt64.le_refl _

lemma nextTs_le_stepLimit (s : Runner) : s.nextTs ≤ s.stepLimit := by
  unfold Runner.nextTs
  split
  · split_ifs with h
    · exact UInt64.le_of_lt h
    · exact UInt64.le_refl _
  · exact UInt64.le_refl _

lemma nextTs_le_event (h : Inv s) {ev : TimedEvent} (hev : ev ∈ s.events) : s.nextTs ≤ ev.time := by
  unfold Runner.nextTs
  cases hq : s.events with
  | nil => simp [hq] at hev
  | cons x =>
    have hsorted := h.sorted
    rw [hq] at hsorted hev
    have hx : x.time ≤ ev.time := by
      rcases mem_cons.mp hev with rfl | hr
      · exact UInt64.le_refl _
      · exact (pairwise_cons.mp hsorted).1 ev hr
    dsimp only
    split_ifs with hlt
    · exact hx
    · exact UInt64.le_trans (UInt64.not_lt.mp hlt) hx

/-- A sum behind the next time does not fit its 64 bits. -/
def Overrun (s : Runner) : Prop :=
  s.pcie.Overrun ∨ s.net.Overrun ∨ 2^64 ≤ s.mainTime.toNat+kMaxStep.toNat

lemma nextTs_ge (h : Inv s) (hin : s.pc.inner) (ho : ¬ Overrun s) :
    s.mainTime ≤ s.nextTs := by
  simp only [Overrun, not_or] at ho
  obtain ⟨hpf,hnf⟩ := h.fresh hin
  have hmax : s.mainTime ≤ s.mainTime+kMaxStep := by
    rw [UInt64.le_iff_toNat_le, UInt64.toNat_add, Nat.mod_eq_of_lt (Nat.lt_of_not_le ho.2.2)]
    exact Nat.le_add_right _ _
  have hnext : ∀ p : Port, p.Inv s.mainTime → p.Fresh s.mainTime → ¬ p.Overrun →
      s.mainTime ≤ p.base.nextTimestamp := by
    intro p hp hf hn
    unfold Handle.nextTimestamp
    split_ifs
    · exact hp.ahead
    · exact Port.outNextSync_ge hf hn
  have hpcie := hnext _ h.pcie hpf ho.1
  have hnet := hnext _ h.net hnf ho.2.1
  have hnic : s.mainTime ≤ s.nicIfNextTimestamp := by
    unfold Runner.nicIfNextTimestamp
    dsimp only
    split_ifs
    · exact hnet
    · exact hpcie
  have hlimit : s.mainTime ≤ s.stepLimit := by
    unfold Runner.stepLimit
    split_ifs
    · exact hmax
    · exact hnic
    · exact hmax
  unfold Runner.nextTs
  split
  · next ev rest hq =>
    split_ifs
    · exact h.ahead ev (by simp [hq])
    · exact hlimit
  · exact hlimit

namespace Inv

variable (h : Inv s)
include h

lemma goto (pc : Pc) (hin : s.pc.inner) : Inv { s with pc } := by
  refine { h with fresh := fun _ => h.fresh hin, past := ?_ }
  exact fun _ _ => ⟨(h.fresh hin).1.1,(h.fresh hin).2.1⟩

lemma arrive {side : Side} {m : Msg} (hl : Legal s (.arrive side m)) :
    Inv (step s (.arrive side m)) := by
  obtain ⟨hm,hle⟩ := hl
  cases side with
  | pcie => exact { h with pcie := h.pcie.arrive hm hle }
  | net => exact { h with net := h.net.arrive hm hle }

lemma act {a : Action} (hl : Legal s (.act a)) : Inv (step s (.act a)) := by
  simp only [step]
  split_ifs with hp
  · cases a with
    | schedule ev =>
      refine { h with ahead := ?_, sorted := eventInsert_sorted ev h.sorted, kept := ?_ }
      · intro x hx
        rcases OrderedMultiset.mem_insert.mp hx with rfl | hx
        · exact hl
        · exact h.ahead x hx
      · have hperm : (s.scheduled++[ev]).Perm (s.fired.map Prod.fst++(s.events++[ev])) := by
          rw [← append_assoc]
          exact h.kept.append_right [ev]
        have hsnoc := perm_append_singleton ev s.events
        exact hperm.trans ((hsnoc.trans OrderedMultiset.insert_perm.symm).append_left _)
    | send side =>
      have hin : s.pc.inner := by
        revert hp
        cases s.pc <;> simp [Pc.permits, Pc.inner]
      obtain ⟨hpf,hnf⟩ := h.fresh hin
      cases side with
      | pcie =>
        have hf := s.pcie.send_fresh s.mainTime
        exact { h with
          pcie := h.pcie.send s.mainTime
          fresh := fun _ => ⟨hf,hnf⟩
          past := fun _ _ => ⟨hf.1,hnf.1⟩ }
      | net =>
        have hf := s.net.send_fresh s.mainTime
        exact { h with
          net := h.net.send s.mainTime
          fresh := fun _ => ⟨hpf,hf⟩
          past := fun _ _ => ⟨hpf.1,hf.1⟩ }
  · exact h

lemma nicIfSync (hpc : s.pc = .sync) (netFree pcieFree : Bool) : Inv
    (s.nicIfSync netFree pcieFree).1 ∧ ((s.nicIfSync netFree pcieFree).2 → Inv { (s.nicIfSync
    netFree pcieFree).1 with pc := .pollH2D }) := by
  obtain ⟨hpp,hnp⟩ := h.past (by simp [hpc]) (.inr hpc)
  obtain ⟨hnp',hnf⟩ := Port.outSync_past hnp h.net.sync netFree
  obtain ⟨hpp',hpf⟩ := Port.outSync_past hpp h.pcie.sync pcieFree
  have hnet := h.net.outSync netFree s.mainTime
  have hpcie := h.pcie.outSync pcieFree s.mainTime
  have hout : ¬ s.pc.inner := by simp [hpc, Pc.inner]
  unfold Runner.nicIfSync
  generalize s.net.outSync netFree s.mainTime = n at *
  generalize s.pcie.outSync pcieFree s.mainTime = p at *
  obtain ⟨net,netOk⟩ := n
  cases netOk with
  | false =>
    refine ⟨{ h with
      net := hnet, fresh := fun hi => absurd hi hout, past := fun _ _ => ⟨hpp,hnp'⟩ },?_⟩
    intro hok
    cases hok
  | true =>
    refine ⟨{ h with
      net := hnet, pcie := hpcie, fresh := fun hi => absurd hi hout
      past := fun _ _ => ⟨hpp',hnp'⟩ },?_⟩
    intro hok
    exact { h with
      net := hnet, pcie := hpcie, fresh := fun _ => ⟨hpf hok,hnf rfl⟩
      past := fun _ _ => ⟨hpp',hnp'⟩ }

lemma pollH2D (hin : s.pc.inner) : Inv s.pollH2D := by
  obtain ⟨hpf,hnf⟩ := h.fresh hin
  have hport := h.pcie.poll
  have hfresh := hpf.congr (Port.poll_out hport.sync).2
  unfold Runner.pollH2D
  cases hp : s.pcie.poll s.mainTime with
  | mk pcie type =>
    rw [hp] at hport hfresh
    have hnext : ∀ pc, Inv { s with pcie, pc } := fun pc => { h with
      pcie := hport, fresh := fun _ => ⟨hfresh,hnf⟩, past := fun _ _ => ⟨hfresh.1,hnf.1⟩ }
    cases type with
    | none | some t => exact hnext _

lemma pollN2D (hin : s.pc.inner) : Inv s.pollN2D := by
  obtain ⟨hpf,hnf⟩ := h.fresh hin
  have hport := h.net.poll
  have hfresh := hnf.congr (Port.poll_out hport.sync).2
  unfold Runner.pollN2D
  cases hp : s.net.poll s.mainTime with
  | mk net type =>
    rw [hp] at hport hfresh
    have hnext : ∀ pc, Inv { s with net, pc } := fun pc => { h with
      net := hport, fresh := fun _ => ⟨hpf,hfresh⟩, past := fun _ _ => ⟨hpf.1,hfresh.1⟩ }
    cases type with
    | none | some t => exact hnext _

lemma eventTrigger (hin : s.pc.inner) : Inv s.eventTrigger := by
  unfold Runner.eventTrigger
  split
  · exact h.goto _ hin
  · next ev rest hq =>
    split_ifs with hlt
    · exact h.goto _ hin
    · have hsorted := h.sorted
      have hkept := h.kept
      rw [hq] at hsorted hkept
      have hev : ev.time = s.mainTime :=
        UInt64.le_antisymm (UInt64.not_lt.mp hlt) (h.ahead ev (by simp [hq]))
      refine { h.goto .timed hin with
        ahead := fun x hx => h.ahead x (by simp [hq, hx])
        sorted := (pairwise_cons.mp hsorted).2
        kept := by simpa using hkept, exact := ?_ }
      intro x hx
      rcases mem_append.mp hx with hx | hx
      · exact h.exact x hx
      · rw [mem_singleton.mp hx]
        exact hev

/-- The new time is behind no message and no event. -/
lemma commit (hin : s.pc.inner)
    (hc : ¬ (s.nextTs ≤ s.mainTime ∧ s.exiting = false)) :
    Inv { s with mainTime := s.nextTs, pc := .top } := by
  have hlim := UInt64.le_trans (nextTs_le_stepLimit s) (stepLimit_le h.isSync)
  obtain ⟨hp,hn⟩ := nicIfNextTimestamp_le s
  refine { h with
    pcie := h.pcie.moveTo (UInt64.le_trans hlim hp)
    net := h.net.moveTo (UInt64.le_trans hlim hn)
    ahead := fun ev hev => nextTs_le_event h hev
    fresh := fun hi => by cases hi
    past := ?_ }
  rintro - (hex | hpc)
  · have hlt : s.mainTime ≤ s.nextTs := UInt64.le_of_lt (UInt64.not_le.mp fun hle => hc ⟨hle,hex⟩)
    obtain ⟨hpf,hnf⟩ := h.fresh hin
    exact ⟨UInt64.le_trans hpf.1 hlt,UInt64.le_trans hnf.1 hlt⟩
  · cases hpc

lemma runner (netFree pcieFree : Bool) : Inv (step s (.runner netFree pcieFree)) := by
  cases hpc : s.pc with
  | sync =>
    obtain ⟨hstay,hgo⟩ := h.nicIfSync hpc netFree pcieFree
    simp only [step, hpc]
    split_ifs with hok
    · exact hgo hok
    · exact hstay
  | stopped => simpa [step, hpc] using h
  | setup =>
    have hpast := h.past (by simp [hpc])
    simp only [step, hpc]
    refine { h with fresh := fun hi => (by cases hi), past := ?_ }
    rintro - (hex | hp)
    · exact hpast (.inl hex)
    · cases hp
  | top =>
    have hpast := h.past (by simp [hpc])
    simp only [step, hpc]
    split_ifs with hex
    · exact { h with fresh := fun hi => (by cases hi), past := fun hs => absurd rfl hs }
    · exact { h with
        fresh := fun hi => by cases hi
        past := fun _ _ => hpast (.inl (by simpa using hex)) }
  | pollH2D => simpa [step, hpc] using h.pollH2D (by simp [hpc, Pc.inner])
  | pollN2D => simpa [step, hpc] using h.pollN2D (by simp [hpc, Pc.inner])
  | trigger => simpa [step, hpc] using h.eventTrigger (by simp [hpc, Pc.inner])
  | h2d => simpa [step, hpc] using h.goto .pollN2D (by simp [hpc, Pc.inner])
  | n2d => simpa [step, hpc] using h.goto .trigger (by simp [hpc, Pc.inner])
  | timed => simpa [step, hpc] using h.goto .next (by simp [hpc, Pc.inner])
  | next =>
    have hin : s.pc.inner := by simp [hpc, Pc.inner]
    simp only [step, hpc]
    split_ifs with hc
    · exact h.goto .pollH2D hin
    · exact h.commit hin hc

lemma step (e : Event) (hl : Legal s e) : Inv (step s e) := by
  cases e with
  | runner netFree pcieFree => exact h.runner netFree pcieFree
  | act => exact h.act hl
  | arrive => exact h.arrive hl
  | signal =>
    refine { h with past := ?_ }
    rintro hs (hex | hp)
    · cases hex
    · exact h.past hs (.inr hp)

omit h

end Inv

lemma step_mainTime (s : Runner) (e : Event) :
    (step s e).mainTime = s.mainTime ∨ (s.pc = .next ∧ ¬ (s.nextTs ≤ s.mainTime ∧ s.exiting = false)
    ∧ (step s e).mainTime = s.nextTs) := by
  cases e with
  | signal => exact .inl rfl
  | arrive side => cases side <;> exact .inl rfl
  | act a =>
    simp only [step]
    split_ifs
    · rcases a with ⟨⟨⟩⟩ | ev <;> exact .inl rfl
    · exact .inl rfl
  | runner netFree pcieFree =>
    cases hpc : s.pc with
    | next =>
      simp only [step, hpc]
      split_ifs with hc
      · exact .inl rfl
      · exact .inr ⟨trivial,hc,rfl⟩
    | sync =>
      have hsame : (s.nicIfSync netFree pcieFree).1.mainTime = s.mainTime := by
        unfold Runner.nicIfSync
        split <;> rfl
      simp only [step, hpc]
      split_ifs <;> exact .inl hsame
    | top => simp only [step, hpc]; split_ifs <;> exact .inl rfl
    | pollH2D => simp only [step, hpc, Runner.pollH2D]; split <;> exact .inl rfl
    | pollN2D => simp only [step, hpc, Runner.pollN2D]; split <;> exact .inl rfl
    | trigger =>
      simp only [step, hpc, Runner.eventTrigger]
      split
      · exact .inl rfl
      · split_ifs <;> exact .inl rfl
    | setup | h2d | n2d | timed | stopped => simp only [step, hpc]; exact .inl trivial

lemma overrun_of_back (h : Inv s) (e : Event) (hlt : (step s e).mainTime < s.mainTime) :
    s.exiting ∧ Overrun s := by
  rcases step_mainTime s e with he | ⟨hpc,hc,he⟩
  · exact absurd (he ▸ hlt) (UInt64.lt_irrefl _)
  · rw [he] at hlt
    have hover : Overrun s := by
      by_contra ho
      have hge := nextTs_ge h (by simp [hpc, Pc.inner]) ho
      exact UInt64.not_le.mpr hlt hge
    refine ⟨?_,hover⟩
    by_contra hex
    exact hc ⟨UInt64.le_of_lt hlt,by simpa using hex⟩

end

/-- Along every run: each message the peers have sent was handled while the
main time was its timestamp, or is still in the queue and not behind; the same
holds of the scheduled events; and a step takes the main time back only if it
leaves the loop on the signal while a sum behind the next time overruns. -/
theorem exact_time (pcie net : Handle) (es : List Event)
    (hl : Along step Legal (start pcie net) es) :
    let s := run step (start pcie net) es
    (∀ side, (s.port side).arrived = (s.port side).handled.map Prod.fst++(s.port side).incoming ∧
      (∀ x ∈ (s.port side).handled, x.1.timestamp = x.2) ∧
      ∀ m ∈ (s.port side).incoming, s.mainTime ≤ m.timestamp) ∧
    s.scheduled.Perm (s.fired.map Prod.fst++s.events) ∧
    (∀ x ∈ s.fired, x.1.time = x.2) ∧ (∀ ev ∈ s.events, s.mainTime ≤ ev.time) ∧
    ∀ e, (step s e).mainTime < s.mainTime → s.exiting ∧ Overrun s := by
  intro s
  have h : Inv s := run_invariant (fun _ e h hc => h.step e hc) (start_inv pcie net) hl
  refine ⟨?_,h.kept,h.exact,h.ahead,overrun_of_back h⟩
  have hport : ∀ p : Port, p.Inv s.mainTime → p.arrived = p.handled.map Prod.fst++p.incoming ∧
      (∀ x ∈ p.handled, x.1.timestamp = x.2) ∧ ∀ m ∈ p.incoming, s.mainTime ≤ m.timestamp := by
    intro p hp
    exact ⟨hp.kept,hp.exact,fun m hm => UInt64.le_trans hp.ahead (hp.behind m hm)⟩
  intro side
  cases side with
  | pcie => exact hport _ h.pcie
  | net => exact hport _ h.net

def interface (delay : UInt64) : Handle := ⟨0,8192,0,0,8192,0,false,true,delay,delay⟩

/-- Both peers send at 1000; the loop reaches 1000 and handles both messages. -/
def firstMessages : List Event :=
  [.arrive .pcie ⟨1000,0⟩,.arrive .net ⟨1000,0⟩]++replicate 12 (.runner true true)

theorem exact_time_first :
    let s := run step (start (interface 500000) (interface 500000)) firstMessages
    Along step Legal (start (interface 500000) (interface 500000)) firstMessages ∧
    s.pcie.handled = [(⟨1000,0⟩,1000)] ∧ ∀ x ∈ (s.port .net).handled, x.1.timestamp = x.2 := by
  have hl : Along step Legal (start (interface 500000) (interface 500000)) firstMessages := by
    decide +kernel
  exact ⟨hl,by decide +kernel,((exact_time _ _ _ hl).1 .net).2.1⟩

/-- With deadlines near the end of the 64 bits the signal takes the time from
1000 back to 384. -/
theorem signal_takes_time_back :
    let s := run step (start (interface 18446744073709551000) (interface 18446744073709551000))
      (firstMessages++[.signal])
    Along step Legal (start (interface 18446744073709551000) (interface 18446744073709551000))
      (firstMessages++[.signal]) ∧
    s.mainTime = 1000 ∧ (step s (.runner true true)).mainTime = 384 := by
  decide +kernel

end SimBricks.Nicbm
