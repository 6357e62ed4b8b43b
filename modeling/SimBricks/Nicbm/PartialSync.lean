import SimBricks.Nicbm.Termination

/-!
# A runner with one synchronized interface

`RunMain` goes by `is_sync = sync_pcie || sync_net`, and then by the minimum
over both interfaces. The other interface is polled as well, but what it
contributes to the minimum is only what its peer has sent and when the device
last sent to it. Any start time, any messages, also terminations.
-/

set_option autoImplicit false

namespace SimBricks.Nicbm.PartialSync
open Library.Run BaseIf Nicbm List

def Side.other : Side → Side
  | .pcie => .net
  | .net => .pcie

def setPort (s : Runner) : Side → Port → Runner
  | .pcie, p => { s with pcie := p }
  | .net, p => { s with net := p }

def start (mainTime : UInt64) (pcie net : Handle) (side : Side) : Runner where
  mainTime := mainTime
  pcie := ⟨{ pcie with
    inTimestamp := 0, outTimestamp := 0, inTerminated := false, sync := side = .pcie },[],[],[]⟩
  net := ⟨{ net with
    inTimestamp := 0, outTimestamp := 0, inTerminated := false, sync := side = .net },[],[],[]⟩
  isSync := true

/-- At the start of a round of the inner loop: the next message of the
synchronized peer is there and later than now, and no event is due. -/
structure Waiting (s : Runner) (side : Side) : Prop where
  pc : s.pc = .pollH2D
  running : s.exiting = false
  sync : (s.port side).base.sync
  next : ∃ m ∈ (s.port side).incoming.head?, s.mainTime < m.timestamp
  events : ∀ ev ∈ s.events, s.mainTime < ev.time

def tick : Event := .runner true true

/-- The runner gets on by itself. -/
def Progress (s : Runner) : Prop := ∃ n, s.mainTime < (run step s (replicate n tick)).mainTime

/-- The interface does not hold the runner: its last timestamp, or one among
the messages waiting, is ahead, and so is the deadline of its last message; or
a termination is waiting. -/
def Opens (mainTime : UInt64) (p : Port) : Prop := (mainTime < p.base.outNextSync ∧
    (p.incoming = [] ∧ mainTime < p.base.inTimestamp ∨ ∃ m ∈ p.incoming, mainTime < m.timestamp)) ∨
  (mainTime < kTimestampMax ∧ ∃ m ∈ p.incoming, m.type = kTypeTerminate)

structure Clear (s : Runner) (side : Side) : Prop where
  maxStep : s.mainTime.toNat+kMaxStep.toNat < 2^64
  interval : 0 < (s.port side).base.syncInterval
  deadline : (s.port side).base.outTimestamp.toNat+(s.port side).base.syncInterval.toNat < 2^64
  other : Opens s.mainTime (s.port (Side.other side))

/-! ## One interface -/

section
variable {p : Port} {mainTime : UInt64}

lemma lt_nextTimestamp_iff {b : Handle} :
    mainTime < b.nextTimestamp ↔ mainTime < b.inTimestamp ∧ mainTime < b.outNextSync := by
  unfold Handle.nextTimestamp
  split_ifs with hle
  · exact ⟨fun h => ⟨h,UInt64.lt_of_lt_of_le h hle⟩,fun h => h.1⟩
  · have hlt := UInt64.not_le.mp hle
    exact ⟨fun h => ⟨UInt64.lt_trans h hlt,h⟩,fun h => h.2⟩

lemma poll_idle (h : p.incoming = []) : p.poll mainTime = (p,none) := by
  have hspec := p.poll_spec mainTime
  generalize p.poll mainTime = r at hspec
  cases hspec <;> simp_all

lemma poll_unsynced (h : p.base.sync = false) : (p.poll mainTime).1.base.sync = false := by
  apply Bool.of_not_eq_true
  intro hs
  rw [(Port.poll_out hs).1] at h
  cases h

lemma inTake_terminate_next (b : Handle) :
    (b.inTake kTypeTerminate).nextTimestamp = kTimestampMax := by
  simp [Handle.inTake, Handle.nextTimestamp, Handle.outNextSync]

lemma opens_of_none (h : p.incoming = []) : Opens mainTime p ↔ mainTime < p.base.nextTimestamp := by
  rw [lt_nextTimestamp_iff]
  simp [Opens, h, and_comm]

lemma lt_max_of_lt {a b : UInt64} (h : a < b) : a < kTimestampMax := by
  rw [UInt64.lt_iff_toNat_lt] at h ⊢
  exact Nat.lt_of_lt_of_le h (Nat.le_of_lt_succ b.toNat_lt)

lemma lt_max_of_opens (h : Opens mainTime p) : mainTime < kTimestampMax :=
  h.elim (fun h => lt_max_of_lt h.1) fun h => h.1

lemma opens_iff_poll (hs : p.base.sync = false) :
    Opens mainTime p ↔ mainTime < (p.poll mainTime).1.base.nextTimestamp ∨
    Opens mainTime (p.poll mainTime).1 := by
  have hspec := p.poll_spec mainTime
  generalize p.poll mainTime = r at hspec
  cases hspec with
  | idle hq => rw [opens_of_none hq, or_self]
  | early m rest hq hsync => simp [hs] at hsync
  | taken m rest hq =>
    dsimp only
    by_cases htype : m.type = kTypeTerminate
    · rw [htype, inTake_terminate_next]
      constructor
      · exact fun h => .inl (lt_max_of_opens h)
      · intro h
        exact .inr ⟨h.elim id lt_max_of_opens,m,by simp [hq],htype⟩
    · rw [inTake_live _ htype, lt_nextTimestamp_iff]
      show _ ↔ (mainTime < m.timestamp ∧ mainTime < p.base.outNextSync) ∨
        (mainTime < p.base.outNextSync ∧ (rest = [] ∧ mainTime < m.timestamp ∨
          ∃ x ∈ rest, mainTime < x.timestamp)) ∨
        (mainTime < kTimestampMax ∧ ∃ x ∈ rest, x.type = kTypeTerminate)
      simp only [Opens, hq, mem_cons, exists_eq_or_imp, htype, reduceCtorEq, false_and, false_or]
      generalize (∃ x ∈ rest, mainTime < x.timestamp) = ahead
      generalize (∃ x ∈ rest, x.type = kTypeTerminate) = ends
      tauto

end

/-! ## The synchronized interface -/

/-- The last message went out now, or less than an interval ago. -/
def Timely (mainTime : UInt64) (p : Port) : Prop :=
  p.Past mainTime ∧ (p.base.outTimestamp = mainTime ∨
    mainTime.toNat < p.base.outTimestamp.toNat+p.base.syncInterval.toNat)

section
variable {p q : Port} {mainTime : UInt64}

lemma Timely.congr (h : Timely mainTime p) (hs : Port.OutSame p q) : Timely mainTime q := by
  simpa only [Timely, Port.Past, hs.1, hs.2] using h

lemma timely_send (p : Port) (mainTime : UInt64) : Timely mainTime (p.send mainTime) :=
  ⟨UInt64.le_refl _,.inl rfl⟩

lemma outSync_timely (h : p.Past mainTime) (hs : p.base.sync) (free : Bool)
    (hok : (p.outSync free mainTime).2) : Timely mainTime (p.outSync free mainTime).1 := by
  rcases p.base.outSync_cases free mainTime with ⟨hu,ho⟩ | ⟨-,ho⟩ | ⟨-,ho⟩
  · have hlt := (Handle.upToDate_iff hs mainTime h).mp hu
    simp only [Port.outSync, ho]
    exact ⟨h,.inr hlt.2⟩
  · simp only [Port.outSync, ho]
    exact ⟨UInt64.le_refl _,.inl rfl⟩
  · simp [Port.outSync, ho] at hok

lemma outSync_sync (p : Port) (free : Bool) :
    (p.outSync free mainTime).1.base.sync = p.base.sync := by
  rcases p.base.outSync_cases free mainTime with ⟨-,ho⟩ | ⟨-,ho⟩ | ⟨-,ho⟩ <;>
    simp [Port.outSync, ho]

/-- A deadline that was just met is ahead unless the interval is empty or the
sum wraps. -/
lemma Timely.outNextSync_iff (h : Timely mainTime p) (hmax : mainTime < kTimestampMax) :
    mainTime < p.base.outNextSync ↔ 0 < p.base.syncInterval ∧
    p.base.outTimestamp.toNat+p.base.syncInterval.toNat < 2^64 := by
  have hpast := UInt64.le_iff_toNat_le.mp h.1
  have hne : p.base.outTimestamp ≠ kTimestampMax := by
    intro he
    exact UInt64.not_le.mpr hmax (he ▸ h.1)
  have hsent := h.2
  rw [← UInt64.toNat_inj] at hsent
  have hi := p.base.syncInterval.toNat_lt
  have hnow := mainTime.toNat_lt
  rw [Handle.outNextSync, if_neg hne, UInt64.lt_iff_toNat_lt, UInt64.lt_iff_toNat_lt,
    UInt64.toNat_add, show (0 : UInt64).toNat = 0 from rfl]
  constructor
  · intro hlt
    have hfits : p.base.outTimestamp.toNat+p.base.syncInterval.toNat < 2^64 := by omega
    rw [Nat.mod_eq_of_lt hfits] at hlt
    exact ⟨by omega,hfits⟩
  · rintro ⟨_,hfits⟩
    rw [Nat.mod_eq_of_lt hfits]
    omega

end

/-! ## Reachable states -/

structure Inv (side : Side) (s : Runner) : Prop where
  isSync : s.isSync
  detached : (s.port (Side.other side)).base.sync = false
  timely : (s.port side).base.sync → s.pc.inner → Timely s.mainTime (s.port side)
  past : (s.port side).base.sync → s.pc ≠ .stopped → s.exiting = false ∨ s.pc = .sync →
    (s.port side).Past s.mainTime

namespace Inv
variable {s t : Runner} {side : Side}

variable (h : Inv side s)
include h

lemma keep (hsync : t.isSync = s.isSync) (hother : (s.port (Side.other side)).base.sync = false →
    (t.port (Side.other side)).base.sync = false) (hport : (t.port side).base.sync → (s.port
    side).base.sync ∧ Port.OutSame (s.port side) (t.port side)) (htime : t.mainTime = s.mainTime)
    (hinner : t.pc.inner → s.pc.inner) (hpast : t.pc ≠ .stopped → t.exiting = false ∨ t.pc = .sync →
    s.pc.inner ∨ s.pc ≠ .stopped ∧ (s.exiting = false ∨ s.pc = .sync)) : Inv side t where
  isSync := hsync.trans h.isSync
  detached := hother h.detached
  timely hs hin := by
    obtain ⟨hs,hout⟩ := hport hs
    rw [htime]
    exact (h.timely hs (hinner hin)).congr hout
  past hs hpc hx := by
    obtain ⟨hs,hout⟩ := hport hs
    have hp : (s.port side).Past s.mainTime := by
      rcases hpast hpc hx with hin | ⟨hne,hor⟩
      · exact (h.timely hs hin).1
      · exact h.past hs hne hor
    simpa only [Port.Past, hout.1, htime] using hp

lemma arrive (k : Side) (m : Msg) : Inv side (step s (.arrive k m)) := by
  cases side <;> cases k <;>
    exact h.keep rfl id (fun hs => ⟨hs,rfl,rfl⟩) rfl id fun hpc hx => .inr ⟨hpc,hx⟩

lemma signal : Inv side (step s .signal) := by
  refine h.keep rfl id (fun hs => ⟨hs,rfl,rfl⟩) rfl id fun hpc hx => .inr ⟨hpc,.inr ?_⟩
  exact hx.resolve_left (by simp [Nicbm.step])

lemma act (a : Action) : Inv side (step s (.act a)) := by
  simp only [Nicbm.step]
  split_ifs
  · cases a with
    | schedule =>
      exact h.keep rfl id (fun hs => ⟨hs,rfl,rfl⟩) rfl id fun hpc hx => .inr ⟨hpc,hx⟩
    | send k =>
      by_cases hk : k = side
      · subst hk
        have ht : Timely s.mainTime ((s.act (.send k)).port k) := by
          cases k <;> exact timely_send _ _
        refine ⟨?_,?_,fun _ _ => ?_,fun _ _ _ => ?_⟩
        · cases k <;> exact h.isSync
        · have hd := h.detached
          cases k <;> exact hd
        · cases k <;> exact ht
        · cases k <;> exact ht.1
      · cases side <;> cases k <;> first
          | exact absurd rfl hk
          | exact h.keep rfl id (fun hs => ⟨hs,rfl,rfl⟩) rfl id fun hpc hx => .inr ⟨hpc,hx⟩
  · exact h

lemma goto (pc : Pc) (hin : s.pc.inner) : Inv side { s with pc } := by
  cases side <;>
    exact h.keep rfl id (fun hs => ⟨hs,rfl,rfl⟩) rfl (fun _ => hin) fun _ _ => .inl hin

lemma polled (k : Side) (pc : Pc) (hin : s.pc.inner) :
    Inv side { setPort s k ((s.port k).poll s.mainTime).1 with pc } := by
  by_cases hk : k = side
  · subst hk
    cases k <;> exact h.keep rfl id Port.poll_out rfl (fun _ => hin) fun _ _ => .inl hin
  · have hother : k = Side.other side := by
      cases side <;> cases k <;> first | rfl | exact absurd rfl hk
    subst hother
    cases side <;>
      exact h.keep rfl poll_unsynced (fun hs => ⟨hs,rfl,rfl⟩) rfl (fun _ => hin)
        fun _ _ => .inl hin

lemma pollH2D (hin : s.pc.inner) : Inv side s.pollH2D := by
  have hpoll := fun pc => h.polled .pcie pc hin
  simp only [setPort, Runner.port] at hpoll
  unfold Runner.pollH2D
  split <;> next heq =>
    simp only [heq] at hpoll
    exact hpoll _

lemma pollN2D (hin : s.pc.inner) : Inv side s.pollN2D := by
  have hpoll := fun pc => h.polled .net pc hin
  simp only [setPort, Runner.port] at hpoll
  unfold Runner.pollN2D
  split <;> next heq =>
    simp only [heq] at hpoll
    exact hpoll _

lemma eventTrigger (hin : s.pc.inner) : Inv side s.eventTrigger := by
  have hpop : ∀ events fired pc, Inv side { s with events, fired, pc } := by
    intro events fired pc
    cases side <;>
      exact h.keep rfl id (fun hs => ⟨hs,rfl,rfl⟩) rfl (fun _ => hin) fun _ _ => .inl hin
  unfold Runner.eventTrigger
  split
  · exact h.goto _ hin
  · split_ifs
    · exact h.goto _ hin
    · exact hpop _ _ _

omit h

lemma nicIfSync_port (s : Runner) (k : Side) (netFree pcieFree : Bool) :
    (∃ free, (s.nicIfSync netFree pcieFree).1.port k =
        ((s.port k).outSync free s.mainTime).1 ∧
      ((s.nicIfSync netFree pcieFree).2 →
        ((s.port k).outSync free s.mainTime).2)) ∨
    ((s.nicIfSync netFree pcieFree).1.port k = s.port k ∧
      (s.nicIfSync netFree pcieFree).2 = false) := by
  unfold Runner.nicIfSync
  cases hn : s.net.outSync netFree s.mainTime with
  | mk net ok =>
    cases ok with
    | false =>
      cases k with
      | net => exact .inl ⟨netFree,by simp [Runner.port, hn],by simp⟩
      | pcie => exact .inr ⟨rfl,rfl⟩
    | true =>
      cases k with
      | net => exact .inl ⟨netFree,by simp [Runner.port, hn],by simp [Runner.port, hn]⟩
      | pcie => exact .inl ⟨pcieFree,rfl,id⟩

lemma nicIfSync_rest (s : Runner) (netFree pcieFree : Bool) :
    (s.nicIfSync netFree pcieFree).1.isSync = s.isSync ∧ (s.nicIfSync netFree pcieFree).1.mainTime =
    s.mainTime ∧ (s.nicIfSync netFree pcieFree).1.pc = s.pc := by
  unfold Runner.nicIfSync
  split <;> exact ⟨rfl,rfl,rfl⟩

lemma sync (h : Inv side s) (hpc : s.pc = .sync) (netFree pcieFree : Bool) :
    Inv side (step s (.runner netFree pcieFree)) := by
  obtain ⟨hsync,htime,hsame⟩ := nicIfSync_rest s netFree pcieFree
  have hkept : ∀ k, ((s.nicIfSync netFree pcieFree).1.port k).base.sync = (s.port k).base.sync := by
    intro k
    rcases nicIfSync_port s k netFree pcieFree with ⟨free,hp,-⟩ | ⟨hp,-⟩
    · rw [hp, outSync_sync]
    · rw [hp]
  have hport := nicIfSync_port s side netFree pcieFree
  simp only [Nicbm.step, hpc]
  generalize s.nicIfSync netFree pcieFree = r at hsync htime hsame hkept hport
  obtain ⟨t,ok⟩ := r
  dsimp only at hsync htime hsame hkept hport ⊢
  have hpast : (t.port side).base.sync → (s.port side).base.sync ∧
      (s.port side).Past s.mainTime := by
    intro hs
    have hs' := (hkept side).symm.trans hs
    exact ⟨hs',h.past hs' (by simp [hpc]) (.inr hpc)⟩
  have hdetached : (t.port (Side.other side)).base.sync = false :=
    (hkept (Side.other side)).trans h.detached
  cases ok with
  | true =>
    have htimely : (t.port side).base.sync → Timely t.mainTime (t.port side) := by
      intro hs
      obtain ⟨hs',hp⟩ := hpast hs
      rcases hport with ⟨free,hout,hok⟩ | ⟨-,hno⟩
      · rw [hout, htime]
        exact outSync_timely hp hs' free (hok rfl)
      · cases hno
    refine ⟨hsync.trans h.isSync,?_,fun hs _ => ?_,fun hs _ _ => ?_⟩
    · cases side <;> exact hdetached
    · cases side <;> exact htimely hs
    · cases side <;> exact (htimely hs).1
  | false =>
    refine ⟨hsync.trans h.isSync,hdetached,fun _ hin => ?_,fun hs _ _ => ?_⟩
    · simp [hsame, hpc, Pc.inner] at hin
    · obtain ⟨hs',hp⟩ := hpast hs
      show (t.port side).Past t.mainTime
      rw [htime]
      rcases hport with ⟨free,hout,-⟩ | ⟨hout,-⟩
      · rw [hout]
        exact (Port.outSync_past hp hs' free).1
      · rw [hout]
        exact hp

lemma commit (h : Inv side s) (hpc : s.pc = .next)
    (hx : ¬ (s.nextTs ≤ s.mainTime ∧ s.exiting = false)) :
    Inv side { s with mainTime := s.nextTs, pc := .top } := by
  have hin : s.pc.inner := by simp [hpc, Pc.inner]
  refine ⟨h.isSync,?_,fun _ hin => by simp [Pc.inner] at hin,?_⟩
  · have hd := h.detached
    cases side <;> exact hd
  · intro hs _ hor
    have hrun : s.exiting = false := hor.resolve_right (by simp)
    have hlt : s.mainTime < s.nextTs := UInt64.not_le.mp fun hle => hx ⟨hle,hrun⟩
    have hp : (s.port side).Past s.mainTime := by
      cases side <;> exact (h.timely hs hin).1
    have hle := UInt64.le_trans hp (UInt64.le_of_lt hlt)
    cases side <;> exact hle

lemma runner (h : Inv side s) (netFree pcieFree : Bool) :
    Inv side (step s (.runner netFree pcieFree)) := by
  have hgo : s.pc.inner → ∀ pc, Inv side { s with pc } := fun hin pc => h.goto pc hin
  cases hpc : s.pc with
  | setup =>
    simp only [Nicbm.step, hpc]
    cases side <;> exact h.keep rfl id (fun hs => ⟨hs,rfl,rfl⟩) rfl (fun hin => by cases hin)
      fun _ hx => .inr ⟨by simp [hpc],.inl (hx.resolve_right (by simp))⟩
  | top =>
    simp only [Nicbm.step, hpc]
    split_ifs with hex
    · cases side <;> exact h.keep rfl id (fun hs => ⟨hs,rfl,rfl⟩) rfl (fun hin => by cases hin)
        fun hne _ => absurd rfl hne
    · have hex : s.exiting = false := by simpa using hex
      cases side <;> exact h.keep rfl id (fun hs => ⟨hs,rfl,rfl⟩) rfl (fun hin => by cases hin)
        fun _ _ => .inr ⟨by simp [hpc],.inl hex⟩
  | sync => exact h.sync hpc netFree pcieFree
  | pollH2D =>
    simp only [Nicbm.step, hpc]
    exact h.pollH2D (by simp [hpc, Pc.inner])
  | pollN2D =>
    simp only [Nicbm.step, hpc]
    exact h.pollN2D (by simp [hpc, Pc.inner])
  | trigger =>
    simp only [Nicbm.step, hpc]
    exact h.eventTrigger (by simp [hpc, Pc.inner])
  | next =>
    simp only [Nicbm.step, hpc]
    split_ifs with hx
    · exact hgo (by simp [hpc, Pc.inner]) _
    · exact h.commit hpc hx
  | h2d | n2d | timed =>
    simp only [Nicbm.step, hpc]
    exact hgo (by simp [hpc, Pc.inner]) _
  | stopped =>
    simp only [Nicbm.step, hpc]
    exact h

lemma step (h : Inv side s) (e : Event) : Inv side (step s e) := by
  cases e with
  | runner netFree pcieFree => exact h.runner netFree pcieFree
  | act a => exact h.act a
  | arrive k m => exact h.arrive k m
  | signal => exact h.signal

end Inv

lemma start_inv (mainTime : UInt64) (pcie net : Handle) (side : Side) :
    Inv side (start mainTime pcie net side) := by
  refine ⟨rfl,?_,fun _ hin => (by cases hin),fun _ _ _ => ?_⟩
  · cases side <;> rfl
  · cases side <;> exact UInt64.zero_le

/-! ## One round of the inner loop -/

/-- The runner gets from one state to the other at the same time. -/
def Quietly (s t : Runner) : Prop := ∃ n, run step s (replicate n tick) = t ∧
    ∀ j ≤ n, (run step s (replicate j tick)).mainTime = s.mainTime

lemma Quietly.refl (s : Runner) : Quietly s s :=
  ⟨0,rfl,fun j hj => by rw [Nat.le_zero.mp hj]; rfl⟩

lemma Quietly.head {s t u : Runner} (h : step s tick = t) (htime : t.mainTime = s.mainTime)
    (hq : Quietly t u) : Quietly s u := by
  subst h
  obtain ⟨n,hn,hall⟩ := hq
  refine ⟨n+1,by rw [replicate_succ, run_cons, hn],?_⟩
  intro j hj
  cases j with
  | zero => rfl
  | succ j =>
    rw [replicate_succ, run_cons, hall j (by omega), htime]

lemma step_trigger {s : Runner} (hpc : s.pc = .trigger)
    (hev : ∀ ev ∈ s.events, s.mainTime < ev.time) : step s tick = { s with pc := .next } := by
  simp only [step, tick, hpc, Runner.eventTrigger]
  cases he : s.events with
  | nil => rfl
  | cons ev =>
    dsimp only
    rw [if_pos (hev ev (by simp [he]))]

lemma quietly_trigger {s : Runner} (hpc : s.pc = .n2d ∨ s.pc = .trigger)
    (hev : ∀ ev ∈ s.events, s.mainTime < ev.time) : Quietly s { s with pc := .next } := by
  rcases hpc with hpc | hpc
  · have hback : step s tick = { s with pc := .trigger } := by simp only [step, tick, hpc]
    exact .head hback rfl (.head (step_trigger rfl hev) rfl (.refl _))
  · exact .head (step_trigger hpc hev) rfl (.refl _)

lemma quietly_pollN2D {s : Runner} (hpc : s.pc = .h2d ∨ s.pc = .pollN2D)
    (hev : ∀ ev ∈ s.events, s.mainTime < ev.time) :
    Quietly s { s with net := (s.net.poll s.mainTime).1, pc := .next } := by
  have hpoll : ∀ u : Runner, u.pc = .pollN2D → u.events = s.events → u.mainTime = s.mainTime →
      Quietly u { u with net := (u.net.poll u.mainTime).1, pc := .next } := by
    intro u hu hue hut
    have hstep : step u tick = u.pollN2D := by simp only [step, tick, hu]
    have hdue : ∀ ev ∈ u.events, u.mainTime < ev.time := by rwa [hue, hut]
    unfold Runner.pollN2D at hstep
    cases hn : u.net.poll u.mainTime with
    | mk net type =>
      rw [hn] at hstep
      cases type with
      | none => exact .head hstep rfl (quietly_trigger (.inr rfl) hdue)
      | some =>
        refine .head hstep rfl (quietly_trigger ?_ hdue)
        dsimp only
        split_ifs
        · exact .inl rfl
        · exact .inr rfl
  rcases hpc with hpc | hpc
  · have hback : step s tick = { s with pc := .pollN2D } := by simp only [step, tick, hpc]
    exact .head hback rfl (hpoll _ rfl rfl rfl)
  · exact hpoll s hpc rfl rfl

lemma quietly_round {s : Runner} (hpc : s.pc = .pollH2D)
    (hev : ∀ ev ∈ s.events, s.mainTime < ev.time) :
    Quietly s { s with
      pcie := (s.pcie.poll s.mainTime).1, net := (s.net.poll s.mainTime).1, pc := .next } := by
  have hstep : step s tick = s.pollH2D := by simp only [step, tick, hpc]
  unfold Runner.pollH2D at hstep
  cases hp : s.pcie.poll s.mainTime with
  | mk pcie type =>
    rw [hp] at hstep
    cases type with
    | none => exact .head hstep rfl (quietly_pollN2D (.inr rfl) hev)
    | some =>
      refine .head hstep rfl (quietly_pollN2D ?_ hev)
      dsimp only
      split_ifs
      · exact .inl rfl
      · exact .inr rfl

def tested (s : Runner) : Runner := { s with
  pcie := (s.pcie.poll s.mainTime).1, net := (s.net.poll s.mainTime).1, pc := .next }

lemma tested_port (s : Runner) (k : Side) : (tested s).port k = ((s.port k).poll s.mainTime).1 := by
  cases k <;> rfl

lemma lt_nicIfNextTimestamp_iff {s : Runner} (side : Side) {t : UInt64} :
    t < s.nicIfNextTimestamp ↔ t < (s.port side).base.nextTimestamp ∧
    t < (s.port (Side.other side)).base.nextTimestamp := by
  have hmin : t < s.nicIfNextTimestamp ↔
      t < s.pcie.base.nextTimestamp ∧ t < s.net.base.nextTimestamp := by
    unfold Runner.nicIfNextTimestamp
    dsimp only
    split_ifs with hlt
    · exact ⟨fun h => ⟨UInt64.lt_trans h hlt,h⟩,fun h => h.2⟩
    · have hle := UInt64.not_lt.mp hlt
      exact ⟨fun h => ⟨h,UInt64.lt_of_lt_of_le h hle⟩,fun h => h.1⟩
  cases side with
  | pcie => exact hmin
  | net => exact hmin.trans and_comm

lemma lt_nextTs_iff {s : Runner} (hsync : s.isSync) (hev : ∀ ev ∈ s.events, s.mainTime < ev.time) :
    s.mainTime < s.nextTs ↔ s.mainTime < s.mainTime+kMaxStep ∧
    s.mainTime < s.nicIfNextTimestamp := by
  have hlimit : s.mainTime < s.stepLimit ↔ s.mainTime < s.mainTime+kMaxStep ∧
      s.mainTime < s.nicIfNextTimestamp := by
    simp only [Runner.stepLimit, hsync, if_true]
    split_ifs with hlt
    · exact ⟨fun h => ⟨h,UInt64.lt_trans h hlt⟩,fun h => h.1⟩
    · have hle := UInt64.not_lt.mp hlt
      exact ⟨fun h => ⟨UInt64.lt_of_lt_of_le h hle,h⟩,fun h => h.2⟩
  rw [← hlimit]
  unfold Runner.nextTs
  cases he : s.events with
  | nil => rfl
  | cons ev =>
    have hlt := hev ev (by simp [he])
    dsimp only
    split_ifs with hfirst
    · exact ⟨fun _ => UInt64.lt_trans hlt hfirst,fun _ => hlt⟩
    · rfl

lemma lt_maxStep_iff (t : UInt64) : t < t+kMaxStep ↔ t.toNat+kMaxStep.toNat < 2^64 := by
  have := t.toNat_lt
  have hk : kMaxStep.toNat = 10000 := rfl
  rw [UInt64.lt_iff_toNat_lt, UInt64.toNat_add, hk]
  omega

/-! ## Rounds -/

def nextRound (s : Runner) : Runner := { tested s with pc := .pollH2D }

lemma nextRound_port (s : Runner) (k : Side) :
    (nextRound s).port k = ((s.port k).poll s.mainTime).1 := by
  cases k <;> rfl

section
variable {s : Runner} {side : Side}

lemma Waiting.polled (h : Waiting s side) : ∃ time, s.mainTime < time ∧
    ((s.port side).poll s.mainTime).1 = { s.port side with base := { (s.port side).base
    with inTimestamp := time } } := by
  obtain ⟨m,hm,ht⟩ := h.next
  have hspec := (s.port side).poll_spec s.mainTime
  generalize (s.port side).poll s.mainTime = r at hspec
  cases hspec with
  | idle hq => simp [hq] at hm
  | early x rest hq hs hx => exact ⟨x.timestamp,hx,rfl⟩
  | taken x rest hq hx =>
    obtain rfl : x = m := by simpa [hq] using hm
    exact absurd ht (UInt64.not_lt.mpr (hx h.sync))

lemma Waiting.again (h : Waiting s side) : Waiting (nextRound s) side := by
  obtain ⟨_,-,hp⟩ := h.polled
  refine ⟨rfl,h.running,?_,?_,h.events⟩
  · rw [nextRound_port, hp]
    exact h.sync
  · rw [nextRound_port, hp]
    exact h.next

/-- The test succeeds if nothing but the other interface is in the way, and
that interface is not after its poll. -/
lemma Waiting.test_iff (h : Waiting s side) (hi : Inv side s) :
    (tested s).mainTime < (tested s).nextTs ↔
      (s.mainTime.toNat+kMaxStep.toNat < 2^64 ∧ 0 < (s.port side).base.syncInterval ∧
        (s.port side).base.outTimestamp.toNat+(s.port side).base.syncInterval.toNat < 2^64) ∧
      s.mainTime < ((s.port (Side.other side)).poll s.mainTime).1.base.nextTimestamp := by
  obtain ⟨time,ht,hp⟩ := h.polled
  have htimely := hi.timely h.sync (by simp [h.pc, Pc.inner])
  rw [lt_nextTs_iff (s := tested s) hi.isSync h.events, lt_nicIfNextTimestamp_iff side, tested_port,
    tested_port, hp, lt_nextTimestamp_iff]
  show s.mainTime < s.mainTime+kMaxStep ∧
    (s.mainTime < time ∧ s.mainTime < (s.port side).base.outNextSync) ∧ _ ↔ _
  rw [lt_maxStep_iff, htimely.outNextSync_iff (lt_max_of_lt ht)]
  tauto

lemma Waiting.clear_iff (h : Waiting s side) (hi : Inv side s) :
    Clear s side ↔ (tested s).mainTime < (tested s).nextTs ∨ Clear (nextRound s) side := by
  obtain ⟨_,-,hp⟩ := h.polled
  have hout : ((nextRound s).port side).base.syncInterval = (s.port side).base.syncInterval ∧
      ((nextRound s).port side).base.outTimestamp = (s.port side).base.outTimestamp := by
    rw [nextRound_port, hp]
    exact ⟨rfl,rfl⟩
  rw [h.test_iff hi]
  constructor
  · intro hc
    rcases (opens_iff_poll hi.detached).mp hc.other with ho | ho
    · exact .inl ⟨⟨hc.maxStep,hc.interval,hc.deadline⟩,ho⟩
    · refine .inr ⟨hc.maxStep,?_,?_,?_⟩
      · rw [hout.1]
        exact hc.interval
      · rw [hout.1, hout.2]
        exact hc.deadline
      · rw [nextRound_port]
        exact ho
  · rintro (⟨⟨h1,h2,h3⟩,ho⟩ | hc)
    · exact ⟨h1,h2,h3,(opens_iff_poll hi.detached).mpr (.inl ho)⟩
    · refine ⟨hc.maxStep,hout.1 ▸ hc.interval,?_,(opens_iff_poll hi.detached).mpr (.inr ?_)⟩
      · rw [← hout.1, ← hout.2]
        exact hc.deadline
      · have ho := hc.other
        rwa [nextRound_port] at ho

lemma Waiting.round (h : Waiting s side) : Quietly s (tested s) := quietly_round h.pc h.events

lemma leave (htest : (tested s).mainTime < (tested s).nextTs) :
    s.mainTime < (step (tested s) tick).mainTime := by
  have hnot : ¬ ((tested s).nextTs ≤ (tested s).mainTime ∧ (tested s).exiting = false) :=
    fun hx => UInt64.not_le.mpr htest hx.1
  have hstep : step (tested s) tick = { tested s with mainTime := (tested s).nextTs, pc := .top } :=
    if_neg hnot
  rw [hstep]
  exact htest

lemma Waiting.stay (h : Waiting s side) (htest : ¬ (tested s).mainTime < (tested s).nextTs) :
    step (tested s) tick = nextRound s :=
  if_pos ⟨UInt64.not_lt.mp htest,h.running⟩

lemma run_inv (h : Inv side s) (es : List Event) : Inv side (run step s es) :=
  run_always (fun _ e hi => hi.step e) h es

lemma Waiting.nextRound_inv (h : Waiting s side) (hi : Inv side s)
    (htest : ¬ (tested s).mainTime < (tested s).nextTs) : Inv side (nextRound s) := by
  obtain ⟨n,hn,-⟩ := h.round
  rw [← h.stay htest, ← hn]
  exact (run_inv hi _).step tick

end

lemma run_ticks (s : Runner) (a b : ℕ) :
    run step s (replicate (a+b) tick) = run step (run step s (replicate a tick))
    (replicate b tick) := by
  rw [replicate_add, run_append]

/-- Every round takes one of the messages that wait at the other interface. -/
lemma progress_of_clear {side : Side} (n : ℕ) {s : Runner} (h : Waiting s side) (hi : Inv side s)
    (hc : Clear s side) (hn : (s.port (Side.other side)).incoming.length = n) : Progress s := by
  induction n using Nat.strong_induction_on generalizing s with
  | _ n ih =>
    obtain ⟨k,hk,_⟩ := h.round
    by_cases htest : (tested s).mainTime < (tested s).nextTs
    · refine ⟨k+1,?_⟩
      rw [run_ticks, hk]
      exact leave htest
    · have hagain := ((h.clear_iff hi).mp hc).resolve_left htest
      have hprogress : Progress (nextRound s) := by
        have hport := nextRound_port s (Side.other side)
        have hspec := (s.port (Side.other side)).poll_spec s.mainTime
        generalize (s.port (Side.other side)).poll s.mainTime = r at hport hspec
        cases hspec with
        | idle hq =>
          -- nothing was taken, so the interface is as the test found it
          exfalso
          apply htest
          rw [h.test_iff hi, poll_idle hq]
          exact ⟨⟨hc.maxStep,hc.interval,hc.deadline⟩,(opens_of_none hq).mp hc.other⟩
        | early m rest hq hs =>
          rw [hi.detached] at hs
          cases hs
        | taken m rest hq =>
          apply ih rest.length (by rw [← hn, hq]; simp) h.again (h.nextRound_inv hi htest) hagain
          rw [hport]
      obtain ⟨j,hj⟩ := hprogress
      refine ⟨k+(1+j),?_⟩
      rw [run_ticks, hk, run_ticks]
      show s.mainTime < (run step (step (tested s) tick) _).mainTime
      rw [h.stay htest]
      exact hj

lemma no_progress {side : Side} (n : ℕ) {s : Runner} (h : Waiting s side) (hi : Inv side s)
    (hc : ¬ Clear s side) : (run step s (List.replicate n tick)).mainTime = s.mainTime := by
  induction n using Nat.strong_induction_on generalizing s with
  | _ n ih =>
    obtain ⟨k,hk,hquiet⟩ := h.round
    have hboth := not_or.mp (mt (h.clear_iff hi).mpr hc)
    by_cases hle : n ≤ k
    · exact hquiet n hle
    · obtain ⟨j,rfl⟩ := Nat.exists_eq_add_of_lt (Nat.lt_of_not_le hle)
      rw [show k+j+1 = k+(1+j) by omega, run_ticks, hk, run_ticks]
      show (run step (step (tested s) tick) _).mainTime = _
      rw [h.stay hboth.1]
      exact ih j (by omega) h.again (h.nextRound_inv hi hboth.1) hboth.2

theorem partial_progress_iff (mainTime : UInt64) (pcie net : Handle) (side : Side)
    (es : List Event) (h : Waiting (run step (start mainTime pcie net side) es) side) :
    Progress (run step (start mainTime pcie net side) es) ↔
      Clear (run step (start mainTime pcie net side) es) side := by
  have hi := run_inv (start_inv mainTime pcie net side) es
  constructor
  · rintro ⟨n,hn⟩
    by_contra hc
    rw [no_progress n h hi hc] at hn
    exact UInt64.lt_irrefl _ hn
  · exact fun hc => progress_of_clear _ h hi hc rfl

/-- Up to the inner loop, with PCIe synchronized and its first message there. -/
def firstRound (more : List Event) : Runner :=
  run step (start 0 (interface 500000) (interface 500000) .pcie)
    ([.arrive .pcie ⟨500000,0⟩]++more++replicate 3 tick)

lemma firstRound_waiting :
    Waiting (firstRound []) .pcie ∧ Waiting (firstRound [.arrive .net ⟨600000,0⟩]) .pcie :=
  ⟨⟨by decide,by decide,by decide,⟨⟨500000,0⟩,by decide,by decide⟩,by decide⟩,
    ⟨by decide,by decide,by decide,⟨⟨500000,0⟩,by decide,by decide⟩,by decide⟩⟩

theorem partial_progress_message : Progress (firstRound [.arrive .net ⟨600000,0⟩]) :=
  (partial_progress_iff 0 _ _ .pcie _ firstRound_waiting.2).mpr
    ⟨by decide,by decide,by decide,.inl ⟨by decide,.inr ⟨⟨600000,0⟩,by decide,by decide⟩⟩⟩

/-- A network that has sent nothing keeps the runner at time 0. -/
theorem silent_network_stops_time : Waiting (firstRound []) .pcie ∧ ¬ Progress (firstRound []) := by
  refine ⟨firstRound_waiting.1,?_⟩
  rintro ⟨n,hn⟩
  have hi : Inv .pcie (firstRound []) := run_inv (start_inv _ _ _ _) _
  have hnone : ((firstRound []).port (Side.other .pcie)).incoming = [] := by decide
  have hc : ¬ Clear (firstRound []) .pcie := by
    intro hc
    exact absurd ((opens_of_none hnone).mp hc.other) (by decide)
  rw [no_progress n firstRound_waiting.1 hi hc] at hn
  exact UInt64.lt_irrefl _ hn

end SimBricks.Nicbm.PartialSync
