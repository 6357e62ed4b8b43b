import SimBricks.Base.BaseIf
import SimBricks.Library.Run

/-!
# Synchronized components

Components meet at pairs of interfaces. Each calls `OutSync` on its
interfaces at its own time, polls them, sends, and moves its time to the
least timestamp any of them waits for, as in the main loop of
`net_switch.cc`. Queues are never full and nobody terminates; the order of
all these steps is arbitrary. Times are the 64-bit picoseconds of the code.
-/

set_option autoImplicit false

namespace SimBricks.Lookahead
open Library.Run BaseIf Function UInt64

structure Topology (C E : Type*) where
  owner : E → C
  peer : E → E
  ifs : C → List E
  linkLatency : E → UInt64
  syncInterval : E → UInt64
  mem_ifs : ∀ c e, e ∈ ifs c ↔ owner e = c
  peer_peer : ∀ e, peer (peer e) = e
  interval_pos : ∀ e, 0 < syncInterval e
  interval_le : ∀ e, syncInterval e ≤ linkLatency e

abbrev LiveType := { t : UInt8 // t ≠ kTypeTerminate }

structure Msg where
  timestamp : UInt64
  type : LiveType
  deriving DecidableEq

/-- `synced` records that `OutSync` was called at the owner's current time. -/
structure State (C E : Type*) where
  time : C → UInt64
  base : E → Handle
  incoming : E → List Msg
  synced : E → Bool

inductive Event (C E : Type*) where
  | sync (e : E)
  | send (e : E) (type : LiveType)
  | poll (e : E)
  | advance (c : C)

section
variable {C E : Type*} [DecidableEq C] [DecidableEq E] (N : Topology C E)

namespace State

variable (s : State C E)

def head (e : E) : Option (UInt64 × UInt8) :=
  (s.incoming e).head?.map fun m => (m.timestamp,m.type.val)

def polled (e : E) : Handle × Bool := (s.base e).inPoll (s.head e) (s.time (N.owner e))

def push (e : E) (m : Msg) : State C E :=
  { s with incoming := update s.incoming e (s.incoming e++[m]) }

def setBase (e : E) (b : Handle) : State C E := { s with base := update s.base e b }

def take (e : E) (b : Handle) : State C E :=
  { s.setBase e b with incoming := update s.incoming e (s.incoming e).tail }

def moveTo (c : C) (ts : UInt64) : State C E := { s with
    time := update s.time c ts
    synced := fun e => if N.owner e = c then false else s.synced e }

def next (c : C) : UInt64 := (N.ifs c).foldl (fun minTs e =>
    let ts := (s.base e).nextTimestamp
    if ts < minTs then ts else minTs) kTimestampMax

/-- It has called `OutSync` everywhere, has nothing left to consume, and still
some interface keeps it at its time. -/
def Blocked (c : C) : Prop :=
  (∀ e ∈ N.ifs c, s.synced e ∧ ∀ m ∈ s.incoming e, s.time c < m.timestamp) ∧
  ∃ e ∈ N.ifs c, (s.polled N e).1.nextTimestamp ≤ s.time c
  deriving Decidable

end State

def step (s : State C E) : Event C E → State C E
  | .sync e =>
    let (b,msg,_) := (s.base e).outSync true (s.time (N.owner e))
    let s := { s.setBase e b with synced := update s.synced e true }
    match msg with
    | some t => s.push (N.peer e) ⟨t,⟨kTypeSync,by decide⟩⟩
    | none => s
  | .send e type =>
    match (s.base e).outAlloc true (s.time (N.owner e)) with
    | some (b,t) => (s.setBase e b).push (N.peer e) ⟨t,type⟩
    | none => s
  | .poll e =>
    match s.polled N e with
    | (b,true) => s.take e b
    | (b,false) => s.setBase e b
  | .advance c =>
    let minTs := s.next N c
    if s.time c < minTs ∧ minTs < kTimestampMax then s.moveTo N c minTs else s

def start : State C E where
  time _ := 0
  base e := ⟨0,1,0,0,1,0,false,true,N.linkLatency e,N.syncInterval e⟩
  incoming _ := []
  synced _ := false

/-- The timestamp of a message that the step sends fits its 64 bits. -/
def Fits (s : State C E) : Event C E → Prop
  | .sync e => (s.base e).upToDate (s.time (N.owner e)) ∨
      (s.time (N.owner e)).toNat+(N.linkLatency e).toNat < 2^64
  | .send e _ => (s.time (N.owner e)).toNat+(N.linkLatency e).toNat < 2^64
  | _ => True

instance (s : State C E) : (ev : Event C E) → Decidable (Fits N s ev)
  | .sync _ => inferInstanceAs (Decidable (_ ∨ _))
  | .send _ _ => inferInstanceAs (Decidable (_ < _))
  | .poll _ | .advance _ => .isTrue trivial

def last (s : State C E) (e : E) : ℕ := (s.base e).outTimestamp.toNat+(N.linkLatency e).toNat

/-- The last message is in the channel, or its receiver has reached it. -/
def Latest (s : State C E) (e : E) : Prop :=
  (∃ m, (s.incoming (N.peer e)).getLast? = some m ∧ m.timestamp.toNat = last N s e) ∨
  last N s e ≤ (s.time (N.owner (N.peer e))).toNat

/-- An interface with timestamp 0 may not have sent at all. -/
def Begun (s : State C E) (e : E) : Prop := 0 < (s.base e).outTimestamp.toNat ∨ s.synced e

/-- What the peer of an interface can rely on once something was sent. -/
structure Current (s : State C E) (e : E) : Prop where
  fits : last N s e < 2^64
  latest : Latest N s e

structure Sound (s : State C E) (e : E) : Prop where
  linkLatency : (s.base e).linkLatency = N.linkLatency e
  syncInterval : (s.base e).syncInterval = N.syncInterval e
  sync : (s.base e).sync
  past : (s.base e).outTimestamp ≤ s.time (N.owner e)
  current : Begun s e → Current N s e
  fresh : s.synced e → (s.time (N.owner e)).toNat <
    (s.base e).outTimestamp.toNat+(N.syncInterval e).toNat

def OutSame (b b' : Handle) : Prop :=
  b'.outTimestamp = b.outTimestamp ∧ b'.linkLatency = b.linkLatency ∧
  b'.syncInterval = b.syncInterval ∧ b'.sync = b.sync

variable {N} {s t : State C E} {e : E}

section
omit [DecidableEq C] [DecidableEq E]

lemma Latest.mono (h : Latest N s e) (hb : OutSame (s.base e) (t.base e))
    (hi : t.incoming (N.peer e) = s.incoming (N.peer e)) (ht : ∀ c, s.time c ≤ t.time c) :
    Latest N t e := by
  simp only [Latest, last, hb.1, hi] at h ⊢
  apply h.imp_right
  intro hr
  exact hr.trans (le_iff_toNat_le.mp (ht _))

lemma Sound.mono (h : Sound N s e) (hb : OutSame (s.base e) (t.base e))
    (hs : t.synced e → s.synced e ∧ t.time (N.owner e) = s.time (N.owner e))
    (ht : ∀ c, s.time c ≤ t.time c) (hl : Latest N s e → Latest N t e) : Sound N t e := by
  have hlast : last N t e = last N s e := by rw [last, last, hb.1]
  have hbegun : Begun t e → Begun s e := by
    rintro (hpos | hsyn)
    · exact .inl (hb.1 ▸ hpos)
    · exact .inr (hs hsyn).1
  constructor
  · exact hb.2.1.trans h.linkLatency
  · exact hb.2.2.1.trans h.syncInterval
  · exact hb.2.2.2.trans h.sync
  · rw [hb.1]
    exact UInt64.le_trans h.past (ht _)
  · intro hg
    have hc := h.current (hbegun hg)
    exact ⟨hlast ▸ hc.fits,hl hc.latest⟩
  · intro hsyn
    rw [hb.1, (hs hsyn).2]
    exact h.fresh (hs hsyn).1

lemma peer_injective (N : Topology C E) : Function.Injective N.peer :=
  Function.LeftInverse.injective N.peer_peer

end

def mark (s : State C E) (e : E) : State C E := { s with synced := update s.synced e true }

def sent (N : Topology C E) (s : State C E) (e : E) (type : LiveType) : State C E :=
  (s.setBase e { s.base e with
      outTimestamp := s.time (N.owner e)
      outPos := ((s.base e).outPos+1) % (s.base e).outEnum }).push
    (N.peer e) ⟨s.time (N.owner e)+(s.base e).linkLatency,type⟩

lemma step_sync (N : Topology C E) (s : State C E) (e : E) :
    ((s.base e).upToDate (s.time (N.owner e)) ∧ step N s (.sync e) = mark s e) ∨
    ((s.base e).upToDate (s.time (N.owner e)) = false ∧
      step N s (.sync e) = mark (sent N s e ⟨kTypeSync,by decide⟩) e) := by
  simp only [step]
  rcases (s.base e).outSync_cases true (s.time (N.owner e)) with ⟨hu,ho⟩ | ⟨hu,ho⟩ | ⟨hf,-⟩
  · refine .inl ⟨hu,?_⟩
    simp [ho, mark, State.setBase]
  · refine .inr ⟨hu,?_⟩
    simp only [ho]
    rfl
  · cases hf

section
omit [DecidableEq C] [DecidableEq E]

lemma head_live (s : State C E) (e : E) (x : UInt64 × UInt8) (hx : s.head e = some x) :
    x.2 ≠ kTypeTerminate := by
  obtain ⟨m,-,rfl⟩ := Option.map_eq_some_iff.mp hx
  exact m.type.2

lemma head_timestamp {t : UInt64} {type : UInt8} (h : s.head e = some (t,type)) :
    ∃ m rest, s.incoming e = m::rest ∧ m.timestamp = t := by
  obtain ⟨m,hm,he⟩ := Option.map_eq_some_iff.mp h
  obtain ⟨rest,hr⟩ := List.head?_eq_some_iff.mp hm
  exact ⟨m,rest,hr,(Prod.mk.inj he).1⟩

end

omit [DecidableEq C] in
/-- The last message leaves the channel only at a receiver that has reached it. -/
lemma Latest.tail {b : Handle} (h : Latest N s e)
    (hb : OutSame (s.base e) ((s.setBase (N.peer e) b).base e)) {t : UInt64}
    (hhead : ∃ m rest, s.incoming (N.peer e) = m::rest ∧ m.timestamp = t)
    (hdue : t ≤ s.time (N.owner (N.peer e))) : Latest N (s.take (N.peer e) b) e := by
  obtain ⟨m,rest,hq,rfl⟩ := hhead
  have ho : ((s.take (N.peer e) b).base e).outTimestamp = (s.base e).outTimestamp := hb.1
  have hi : (s.take (N.peer e) b).incoming (N.peer e) = rest := by simp [State.take, hq]
  simp only [Latest, last, ho, hi, hq] at h ⊢
  rcases h with ⟨x,hx,ht⟩ | hr
  · cases rest with
    | nil =>
      obtain rfl : m = x := by simpa using hx
      exact .inr (ht ▸ le_iff_toNat_le.mp hdue)
    | cons => exact .inl ⟨x,by simpa using hx,ht⟩
  · exact .inr hr

section
variable (h : ∀ f, Sound N s f)
include h

omit [DecidableEq C] in
lemma mark_sound (hc : Current N s e) (hf : (s.time (N.owner e)).toNat <
    (s.base e).outTimestamp.toNat+(N.syncInterval e).toNat) (f : E) : Sound N (mark s e) f := by
  by_cases he : f = e
  · subst he
    have hs := h f
    exact ⟨hs.linkLatency,hs.syncInterval,hs.sync,hs.past,fun _ => ⟨hc.fits,hc.latest⟩,fun _ => hf⟩
  · apply (h f).mono (t := mark s e) ⟨rfl,rfl,rfl,rfl⟩
    · intro hs
      simp only [mark, update_of_ne he] at hs
      exact ⟨hs,rfl⟩
    · exact fun c => UInt64.le_refl _
    · exact id

omit [DecidableEq C] in
lemma sent_current (hfit : (s.time (N.owner e)).toNat+(N.linkLatency e).toNat < 2^64)
    (type : LiveType) : Current N (sent N s e type) e := by
  have hb : ((sent N s e type).base e).outTimestamp = s.time (N.owner e) := by
    simp [sent, State.push, State.setBase]
  constructor
  · rw [last, hb]
    exact hfit
  · refine .inl ⟨⟨s.time (N.owner e)+(s.base e).linkLatency,type⟩,?_,?_⟩
    · simp [sent, State.push, State.setBase]
    · rw [last, hb, (h e).linkLatency, UInt64.toNat_add, Nat.mod_eq_of_lt hfit]

omit [DecidableEq C] in
lemma sent_sound (hfit : (s.time (N.owner e)).toNat+(N.linkLatency e).toNat < 2^64)
    (type : LiveType) (f : E) : Sound N (sent N s e type) f := by
  by_cases hf : f = e
  · subst hf
    have hb : (sent N s f type).base f = { s.base f with
        outTimestamp := s.time (N.owner f)
        outPos := ((s.base f).outPos+1) % (s.base f).outEnum } := update_self _ _ _
    constructor
    · rw [hb]
      exact (h f).linkLatency
    · rw [hb]
      exact (h f).syncInterval
    · rw [hb]
      exact (h f).sync
    · rw [hb]
      exact UInt64.le_refl _
    · exact fun _ => sent_current h hfit type
    · intro _
      rw [hb]
      exact Nat.lt_add_of_pos_right (UInt64.lt_iff_toNat_lt.mp (N.interval_pos f))
  · have hb : OutSame (s.base f) ((sent N s e type).base f) := by
      rw [show (sent N s e type).base f = s.base f from update_of_ne hf _ _]
      exact ⟨rfl,rfl,rfl,rfl⟩
    apply (h f).mono hb
    · exact fun hs => ⟨hs,rfl⟩
    · exact fun c => UInt64.le_refl _
    · intro hl
      apply hl.mono hb
      · exact update_of_ne (fun hp => hf (peer_injective N hp)) _ _
      · exact fun c => UInt64.le_refl _

lemma sync_sound (hfit : Fits N s (.sync e)) (f : E) : Sound N (step N s (.sync e)) f := by
  rcases step_sync N s e with ⟨hu,hs⟩ | ⟨hu,hs⟩
  · rw [hs]
    rw [Handle.upToDate_iff (h e).sync _ (h e).past, (h e).syncInterval] at hu
    exact mark_sound h ((h e).current (.inl hu.1)) hu.2 f
  · rw [hs]
    have hfit := hfit.resolve_left (by simp [hu])
    apply mark_sound (sent_sound h hfit _) (sent_current h hfit _)
    simp only [sent, State.push, State.setBase, update_self]
    exact Nat.lt_add_of_pos_right (UInt64.lt_iff_toNat_lt.mp (N.interval_pos e))

lemma poll_sound (f : E) : Sound N (step N s (.poll e)) f := by
  have hspec := (s.base e).inPoll_spec (s.head e) (s.time (N.owner e)) (head_live s e)
  simp only [step, State.polled]
  generalize hp : (s.base e).inPoll (s.head e) (s.time (N.owner e)) = p at hspec ⊢
  have hsame : ∀ b, OutSame (s.base e) b → OutSame (s.base f) ((s.setBase e b).base f) := by
    intro b hb
    by_cases hf : f = e
    · subst hf
      simpa [State.setBase] using hb
    · rw [show (s.setBase e b).base f = s.base f from update_of_ne hf _ _]
      exact ⟨rfl,rfl,rfl,rfl⟩
  have hkept : ∀ b, OutSame (s.base e) b → Sound N (s.setBase e b) f := by
    intro b hb
    apply (h f).mono (hsame b hb) (fun hs => ⟨hs,rfl⟩) (fun c => UInt64.le_refl _)
    exact fun hl => hl.mono (hsame b hb) rfl (fun c => UInt64.le_refl _)
  cases hspec with
  | empty hr | early t type hr hs ht => exact hkept _ ⟨rfl,rfl,rfl,rfl⟩
  | taken t type hr ht =>
    have hdue : t ≤ s.time (N.owner e) := ht (h e).sync
    have hb := hsame _ (⟨rfl,rfl,rfl,rfl⟩ : OutSame (s.base e)
      { s.base e with inTimestamp := t, inPos := ((s.base e).inPos+1) % (s.base e).inEnum })
    apply (h f).mono (t := s.take e _) hb (fun hs => ⟨hs,rfl⟩) (fun c => UInt64.le_refl _)
    intro hl
    by_cases hpeer : N.peer f = e
    · subst hpeer
      exact hl.tail hb (head_timestamp hr) hdue
    · exact hl.mono hb (Function.update_of_ne hpeer _ _) (fun c => UInt64.le_refl _)

lemma advance_sound (c : C) (f : E) : Sound N (step N s (.advance c)) f := by
  simp only [step]
  split_ifs with hlt
  · have hmono : ∀ d, s.time d ≤ (s.moveTo N c (s.next N c)).time d := by
      intro d
      by_cases hd : d = c
      · subst hd
        simpa [State.moveTo] using UInt64.le_of_lt hlt.1
      · simp [State.moveTo, update_of_ne hd]
    apply (h f).mono (t := s.moveTo N c (s.next N c)) ⟨rfl,rfl,rfl,rfl⟩ ?_ hmono
      (fun hl => hl.mono ⟨rfl,rfl,rfl,rfl⟩ rfl hmono)
    intro hs
    by_cases ho : N.owner f = c
    · simp [State.moveTo, ho] at hs
    · exact ⟨by simpa [State.moveTo, ho] using hs,update_of_ne ho _ _⟩
  · exact h f

lemma step_sound (ev : Event C E) (hfit : Fits N s ev) (f : E) : Sound N (step N s ev) f := by
  cases ev with
  | sync => exact sync_sound h hfit f
  | send e type => exact sent_sound h hfit type f
  | poll => exact poll_sound h f
  | advance c => exact advance_sound h c f

omit [DecidableEq C] [DecidableEq E] in
/-- A component behind no other finds a message ahead of it wherever its
neighbour has called `OutSync`. -/
lemma next_message (hmin : ∀ d, s.time (N.owner e) ≤ s.time d)
    (hsync : s.synced (N.peer e))
    (hdone : ∀ m ∈ s.incoming e, s.time (N.owner e) < m.timestamp) :
    ∃ t, s.time (N.owner e) < t ∧ s.polled N e = ({ s.base e with inTimestamp := t },false) := by
  have hp := h (N.peer e)
  have hge := le_iff_toNat_le.mp (hmin (N.owner (N.peer e)))
  have hlat := le_iff_toNat_le.mp (N.interval_le (N.peer e))
  have hlast : (s.time (N.owner e)).toNat < last N s (N.peer e) :=
    calc (s.time (N.owner e)).toNat
        ≤ (s.time (N.owner (N.peer e))).toNat := hge
      _ < (s.base (N.peer e)).outTimestamp.toNat+(N.syncInterval (N.peer e)).toNat := hp.fresh hsync
      _ ≤ last N s (N.peer e) := Nat.add_le_add_left hlat _
  have hlatest := (hp.current (.inr hsync)).latest
  rw [Latest, N.peer_peer] at hlatest
  obtain ⟨m,hm,-⟩ := hlatest.resolve_right (not_le.mpr hlast)
  cases hq : s.incoming e with
  | nil => simp [hq] at hm
  | cons x =>
    have hx : s.time (N.owner e) < x.timestamp := hdone x (by simp [hq])
    have hhead : s.head e = some (x.timestamp,x.type.val) := by simp [State.head, hq]
    refine ⟨x.timestamp,hx,?_⟩
    have hspec := (s.base e).inPoll_spec (s.head e) (s.time (N.owner e)) (head_live s e)
    rw [State.polled]
    generalize (s.base e).inPoll (s.head e) (s.time (N.owner e)) = p at hspec
    cases hspec with
    | empty hr => simp [hhead] at hr
    | early t type hr =>
      obtain ⟨rfl,-⟩ : x.timestamp = t ∧ x.type.val = type := by simpa [hhead] using hr
      rfl
    | taken t type hr ht =>
      obtain ⟨rfl,-⟩ : x.timestamp = t ∧ x.type.val = type := by simpa [hhead] using hr
      exact absurd hx (UInt64.not_lt.mpr (ht (h e).sync))

omit [DecidableEq C] [DecidableEq E] in
lemma deadline_ahead (hs : s.synced e) : s.time (N.owner e) < (s.base e).outNextSync := by
  have hfresh := (h e).fresh hs
  have hfits := ((h e).current (.inr hs)).fits
  have hle := le_iff_toNat_le.mp (N.interval_le e)
  have hpos := lt_iff_toNat_lt.mp (N.interval_pos e)
  rw [← (h e).syncInterval] at hfresh hle hpos
  have hnext := Handle.outNextSync_toNat (b := s.base e) (by rw [last] at hfits; omega) hpos
  rw [lt_iff_toNat_lt, hnext]
  exact hfresh

omit [DecidableEq C] [DecidableEq E] in
lemma not_all_blocked [Finite C] [Nonempty C] : ¬ ∀ c, s.Blocked N c := by
  intro hall
  obtain ⟨c,hc⟩ := Finite.exists_min fun c => (s.time c).toNat
  have hmin : ∀ d, s.time c ≤ s.time d := fun d => le_iff_toNat_le.mpr (hc d)
  obtain ⟨hown,e,he,hnext⟩ := hall c
  obtain rfl := (N.mem_ifs c e).mp he
  have hpeer := ((hall (N.owner (N.peer e))).1 _ ((N.mem_ifs _ _).mpr rfl)).1
  obtain ⟨t,ht,hp⟩ := next_message h hmin hpeer (hown e he).2
  have hdead := deadline_ahead h (hown e he).1
  simp only [hp, Handle.nextTimestamp] at hnext
  split_ifs at hnext
  · exact UInt64.not_lt.mpr hnext ht
  · exact UInt64.not_lt.mpr hnext hdead

end

omit [DecidableEq C] [DecidableEq E] in
lemma start_sound (N : Topology C E) (e : E) : Sound N (start N) e := by
  refine ⟨rfl,rfl,rfl,UInt64.le_refl _,?_,?_⟩
  · rintro (hpos | hs)
    · simp [start] at hpos
    · cases hs
  · intro hs
    cases hs

/-- In every run whose timestamps fit their 64 bits, at every point: a
component at the least time that has consumed what is due sees a timestamp
ahead of it on every channel whose other end has called `OutSync`; and not
all components are blocked. -/
theorem lookahead_conservative [Finite C] [Nonempty C] (N : Topology C E) (es : List (Event C E))
    (hfit : Along (step N) (Fits N) (start N) es) :
    let s := run (step N) (start N) es
    (∀ c, (∀ d, s.time c ≤ s.time d) → ∀ e ∈ N.ifs c, s.synced (N.peer e) →
      (∀ m ∈ s.incoming e, s.time c < m.timestamp) →
      s.time c < (s.polled N e).1.inTimestamp) ∧
    ¬ ∀ c, s.Blocked N c := by
  intro s
  have h : ∀ f, Sound N s f := run_invariant (I := fun s => ∀ f, Sound N s f)
    (fun _ ev h hc => step_sound h ev hc) (start_sound N) hfit
  refine ⟨?_,not_all_blocked h⟩
  intro c hmin e he hsync hdone
  obtain rfl := (N.mem_ifs c e).mp he
  obtain ⟨t,ht,hp⟩ := next_message h hmin hsync hdone
  rw [hp]
  exact ht

end

def pair (latency : UInt64) (hpos : 0 < latency) : Topology Bool Bool where
  owner := id
  peer := not
  ifs c := [c]
  linkLatency _ := latency
  syncInterval _ := latency
  mem_ifs c e := by simp
  peer_peer := Bool.not_not
  interval_pos _ := hpos
  interval_le _ := UInt64.le_refl _

def twoRounds : List (Event Bool Bool) :=
  [.sync false,.sync true,.poll false,.poll true,.advance false,.advance true,
   .sync false,.sync true,.poll false,.poll false,.poll true,.poll true]

theorem lookahead_conservative_pair :
    let s := run (step (pair 500 (by decide))) (start (pair 500 (by decide))) twoRounds
    Along (step (pair 500 (by decide))) (Fits (pair 500 (by decide)))
      (start (pair 500 (by decide))) twoRounds ∧
    s.time false = 500 ∧ ¬ ∀ c, s.Blocked (pair 500 (by decide)) c := by
  have hfit : Along (step (pair 500 (by decide))) (Fits (pair 500 (by decide)))
      (start (pair 500 (by decide))) twoRounds := by
    decide +kernel
  exact ⟨hfit,by decide +kernel,(lookahead_conservative _ twoRounds hfit).2⟩

/-- With a latency of 2^63 ps the second message of each side is stamped 0:
both ends are blocked at time 2^63, with nothing left to consume. -/
theorem timestamps_wrap :
    let N := pair 0x8000000000000000 (by decide)
    let s := run (step N) (start N) twoRounds
    (∀ c, s.time c = 0x8000000000000000) ∧
    (∀ c, s.synced (N.peer c) ∧ s.incoming c = [] ∧ (s.polled N c).1.inTimestamp = 0) ∧
    ∀ c, s.Blocked N c := by
  decide +kernel

end SimBricks.Lookahead
