import SimBricks.Base.BaseIf
import SimBricks.Library.Run

/-!
# The packet generator of `pktgen.cc`

The main loop, one call into an interface per step: a wait for a free slot is
a step that changes nothing. Packets carry the times at which they should have
been sent, the synchronisation messages the clock.
-/

set_option autoImplicit false

namespace SimBricks.PacketGenerator
open Library.Run BaseIf Function UInt64

def kNetMsgPacket : UInt8 := 0x40
def kPktLen : UInt64 := 1500
def targetTick : UInt64 := 1000*1000*1000*1000

/-- `period` is the time of one packet at the bit rate; at least one port. -/
structure Config (n : ℕ) where
  period : UInt64
  isSync : Fin (n+1) → Bool
  inEnum : Fin (n+1) → ℕ
  outEnum : Fin (n+1) → ℕ
  linkLatency : Fin (n+1) → UInt64
  syncInterval : Fin (n+1) → UInt64

/-- Where the main loop is: before `OutSync`, `pollq` or the test of the loop in
`sendq` for a port, or behind the loop or an abort. -/
inductive Pc (n : ℕ) where
  | sync (p : Fin (n+1))
  | poll (p : Fin (n+1))
  | send (p : Fin (n+1))
  | stopped
  deriving DecidableEq, Repr

/-- With the timestamps in the messages put on each channel, latest first. -/
structure State (n : ℕ) where
  pc : Pc n
  exiting : Bool
  curTs : UInt64
  minTs : UInt64
  lastPktSent : UInt64
  pktRecvNum : UInt64
  pktRecvByte : UInt64
  pktTxNum : UInt64
  pktTxByte : UInt64
  port : Fin (n+1) → Handle
  sent : Fin (n+1) → List UInt64

/-- A signal, or the next step with what the shared memory holds: whether the
next outgoing slot is free, and the message that is ready, if any. -/
inductive Event where
  | signal
  | next (free : Bool) (ready : Option (UInt64 × UInt8)) (len : UInt16)
  deriving DecidableEq, Repr

variable {n : ℕ}

def Config.start (c : Config n) : State n where
  pc := .sync 0
  exiting := false
  curTs := 0
  minTs := kTimestampMax
  lastPktSent := 0
  pktRecvNum := 0
  pktRecvByte := 0
  pktTxNum := 0
  pktTxByte := 0
  port p := ⟨0,c.inEnum p,0,0,c.outEnum p,0,false,c.isSync p,c.linkLatency p,c.syncInterval p⟩
  sent _ := []

def nextPort (p : Fin (n+1)) : Option (Fin (n+1)) :=
  if h : p.val+1 < n+1 then some ⟨p.val+1,h⟩ else none

namespace State

def put (s : State n) (p : Fin (n+1)) (b : Handle) (t : Option UInt64) : State n := { s with
    port := update s.port p b
    sent := update s.sent p (t.toList++s.sent p) }

def sync (s : State n) (p : Fin (n+1)) (free : Bool) : State n :=
  let (b,t,done) := (s.port p).outSync free s.curTs
  let s := s.put p b t
  if done then
    match nextPort p with
    | some q => { s with pc := .sync q }
    | none => { s with pc := .poll 0, minTs := kTimestampMax }
  else s

def pollq (s : State n) (p : Fin (n+1)) (ready : Option (UInt64 × UInt8)) (len : UInt16) :
    State n :=
  match (s.port p).inPoll ready s.curTs, ready with
  | (b,true), some (_,type) =>
    let s := s.put p b none
    if type = kNetMsgPacket then
      { s with
        pktRecvNum := s.pktRecvNum+1, pktRecvByte := s.pktRecvByte+len.toUInt64, pc := .send p }
    else if type = kTypeSync then { s with pc := .send p }
    else { s with pc := .stopped }
  | (b,_), _ => { s.put p b none with pc := .send p }

def txPacket (s : State n) (p : Fin (n+1)) (free : Bool) (t : UInt64) : Option (State n) :=
  ((s.port p).outAlloc free t).map fun (b,h) => s.put p b (some h)

def roundDone (s : State n) : State n :=
  if !s.exiting ∧ s.minTs ≤ s.curTs then { s with pc := .poll 0, minTs := kTimestampMax }
  else
    let s :=
      if s.minTs < kTimestampMax then
        { s with curTs := s.minTs, exiting := s.exiting || targetTick ≤ s.minTs }
      else s
    { s with pc := if s.exiting then .stopped else .sync 0 }

def portDone (c : Config n) (s : State n) (p : Fin (n+1)) : State n :=
  let ts := (s.port p).inTimestamp
  let s := if c.isSync p then { s with minTs := if ts < s.minTs then ts else s.minTs } else s
  match nextPort p with
  | some q => { s with pc := .poll q }
  | none => s.roundDone

def sendq (c : Config n) (s : State n) (p : Fin (n+1)) (free : Bool) : State n :=
  if c.isSync p then
    if s.lastPktSent+c.period ≤ s.curTs then
      match s.txPacket p free (s.lastPktSent+c.period) with
      | none => s
      | some s =>
        { s with
          lastPktSent := s.lastPktSent+c.period
          pktTxNum := s.pktTxNum+1, pktTxByte := s.pktTxByte+kPktLen }
    else s.portDone c p
  else ((s.txPacket p free (s.lastPktSent+c.period)).getD s).portDone c p

end State

def step (c : Config n) (s : State n) : Event → State n
  | .signal => { s with exiting := true }
  | .next free ready len =>
    match s.pc with
    | .sync p => s.sync p free
    | .poll p => s.pollq p ready len
    | .send p => s.sendq c p free
    | .stopped => s

/-! ## Order on the channels -/

def Ordered (s : State n) : Prop := ∀ p, (s.sent p).Pairwise (· ≥ ·)

/-- A synchronisation message finds no packet of the first port overdue, and no
timestamp leaves the range of 64 bits. -/
def Punctual (c : Config n) (s : State n) (_ : Event) : Prop :=
  match s.pc with
  | .sync p => (s.port p).upToDate s.curTs = false →
      s.curTs.toNat+(c.linkLatency p).toNat < 2^64 ∧ (p = 0 → s.curTs ≤ s.lastPktSent+c.period)
  | .send p => s.lastPktSent+c.period ≤ s.curTs →
      (s.lastPktSent+c.period).toNat+(c.linkLatency p).toNat < 2^64
  | _ => True

/-- What the clocks of a running generator satisfy. Every packet so far is due
and the first port has sent nothing behind the next one; `top` bounds what was
put on a channel by the last time a message was sent on it. -/
structure Clocks (c : Config n) (port : Fin (n+1) → Handle) (sent : Fin (n+1) → List UInt64)
    (curTs last : UInt64) : Prop where
  latency : ∀ p, (port p).linkLatency = c.linkLatency p
  clock : curTs < targetTick
  out : ∀ p, (port p).outTimestamp ≤ curTs
  sentDue : last ≤ curTs
  period : last = 0 ∨ c.period ≤ targetTick
  nominal : (port 0).outTimestamp ≤ last+c.period
  top : ∀ p, ∀ t ∈ sent p, t.toNat ≤ (port p).outTimestamp.toNat+(c.linkLatency p).toNat

def NothingDue (c : Config n) (s : State n) : Prop :=
  ∀ p, (s.pc = .poll p ∨ s.pc = .send p) → p ≠ 0 → s.curTs < s.lastPktSent+c.period

structure Running (c : Config n) (s : State n) : Prop where
  clocks : Clocks c s.port s.sent s.curTs s.lastPktSent
  nothingDue : NothingDue c s

structure Inv (c : Config n) (s : State n) : Prop where
  ordered : Ordered s
  running : s.pc ≠ .stopped → Running c s

section
variable {c : Config n} {s : State n} {p : Fin (n+1)}

lemma targetTick_toNat : targetTick.toNat = 1000000000000 := by decide

namespace Clocks
variable {port : Fin (n+1) → Handle} {sent : Fin (n+1) → List UInt64} {curTs last : UInt64}

lemma due_toNat (h : Clocks c port sent curTs last) :
    (last+c.period).toNat = last.toNat+c.period.toNat := by
  have hclock := UInt64.lt_iff_toNat_lt.mp h.clock
  have hlast := le_iff_toNat_le.mp h.sentDue
  rw [targetTick_toNat] at hclock
  rw [UInt64.toNat_add]
  apply Nat.mod_eq_of_lt
  rcases h.period with rfl | hp
  · have := c.period.toNat_lt
    simpa using this
  · have := le_iff_toNat_le.mp hp
    rw [targetTick_toNat] at this
    omega

lemma put (h : Clocks c port sent curTs last) {t l : UInt64} {pos : ℕ}
    (hout : (port p).outTimestamp ≤ t) (ht : t ≤ curTs)
    (hfit : t.toNat+(c.linkLatency p).toNat < 2^64) (hl : l ≤ curTs)
    (hperiod : l = 0 ∨ c.period ≤ targetTick)
    (hnominal : if p = 0 then t ≤ l+c.period else (port 0).outTimestamp ≤ l+c.period) :
    Clocks c (update port p { port p with outTimestamp := t, outPos := pos })
      (update sent p ((t+(port p).linkLatency)::sent p)) curTs l := by
  have hheader : (t+(port p).linkLatency).toNat = t.toNat+(c.linkLatency p).toNat := by
    rw [h.latency, UInt64.toNat_add, Nat.mod_eq_of_lt hfit]
  have hge := le_iff_toNat_le.mp hout
  constructor
  · intro q
    by_cases hq : q = p
    · subst hq
      rw [update_self]
      exact h.latency q
    · rw [update_of_ne hq]
      exact h.latency q
  · exact h.clock
  · intro q
    by_cases hq : q = p
    · subst hq
      rw [update_self]
      exact ht
    · rw [update_of_ne hq]
      exact h.out q
  · exact hl
  · exact hperiod
  · by_cases hp : p = 0
    · subst hp
      exact hnominal
    · rw [if_neg hp] at hnominal
      rw [update_of_ne (Ne.symm hp)]
      exact hnominal
  · intro q x hx
    by_cases hq : q = p
    · subst hq
      rw [update_self] at hx ⊢
      show x.toNat ≤ t.toNat+(c.linkLatency q).toNat
      rcases List.mem_cons.mp hx with rfl | hx
      · exact hheader.le
      · have := h.top q x hx
        omega
    · rw [update_of_ne hq] at hx ⊢
      exact h.top q x hx

end Clocks

lemma Ordered.put (h : Ordered s) (hc : Clocks c s.port s.sent s.curTs s.lastPktSent)
    {t : UInt64} {b : Handle} (hout : (s.port p).outTimestamp ≤ t)
    (hfit : t.toNat+(c.linkLatency p).toNat < 2^64) :
    Ordered (s.put p b (some (t+(s.port p).linkLatency))) := by
  have hheader : (t+(s.port p).linkLatency).toNat = t.toNat+(c.linkLatency p).toNat := by
    rw [hc.latency, UInt64.toNat_add, Nat.mod_eq_of_lt hfit]
  have hge := le_iff_toNat_le.mp hout
  intro q
  by_cases hq : q = p
  · subst hq
    show (update s.sent q _ q).Pairwise (· ≥ ·)
    rw [update_self]
    refine List.pairwise_cons.mpr ⟨?_,h q⟩
    intro x hx
    have := hc.top q x hx
    apply le_iff_toNat_le.mpr
    omega
  · show (update s.sent p _ q).Pairwise (· ≥ ·)
    rw [update_of_ne hq]
    exact h q

/-! ## One step -/

lemma put_self (s : State n) (p : Fin (n+1)) : s.put p (s.port p) none = s := by
  simp [State.put]

lemma inv_synced {pc : Pc n} {ts : UInt64} (ho : Ordered s)
    (hc : Clocks c s.port s.sent s.curTs s.lastPktSent)
    (hpc : pc = .poll 0 ∨ ∃ q, pc = .sync q) : Inv c { s with pc := pc, minTs := ts } := by
  refine ⟨ho,fun _ => ⟨hc,?_⟩⟩
  intro q hq hne
  rcases hpc with rfl | ⟨r,rfl⟩
  · rcases hq with hq | hq
    · exact absurd (Pc.poll.inj hq).symm hne
    · cases hq
  · rcases hq with hq | hq <;> cases hq

lemma inv_sync {free : Bool} {e : Event} (hpc : s.pc = .sync p) (ho : Ordered s)
    (hr : Running c s) (hp : Punctual c s e) : Inv c (s.sync p free) := by
  have hnext : ∀ t : State n, Ordered t → Clocks c t.port t.sent t.curTs t.lastPktSent →
      Inv c (match nextPort p with
        | some q => { t with pc := .sync q }
        | none => { t with pc := .poll 0, minTs := kTimestampMax }) := by
    intro t hto htc
    cases nextPort p with
    | some q => exact inv_synced hto htc (.inr ⟨q,rfl⟩)
    | none => exact inv_synced hto htc (.inl rfl)
  unfold State.sync
  rcases (s.port p).outSync_cases free s.curTs with ⟨-,hs⟩ | ⟨hdue,hs⟩ | ⟨-,hs⟩
  · simp only [hs, put_self, if_true]
    exact hnext s ho hr.clocks
  · rw [Punctual, hpc] at hp
    obtain ⟨hfit,hfirst⟩ := hp hdue
    have hnominal : if p = 0 then s.curTs ≤ s.lastPktSent+c.period
        else (s.port 0).outTimestamp ≤ s.lastPktSent+c.period := by
      split_ifs with h0
      · exact hfirst h0
      · exact hr.clocks.nominal
    simp only [hs, if_true]
    exact hnext _ (ho.put hr.clocks (hr.clocks.out p) hfit) (hr.clocks.put (hr.clocks.out p)
      (UInt64.le_refl _) hfit hr.clocks.sentDue hr.clocks.period hnominal)
  · simp only [hs, put_self, Bool.false_eq_true, if_false]
    exact ⟨ho,fun _ => hr⟩

/-- A poll leaves the outgoing side alone and goes on, or the generator aborts. -/
lemma State.pollq_cases (s : State n) (p : Fin (n+1)) (ready : Option (UInt64 × UInt8))
    (len : UInt16) : (∃ b num bytes, b.outTimestamp = (s.port p).outTimestamp ∧ b.linkLatency =
    (s.port p).linkLatency ∧ s.pollq p ready len =
    { s.put p b none with pktRecvNum := num, pktRecvByte := bytes, pc := .send p }) ∨
    ∃ b, s.pollq p ready len = { s.put p b none with pc := .stopped } := by
  have hne : kNetMsgPacket ≠ kTypeTerminate ∧ kTypeSync ≠ kTypeTerminate := by decide
  cases ready with
  | none => exact .inl ⟨s.port p,s.pktRecvNum,s.pktRecvByte,rfl,rfl,rfl⟩
  | some m =>
    obtain ⟨x,type⟩ := m
    by_cases hearly : (s.port p).sync ∧ s.curTs < x
    · refine .inl ⟨{ s.port p with inTimestamp := x },s.pktRecvNum,s.pktRecvByte,rfl,rfl,?_⟩
      simp only [State.pollq, Handle.inPoll, Handle.inPeek, Option.map_some, if_pos hearly]
      rfl
    · obtain ⟨b,hb⟩ : ∃ b, b = { s.port p with
          inTimestamp := x, inPos := ((s.port p).inPos+1) % (s.port p).inEnum } := ⟨_,rfl⟩
      have hout : b.outTimestamp = (s.port p).outTimestamp := by rw [hb]
      have hlat : b.linkLatency = (s.port p).linkLatency := by rw [hb]
      have htaken : type ≠ kTypeTerminate →
          (s.port p).inPoll (some (x,type)) s.curTs = (b,true) := by
        intro htype
        simp [Handle.inPoll, Handle.inPeek, Option.map_some, if_neg hearly, Handle.inTake,
          if_neg htype, hb]
      by_cases hpacket : type = kNetMsgPacket
      · refine .inl ⟨b,s.pktRecvNum+1,s.pktRecvByte+len.toUInt64,hout,hlat,?_⟩
        unfold State.pollq
        rw [htaken (hpacket ▸ hne.1), hpacket]
        rfl
      · by_cases hsync : type = kTypeSync
        · refine .inl ⟨b,s.pktRecvNum,s.pktRecvByte,hout,hlat,?_⟩
          unfold State.pollq
          rw [htaken (hsync ▸ hne.2), hsync]
          rfl
        · refine .inr ⟨{ s.port p with inTimestamp := x }.inTake type,?_⟩
          simp [State.pollq, Handle.inPoll, Handle.inPeek, Option.map_some, if_neg hearly,
            if_neg hpacket, if_neg hsync]

lemma Clocks.polled {port : Fin (n+1) → Handle} {sent : Fin (n+1) → List UInt64}
    {curTs last : UInt64} (h : Clocks c port sent curTs last) {b : Handle}
    (hout : b.outTimestamp = (port p).outTimestamp) (hlat : b.linkLatency = (port p).linkLatency) :
    Clocks c (update port p b) sent curTs last := by
  have hsame : ∀ q, (update port p b q).outTimestamp = (port q).outTimestamp ∧
      (update port p b q).linkLatency = (port q).linkLatency := by
    intro q
    by_cases hq : q = p
    · subst hq
      rw [update_self]
      exact ⟨hout,hlat⟩
    · rw [update_of_ne hq]
      exact ⟨rfl,rfl⟩
  constructor
  · intro q
    rw [(hsame q).2]
    exact h.latency q
  · exact h.clock
  · intro q
    rw [(hsame q).1]
    exact h.out q
  · exact h.sentDue
  · exact h.period
  · rw [(hsame 0).1]
    exact h.nominal
  · intro q t ht
    rw [(hsame q).1]
    exact h.top q t ht

lemma put_none_sent (s : State n) (p : Fin (n+1)) (b : Handle) :
    (s.put p b none).sent = s.sent := by
  simp [State.put]

lemma inv_pollq {ready : Option (UInt64 × UInt8)} {len : UInt16} (hpc : s.pc = .poll p)
    (ho : Ordered s) (hr : Running c s) : Inv c (s.pollq p ready len) := by
  have hordered : ∀ b, Ordered (s.put p b none) := by
    intro b q
    rw [put_none_sent]
    exact ho q
  rcases s.pollq_cases p ready len with ⟨b,_,_,hout,hlat,h⟩ | ⟨b,h⟩
  · rw [h]
    refine ⟨hordered b,fun _ => ⟨?_,?_⟩⟩
    · show Clocks c _ (s.put p b none).sent s.curTs s.lastPktSent
      rw [put_none_sent]
      exact hr.clocks.polled hout hlat
    · intro q hq hne
      rcases hq with hq | hq
      · cases hq
      · cases hq
        exact hr.nothingDue p (.inl hpc) hne
  · rw [h]
    exact ⟨hordered b,fun hrun => absurd rfl hrun⟩

lemma Clocks.later {port : Fin (n+1) → Handle} {sent : Fin (n+1) → List UInt64}
    {curTs last t : UInt64} (h : Clocks c port sent curTs last) (ht : curTs ≤ t)
    (hend : t < targetTick) : Clocks c port sent t last :=
  ⟨h.latency,hend,fun p => UInt64.le_trans (h.out p) ht,UInt64.le_trans h.sentDue ht,h.period,
    h.nominal,h.top⟩

lemma inv_roundDone (ho : Ordered s) (hc : Clocks c s.port s.sent s.curTs s.lastPktSent) :
    Inv c s.roundDone := by
  unfold State.roundDone
  split_ifs with hagain hmin
  · exact inv_synced ho hc (.inl rfl)
  · cases hexit : (s.exiting || decide (targetTick ≤ s.minTs)) with
    | true => exact ⟨ho,fun hrun => absurd rfl hrun⟩
    | false =>
      obtain ⟨hgo,hend⟩ := Bool.or_eq_false_iff.mp hexit
      have hlater : s.curTs ≤ s.minTs := by
        apply UInt64.le_of_lt
        apply UInt64.not_le.mp
        intro hle
        exact hagain ⟨by simp [hgo],hle⟩
      exact inv_synced ho
        (hc.later hlater (UInt64.not_le.mp (of_decide_eq_false hend))) (.inr ⟨0,rfl⟩)
  · dsimp only
    cases s.exiting with
    | true => exact ⟨ho,fun hrun => absurd rfl hrun⟩
    | false => exact inv_synced (s := { s with exiting := false }) ho hc (.inr ⟨0,rfl⟩)

lemma inv_portDone (ho : Ordered s) (hc : Clocks c s.port s.sent s.curTs s.lastPktSent)
    (hdue : s.curTs < s.lastPktSent+c.period) : Inv c (s.portDone c p) := by
  have hnext : ∀ ts, Inv c (match nextPort p with
      | some q => { s with minTs := ts, pc := .poll q }
      | none => { s with minTs := ts }.roundDone) := by
    intro ts
    cases nextPort p with
    | some => exact ⟨ho,fun _ => ⟨hc,fun _ _ _ => hdue⟩⟩
    | none => exact inv_roundDone ho hc
  unfold State.portDone
  dsimp only
  split_ifs
  · exact hnext _
  · exact hnext _
  · exact hnext _

lemma inv_sendq {free : Bool} {e : Event} (hsync : c.isSync p) (hpc : s.pc = .send p)
    (ho : Ordered s) (hr : Running c s) (hp : Punctual c s e) : Inv c (s.sendq c p free) := by
  have hc := hr.clocks
  have htoNat := hc.due_toNat
  have hclock := lt_iff_toNat_lt.mp hc.clock
  rw [targetTick_toNat] at hclock
  unfold State.sendq
  split_ifs with hdue
  · -- only the first port gets here
    have h0 : p = 0 := by
      by_contra hne
      exact absurd hdue (UInt64.not_le.mpr (hr.nothingDue p (.inr hpc) hne))
    rw [Punctual, hpc] at hp
    cases free with
    | false => exact ⟨ho,fun _ => hr⟩
    | true =>
      subst h0
      have hle := le_iff_toNat_le.mp hdue
      have hperiod : c.period ≤ targetTick := by
        apply le_iff_toNat_le.mpr
        rw [targetTick_toNat]
        omega
      have hnominal : s.lastPktSent+c.period ≤ s.lastPktSent+c.period+c.period := by
        apply le_iff_toNat_le.mpr
        rw [UInt64.toNat_add (s.lastPktSent+c.period), Nat.mod_eq_of_lt (by omega)]
        omega
      refine ⟨ho.put (b := s.port 0) hc hc.nominal (hp hdue),fun _ => ⟨?_,?_⟩⟩
      · exact hc.put hc.nominal hdue (hp hdue) hdue (.inr hperiod) hnominal
      · intro q hq hne
        have hpc' : s.pc = .poll q ∨ s.pc = .send q := hq
        rw [hpc] at hpc'
        rcases hpc' with h | h
        · cases h
        · exact absurd (Pc.send.inj h).symm hne
  · exact inv_portDone ho hc (UInt64.not_le.mp hdue)

lemma inv_step (hsync : ∀ p, c.isSync p) (e : Event) (h : Inv c s)
    (hp : Punctual c s e) : Inv c (step c s e) := by
  cases e with
  | signal => exact ⟨h.ordered,fun hrun => ⟨(h.running hrun).clocks,(h.running hrun).nothingDue⟩⟩
  | next =>
    unfold step
    cases hpc : s.pc with
    | stopped => exact h
    | sync => exact inv_sync hpc h.ordered (h.running (by simp [hpc])) hp
    | poll => exact inv_pollq hpc h.ordered (h.running (by simp [hpc]))
    | send p => exact inv_sendq (hsync p) hpc h.ordered (h.running (by simp [hpc])) hp

lemma inv_start (c : Config n) : Inv c c.start := by
  refine ⟨fun _ => List.Pairwise.nil,fun _ => ⟨?_,?_⟩⟩
  · exact ⟨fun _ => rfl,(by decide : (0 : UInt64) < targetTick),fun _ =>
      UInt64.le_refl _,UInt64.le_refl _,.inl rfl,
      UInt64.zero_le,fun _ _ h => by cases h⟩
  · intro p hp
    rcases hp with hp | hp <;> cases hp

end

/-- The timestamps on every channel do not decrease in a run in which no packet
is overdue when a synchronisation message goes out on the first port. -/
theorem timestamps_ordered (c : Config n) (hsync : ∀ p, c.isSync p) (es : List Event)
    (h : Along (step c) (Punctual c) c.start es) : Ordered (run (step c) c.start es) :=
  (run_invariant (fun _ e hs hp => inv_step hsync e hs hp) (inv_start c) h).ordered

/-! ## One port with the usual parameters -/

instance (c : Config n) (s : State n) (e : Event) : Decidable (Punctual c s e) := by
  unfold Punctual
  split <;> infer_instance

def onePort (period : UInt64) : Config 0 :=
  ⟨period,fun _ => true,fun _ => 8192,fun _ => 8192,fun _ => 500000,fun _ => 500000⟩

/-- The peer's first message is a synchronisation message, the queues have room. -/
def firstRounds : List Event :=
  [.next true none 0,.next true (some (500000,kTypeSync)) 0,.next true none 0,
    .next true none 0,.next true (some (500000,kTypeSync)) 0,.next true none 0]

/-- At 100 Gbps the first packet is put behind a message that is 380 ns later. -/
theorem packet_behind_sync :
    (run (step (onePort 120000)) (onePort 120000).start firstRounds).sent 0 =
        [620000,1000000,500000] ∧
      ¬ Ordered (run (step (onePort 120000)) (onePort 120000).start firstRounds) := by
  have hsent : (run (step (onePort 120000)) (onePort 120000).start firstRounds).sent 0 =
      [620000,1000000,500000] := by decide
  refine ⟨hsent,fun h => ?_⟩
  have h0 := h 0
  exact absurd h0 (by decide)

/-- At 24 Gbps a packet is due with each synchronisation message. -/
theorem timestamps_ordered_one_port :
    Along (step (onePort 500000)) (Punctual (onePort 500000)) (onePort 500000).start firstRounds ∧
      Ordered (run (step (onePort 500000)) (onePort 500000).start firstRounds) := by
  have h : Along (step (onePort 500000)) (Punctual (onePort 500000)) (onePort 500000).start
      firstRounds := by decide
  exact ⟨h,timestamps_ordered _ (fun _ => rfl) _ h⟩

end SimBricks.PacketGenerator
