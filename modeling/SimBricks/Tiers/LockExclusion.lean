import SimBricks.Hcop.LockOwners
import SimBricks.Tiers.LockTraffic

/-!
# One owner across two tiers

Switch and DPU keep lock tables of their own, and neither looks into the
other's. Each tier by itself grants a key to one requester at a time; both
together do exactly as long as no tier grants a key that the other holds for
somebody else.
-/

set_option autoImplicit false

namespace SimBricks.Tiers
open Library Library.Run Library.Bytes HcopProto PrimitiveEngine Function Option
open DpuDevice (DpuConfig)
open LockProto (Msg parse)
open LockState (LockManager kFree)
open LockOwners (Owners Audit GrantsFree GoodAt holders handleMessage_exclusive)

/-- The system with the owners of each key at each tier. -/
structure Audited where
  sys : System
  owners : Tier → Owners

def Audited.at (w : Audited) (t : Tier) : Audit := ⟨w.sys.locks t,w.owners t⟩

def Audited.step (w : Audited) (ev : Event) : Audited where
  sys := w.sys.step ev
  owners :=
    match w.sys.lockCall ev with
    | none => w.owners
    | some c =>
      update w.owners c.tier
        ((w.at c.tier).step (.handleMessage c.data c.len c.nowNs)).owners

def Audited.init (cfg : SwitchConfig) (paxosCapacity lockCapacity barrierCapacity : UInt64)
    (numPorts : ℕ) (dpu : DpuConfig) : Audited :=
  ⟨.init cfg paxosCapacity lockCapacity barrierCapacity numPorts dpu,fun _ _ => ∅⟩

def OneOwner (w : Audited) : Prop := ∀ key, (w.owners .switch key ∪ w.owners .dpu key).card ≤ 1

/-- A tier grants a key that the other tier holds for another requester. -/
def GrantsAcross (s : System) (ev : Event) : Prop :=
  ∃ c ∈ s.lockCall ev, ∃ m ∈ parse c.data c.len, ∃ g ∈ (s.locks c.tier).grantee m,
    (s.locks c.tier.other).holderOf g.1 ≠ kFree ∧ (s.locks c.tier.other).holderOf g.1 ≠ g.2
  deriving Decidable

/-! ## Each tier by itself -/

def NoFreeWaiter (s : LockManager) : Prop := ∀ key, ∀ w ∈ s.waitersOf key, w.requesterId ≠ kFree

section
variable {s : LockManager} {m : Msg}

lemma grantee_ne_free (hs : NoFreeWaiter s) (hm : m.hdr.requesterId ≠ kFree)
    {g : UInt64 × UInt8} (h : s.grantee m = some g) : g.2 ≠ kFree := by
  unfold LockManager.grantee at h
  cases m with
  | acquire =>
    dsimp only at h
    split_ifs at h
    rw [← some.inj h]
    exact hm
  | release =>
    dsimp only at h
    split_ifs at h
    obtain ⟨r,hr,rfl⟩ := map_eq_some_iff.mp h
    obtain ⟨w,hw,rfl⟩ := LockManager.nextWaiter_mem hr
    exact hs _ w hw
  | _ => cases h

lemma handleMessage_noFreeWaiter {data : Memory} {len : ℕ} (now : UInt64)
    (hs : NoFreeWaiter s) (h : ∀ m ∈ parse data len, m.hdr.requesterId ≠ kFree) :
    NoFreeWaiter (s.handleMessage data len now).mgr := by
  unfold LockManager.handleMessage
  cases hp : parse data len with
  | none => exact hs
  | some m =>
    intro key w hw
    rcases s.handle_waiters m now key w hw with hold | hnew
    · exact hs key w hold
    · rw [hnew]
      exact h m hp

lemma not_grantsFree {data : Memory} {len : ℕ} (now : UInt64) (hs : NoFreeWaiter s)
    (h : ∀ m ∈ parse data len, m.hdr.requesterId ≠ kFree) :
    ¬ GrantsFree s (.handleMessage data len now) := by
  simp only [GrantsFree]
  cases hp : parse data len with
  | none => exact not_false
  | some m =>
    have hm := h m hp
    cases m with
    | acquire => exact fun hf => hm hf.1
    | release =>
      intro hf
      obtain ⟨w,hw,hfree⟩ := LockManager.nextWaiter_mem hf.2
      exact hs _ w hw hfree
    | _ => exact not_false

end

/-- Packets under way are legal, and the owners at each tier are its holders. -/
structure Sound (w : Audited) : Prop where
  clean : Clean w.sys
  waiters : ∀ t, NoFreeWaiter (w.sys.locks t)
  good : ∀ t key, GoodAt (w.at t) key

section
variable {w : Audited} {ev : Event}

lemma at_quiet (h : w.sys.lockCall ev = none) (t : Tier) : (w.step ev).at t = w.at t := by
  simp [Audited.at, Audited.step, system_locks, h, answer]

lemma at_called {c : LockCall} (h : w.sys.lockCall ev = some c) :
    (w.step ev).at c.tier = (w.at c.tier).step (.handleMessage c.data c.len c.nowNs) := by
  have hm : (w.step ev).sys.locks c.tier =
      ((w.sys.locks c.tier).handleMessage c.data c.len c.nowNs).mgr := by
    simp [Audited.step, system_locks, h, answer]
  have ho : (w.step ev).owners c.tier =
      ((w.at c.tier).step (.handleMessage c.data c.len c.nowNs)).owners := by
    simp [Audited.step, h]
  show Audit.mk ((w.step ev).sys.locks c.tier) ((w.step ev).owners c.tier) = _
  rw [hm, ho]
  simp only [Audit.step, Audit.record]
  cases LockOwners.releaseIn c.data c.len <;> rfl

lemma at_uncalled {c : LockCall} (h : w.sys.lockCall ev = some c) {t : Tier}
    (ht : t ≠ c.tier) : (w.step ev).at t = w.at t := by
  simp [Audited.at, Audited.step, system_locks, h, answer, update_of_ne ht]

lemma Sound.step (h : Sound w) (hev : LegalInput ev) : Sound (w.step ev) := by
  have hwait : ∀ t, NoFreeWaiter ((w.step ev).at t).mgr ∧ ∀ key, GoodAt ((w.step ev).at t) key := by
    intro t
    cases hc : w.sys.lockCall ev with
    | none =>
      rw [at_quiet hc]
      exact ⟨h.waiters t,h.good t⟩
    | some c =>
      by_cases ht : t = c.tier
      · have hids := h.clean.call hev c hc
        rw [ht]
        constructor
        · show NoFreeWaiter ((w.step ev).sys.locks c.tier)
          have hl : (w.step ev).sys.locks = answer w.sys.locks (some c) := by
            rw [← hc]
            exact system_locks w.sys ev
          rw [hl, answer, update_self]
          exact handleMessage_noFreeWaiter c.nowNs (h.waiters c.tier) hids
        · rw [at_called hc]
          exact (handleMessage_exclusive (h.good c.tier) c.data c.len c.nowNs).mpr
            (not_grantsFree c.nowNs (h.waiters c.tier) hids)
      · rw [at_uncalled hc ht]
        exact ⟨h.waiters t,h.good t⟩
  exact ⟨h.clean.step hev,fun t => (hwait t).1,fun t => (hwait t).2⟩

end

lemma sound_init (cfg : SwitchConfig) (paxosCap lockCap barrierCap : UInt64) (numPorts : ℕ)
    (dpu : DpuConfig) : Sound (.init cfg paxosCap lockCap barrierCap numPorts dpu) := by
  refine ⟨⟨?_,?_,?_⟩,?_,?_⟩
  · simp [Audited.init, System.init]
  · simp [Audited.init, System.init]
  · simp [Audited.init, System.init, DpuDevice.Device.new]
  · intro t key w hw
    cases t <;> cases hw
  · intro t key
    cases t <;> rfl

/-! ## Both tiers -/

/-- Two holders of one key leave it with at most one owner. -/
def Compatible (a b : UInt8) : Prop := a = kFree ∨ b = kFree ∨ a = b

lemma holders_compatible (a b : UInt8) : (holders a ∪ holders b).card ≤ 1 ↔ Compatible a b := by
  unfold holders Compatible
  by_cases ha : a = kFree
  · by_cases hb : b = kFree
    · simp [ha, hb]
    · simp [ha, hb]
  · by_cases hb : b = kFree
    · simp [ha, hb]
    · simp only [ha, hb, if_false, false_or]
      by_cases hab : a = b
      · simp [hab]
      · simp [hab]

lemma compatible_update {f g : UInt64 → UInt8} (h : ∀ k, Compatible (f k) (g k)) (key : UInt64)
    (r : UInt8) : (∀ k, Compatible (update f key r k) (g k)) ↔ Compatible r (g key) := by
  constructor
  · intro hk
    simpa using hk key
  · intro hr k
    by_cases hk : k = key
    · subst hk
      simpa using hr
    · simpa [update_of_ne hk] using h k

section
variable {w : Audited} {ev : Event}

lemma oneOwner_iff (h : Sound w) (t : Tier) :
    OneOwner w ↔ ∀ key,
    Compatible ((w.sys.locks t).holderOf key) ((w.sys.locks t.other).holderOf key) := by
  apply forall_congr'
  intro key
  have hgood : ∀ t, w.owners t key = holders ((w.sys.locks t).holderOf key) := fun t => h.good t key
  rw [← holders_compatible, ← hgood, ← hgood]
  cases t with
  | switch => exact Iff.rfl
  | dpu => rw [Finset.union_comm]; exact Iff.rfl

lemma step_oneOwner (h : Sound w) (hev : LegalInput ev) (hp : OneOwner w) :
    OneOwner (w.step ev) ↔ ¬ GrantsAcross w.sys ev := by
  unfold GrantsAcross
  cases hc : w.sys.lockCall ev with
  | none =>
    have ho : (w.step ev).owners = w.owners := by simp [Audited.step, hc]
    apply iff_of_true
    · unfold OneOwner
      rw [ho]
      exact hp
    · simp
  | some c =>
    have hother : c.tier.other ≠ c.tier := by cases c.tier <;> decide
    have hl : (w.step ev).sys.locks = answer w.sys.locks (some c) := by
      rw [← hc]
      exact system_locks w.sys ev
    have hids := h.clean.call hev c hc
    rw [oneOwner_iff h c.tier] at hp
    rw [oneOwner_iff (h.step hev) c.tier, hl]
    simp only [answer, update_self, update_of_ne hother, mem_def,
      some.injEq, exists_eq_left', LockManager.handleMessage]
    cases hm : parse c.data c.len with
    | none => simpa using hp
    | some m =>
      simp only [some.injEq, exists_eq_left']
      rcases (w.sys.locks c.tier).handle_holders m c.nowNs with
        ⟨key,r,hg,hh⟩ | ⟨hg,hh | ⟨key,hh⟩⟩
      · have hr : r ≠ kFree := grantee_ne_free (h.waiters c.tier) (hids m hm) hg
        rw [hh, compatible_update hp, hg]
        simp only [some.injEq, exists_eq_left', Compatible, hr, false_or]
        rw [not_and_or, not_not, not_not]
        exact or_congr Iff.rfl eq_comm
      · rw [hh, hg]
        simpa using hp
      · rw [hh, hg, compatible_update hp]
        simp [Compatible]

end

/-- If no client sends under the id of a free key, a key has at most one owner
at every point of a run exactly if no step of the run makes a tier grant a key
that the other tier holds for another requester. -/
theorem lock_exclusion_iff (cfg : SwitchConfig) (paxosCap lockCap barrierCap : UInt64)
    (numPorts : ℕ) (dpu : DpuConfig) (es : List Event)
    (hids : ∀ a, Event.client a ∈ es → LegalPacket a.pkt) :
    (∀ earlier later, es = earlier++later →
      OneOwner (run Audited.step
        (.init cfg paxosCap lockCap barrierCap numPorts dpu) earlier)) ↔
    Along Audited.step (fun w ev => ¬ GrantsAcross w.sys ev)
      (.init cfg paxosCap lockCap barrierCap numPorts dpu) es := by
  have hsound := sound_init cfg paxosCap lockCap barrierCap numPorts dpu
  have hone : OneOwner (.init cfg paxosCap lockCap barrierCap numPorts dpu) := by
    simp [OneOwner, Audited.init]
  have hes : ∀ ev ∈ es, LegalInput ev := by
    rintro ev hev a rfl
    exact hids a hev
  exact always_iff_along (L := LegalInput)
    (I := Sound) (fun _ _ hev h => h.step hev)
    (fun _ _ hev h hp => step_oneOwner h hev hp) hsound hone es hes

/-! ## Two clients -/

def rackConfig : SwitchConfig where
  fallbackPortIndex := 0
  nodePortMap n := if n = 1 ∨ n = 2 then some (n.toNat : ℤ) else none

def acquireFrame (r : UInt8) : Frame := .request .lock (Msg.acquire ⟨r,7⟩ 0).serialize

def acquireArrival (r : UInt8) : Arrival := ⟨(acquireFrame r).bytes,r.toNat,0,fun _ => 0⟩

lemma cores_valid : (0 : UInt32) < 16 ∧ (16 : UInt32) ≤ 64 := by decide

def rack : Audited := .init rackConfig 1000 1000 1000 3 { valid := cores_valid }

def handBack : Frame := .request .lock (Msg.release ⟨1,7⟩).serialize

lemma request_legal {m : Msg} (hr : m.hdr.requesterId ≠ kFree) :
    LegalPacket (Frame.request .lock m.serialize).bytes := by
  apply (packetCarries_bytes (p := .lock) (M := LegalPayload)).mpr
  intro _ beyond r h
  have hhdr : r.hdr = m.hdr := by
    rw [← LockProto.headerAt_serialize m beyond]
    obtain ⟨-,⟨-,_,rfl⟩ | ⟨-,rfl⟩⟩ := LockProto.parse_cases h
    · rfl
    · rfl
  rw [hhdr]
  exact hr

/-- The first client releases the key while the request of the second is under
way to the DPU. -/
def handedOn : List Event :=
  [.client (acquireArrival 1),.client (acquireArrival 2),
    .client ⟨handBack.bytes,1,0,fun _ => 0⟩,.toDpu 0,.timed 0 fun _ => 0]

/-- The DPU grants the key to the second client, and nobody else owns it then. -/
theorem lock_exclusion_handed_on : (∀ a, Event.client a ∈ handedOn → LegalPacket a.pkt) ∧
    (∀ earlier later, handedOn = earlier++later → OneOwner (run Audited.step rack earlier)) ∧
    (run Audited.step rack (handedOn.take 2)).owners .switch 7 = {1} ∧
    (run Audited.step rack handedOn).owners .switch 7 = ∅ ∧
    (run Audited.step rack handedOn).owners .dpu 7 = {2} := by
  have hlegal : ∀ a, Event.client a ∈ handedOn → LegalPacket a.pkt := by
    intro a ha
    obtain rfl | rfl | rfl : a = _ ∨ a = _ ∨ a = _ := by simpa [handedOn] using ha
    · exact request_legal (by decide)
    · exact request_legal (by decide)
    · exact request_legal (by decide)
  refine ⟨hlegal,?_,by decide +kernel,by decide +kernel,by decide +kernel⟩
  exact (lock_exclusion_iff rackConfig 1000 1000 1000 3 {} handedOn hlegal).mpr (by decide +kernel)

/-- Two clients ask for one key; the second request reaches the DPU. -/
def bothAcquire : List Event :=
  [.client (acquireArrival 1),.client (acquireArrival 2),.toDpu 0,.timed 0 fun _ => 0]

/-- The switch grants key 7 to client 1 and passes the request of client 2 on
to the DPU, which grants it, too. -/
theorem two_tiers_grant :
    (rack.sys.switch.handlePacket (acquireArrival 1)).decision = ⟨.kUnicast,[1]⟩ ∧
    (run Audited.step rack bothAcquire).sys.down.map (fun x =>
      (Frame.ofBytes x.pkt).map Frame.payload) = [some (Msg.grant ⟨2,7⟩ 10000000).serialize] ∧
    (run Audited.step rack bothAcquire).owners .switch 7 = {1} ∧
    (run Audited.step rack bothAcquire).owners .dpu 7 = {2} ∧
    ¬ OneOwner (run Audited.step rack bothAcquire) := by
  have hs : (run Audited.step rack bothAcquire).owners .switch 7 = {1} := by decide +kernel
  have hd : (run Audited.step rack bothAcquire).owners .dpu 7 = {2} := by decide +kernel
  refine ⟨by decide +kernel,by decide +kernel,hs,hd,?_⟩
  intro h
  have hle := h 7
  rw [hs, hd] at hle
  exact absurd hle (by decide)

end SimBricks.Tiers
