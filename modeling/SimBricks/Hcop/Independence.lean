import SimBricks.Hcop.BarrierRefusals
import SimBricks.Hcop.LockLeases
import SimBricks.Hcop.PaxosRounds
import SimBricks.Library.Entries

/-!
# Instances, keys and barriers are independent

Each of the three state machines is a table, or two, under one key: Paxos
instances, lock keys and barriers. A call reads and writes the entry of its
key, and of the rest only what no such call changes, so calls for different
keys commute as long as there is room for both.
-/

set_option autoImplicit false

namespace SimBricks.Independence
open Library Library.Entries Library.Bytes Finmap

/-! ## Paxos instances -/

variable {id : UInt32}

section
open PaxosProto PaxosState PaxosRounds

def instances : Layout PaxosNode UInt32 (Option InstanceState × Option ProposerInstanceState)
    (UInt8 × UInt16 × UInt16 × UInt32 × UInt32) where
  entry s id := (s.instances.lookup id,s.proposerState.lookup id)
  shared := fixed
  keys s := s.instances.keys
  capacity c := c.2.2.2.2.toNat
  Tracked e := e.1.isSome
  mem_keys s id := by rw [mem_keys, ← lookup_isSome]
  ext s t hf he := by
    have hi : s.instances = t.instances := ext_lookup fun id => congrArg Prod.fst (he id)
    have hp : s.proposerState = t.proposerState := ext_lookup fun id => congrArg Prod.snd (he id)
    cases s
    cases t
    simp_all [fixed]

def paxosResult (o : Outcome) : PaxosNode × List OutMessage × PaxosStatus := (o.node,o.out,o.status)

open PaxosNode

@[simp] lemma putInstance_twice (s : PaxosNode) (id : UInt32) (x y : InstanceState) :
    (s.putInstance id x).putInstance id y = s.putInstance id y := by
  simp [putInstance]

variable {s : PaxosNode}

lemma getOrCreateInstance_fits (h : instances.Fits s id) :
    s.getOrCreateInstance id = some (s.inst id,s.putInstance id (s.inst id)) := by
  unfold getOrCreateInstance inst
  cases hl : s.instances.lookup id with
  | some x =>
    have hsame : s.instances.insert id x = s.instances := by
      apply ext_lookup
      intro j
      rw [Table.lookup_insert_ite]
      split_ifs with hj
      · rw [hj, hl]
      · rfl
    simp [putInstance, hsame]
  | none =>
    have hroom : ¬ s.maxInstances.toNat ≤ Table.size s.instances :=
      not_le.mpr (h.resolve_left (Table.not_mem_keys_of_lookup hl))
    simp [hroom]

lemma recordCommit_fits (h : instances.Fits s id) (len : UInt16) (value : Value) :
    s.recordCommit id len value = s.putInstance id ((s.inst id).commit len value) := by
  simp [recordCommit, getOrCreateInstance_fits h]

lemma header_eq {t : PaxosNode} (h : fixed s = fixed t) (id : UInt32) :
    s.header id = t.header id ∧ s.quorum = t.quorum := by
  simp only [fixed, Prod.mk.injEq] at h
  simp [header, h.1, h.2.1, h.2.2.1]

@[simp] lemma header_putInstance (s : PaxosNode) (id j : UInt32) (x : InstanceState) :
    (s.putInstance id x).header j = s.header j := rfl

@[simp] lemma header_putProposer (s : PaxosNode) (id j : UInt32) (x : ProposerInstanceState) :
    (s.putProposer id x).header j = s.header j := rfl

@[simp] lemma entry_putInstance (s : PaxosNode) (id : UInt32) (x : InstanceState) :
    instances.entry (s.putInstance id x) id = (some x,s.proposerState.lookup id) := by
  simp [instances, putInstance]

@[simp] lemma proposer_putProposer (s : PaxosNode) (id : UInt32) (x : ProposerInstanceState) :
    (s.putProposer id x).proposerState.lookup id = some x := by
  simp [putProposer]

@[simp] lemma entry_putProposer (s : PaxosNode) (id : UInt32) (x : ProposerInstanceState) :
    instances.entry (s.putProposer id x) id = (s.instances.lookup id,some x) := by
  simp [instances, putProposer]

/-- What a delivery leaves in its instance, and what it returns, depends on
that instance only. -/
lemma handle_reads {m : Msg} (hm : ¬ IsNack m) {t : PaxosNode}
    (hs : instances.Fits s m.hdr.instanceId) (ht : instances.Fits t m.hdr.instanceId)
    (hf : fixed s = fixed t)
    (he : instances.entry s m.hdr.instanceId = instances.entry t m.hdr.instanceId) :
    instances.entry (s.handle m).node m.hdr.instanceId = instances.entry (t.handle m).node
    m.hdr.instanceId ∧ (s.handle m).out = (t.handle m).out ∧
    (s.handle m).status = (t.handle m).status := by
  obtain ⟨hi,hps⟩ := Prod.mk.inj he
  have hx : s.inst m.hdr.instanceId = t.inst m.hdr.instanceId := by
    rw [inst, inst, hi]
  obtain ⟨hh,hq⟩ := header_eq hf m.hdr.instanceId
  have hgs := getOrCreateInstance_fits hs
  have hgt := getOrCreateInstance_fits ht
  cases m with
  | prepare =>
    dsimp only [Msg.hdr] at *
    simp only [handle, handlePrepare, hgs, hgt, hx]
    split_ifs
    · simp [hps, hh]
    · simp [hps, hh]
  | promise hdr =>
    dsimp only [Msg.hdr] at *
    simp only [handle, handlePromise, hps]
    cases t.proposerState.lookup hdr.instanceId with
    | none => exact ⟨he,rfl,rfl⟩
    | some =>
      simp only [hq]
      split_ifs
      · simp [hi, hh]
      · simp [hi]
      · exact ⟨he,rfl,rfl⟩
  | accept =>
    dsimp only [Msg.hdr] at *
    simp only [handle, handleAccept, hgs, hgt, hx]
    split_ifs
    · simp [hps, hh]
    · simp [hps, hh]
    · simp [hps, hh]
  | accepted hdr =>
    dsimp only [Msg.hdr] at *
    simp only [handle, handleAccepted, hps]
    cases t.proposerState.lookup hdr.instanceId with
    | none => exact ⟨he,rfl,rfl⟩
    | some =>
      simp only [hq]
      split_ifs
      · exact ⟨he,rfl,rfl⟩
      · -- the proposer's entry has no part in whether the instance fits
        have hfits : ∀ {u : PaxosNode} (x : ProposerInstanceState),
            instances.Fits u hdr.instanceId →
            instances.Fits (u.putProposer hdr.instanceId x) hdr.instanceId := fun _ h => h
        have hinst : ∀ (u : PaxosNode) (x : ProposerInstanceState),
            (u.putProposer hdr.instanceId x).inst hdr.instanceId = u.inst hdr.instanceId :=
          fun _ _ => rfl
        rw [recordCommit_fits (hfits _ hs), recordCommit_fits (hfits _ ht), hinst, hinst, hx]
        simp [hh]
      · simp [hi]
      · exact ⟨he,rfl,rfl⟩
  | learn =>
    dsimp only [Msg.hdr] at *
    simp only [handle, handleLearn, hgs, hgt, hx]
    split_ifs
    · simp [hps]
    · simp [hps]
  | nack => exact absurd trivial hm

lemma deliver_local {data : Memory} {len : ℕ} {m : Msg} (hp : parse data len = some m)
    (hm : ¬ IsNack m) :
    Local instances m.hdr.instanceId fun s => paxosResult (s.handleMessage data len) := by
  have hd : ∀ s : PaxosNode, s.handleMessage data len = s.handle m := by
    intro s
    rw [handleMessage, hp]
  refine ⟨fun s => ?_,fun s j hj => ?_,fun s t hs ht hf he => ?_⟩
  · rw [hd]
    exact (handle_writes s hm).fixed
  · have hw := handle_writes s hm
    rw [hd]
    exact Prod.ext (hw.instances j hj) (hw.proposers j hj)
  · obtain ⟨hentry,hout,hst⟩ := handle_reads hm hs ht hf he
    simp only [hd]
    exact ⟨hentry,Prod.ext hout hst⟩

end

/-! ## Lock keys -/

section
open LockState LockLeases

def lockKeys : Layout LockManager UInt64 (Option KeyState) (UInt32 × UInt64 × UInt16) where
  entry s key := s.keys.lookup key
  shared := limits
  keys s := s.keys.keys
  capacity c := c.1.toNat
  Tracked e := e.isSome
  mem_keys s key := by rw [mem_keys, ← lookup_isSome]
  ext s t hl he := manager_ext hl he

inductive LockCall where
  | acquire (key : UInt64) (requesterId : UInt8) (leaseDurationNs nowNs : UInt64)
  | release (key : UInt64) (requesterId : UInt8) (nowNs : UInt64)

def LockCall.key : LockCall → UInt64
  | .acquire key _ _ _ => key
  | .release key _ _ => key

def lockCall (c : LockCall) (s : LockManager) : LockManager × List OutMessage × LockStatus :=
  let o := match c with
    | .acquire key r lease now => s.acquire key r lease now
    | .release key r now => s.release key r now
  (o.mgr,o.out,o.status)

lemma lookup_put_other (s : LockManager) {key j : UInt64} (hj : j ≠ key) (x : KeyState) :
    (s.put key x).keys.lookup j = s.keys.lookup j := by
  simp [LockManager.put, hj]

lemma lookup_put (s : LockManager) (key : UInt64) (x : KeyState) :
    (s.put key x).keys.lookup key = some x := by
  simp [LockManager.put]

lemma getOrCreateKey_fits {s : LockManager} {key : UInt64} (h : lockKeys.Fits s key) :
    ∃ t, s.getOrCreateKey key = some ((s.keys.lookup key).getD {},t) ∧
    t.keys.lookup key = some ((s.keys.lookup key).getD {}) ∧
    t.maxWaitersPerKey = s.maxWaitersPerKey := by
  unfold LockManager.getOrCreateKey
  cases hl : s.keys.lookup key with
  | some => exact ⟨s,rfl,hl,rfl⟩
  | none =>
    have hroom : ¬ s.maxKeys.toNat ≤ Table.size s.keys :=
      not_le.mpr (h.resolve_left (Table.not_mem_keys_of_lookup hl))
    exact ⟨s.put key {},by simp [hroom],lookup_put s key {},rfl⟩

lemma acquire_local (key : UInt64) (r : UInt8) (lease now : UInt64) :
    Local lockKeys key (lockCall (.acquire key r lease now)) := by
  refine ⟨fun s => ?_,fun s j hj => ?_,fun s t hs ht hf he => ?_⟩
  · show limits (s.acquire key r lease now).mgr = limits s
    cases s.acquire_spec key r lease now with
    | overflow _ ho | full _ _ _ _ _ ho | again _ _ _ _ _ _ ho => rw [ho]
    | granted _ _ ho | refreshed _ _ _ _ ho | queued _ _ _ _ _ _ ho => rw [ho]; rfl
  · show (s.acquire key r lease now).mgr.keys.lookup j = s.keys.lookup j
    cases s.acquire_spec key r lease now with
    | overflow _ ho | full _ _ _ _ _ ho | again _ _ _ _ _ _ ho => rw [ho]
    | granted _ _ ho | refreshed _ _ _ _ ho | queued _ _ _ _ _ _ ho =>
      rw [ho, lookup_put_other s hj]
  · obtain ⟨u,hu,hku,hwu⟩ := getOrCreateKey_fits hs
    obtain ⟨v,hv,hkv,hwv⟩ := getOrCreateKey_fits ht
    have hl : s.keys.lookup key = t.keys.lookup key := he
    simp only [lockKeys, limits, Prod.mk.injEq] at hf
    rw [hl] at hu hku
    simp only [lockKeys, lockCall, LockManager.acquire, hu, hv, hwu, hwv, hf.2.1, hf.2.2]
    generalize (if lease = 0 then t.defaultLeaseNs else lease) = d
    split_ifs
    · simp [lookup_put, LockManager.grantLock]
    · simp [lookup_put]
    · simp [hku, hkv]
    · simp [hku, hkv]
    · simp [hku, hkv]
    · simp [lookup_put]

lemma release_local (key : UInt64) (r : UInt8) (now : UInt64) :
    Local lockKeys key (lockCall (.release key r now)) := by
  refine ⟨fun s => ?_,fun s j hj => ?_,fun s t _ _ hf he => ?_⟩
  · show limits (s.release key r now).mgr = limits s
    cases s.release_spec key r now with
    | refused _ ho => rw [ho]
    | freed _ _ _ ho => rw [ho, limits_vacate]
  · show (s.release key r now).mgr.keys.lookup j = s.keys.lookup j
    cases s.release_spec key r now with
    | refused _ ho => rw [ho]
    | freed _ _ _ ho => rw [ho, s.vacate_lookup_ne hj]
  · have hl : s.keys.lookup key = t.keys.lookup key := he
    simp only [lockKeys, lockCall, LockManager.release, hl]
    cases hk : t.keys.lookup key with
    | none => simp [hl, hk]
    | some =>
      dsimp only
      split_ifs
      · simp [hl, hk]
      · simp [vacate_lookup, vacate_out]

lemma lockCall_local (c : LockCall) : Local lockKeys c.key (lockCall c) := by
  cases c with
  | acquire key r lease now => exact acquire_local key r lease now
  | release key r now => exact release_local key r now

end

/-! ## Barriers -/

section
open BarrierState BarrierRefusals

def barriers : Layout BarrierManager UInt32 (Option Barrier) (UInt32 × UInt16) where
  entry s id := s.barriers.lookup id
  shared s := (s.maxBarriers,s.defaultParticipants)
  keys s := s.barriers.keys
  capacity c := c.1.toNat
  Tracked e := e.isSome
  mem_keys s id := by rw [mem_keys, ← lookup_isSome]
  ext s t hf he := by
    have hb : s.barriers = t.barriers := ext_lookup he
    cases s
    cases t
    simp_all

def arriveCall (id : UInt32) (gen : UInt16) (sender : UInt8) (s : BarrierManager) :
    BarrierManager × List OutMessage × BarrierStatus :=
  ((s.arrive id gen sender).mgr,(s.arrive id gen sender).out,(s.arrive id gen sender).status)

/-- A barrier that fits is found, or created with the default number of
participants if that is valid. -/
lemma getOrCreate_fits {s : BarrierManager} (h : barriers.Fits s id) :
    s.getOrCreate id = match s.barriers.lookup id with
      | some b => .ok (b,s)
      | none =>
        if s.defaultParticipants < 2 ∨ 64 < s.defaultParticipants then
          .error .kInvalidConfiguration
        else .ok (⟨0,s.defaultParticipants,0,0⟩,s.put id ⟨0,s.defaultParticipants,0,0⟩) := by
  unfold BarrierManager.getOrCreate
  cases hl : s.barriers.lookup id with
  | some => rfl
  | none =>
    have hroom : ¬ s.maxBarriers.toNat ≤ Table.size s.barriers :=
      not_le.mpr (h.resolve_left (Table.not_mem_keys_of_lookup hl))
    simp only [if_neg hroom, BarrierManager.setParticipants]
    split_ifs
    · rfl
    · simp

lemma arrive_local (id : UInt32) (gen : UInt16) (sender : UInt8) :
    Local barriers id (arriveCall id gen sender) := by
  refine ⟨fun s => ?_,fun s j hj => ?_,fun s t hs ht hf he => ?_⟩
  · simp only [barriers, arriveCall]
    cases s.arrive_spec id gen sender with
    | refused _ _ ho => rw [ho]
    | found _ _ ho => rw [ho]; rfl
  · simp only [barriers, arriveCall]
    cases s.arrive_spec id gen sender with
    | refused _ _ ho => rw [ho]
    | found _ _ ho => simp [ho, hj]
  · have hl : s.barriers.lookup id = t.barriers.lookup id := he
    have hd : s.defaultParticipants = t.defaultParticipants := congrArg Prod.snd hf
    simp only [barriers, arriveCall, BarrierManager.arrive, getOrCreate_fits hs,
      getOrCreate_fits ht, hl, hd]
    cases hk : t.barriers.lookup id with
    | some => simp
    | none =>
      dsimp only
      split_ifs
      · simp [hl, hk]
      · simp

end

/-! ## All three -/

/-- Calls for different instances, keys or barriers commute in every state
with room for both: two deliveries other than NACKs to a replica, two calls on
a lock manager at whatever times, two arrivals at barriers. -/
theorem calls_commute :
    (∀ (s : PaxosState.PaxosNode) (data data' : Memory) (len len' : ℕ) (m m' : PaxosProto.Msg),
      PaxosProto.parse data len = some m → PaxosProto.parse data' len' = some m' →
      ¬ PaxosRounds.IsNack m → ¬ PaxosRounds.IsNack m' → m.hdr.instanceId ≠ m'.hdr.instanceId →
      (insert m.hdr.instanceId (insert m'.hdr.instanceId s.instances.keys)).card ≤
        s.maxInstances.toNat →
      Commutes (fun s => paxosResult (s.handleMessage data len))
        (fun s => paxosResult (s.handleMessage data' len')) s) ∧
    (∀ (s : LockState.LockManager) (c c' : LockCall), c.key ≠ c'.key →
      (insert c.key (insert c'.key s.keys.keys)).card ≤ s.maxKeys.toNat →
      Commutes (lockCall c) (lockCall c') s) ∧
    (∀ (s : BarrierState.BarrierManager) (id id' : UInt32) (gen gen' : UInt16)
      (sender sender' : UInt8), id ≠ id' →
      (insert id (insert id' s.barriers.keys)).card ≤ s.maxBarriers.toNat →
      Commutes (arriveCall id gen sender) (arriveCall id' gen' sender') s) := by
  refine ⟨?_,?_,?_⟩
  · intro s data data' len len' m m' hp hp' hm hm' hne hroom
    exact (deliver_local hp hm).commute (deliver_local hp' hm') hne hroom
  · intro s c c' hne hroom
    exact (lockCall_local c).commute (lockCall_local c') hne hroom
  · intro s id id' gen gen' sender sender' hne hroom
    exact (arrive_local id gen sender).commute (arrive_local id' gen' sender') hne hroom

/-- A PREPARE for instance 1 and a LEARN for instance 2 at a new replica, the
release of one key and the acquisition of another, arrivals at two barriers. -/
theorem calls_commute_new :
    Commutes
      (fun s => paxosResult (s.handleMessage
        (view (PaxosProto.Msg.prepare ⟨1,3,1⟩ ⟨4,1,0⟩).serialize fun _ => 0) 16))
      (fun s => paxosResult (s.handleMessage
        (view (PaxosProto.Msg.learn ⟨2,3,2⟩ 1 fun _ => 9).serialize fun _ => 0) 138))
      (PaxosState.PaxosNode.new 0 3 8) ∧
    Commutes (lockCall (.release 5 1 20)) (lockCall (.acquire 6 2 0 30))
      (lockCall (.acquire 5 1 0 10) (LockState.LockManager.new 2 100 4)).1 ∧
    Commutes (arriveCall 1 0 0) (arriveCall 2 3 0) (BarrierState.BarrierManager.new 2 2) := by
  obtain ⟨hp,hl,hb⟩ := calls_commute
  refine ⟨?_,hl _ _ _ (by decide) (by decide +kernel),hb _ _ _ _ _ _ _ (by decide) (by decide)⟩
  exact hp _ _ _ _ _ (.prepare ⟨1,3,1⟩ ⟨4,1,0⟩) (.learn ⟨2,3,2⟩ 1 fun _ => 9)
    (PaxosProto.parse_serialize _ _) (PaxosProto.parse_serialize _ _) (fun h => h) (fun h => h)
    (by decide) (by decide)

end SimBricks.Independence
