import SimBricks.Hcop.PaxosState

/-!
# Replicas that never propose

A node that only handles messages has no proposer state, so it acts as an
acceptor: it answers requests for instances it tracks, its log only grows,
and a full log turns away new instances for good.
-/

set_option autoImplicit false

namespace SimBricks.PaxosState
open Library Library.Table Library.Bytes PaxosProto

/-- What an acceptor sends: a Promise, Accepted, Learn or Nack. -/
def isAnswer : Msg → Bool
  | .promise _ _ _ _ _ | .accepted _ _ _ _ | .learn _ _ _ | .nack _ _ => true
  | .prepare _ _ | .accept _ _ _ _ => false

namespace PaxosNode

lemma getOrCreateInstance_closed {s : PaxosNode} {id : UInt32}
    (h : s.getOrCreateInstance id = none) : Closed s.maxInstances.toNat s.instances.keys id := by
  unfold getOrCreateInstance at h
  cases hl : s.instances.lookup id with
  | some => simp [hl] at h
  | none =>
    simp only [hl] at h
    split_ifs at h with hm
    exact ⟨not_mem_keys_of_lookup hl,hm⟩

lemma getOrCreateInstance_grows {s t : PaxosNode} {id : UInt32} {inst : InstanceState}
    (h : s.getOrCreateInstance id = some (inst,t)) :
    t.proposerState = s.proposerState ∧ t.maxInstances = s.maxInstances ∧
    t.instances.keys = insert id s.instances.keys ∧
    (id ∈ s.instances.keys ∨ s.instances.keys.card < s.maxInstances.toNat) := by
  rcases getOrCreateInstance_cases h with ⟨hl,rfl⟩ | ⟨-,hm,-,rfl⟩
  · have hid := mem_keys_of_lookup hl
    exact ⟨rfl,rfl,(Finset.insert_eq_of_mem hid).symm,.inl hid⟩
  · exact ⟨rfl,rfl,keys_insert _ _ _,.inr hm⟩

end PaxosNode

open PaxosNode

/-- A handler overflows exactly when it needs an instance that does not fit. -/
lemma handle_overflow_iff (s : PaxosNode) (m : Msg) :
    (s.handle m).status = .kInstanceOverflow ↔ needsInstance m ∧
    Closed s.maxInstances.toNat s.instances.keys m.hdr.instanceId := by
  have hopen : ∀ {id inst t}, s.getOrCreateInstance id = some (inst,t) →
      ¬ Closed s.maxInstances.toNat s.instances.keys id := by
    intro id inst t hg hc
    rcases (getOrCreateInstance_grows hg).2.2.2 with hin | hroom
    · exact hc.1 hin
    · exact absurd hc.2 (not_le.mpr hroom)
  have h := handle_handled s m
  generalize s.handle m = o at h
  cases h with
  | full hm hg => exact iff_of_true rfl ⟨hm,getOrCreateInstance_closed hg⟩
  | quiet status hm hs => simp [hs, hm]
  | refuse hm hg | promise hdr p hg | inform hdr p len value hg | accept hdr p len value hg
  | known hdr len value hg | learn hdr len value hg =>
    exact iff_of_false (by simp) fun hc => hopen hg hc.2
  | count | lead | tally | commit | bump => simp [needsInstance]

structure Passive (s : PaxosNode) (id : UInt32) (o : Outcome) : Prop where
  proposer : o.node.proposerState = ∅
  capacity : o.node.maxInstances = s.maxInstances
  grows : Grows s.maxInstances.toNat id s.instances.keys o.node.instances.keys
  overflow : o.status = .kInstanceOverflow → Closed s.maxInstances.toNat s.instances.keys id
  answers : ∀ x ∈ o.out, isAnswer x.msg ∧ x.msg.hdr.instanceId = id ∧
    id ∈ o.node.instances.keys

section
variable {s : PaxosNode} {id : UInt32}

lemma Passive.quiet (h : s.proposerState = ∅) {status : PaxosStatus}
    (hst : status = .kInstanceOverflow → Closed s.maxInstances.toNat s.instances.keys id) :
    Passive s id ⟨s,[],status⟩ :=
  ⟨h,rfl,.inl rfl,hst,by simp⟩

lemma Passive.write {t u : PaxosNode} {inst : InstanceState} {out : List OutMessage}
    {status : PaxosStatus} (h : s.proposerState = ∅) (hg : s.getOrCreateInstance id = some (inst,t))
    (hu : u = t ∨ ∃ x, u = t.putInstance id x)
    (ho : ∀ x ∈ out, isAnswer x.msg ∧ x.msg.hdr.instanceId = id)
    (hst : status ≠ .kInstanceOverflow) : Passive s id ⟨u,out,status⟩ := by
  obtain ⟨hp,hm,hk,hroom⟩ := getOrCreateInstance_grows hg
  have hpu : u.proposerState = ∅ ∧ u.maxInstances = s.maxInstances := by
    rcases hu with rfl | ⟨x,rfl⟩
    · exact ⟨hp.trans h,hm⟩
    · exact ⟨hp.trans h,hm⟩
  have hku : u.instances.keys = insert id s.instances.keys := by
    rcases hu with rfl | ⟨x,rfl⟩
    · exact hk
    · rw [putInstance, keys_insert, hk, Finset.insert_idem]
  refine ⟨hpu.1,hpu.2,.inr ⟨hku,hroom⟩,fun hs => absurd hs hst,?_⟩
  intro x hx
  refine ⟨(ho x hx).1,(ho x hx).2,?_⟩
  rw [hku]
  exact Finset.mem_insert_self _ _

lemma handle_passive (h : s.proposerState = ∅) (m : Msg) :
    Passive s m.hdr.instanceId (s.handle m) := by
  have hnone : ∀ {id ps}, s.proposerState.lookup id ≠ some ps := by simp [h]
  have hh := handle_handled s m
  generalize s.handle m = o at hh
  cases hh with
  | full hm hg => exact .quiet h fun _ => getOrCreateInstance_closed hg
  | quiet status hm hs => exact .quiet h fun he => absurd he hs
  | promise hdr p hg =>
    exact .write h hg (.inr ⟨_,rfl⟩) (by simp [makePromise, isAnswer, Msg.hdr, header])
      (by simp)
  | refuse hm hg =>
    exact .write h hg (.inl rfl) (by simp [makeNack, isAnswer, Msg.hdr, header]) (by simp)
  | inform hdr p len value hg =>
    exact .write h hg (.inl rfl) (by simp [makeLearn, isAnswer, Msg.hdr, header]) (by simp)
  | accept hdr p len value hg =>
    exact .write h hg (.inr ⟨_,rfl⟩) (by simp [makeAccepted, isAnswer, Msg.hdr, header])
      (by simp)
  | known hdr len value hg => exact .write h hg (.inl rfl) (by simp) (by simp)
  | learn hdr len value hg => exact .write h hg (.inr ⟨_,rfl⟩) (by simp) (by simp)
  | count hdr p acc len value hps | lead hdr p acc len value hps | tally hdr p len value hps
  | commit hdr p len value hps => exact absurd hps hnone
  | bump => exact ⟨h,rfl,.inl rfl,by simp,by simp⟩

lemma handleMessage_passive (h : s.proposerState = ∅) (data : Memory) (len : ℕ) :
    (parse data len = none ∧ s.handleMessage data len = ⟨s,[],.kInvalidMessage⟩) ∨
    ∃ m, parse data len = some m ∧ Passive s m.hdr.instanceId (s.handleMessage data len) := by
  unfold handleMessage
  cases parse data len with
  | none => exact .inl ⟨rfl,rfl⟩
  | some m => exact .inr ⟨m,rfl,handle_passive h m⟩

end

end SimBricks.PaxosState
