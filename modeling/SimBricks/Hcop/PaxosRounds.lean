import SimBricks.Hcop.PaxosReplica

/-!
# Proposal numbers of a replica

`NextRound` counts the one round counter of a node up, and a NACK moves it to
the round it reports. Nothing else writes it: a delivery other than a NACK
writes its instance only. The counter has 32 bits, and the round after the
last one is zero.
-/

set_option autoImplicit false

namespace SimBricks.PaxosRounds
open Library Library.Run Library.Bytes PaxosProto PaxosState List

/-! ## What a delivery writes -/

def fixed (s : PaxosNode) : UInt8 × UInt16 × UInt16 × UInt32 × UInt32 :=
  (s.nodeId,s.numReplicas,s.quorum,s.currentRound,s.maxInstances)

structure Writes (s : PaxosNode) (id : UInt32) (t : PaxosNode) : Prop where
  fixed : fixed t = fixed s
  instances : ∀ j, j ≠ id → t.instances.lookup j = s.instances.lookup j
  proposers : ∀ j, j ≠ id → t.proposerState.lookup j = s.proposerState.lookup j

lemma Writes.refl (s : PaxosNode) (id : UInt32) : Writes s id s :=
  ⟨rfl,fun _ _ => rfl,fun _ _ => rfl⟩

section
variable {s t : PaxosNode} {id : UInt32}

lemma Writes.putInstance (h : Writes s id t) (x : InstanceState) :
    Writes s id (t.putInstance id x) := by
  refine ⟨h.fixed,fun j hj => ?_,h.proposers⟩
  simp [PaxosNode.putInstance, hj, h.instances j hj]

lemma Writes.putProposer (h : Writes s id t) (x : ProposerInstanceState) :
    Writes s id (t.putProposer id x) := by
  refine ⟨h.fixed,h.instances,fun j hj => ?_⟩
  simp [PaxosNode.putProposer, hj, h.proposers j hj]

lemma getOrCreateInstance_writes {x : InstanceState} (h : s.getOrCreateInstance id = some (x,t)) :
    Writes s id t := by
  rcases PaxosNode.getOrCreateInstance_cases h with ⟨-,rfl⟩ | ⟨-,-,-,rfl⟩
  · exact .refl t id
  · exact (Writes.refl s id).putInstance {}

lemma Writes.recordCommit (h : Writes s id t) (len : UInt16) (value : Value) :
    Writes s id (t.recordCommit id len value) := by
  unfold PaxosNode.recordCommit
  cases hg : t.getOrCreateInstance id with
  | none => exact h
  | some xu =>
    obtain ⟨x,u⟩ := xu
    have hu := getOrCreateInstance_writes hg
    apply Writes.putInstance
    exact ⟨hu.fixed.trans h.fixed,fun j hj => (hu.instances j hj).trans (h.instances j hj),
      fun j hj => (hu.proposers j hj).trans (h.proposers j hj)⟩

end

def IsNack : Msg → Prop
  | .nack _ _ => True
  | _ => False

lemma handle_writes (s : PaxosNode) {m : Msg} (hm : ¬ IsNack m) :
    Writes s m.hdr.instanceId (s.handle m).node := by
  have h := handle_handled s m
  generalize s.handle m = o at h
  cases h with
  | full | quiet => exact .refl s _
  | refuse _ hg | inform hdr p len value hg | known hdr len value hg =>
    exact getOrCreateInstance_writes hg
  | promise hdr p hg | accept hdr p len value hg | learn hdr len value hg =>
    exact (getOrCreateInstance_writes hg).putInstance _
  | count | lead | tally => exact (Writes.refl s _).putProposer _
  | commit hdr p len value => exact ((Writes.refl s _).putProposer _).recordCommit len value
  | bump => exact absurd trivial hm

/-! ## Rounds -/

def proposalOf (m : OutMessage) : Option ProposalNum :=
  match m.msg with
  | .prepare _ p => some p
  | .accept _ p _ _ => some p
  | _ => none

def issued (s : PaxosNode) : Call → List ProposalNum
  | .handleMessage _ _ => []
  | c => (emit s c).filterMap proposalOf

def nacked : Call → List ProposalNum
  | .handleMessage data len =>
    match parse data len with
    | some (.nack _ highestSeen) => [highestSeen]
    | _ => []
  | _ => []

def Issues (s : PaxosNode) : Call → Prop
  | .propose id _ len =>
    len.toNat ≤ kMaxValueSize ∧ s.committedAt id = false ∧ (s.getOrCreateInstance id).isSome
  | .startLeaderElection id => (s.getOrCreateInstance id).isSome
  | .handleMessage _ _ => False

inductive Counted (s : PaxosNode) (c : Call) : Prop where
  | issues (h : Issues s c) (hi : issued s c = [s.nextProposal]) (hn : nacked c = [])
      (hr : (step s c).currentRound = s.currentRound+1)
  | nacks (h : ¬ Issues s c) (q : ProposalNum) (hi : issued s c = []) (hn : nacked c = [q])
      (hr : (step s c).currentRound = if s.currentRound ≤ q.round then q.round else s.currentRound)
  | quiet (h : ¬ Issues s c) (hi : issued s c = []) (hn : nacked c = [])
      (hr : (step s c).currentRound = s.currentRound)

lemma getOrCreateInstance_next {s t : PaxosNode} {id : UInt32} {x : InstanceState}
    (h : s.getOrCreateInstance id = some (x,t)) :
    t.nextRound = s.currentRound+1 ∧ t.nextProposal = s.nextProposal := by
  have hf := (getOrCreateInstance_writes h).fixed
  simp only [fixed, Prod.mk.injEq] at hf
  simp [PaxosNode.nextRound, PaxosNode.nextProposal, hf.1, hf.2.2.2.1]

lemma counted (s : PaxosNode) (c : Call) : Counted s c := by
  cases c with
  | propose id value len =>
    by_cases hi : Issues s (.propose id value len)
    · obtain ⟨hl,hc,hg⟩ := hi
      obtain ⟨⟨x,t⟩,hg⟩ := Option.isSome_iff_exists.mp hg
      obtain ⟨hnr,hnp⟩ := getOrCreateInstance_next hg
      refine .issues ⟨hl,hc,by simp [hg]⟩ ?_ rfl ?_
      · simp [issued, emit, perform, PaxosNode.propose, not_lt.mpr hl, hc, hg, proposalOf,
          makeAcceptBroadcast, hnp]
      · simp [step, perform, PaxosNode.propose, not_lt.mpr hl, hc, hg, hnr]
    · have ho : ∃ st, s.propose id value len = ⟨s,[],st⟩ := by
        unfold PaxosNode.propose
        by_cases hl : kMaxValueSize < len.toNat
        · exact ⟨_,by rw [if_pos hl]⟩
        · by_cases hc : s.committedAt id
          · exact ⟨_,by rw [if_neg hl, if_pos hc]⟩
          · cases hg : s.getOrCreateInstance id with
            | none => exact ⟨_,by rw [if_neg hl, if_neg hc]⟩
            | some => exact absurd ⟨not_lt.mp hl,by simpa using hc,by simp [hg]⟩ hi
      obtain ⟨st,ho⟩ := ho
      exact .quiet hi (by simp [issued, emit, perform, ho]) rfl (by simp [step, perform, ho])
  | startLeaderElection id =>
    cases hg : s.getOrCreateInstance id with
    | none =>
      have ho : s.startLeaderElection id = ⟨s,[],.kInstanceOverflow⟩ := by
        simp [PaxosNode.startLeaderElection, hg]
      exact .quiet (by simp [Issues, hg]) (by simp [issued, emit, perform, ho]) rfl
        (by simp [step, perform, ho])
    | some xt =>
      obtain ⟨x,t⟩ := xt
      obtain ⟨hnr,hnp⟩ := getOrCreateInstance_next hg
      refine .issues (by simp [Issues, hg]) ?_ rfl ?_
      · simp [issued, emit, perform, PaxosNode.startLeaderElection, hg, proposalOf,
          makePrepareBroadcast, hnp]
      · simp [step, perform, PaxosNode.startLeaderElection, hg, hnr]
  | handleMessage data len =>
    cases hp : parse data len with
    | none =>
      refine .quiet (fun h => h) rfl (by simp [nacked, hp]) ?_
      simp [step, perform, PaxosNode.handleMessage, hp]
    | some m =>
      have hs : step s (.handleMessage data len) = (s.handle m).node := by
        simp [step, perform, PaxosNode.handleMessage, hp]
      by_cases hm : IsNack m
      · cases m with
        | nack hdr q =>
          refine .nacks (fun h => h) q rfl (by simp [nacked, hp]) ?_
          rw [hs]
          simp only [PaxosNode.handle, PaxosNode.handleNack]
          split_ifs <;> rfl
        | _ => cases hm
      · have hf := (handle_writes s hm).fixed
        simp only [fixed, Prod.mk.injEq] at hf
        refine .quiet (fun h => h) rfl ?_ (hs ▸ hf.2.2.2.1)
        cases m with
        | nack => exact absurd trivial hm
        | _ => simp [nacked, hp]

/-- The counter is not at its last value when a proposal is issued. -/
def RoundLeft (s : PaxosNode) (c : Call) : Prop := Issues s c → s.currentRound ≠ 0xFFFFFFFF

def Heard (s : PaxosNode) (cs : List Call) (q : ProposalNum) : Prop :=
  q ∈ trace step issued s cs ∨ q ∈ cs.flatMap nacked

lemma trace_issued_snoc (s : PaxosNode) (cs : List Call) (c : Call) :
    trace step issued s (cs++[c]) = trace step issued s cs++issued (run step s cs) c := by
  simp [trace_append, trace]

lemma heard_snoc (s : PaxosNode) (cs : List Call) (c : Call) (q : ProposalNum) :
    Heard s (cs++[c]) q ↔ Heard s cs q ∨ q ∈ issued (run step s cs) c ∨ q ∈ nacked c := by
  simp only [Heard, trace_issued_snoc, mem_append, flatMap_append, flatMap_cons,
    flatMap_nil, append_nil]
  tauto

section
variable (nodeId : UInt8) (numReplicas : UInt16) (maxInstances : UInt32)

lemma currentRound_heard (cs : List Call) :
    (run step (.new nodeId numReplicas maxInstances) cs).currentRound = 0 ∨ ∃ q, Heard
    (.new nodeId numReplicas maxInstances) cs q ∧ q.round =
    (run step (.new nodeId numReplicas maxInstances) cs).currentRound := by
  induction cs using reverseRecOn with
  | nil => exact .inl rfl
  | append_singleton cs c ih =>
    rw [run_append, run_cons, run_nil]
    simp only [heard_snoc]
    -- a round that was there before is still there
    have hold : (step (run step (.new nodeId numReplicas maxInstances) cs) c).currentRound =
          (run step (.new nodeId numReplicas maxInstances) cs).currentRound →
        (step (run step (.new nodeId numReplicas maxInstances) cs) c).currentRound = 0 ∨
        ∃ q, (Heard (.new nodeId numReplicas maxInstances) cs q ∨
            q ∈ issued (run step (.new nodeId numReplicas maxInstances) cs) c ∨ q ∈ nacked c) ∧
          q.round = (step (run step (.new nodeId numReplicas maxInstances) cs) c).currentRound := by
      intro hr
      rw [hr]
      exact ih.imp_right fun ⟨q,hq,hround⟩ => ⟨q,.inl hq,hround⟩
    cases counted (run step (.new nodeId numReplicas maxInstances) cs) c with
    | issues _ hi _ hr =>
      exact .inr ⟨_,.inr (.inl (by rw [hi]; exact mem_singleton_self _)),hr.symm⟩
    | nacks _ q _ hn hr =>
      split_ifs at hr with hle
      · exact .inr ⟨q,.inr (.inr (by simp [hn])),hr.symm⟩
      · exact hold hr
    | quiet _ _ _ hr => exact hold hr

variable {q : ProposalNum} {cs : List Call}

lemma lt_of_round_lt {p : ProposalNum} (h : p.round < q.round) : p < q := .inl h

lemma nextProposal_round_toNat {s : PaxosNode} (h : s.currentRound ≠ 0xFFFFFFFF) :
    s.nextProposal.round.toNat = s.currentRound.toNat+1 := by
  have hlt := s.currentRound.toNat_lt
  have hne : s.currentRound.toNat ≠ 0xFFFFFFFF := fun he => h (UInt32.toNat_inj.mp he)
  show (s.currentRound+1).toNat = _
  rw [UInt32.toNat_add]
  exact Nat.mod_eq_of_lt (by simp only [UInt32.toNat_one]; omega)

/-- While rounds are left, the counter is at least every round heard of. -/
lemma heard_le {s : PaxosNode} (h : Along step RoundLeft s cs) (hq : Heard s cs q) :
    q.round.toNat ≤ (run step s cs).currentRound.toNat := by
  induction cs using List.reverseRecOn generalizing q with
  | nil => simp [Heard, trace] at hq
  | append_singleton cs c ih =>
    obtain ⟨hcs,hc,-⟩ := (along_append _ _ _ _ _).mp h
    rw [run_append, run_cons, run_nil]
    have hgrow : (run step s cs).currentRound.toNat ≤
          (step (run step s cs) c).currentRound.toNat := by
      cases counted (run step s cs) c with
      | issues hi _ _ hr =>
        rw [hr]
        exact Nat.le_of_succ_le (nextProposal_round_toNat (hc hi)).ge
      | nacks _ q _ _ hr =>
        rw [hr]
        split_ifs with hle
        · exact UInt32.le_iff_toNat_le.mp hle
        · exact le_rfl
      | quiet _ _ _ hr => rw [hr]
    rcases (heard_snoc s cs c q).mp hq with hq | hq
    · exact (ih hcs hq).trans hgrow
    · cases counted (run step s cs) c with
      | issues _ hi hn hr =>
        obtain rfl : q = (run step s cs).nextProposal := by simpa [hi, hn] using hq
        rw [hr]
        exact le_rfl
      | nacks _ q' hi hn hr =>
        obtain rfl : q = q' := by simpa [hi, hn] using hq
        rw [hr]
        split_ifs with hle
        · exact le_rfl
        · exact le_of_lt (UInt32.lt_iff_toNat_lt.mp (UInt32.not_le.mp hle))
      | quiet _ hi hn => simp [hi, hn] at hq

lemma issued_above {s : PaxosNode} {c : Call} (h : Along step RoundLeft s (cs++[c]))
    {p : ProposalNum} (hp : p ∈ issued (run step s cs) c) (hq : Heard s cs q) : q < p := by
  obtain ⟨hcs,hc,-⟩ := (along_append _ _ _ _ _).mp h
  cases counted (run step s cs) c with
  | issues hi hlist =>
    obtain rfl : p = (run step s cs).nextProposal := by simpa [hlist] using hp
    apply lt_of_round_lt
    rw [UInt32.lt_iff_toNat_lt, nextProposal_round_toNat (hc hi)]
    exact Nat.lt_succ_of_le (heard_le hcs hq)
  | nacks _ _ hlist _ _ | quiet _ hlist _ _ => simp [hlist] at hp

lemma issued_increasing {s : PaxosNode} (h : Along step RoundLeft s cs) :
    (trace step issued s cs).Pairwise (· < ·) := by
  induction cs using reverseRecOn with
  | nil => exact .nil
  | append_singleton cs c ih =>
    rw [trace_issued_snoc, pairwise_append]
    refine ⟨ih ((along_append _ _ _ _ _).mp h).1,?_,fun q hq p hp => issued_above h hp (.inl hq)⟩
    cases counted (run step s cs) c with
    | issues _ hi _ _ | nacks _ _ hi _ _ | quiet _ hi _ _ => simp [hi]

/-- The proposals of a node are strictly increasing and above everything a
NACK has reported before, exactly in the runs in which no proposal is issued
when the round counter is at its last value. -/
theorem proposals_increase_iff (cs : List Call) :
    ((trace step issued (.new nodeId numReplicas maxInstances) cs).Pairwise (· < ·) ∧
      ∀ earlier c later, cs = earlier++c::later →
        ∀ p ∈ issued (run step (.new nodeId numReplicas maxInstances) earlier) c,
        ∀ q ∈ earlier.flatMap nacked, q < p) ↔
    Along step RoundLeft (.new nodeId numReplicas maxInstances) cs := by
  constructor
  · rintro ⟨hpair,hnack⟩
    rw [along_iff]
    rintro earlier c later rfl hi hmax
    generalize hs : run step (.new nodeId numReplicas maxInstances) earlier = s at hi hmax
    cases counted s c with
    | issues _ hlist =>
      have hp : s.nextProposal ∈ issued s c := by simp [hlist]
      have hzero : s.nextProposal.round = 0 := by
        show s.currentRound+1 = 0
        rw [hmax]
        decide
      -- the counter got to its last value by a number that is not below round zero
      rcases currentRound_heard nodeId numReplicas maxInstances earlier with h0 | ⟨q,hq,hround⟩
      · rw [hs, hmax] at h0
        cases h0
      · have hlt : q < s.nextProposal := by
          rcases hq with hq | hq
          · rw [trace_append, pairwise_append] at hpair
            refine hpair.2.2 q hq _ ?_
            rw [trace, hs]
            exact mem_append_left _ hp
          · exact hnack earlier c later rfl _ (hs ▸ hp) q hq
        rw [hs, hmax] at hround
        rcases hlt with hlt | ⟨heq,-⟩
        · rw [hzero] at hlt
          exact absurd hlt UInt32.not_lt_zero
        · rw [hzero, hround] at heq
          cases heq
    | nacks hno _ _ _ _ | quiet hno _ _ _ => exact hno hi
  · intro h
    refine ⟨issued_increasing h,?_⟩
    rintro earlier c later rfl p hp q hq
    have hfirst : Along step RoundLeft (.new nodeId numReplicas maxInstances) (earlier++[c]) := by
      have hsplit : earlier++c::later = (earlier++[c])++later := by simp
      rw [hsplit] at h
      exact ((along_append _ _ _ _ _).mp h).1
    exact issued_above hfirst hp (.inr hq)

end

/-- A NACK reports the last round; the next election starts at round zero. -/
def nackLast : Call :=
  .handleMessage (view (Msg.nack ⟨1,3,7⟩ ⟨0xFFFFFFFF,1,0⟩).serialize fun _ => 0) 16

theorem election_below_nack : nacked nackLast = [⟨0xFFFFFFFF,1,0⟩] ∧
    issued (run step (.new 0 3 8) [nackLast]) (.startLeaderElection 7) = [⟨0,0,0⟩] ∧
    ¬ (⟨0xFFFFFFFF,1,0⟩ : ProposalNum) < ⟨0,0,0⟩ := by
  decide +kernel

end SimBricks.PaxosRounds
