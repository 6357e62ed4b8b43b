import SimBricks.Hcop.PaxosState

/-!
# The replica without capacity

An untracked instance reads as a fresh one, so the abstract replica has a
state for every instance and no table size. Every call of the node is one
effect of the replica it stands for; refused, stale and overflowing calls
are idle. Protocol arguments read the effects and never a handler.
-/

set_option autoImplicit false

namespace SimBricks.PaxosReplica
open Library Library.Bytes PaxosProto PaxosState Function

structure Replica where
  nodeId : UInt8
  numReplicas : UInt16
  quorum : UInt16
  round : UInt32
  inst : UInt32 → InstanceState
  prop : UInt32 → Option ProposerInstanceState

inductive Act where
  | propose (id : UInt32) (value : Value) (len : UInt16)
  | startLeaderElection (id : UInt32)
  | receive (m : Msg)

namespace Replica

def header (r : Replica) (id : UInt32) : MsgHeader := ⟨r.nodeId,r.numReplicas,id⟩

def nextProposal (r : Replica) : ProposalNum := ⟨r.round+1,r.nodeId.toUInt16,0⟩

def setInst (r : Replica) (id : UInt32) (x : InstanceState) : Replica :=
  { r with inst := update r.inst id x }

def setProp (r : Replica) (id : UInt32) (ps : ProposerInstanceState) : Replica :=
  { r with prop := update r.prop id (some ps) }

def begin (r : Replica) (id : UInt32) (ps : ProposerInstanceState) : Replica :=
  { r.setProp id ps with round := r.round+1 }

def vow (r : Replica) (id : UInt32) (p : ProposalNum) : InstanceState :=
  { r.inst id with highestPromised := p }

end Replica

inductive Effect (r : Replica) : Act → Replica → List OutMessage → Prop where
  | idle (a : Act) : Effect r a r []
  | propose (id : UInt32) (value : Value) (len : UInt16) (hl : len.toNat ≤ 128)
      (hc : (r.inst id).isCommitted = false) :
      Effect r (.propose id value len)
        (r.begin id (((r.prop id).getD {}).propose r.nextProposal len value))
        [makeAcceptBroadcast (r.header id) r.nextProposal len value]
  | elect (id : UInt32) : Effect r (.startLeaderElection id)
        (r.begin id (((r.prop id).getD {}).startLeaderElection r.nextProposal))
        [makePrepareBroadcast (r.header id) r.nextProposal]
  | promise (hdr : MsgHeader) (p : ProposalNum)
      (h : (r.inst hdr.instanceId).highestPromised < p) :
      Effect r (.receive (.prepare hdr p))
        (r.setInst hdr.instanceId (r.vow hdr.instanceId p))
        [makePromise (r.header hdr.instanceId) hdr.senderId (r.vow hdr.instanceId p)]
  | refuse (m : Msg) : Effect r (.receive m) r
        [makeNack (r.header m.hdr.instanceId) m.hdr.senderId
          (r.inst m.hdr.instanceId).highestPromised]
  | count (hdr : MsgHeader) (p acc : ProposalNum) (len : UInt16) (value : Value)
      (ps : ProposerInstanceState) (hps : r.prop hdr.instanceId = some ps)
      (hp : p.same ps.proposal) (hq : ¬ r.quorum ≤ (ps.promised acc len value).promiseCount) :
      Effect r (.receive (.promise hdr p acc len value))
        (r.setProp hdr.instanceId (ps.promised acc len value)) []
  | lead (hdr : MsgHeader) (p acc : ProposalNum) (len : UInt16) (value : Value)
      (ps : ProposerInstanceState) (hps : r.prop hdr.instanceId = some ps)
      (hp : p.same ps.proposal) (hq : r.quorum ≤ (ps.promised acc len value).promiseCount) :
      Effect r (.receive (.promise hdr p acc len value))
        (r.setProp hdr.instanceId { ps.promised acc len value with acceptedCount := 0 })
        [makeAcceptBroadcast (r.header hdr.instanceId) (ps.promised acc len value).proposal
          (ps.promised acc len value).useLen (ps.promised acc len value).useValue]
  | inform (hdr : MsgHeader) (p : ProposalNum) (len : UInt16) (value : Value)
      (hc : (r.inst hdr.instanceId).isCommitted) :
      Effect r (.receive (.accept hdr p len value)) r
        [makeLearn (r.header hdr.instanceId) hdr.senderId
          (r.inst hdr.instanceId).committedValueLen (r.inst hdr.instanceId).committedValue]
  | accept (hdr : MsgHeader) (p : ProposalNum) (len : UInt16) (value : Value)
      (h : (r.inst hdr.instanceId).highestPromised ≤ p) :
      Effect r (.receive (.accept hdr p len value))
        (r.setInst hdr.instanceId ((r.inst hdr.instanceId).accept p len value))
        [makeAccepted (r.header hdr.instanceId) hdr.senderId p len value]
  | tally (hdr : MsgHeader) (p : ProposalNum) (len : UInt16) (value : Value)
      (ps : ProposerInstanceState) (hps : r.prop hdr.instanceId = some ps)
      (hp : p.same ps.proposal) (hc : ps.committed = false) (hq : ¬ r.quorum ≤ ps.acceptedCount+1) :
      Effect r (.receive (.accepted hdr p len value))
        (r.setProp hdr.instanceId { ps with acceptedCount := ps.acceptedCount+1 }) []
  | commit (hdr : MsgHeader) (p : ProposalNum) (len : UInt16) (value : Value)
      (ps : ProposerInstanceState) (hps : r.prop hdr.instanceId = some ps)
      (hp : p.same ps.proposal) (hc : ps.committed = false) (hq : r.quorum ≤ ps.acceptedCount+1) :
      Effect r (.receive (.accepted hdr p len value))
        ((r.setProp hdr.instanceId
            { ps with acceptedCount := ps.acceptedCount+1, committed := true }).setInst
          hdr.instanceId ((r.inst hdr.instanceId).commit len value))
        (learnOthers (r.header hdr.instanceId) len value)
  | learn (hdr : MsgHeader) (len : UInt16) (value : Value)
      (hc : (r.inst hdr.instanceId).isCommitted = false) :
      Effect r (.receive (.learn hdr len value))
        (r.setInst hdr.instanceId ((r.inst hdr.instanceId).commit len value)) []
  | bump (hdr : MsgHeader) (q : ProposalNum) (h : r.round ≤ q.round) :
      Effect r (.receive (.nack hdr q)) { r with round := q.round } []

/-! A request opens a phase of a proposal; a reply answers one. -/

inductive Phase where
  | one | two
  deriving DecidableEq

def request : Msg → Option (Phase × UInt32 × ProposalNum)
  | .prepare hdr p => some (.one,hdr.instanceId,p)
  | .accept hdr p _ _ => some (.two,hdr.instanceId,p)
  | _ => none

def reply : Msg → Option (Phase × UInt32 × ProposalNum)
  | .promise hdr p _ _ _ => some (.one,hdr.instanceId,p)
  | .accepted hdr p _ _ => some (.two,hdr.instanceId,p)
  | _ => none

variable {m : OutMessage}

lemma learnOthers_learn {hdr : MsgHeader} {len : UInt16} {value : Value}
    (h : m ∈ learnOthers hdr len value) :
    m.msg = .learn hdr (clampLen len) (memcpy zeroValue value (clampLen len).toNat) := by
  obtain ⟨i,-,rfl⟩ := List.mem_map.mp h
  rfl

structure SameVote (x y : InstanceState) : Prop where
  promised : y.highestPromised = x.highestPromised
  proposal : y.acceptedProposal = x.acceptedProposal
  len : y.acceptedValueLen = x.acceptedValueLen
  value : y.acceptedValue = x.acceptedValue

structure SameCommit (x y : InstanceState) : Prop where
  committed : y.isCommitted = x.isCommitted
  len : y.committedValueLen = x.committedValueLen
  value : y.committedValue = x.committedValue

section
variable {r t : Replica} {a : Act} {out : List OutMessage}

/-- Only a granted Prepare and a granted Accept touch the acceptor's fields,
and only these two put out a reply. -/
lemma Effect.acceptor (h : Effect r a t out) :
    ((∀ i, SameVote (r.inst i) (t.inst i)) ∧ ∀ m ∈ out, reply m.msg = none) ∨
    (∃ hdr p, a = .receive (.prepare hdr p) ∧
      (r.inst hdr.instanceId).highestPromised < p ∧
      t = r.setInst hdr.instanceId (r.vow hdr.instanceId p) ∧
      out = [makePromise (r.header hdr.instanceId) hdr.senderId (r.vow hdr.instanceId p)]) ∨
    (∃ hdr p len value, a = .receive (.accept hdr p len value) ∧
      (r.inst hdr.instanceId).highestPromised ≤ p ∧
      t = r.setInst hdr.instanceId ((r.inst hdr.instanceId).accept p len value) ∧
      out = [makeAccepted (r.header hdr.instanceId) hdr.senderId p len value]) := by
  have hcommit : ∀ (id : UInt32) (len : UInt16) (value : Value) (i : UInt32), SameVote (r.inst i)
      (update r.inst id ((r.inst id).commit len value) i) := by
    intro id len value
    rw [forall_update_iff r.inst fun i y => SameVote (r.inst i) y]
    exact ⟨⟨rfl,rfl,rfl,rfl⟩,fun _ _ => ⟨rfl,rfl,rfl,rfl⟩⟩
  cases h with
  | idle | propose | elect | refuse | count | lead | inform | tally | bump =>
    exact .inl ⟨fun i => ⟨rfl,rfl,rfl,rfl⟩,by
      simp [makeAcceptBroadcast, makePrepareBroadcast, makeNack, makeLearn, reply]⟩
  | promise hdr p h => exact .inr (.inl ⟨hdr,p,rfl,h,rfl,rfl⟩)
  | accept hdr p len value h => exact .inr (.inr ⟨hdr,p,len,value,rfl,h,rfl,rfl⟩)
  | commit hdr p len value =>
    refine .inl ⟨hcommit hdr.instanceId len value,fun m hm => ?_⟩
    rw [learnOthers_learn hm]
    rfl
  | learn hdr len value => exact .inl ⟨hcommit hdr.instanceId len value,by simp⟩

lemma Effect.log (h : Effect r a t out) :
    (∀ i, SameCommit (r.inst i) (t.inst i)) ∨
    (∃ hdr len value, a = .receive (.learn hdr len value) ∧
      (r.inst hdr.instanceId).isCommitted = false ∧
      t.inst = update r.inst hdr.instanceId ((r.inst hdr.instanceId).commit len value)) ∨
    (∃ hdr p len value ps, a = .receive (.accepted hdr p len value) ∧
      r.prop hdr.instanceId = some ps ∧ p.same ps.proposal ∧ ps.committed = false ∧
      r.quorum ≤ ps.acceptedCount+1 ∧
      t.inst = update r.inst hdr.instanceId
        ((r.inst hdr.instanceId).commit len value)) := by
  have hput : ∀ (id : UInt32) (x : InstanceState), SameCommit (r.inst id) x → ∀ i,
      SameCommit (r.inst i) (update r.inst id x i) := by
    intro id x hx
    rw [forall_update_iff r.inst fun i y => SameCommit (r.inst i) y]
    exact ⟨hx,fun _ _ => ⟨rfl,rfl,rfl⟩⟩
  cases h with
  | promise hdr p h | accept hdr p len value h => exact .inl (hput _ _ ⟨rfl,rfl,rfl⟩)
  | commit hdr p len value ps hps hp hc hq =>
    exact .inr (.inr ⟨hdr,p,len,value,ps,rfl,hps,hp,hc,hq,rfl⟩)
  | learn hdr len value hc => exact .inr (.inl ⟨hdr,len,value,rfl,hc,rfl⟩)
  | _ => exact .inl fun i => ⟨rfl,rfl,rfl⟩

variable {i : UInt32}

lemma Effect.committed_stays (h : Effect r a t out) (hi : (r.inst i).isCommitted) :
    (t.inst i).isCommitted := by
  have hput : ∀ {id : UInt32} {x : InstanceState}, x.isCommitted →
      (update r.inst id x i).isCommitted := by
    intro id x hx
    rw [update_apply]
    split_ifs
    · exact hx
    · exact hi
  rcases h.log with hsame | ⟨hdr,len,value,-,-,ht⟩ | ⟨hdr,p,len,value,_,-,-,-,-,-,ht⟩
  · rw [(hsame i).committed, hi]
  · rw [ht]
    exact hput rfl
  · rw [ht]
    exact hput rfl

lemma Effect.config (h : Effect r a t out) :
    t.nodeId = r.nodeId ∧ t.quorum = r.quorum ∧ t.numReplicas = r.numReplicas := by
  cases h <;> exact ⟨rfl,rfl,rfl⟩

lemma Effect.alone (h : Effect r a t out) (hm : m ∈ out)
    (hk : request m.msg ≠ none ∨ reply m.msg ≠ none) : out = [m] := by
  cases h with
  | commit =>
    rw [learnOthers_learn hm] at hk
    simp [request, reply] at hk
  | _ => simp_all

inductive Requested (r : Replica) : Act → OutMessage → Prop where
  | propose (id : UInt32) (value : Value) (len : UInt16) (hc : (r.inst id).isCommitted = false) :
      Requested r (.propose id value len)
        (makeAcceptBroadcast (r.header id) r.nextProposal len value)
  | elect (id : UInt32) :
      Requested r (.startLeaderElection id) (makePrepareBroadcast (r.header id) r.nextProposal)
  | lead (hdr : MsgHeader) (p acc : ProposalNum) (len : UInt16) (value : Value)
      (ps : ProposerInstanceState) (hps : r.prop hdr.instanceId = some ps)
      (hs : p.same ps.proposal) (hq : r.quorum ≤ (ps.promised acc len value).promiseCount) :
      Requested r (.receive (.promise hdr p acc len value))
        (makeAcceptBroadcast (r.header hdr.instanceId) ps.proposal
          (ps.promised acc len value).useLen (ps.promised acc len value).useValue)

def Begins : Act → Prop
  | .receive _ => False
  | _ => True

variable (h : Effect r a t out)
include h

lemma Effect.round_le (hw : Begins a → (r.round+1).toNat = r.round.toNat+1) :
    r.round.toNat ≤ t.round.toNat := by
  cases h with
  | propose | elect =>
    have := hw trivial
    change _ ≤ (r.round+1).toNat
    omega
  | bump hdr q h => exact UInt32.le_iff_toNat_le.mp h
  | _ => exact le_rfl

/-- One proposer entry is written at most: with the next number, or its own. -/
lemma Effect.put :
    t.prop = r.prop ∨ ∃ id new, t.prop = update r.prop id (some new) ∧ ((Begins a ∧ new.proposal =
    r.nextProposal ∧ t.round = r.round+1) ∨ ∃ old, r.prop id = some old ∧ new.proposal =
    old.proposal) := by
  cases h with
  | propose id | elect id => exact .inr ⟨id,_,rfl,.inl ⟨trivial,rfl,rfl⟩⟩
  | count hdr p acc len value old hold | lead hdr p acc len value old hold =>
    exact .inr ⟨_,_,rfl,.inr ⟨old,hold,by simp⟩⟩
  | tally hdr p len value old hold | commit hdr p len value old hold =>
    exact .inr ⟨_,_,rfl,.inr ⟨old,hold,rfl⟩⟩
  | _ => exact .inl rfl

lemma Effect.entry {ps : ProposerInstanceState} (hps : t.prop i = some ps) :
    (Begins a ∧ ps.proposal = r.nextProposal ∧ t.round = r.round+1) ∨
    (∃ old, r.prop i = some old ∧ ps.proposal = old.proposal) := by
  rcases h.put with hp | ⟨_,_,hp,hnew⟩
  · exact .inr ⟨ps,hp ▸ hps,rfl⟩
  · rw [hp, update_apply] at hps
    split_ifs at hps with hi
    · subst hi
      cases hps
      exact hnew
    · exact .inr ⟨ps,hps,rfl⟩

lemma Effect.stays {old : ProposerInstanceState} (hold : r.prop i = some old) :
    ∃ ps, t.prop i = some ps ∧
    (ps.proposal = old.proposal ∨ (Begins a ∧ ps.proposal = r.nextProposal)) := by
  rcases h.put with hp | ⟨_,new,hp,hnew⟩
  · exact ⟨old,by rw [hp, hold],.inl rfl⟩
  · rw [hp, update_apply]
    split_ifs with hi
    · subst hi
      refine ⟨new,rfl,?_⟩
      rcases hnew with ⟨hb,hn,-⟩ | ⟨x,hx,hn⟩
      · exact .inr ⟨hb,hn⟩
      · rw [hold] at hx
        cases hx
        exact .inl hn
    · exact ⟨old,hold,.inl rfl⟩

/-- Where a request comes from, and that it asks for the number of the entry. -/
lemma Effect.requested (hm : m ∈ out) {ph : Phase} {p : ProposalNum}
    (hk : request m.msg = some (ph,i,p)) :
    Requested r a m ∧ ∃ ps, t.prop i = some ps ∧ ps.proposal = p := by
  cases h with
  | propose id value len hl hc =>
    rw [List.mem_singleton.mp hm] at hk ⊢
    cases hk
    exact ⟨.propose id value len hc,_,update_self _ _ _,rfl⟩
  | elect id =>
    rw [List.mem_singleton.mp hm] at hk ⊢
    cases hk
    exact ⟨.elect id,_,update_self _ _ _,rfl⟩
  | lead hdr q acc len value ps hps hs hq =>
    rw [List.mem_singleton.mp hm, ProposerInstanceState.promised_proposal] at hk ⊢
    cases hk
    exact ⟨.lead hdr q acc len value ps hps hs hq,_,update_self _ _ _,by simp⟩
  | commit =>
    rw [learnOthers_learn hm] at hk
    cases hk
  | _ => simp_all [makePromise, makeNack, makeLearn, makeAccepted, request]

omit h

end

/-! ## The node refines the replica -/

end SimBricks.PaxosReplica

namespace SimBricks.PaxosState.PaxosNode
open Library Library.Bytes PaxosProto PaxosReplica

def inst (s : PaxosNode) (id : UInt32) : InstanceState := (s.instances.lookup id).getD {}

def view (s : PaxosNode) : Replica where
  nodeId := s.nodeId
  numReplicas := s.numReplicas
  quorum := s.quorum
  round := s.currentRound
  inst := s.inst
  prop id := s.proposerState.lookup id

/-- A proposer's instances are tracked, so a quorum is always logged. -/
def Logged (s : PaxosNode) : Prop := s.proposerState.keys ⊆ s.instances.keys

variable {id : UInt32} {x : InstanceState}

lemma Logged.tracked {s : PaxosNode} (hs : s.Logged) {ps : ProposerInstanceState}
    (h : s.proposerState.lookup id = some ps) : ∃ x, s.instances.lookup id = some x :=
  Finmap.mem_iff.mp (Finmap.mem_keys.mp (hs (Table.mem_keys_of_lookup h)))

@[simp] lemma view_inst (s : PaxosNode) (id : UInt32) : s.view.inst id = s.inst id := rfl
@[simp] lemma view_prop (s : PaxosNode) (id : UInt32) :
    s.view.prop id = s.proposerState.lookup id := rfl
@[simp] lemma view_header (s : PaxosNode) (id : UInt32) : s.view.header id = s.header id := rfl

lemma view_putInstance (s : PaxosNode) (id : UInt32) (x : InstanceState) :
    (s.putInstance id x).view = s.view.setInst id x := by
  simp only [view, Replica.setInst, putInstance, Replica.mk.injEq, true_and, and_true]
  funext j
  by_cases h : j = id <;> simp [inst, Function.update, h]

lemma view_putProposer (s : PaxosNode) (id : UInt32) (ps : ProposerInstanceState) :
    (s.putProposer id ps).view = s.view.setProp id ps := by
  simp only [view, Replica.setProp, putProposer, Replica.mk.injEq, true_and]
  refine ⟨rfl,?_⟩
  funext j
  by_cases h : j = id <;> simp [Function.update, h]

lemma view_begin (s : PaxosNode) (id : UInt32) (ps : ProposerInstanceState) :
    ({ s.putProposer id ps with currentRound := s.nextRound } : PaxosNode).view =
      s.view.begin id ps := by
  change { (s.putProposer id ps).view with round := s.nextRound } = _
  rw [view_putProposer]
  rfl

lemma committedAt_eq (s : PaxosNode) (id : UInt32) :
    s.committedAt id = (s.inst id).isCommitted := by
  unfold committedAt inst
  cases s.instances.lookup id <;> rfl

lemma getOrCreate_view {s t : PaxosNode} (h : s.getOrCreateInstance id = some (x,t)) :
    x = s.inst id ∧ t.view = s.view ∧ t.instances.lookup id = some x := by
  rcases getOrCreateInstance_cases h with ⟨hl,rfl⟩ | ⟨hl,-,rfl,rfl⟩
  · exact ⟨by simp [inst, hl],rfl,hl⟩
  · refine ⟨by simp [inst, hl],?_,by simp [putInstance]⟩
    rw [view_putInstance, Replica.setInst]
    have he : s.view.inst id = {} := by simp [inst, hl]
    rw [← he, Function.update_eq_self]

section
variable {s t : PaxosNode}

lemma header_of_view (h : t.view = s.view) (id : UInt32) : t.header id = s.view.header id := by
  rw [← h, view_header]

lemma nextProposal_of_view (h : t.view = s.view) : t.nextProposal = s.view.nextProposal := by
  rw [← h]
  rfl

end

lemma propose_effect (s : PaxosNode) (id : UInt32) (value : Value) (len : UInt16) :
    Effect s.view (.propose id value len) (s.propose id value len).node.view
    (s.propose id value len).out := by
  unfold propose
  split_ifs with hl hc
  · exact .idle _
  · exact .idle _
  · cases hg : s.getOrCreateInstance id with
    | none => exact .idle _
    | some xt =>
      obtain ⟨x,t⟩ := xt
      obtain ⟨-,hv,-⟩ := getOrCreate_view hg
      rw [committedAt_eq] at hc
      have hp : t.proposerState.lookup id = s.view.prop id := by rw [← hv, view_prop]
      simp only [view_begin, hv, header_of_view hv, nextProposal_of_view hv, hp]
      exact .propose id value len (by simpa [kMaxValueSize] using hl) (by simpa using hc)

lemma startLeaderElection_effect (s : PaxosNode) (id : UInt32) :
    Effect s.view (.startLeaderElection id) (s.startLeaderElection id).node.view
    (s.startLeaderElection id).out := by
  unfold startLeaderElection
  cases hg : s.getOrCreateInstance id with
  | none => exact .idle _
  | some xt =>
    obtain ⟨x,t⟩ := xt
    obtain ⟨-,hv,-⟩ := getOrCreate_view hg
    have hp : t.proposerState.lookup id = s.view.prop id := by rw [← hv, view_prop]
    simp only [view_begin, hv, header_of_view hv, nextProposal_of_view hv, hp]
    exact .elect id

lemma recordCommit_view {s : PaxosNode} (hx : s.instances.lookup id = some x) (len : UInt16)
    (value : Value) :
    (s.recordCommit id len value).view = s.view.setInst id ((s.inst id).commit len value) := by
  have hg : s.getOrCreateInstance id = some (x,s) := by simp [getOrCreateInstance, hx]
  obtain ⟨hi,-,-⟩ := getOrCreate_view hg
  simp [recordCommit, hg, view_putInstance, hi]

/-- The Accepted that completes a quorum writes the log entry of its instance. -/
lemma handleAccepted_quorum {s : PaxosNode} (hs : s.Logged) {hdr : MsgHeader} {p : ProposalNum}
    {ps : ProposerInstanceState} (hps : s.proposerState.lookup hdr.instanceId = some ps)
    (hp : p.same ps.proposal) (hc : ps.committed = false) (hq : s.quorum ≤ ps.acceptedCount+1)
    (len : UInt16) (value : Value) :
    (s.handle (.accepted hdr p len value)).node.view.inst hdr.instanceId =
    (s.inst hdr.instanceId).commit len value := by
  obtain ⟨x,hx⟩ := hs.tracked hps
  simp only [handle, handleAccepted, hps, if_neg (not_not_intro hp), hc, if_pos hq,
    Bool.false_eq_true, if_false, recordCommit_view (s := s.putProposer _ _) hx]
  exact Function.update_self _ _ _

lemma handle_effect {s : PaxosNode} (hs : s.Logged) (m : Msg) :
    Effect s.view (.receive m) (s.handle m).node.view (s.handle m).out := by
  have h := handle_handled s m
  generalize s.handle m = o at h
  cases h with
  | full => exact .idle _
  | promise hdr p hg h =>
    obtain ⟨rfl,hv,-⟩ := getOrCreate_view hg
    simp only [view_putInstance, hv, header_of_view hv]
    exact .promise hdr p h
  | refuse hm hg =>
    obtain ⟨rfl,hv,-⟩ := getOrCreate_view hg
    simp only [hv, header_of_view hv]
    exact .refuse m
  | inform hdr p len value hg hc =>
    obtain ⟨rfl,hv,-⟩ := getOrCreate_view hg
    simp only [hv, header_of_view hv]
    exact .inform hdr p len value hc
  | accept hdr p len value hg h =>
    obtain ⟨rfl,hv,-⟩ := getOrCreate_view hg
    simp only [view_putInstance, hv, header_of_view hv]
    exact .accept hdr p len value h
  | known hdr len value hg =>
    obtain ⟨-,hv,-⟩ := getOrCreate_view hg
    rw [hv]
    exact .idle _
  | learn hdr len value hg hc =>
    obtain ⟨rfl,hv,-⟩ := getOrCreate_view hg
    simp only [view_putInstance, hv]
    exact .learn hdr len value hc
  | quiet => exact .idle _
  | count hdr p acc len value hps hp hq =>
    rw [view_putProposer]
    exact Effect.count hdr p acc len value _ hps hp hq
  | lead hdr p acc len value hps hp hq =>
    rw [view_putProposer]
    exact Effect.lead hdr p acc len value _ hps hp hq
  | tally hdr p len value hps hp hc hq =>
    rw [view_putProposer]
    exact Effect.tally hdr p len value _ hps hp hc hq
  | commit hdr p len value hps hp hc hq =>
    obtain ⟨x,hx⟩ := hs.tracked hps
    rw [recordCommit_view (s := s.putProposer _ _) hx, view_putProposer]
    exact Effect.commit hdr p len value _ hps hp hc hq
  | bump hdr q h => exact .bump hdr q h

/-! ## Tables only grow -/

structure Extends (s t : PaxosNode) : Prop where
  keys : s.instances.keys ⊆ t.instances.keys
  bound : t.maxInstances = s.maxInstances
  proposer : ∀ id ∈ t.proposerState.keys, id ∈ s.proposerState.keys ∨ id ∈ t.instances.keys

lemma Extends.refl (s : PaxosNode) : Extends s s := ⟨fun _ h => h,rfl,fun _ h => .inl h⟩

lemma Extends.trans {s t u : PaxosNode} (h : Extends s t) (k : Extends t u) : Extends s u where
  keys := h.keys.trans k.keys
  bound := k.bound.trans h.bound
  proposer id hid := by
    rcases k.proposer id hid with hp | hi
    · rcases h.proposer id hp with hs | ht
      · exact .inl hs
      · exact .inr (k.keys ht)
    · exact .inr hi

lemma Extends.logged {s t : PaxosNode} (h : Extends s t) (hs : s.Logged) : t.Logged := by
  intro id hid
  rcases h.proposer id hid with hp | hi
  · exact h.keys (hs hp)
  · exact hi

lemma putInstance_extends (s : PaxosNode) (id : UInt32) (x : InstanceState) :
    Extends s (s.putInstance id x) := by
  refine ⟨?_,rfl,fun _ h => .inl h⟩
  rw [putInstance, Table.keys_insert]
  exact Finset.subset_insert _ _

lemma putProposer_extends {s : PaxosNode} (ps : ProposerInstanceState)
    (h : id ∈ s.proposerState.keys ∨ id ∈ s.instances.keys) (r : UInt32) :
    Extends s { s.putProposer id ps with currentRound := r } := by
  refine ⟨fun _ h => h,rfl,fun j hj => ?_⟩
  rw [putProposer, Table.keys_insert, Finset.mem_insert] at hj
  rcases hj with rfl | hj
  · exact h
  · exact .inl hj

lemma getOrCreate_extends {s t : PaxosNode} (h : s.getOrCreateInstance id = some (x,t)) :
    Extends s t ∧ id ∈ t.instances.keys := by
  obtain ⟨-,-,hx⟩ := getOrCreate_view h
  refine ⟨?_,Table.mem_keys_of_lookup hx⟩
  rcases getOrCreateInstance_cases h with ⟨-,rfl⟩ | ⟨-,-,-,rfl⟩
  · exact .refl t
  · exact putInstance_extends s id {}

lemma recordCommit_extends (s : PaxosNode) (id : UInt32) (len : UInt16) (value : Value) :
    Extends s (s.recordCommit id len value) := by
  unfold recordCommit
  cases hg : s.getOrCreateInstance id with
  | none => exact .refl s
  | some => exact (getOrCreate_extends hg).1.trans (putInstance_extends _ _ _)

lemma handle_extends (s : PaxosNode) (m : Msg) : Extends s (s.handle m).node := by
  have h := handle_handled s m
  generalize s.handle m = o at h
  cases h with
  | full | quiet => exact .refl s
  | refuse hm hg | inform hdr p len value hg hc | known hdr len value hg =>
    exact (getOrCreate_extends hg).1
  | promise hdr p hg => exact (getOrCreate_extends hg).1.trans (putInstance_extends _ _ _)
  | accept hdr p len value hg h | learn hdr len value hg hc =>
    exact (getOrCreate_extends hg).1.trans (putInstance_extends _ _ _)
  | count hdr p acc len value hps | lead hdr p acc len value hps | tally hdr p len value hps =>
    exact putProposer_extends _ (.inl (Table.mem_keys_of_lookup hps)) s.currentRound
  | commit hdr p len value hps =>
    exact (putProposer_extends _ (.inl (Table.mem_keys_of_lookup hps)) s.currentRound).trans
      (recordCommit_extends (s.putProposer _ _) _ _ _)
  | bump hdr q h => exact ⟨fun _ h => h,rfl,fun _ h => .inl h⟩

lemma perform_extends (s : PaxosNode) (c : Call) : Extends s (perform s c).node := by
  cases c with
  | propose id =>
    simp only [perform, propose]
    split_ifs
    · exact .refl s
    · exact .refl s
    · cases hg : s.getOrCreateInstance id with
      | none => exact .refl s
      | some =>
        obtain ⟨hx,hk⟩ := getOrCreate_extends hg
        exact hx.trans (putProposer_extends _ (.inr hk) _)
  | startLeaderElection id =>
    simp only [perform, startLeaderElection]
    cases hg : s.getOrCreateInstance id with
    | none => exact .refl s
    | some =>
      obtain ⟨hx,hk⟩ := getOrCreate_extends hg
      exact hx.trans (putProposer_extends _ (.inr hk) _)
  | handleMessage data len =>
    simp only [perform, handleMessage]
    cases parse data len with
    | none => exact .refl s
    | some m => exact handle_extends s m

def act : Call → Option Act
  | .propose id value len => some (.propose id value len)
  | .startLeaderElection id => some (.startLeaderElection id)
  | .handleMessage data len => (parse data len).map .receive

/-- Every call is one effect of the abstract replica. -/
lemma perform_effect {s : PaxosNode} (hs : s.Logged) (c : Call) :
    (act c = none ∧ (perform s c).node = s ∧ (perform s c).out = []) ∨
    ∃ a, act c = some a ∧ Effect s.view a (perform s c).node.view (perform s c).out := by
  cases c with
  | propose id value len => exact .inr ⟨_,rfl,propose_effect s id value len⟩
  | startLeaderElection id => exact .inr ⟨_,rfl,startLeaderElection_effect s id⟩
  | handleMessage data len =>
    simp only [act, perform, handleMessage]
    cases parse data len with
    | none => exact .inl ⟨rfl,rfl,rfl⟩
    | some m => exact .inr ⟨_,rfl,handle_effect hs m⟩

lemma step_logged (s : PaxosNode) (c : Call) (hs : s.Logged) : (step s c).Logged :=
  (perform_extends s c).logged hs

lemma new_logged (nodeId : UInt8) (numReplicas : UInt16) (maxInstances : UInt32) :
    (new nodeId numReplicas maxInstances).Logged := fun _ h => h

end SimBricks.PaxosState.PaxosNode
