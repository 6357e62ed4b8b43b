import SimBricks.Hcop.PaxosProto
import SimBricks.Library.Table

/-!
# The Paxos replica of `paxos_state.cc`

One call of the replica returns its next state, the messages it appends to
the output vector and its status. Message data stays the structure it is
copied from; `OutMessage.data` gives the bytes. The exception callback and
the leader id are telemetry and read by no handler.
-/

set_option autoImplicit false

namespace SimBricks.PaxosState
open Library Library.Bytes PaxosProto

structure InstanceState where
  highestPromised : ProposalNum := .null
  acceptedProposal : ProposalNum := .null
  acceptedValueLen : UInt16 := 0
  acceptedValue : Value := zeroValue
  isCommitted : Bool := false
  committedValueLen : UInt16 := 0
  committedValue : Value := zeroValue
  deriving DecidableEq

structure ProposerInstanceState where
  proposal : ProposalNum := .null
  valueLen : UInt16 := 0
  value : Value := zeroValue
  promiseCount : UInt16 := 0
  highestAcceptedInPromises : ProposalNum := .null
  highestAcceptedValueLen : UInt16 := 0
  highestAcceptedValue : Value := zeroValue
  acceptedCount : UInt16 := 0
  committed : Bool := false
  deriving DecidableEq

inductive PaxosStatus where
  | kOk | kInstanceOverflow | kAlreadyCommitted | kValueTooLarge | kInvalidMessage
  deriving DecidableEq, Repr

def kBroadcast : UInt8 := 255

structure OutMessage where
  destId : UInt8
  msg : Msg
  deriving DecidableEq

def OutMessage.data (m : OutMessage) : List UInt8 := m.msg.serialize

structure PaxosNode where
  nodeId : UInt8
  numReplicas : UInt16
  quorum : UInt16
  currentRound : UInt32
  maxInstances : UInt32
  instances : Table UInt32 InstanceState
  proposerState : Table UInt32 ProposerInstanceState

structure Outcome where
  node : PaxosNode
  out : List OutMessage
  status : PaxosStatus

/-! The parts of a handler that write one instance, shared by the node and
by the replica without capacity that abstracts it. -/

namespace InstanceState

def commit (inst : InstanceState) (len : UInt16) (value : Value) : InstanceState := { inst with
    isCommitted := true
    committedValueLen := len
    committedValue := memcpy inst.committedValue value (clampLen len).toNat }

def accept (inst : InstanceState) (p : ProposalNum) (len : UInt16) (value : Value) :
    InstanceState :=
  { inst with
    highestPromised := p
    acceptedProposal := p
    acceptedValueLen := clampLen len
    acceptedValue := memcpy inst.acceptedValue value (clampLen len).toNat }

end InstanceState

namespace ProposerInstanceState

def propose (ps : ProposerInstanceState) (p : ProposalNum) (len : UInt16) (value : Value) :
    ProposerInstanceState :=
  { ps with
    proposal := p
    valueLen := len
    value := memcpy ps.value value len.toNat
    acceptedCount := 0
    committed := false }

def startLeaderElection (ps : ProposerInstanceState) (p : ProposalNum) : ProposerInstanceState :=
  { ps with
    proposal := p
    promiseCount := 0
    highestAcceptedInPromises := .null
    highestAcceptedValueLen := 0
    acceptedCount := 0
    committed := false }

def Raises (ps : ProposerInstanceState) (acc : ProposalNum) : Prop :=
  ¬ acc.isNull ∧ ps.highestAcceptedInPromises < acc
  deriving Decidable

def promised (ps : ProposerInstanceState) (acc : ProposalNum) (len : UInt16) (value : Value) :
    ProposerInstanceState :=
  if ps.Raises acc then
    { ps with
      promiseCount := ps.promiseCount+1
      highestAcceptedInPromises := acc
      highestAcceptedValueLen := len
      highestAcceptedValue := memcpy ps.highestAcceptedValue value (clampLen len).toNat }
  else { ps with promiseCount := ps.promiseCount+1 }

def useLen (ps : ProposerInstanceState) : UInt16 :=
  if ps.highestAcceptedInPromises.isNull then ps.valueLen else ps.highestAcceptedValueLen

def useValue (ps : ProposerInstanceState) : Value :=
  if ps.highestAcceptedInPromises.isNull then ps.value else ps.highestAcceptedValue

section
variable (ps : ProposerInstanceState) (acc : ProposalNum) (len : UInt16) (value : Value)

@[simp] lemma promised_proposal : (ps.promised acc len value).proposal = ps.proposal := by
  unfold promised
  split <;> rfl

@[simp] lemma promised_promiseCount :
    (ps.promised acc len value).promiseCount = ps.promiseCount+1 := by
  unfold promised
  split <;> rfl

@[simp] lemma promised_acceptedCount :
    (ps.promised acc len value).acceptedCount = ps.acceptedCount := by
  unfold promised
  split <;> rfl

@[simp] lemma promised_committed : (ps.promised acc len value).committed = ps.committed := by
  unfold promised
  split <;> rfl

lemma promised_highest :
    ps.highestAcceptedInPromises ≤ (ps.promised acc len value).highestAcceptedInPromises ∧
    acc ≤ (ps.promised acc len value).highestAcceptedInPromises := by
  unfold promised
  by_cases h : ps.Raises acc
  · rw [if_pos h]
    exact ⟨h.2.le,le_rfl⟩
  · rw [if_neg h]
    refine ⟨le_rfl,fun hlt => ?_⟩
    refine h ⟨fun hnull => ?_,hlt⟩
    rw [ProposalNum.isNull_iff_key] at hnull
    rw [ProposalNum.lt_iff_key, hnull] at hlt
    exact absurd hlt (Nat.not_lt_zero _)

lemma promised_use (h : ¬ ps.Raises acc) :
    (ps.promised acc len value).useLen = ps.useLen ∧
    (ps.promised acc len value).useValue = ps.useValue := by
  unfold promised
  rw [if_neg h]
  exact ⟨rfl,rfl⟩

end

end ProposerInstanceState

/-! Message builders. Each copies into a zeroed structure. -/

def makePromise (hdr : MsgHeader) (dest : UInt8) (inst : InstanceState) : OutMessage :=
  ⟨dest,.promise hdr inst.highestPromised inst.acceptedProposal inst.acceptedValueLen
    (memcpy zeroValue inst.acceptedValue inst.acceptedValueLen.toNat)⟩

def makeAccepted (hdr : MsgHeader) (dest : UInt8) (p : ProposalNum) (len : UInt16)
    (value : Value) : OutMessage :=
  ⟨dest,.accepted hdr p (clampLen len) (memcpy zeroValue value (clampLen len).toNat)⟩

def makeLearn (hdr : MsgHeader) (dest : UInt8) (len : UInt16) (value : Value) : OutMessage :=
  ⟨dest,.learn hdr (clampLen len) (memcpy zeroValue value (clampLen len).toNat)⟩

def makeNack (hdr : MsgHeader) (dest : UInt8) (highest : ProposalNum) : OutMessage :=
  ⟨dest,.nack hdr highest⟩

def makeAcceptBroadcast (hdr : MsgHeader) (p : ProposalNum) (len : UInt16) (value : Value) :
    OutMessage :=
  ⟨kBroadcast,.accept hdr p (clampLen len) (memcpy zeroValue value (clampLen len).toNat)⟩

def makePrepareBroadcast (hdr : MsgHeader) (p : ProposalNum) : OutMessage :=
  ⟨kBroadcast,.prepare hdr p⟩

/-- Learn to every replica but `self`, in the order of the loop. -/
def learnOthers (hdr : MsgHeader) (len : UInt16) (value : Value) : List OutMessage :=
  ((List.range hdr.numReplicas.toNat).filter (· ≠ hdr.senderId.toNat)).map
    fun i => makeLearn hdr (UInt8.ofNat i) len value

namespace PaxosNode

def new (nodeId : UInt8) (numReplicas : UInt16) (maxInstances : UInt32) : PaxosNode where
  nodeId
  numReplicas
  quorum := numReplicas/2+1
  currentRound := 0
  maxInstances
  instances := ∅
  proposerState := ∅

def header (s : PaxosNode) (id : UInt32) : MsgHeader := ⟨s.nodeId,s.numReplicas,id⟩

def putInstance (s : PaxosNode) (id : UInt32) (inst : InstanceState) : PaxosNode :=
  { s with instances := s.instances.insert id inst }

def putProposer (s : PaxosNode) (id : UInt32) (ps : ProposerInstanceState) : PaxosNode :=
  { s with proposerState := s.proposerState.insert id ps }

def getOrCreateInstance (s : PaxosNode) (id : UInt32) : Option (InstanceState × PaxosNode) :=
  match s.instances.lookup id with
  | some inst => some (inst,s)
  | none =>
    if s.maxInstances.toNat ≤ Table.size s.instances then none
    else some ({},s.putInstance id {})

def nextRound (s : PaxosNode) : UInt32 := s.currentRound+1

def nextProposal (s : PaxosNode) : ProposalNum := ⟨s.nextRound,s.nodeId.toUInt16,0⟩

def committedAt (s : PaxosNode) (id : UInt32) : Bool :=
  match s.instances.lookup id with
  | some inst => inst.isCommitted
  | none => false

def propose (s : PaxosNode) (id : UInt32) (value : Value) (len : UInt16) : Outcome :=
  if kMaxValueSize < len.toNat then ⟨s,[],.kValueTooLarge⟩
  else if s.committedAt id then ⟨s,[],.kAlreadyCommitted⟩
  else match s.getOrCreateInstance id with
  | none => ⟨s,[],.kInstanceOverflow⟩
  | some (_,s) =>
    let p := s.nextProposal
    let ps := (s.proposerState.lookup id).getD {}
    ⟨{ s.putProposer id (ps.propose p len value) with currentRound := s.nextRound },
      [makeAcceptBroadcast (s.header id) p len value],.kOk⟩

def startLeaderElection (s : PaxosNode) (id : UInt32) : Outcome :=
  match s.getOrCreateInstance id with
  | none => ⟨s,[],.kInstanceOverflow⟩
  | some (_,s) =>
    let p := s.nextProposal
    let ps := (s.proposerState.lookup id).getD {}
    ⟨{ s.putProposer id (ps.startLeaderElection p) with currentRound := s.nextRound },
      [makePrepareBroadcast (s.header id) p],.kOk⟩

def handlePrepare (s : PaxosNode) (hdr : MsgHeader) (p : ProposalNum) : Outcome :=
  match s.getOrCreateInstance hdr.instanceId with
  | none => ⟨s,[],.kInstanceOverflow⟩
  | some (inst,s) =>
    if inst.highestPromised < p then
      let inst := { inst with highestPromised := p }
      ⟨s.putInstance hdr.instanceId inst,
        [makePromise (s.header hdr.instanceId) hdr.senderId inst],.kOk⟩
    else ⟨s,[makeNack (s.header hdr.instanceId) hdr.senderId inst.highestPromised],.kOk⟩

def handlePromise (s : PaxosNode) (hdr : MsgHeader) (p acc : ProposalNum) (len : UInt16)
    (value : Value) : Outcome :=
  match s.proposerState.lookup hdr.instanceId with
  | none => ⟨s,[],.kOk⟩
  | some ps =>
    if ¬ p.same ps.proposal then ⟨s,[],.kOk⟩  -- stale promise
    else
      let ps := ps.promised acc len value
      if s.quorum ≤ ps.promiseCount then
        ⟨s.putProposer hdr.instanceId { ps with acceptedCount := 0 },
          [makeAcceptBroadcast (s.header hdr.instanceId) ps.proposal ps.useLen ps.useValue],.kOk⟩
      else ⟨s.putProposer hdr.instanceId ps,[],.kOk⟩

def handleAccept (s : PaxosNode) (hdr : MsgHeader) (p : ProposalNum) (len : UInt16)
    (value : Value) : Outcome :=
  match s.getOrCreateInstance hdr.instanceId with
  | none => ⟨s,[],.kInstanceOverflow⟩
  | some (inst,s) =>
    if inst.isCommitted then
      ⟨s,[makeLearn (s.header hdr.instanceId) hdr.senderId inst.committedValueLen
        inst.committedValue],.kAlreadyCommitted⟩
    else if inst.highestPromised ≤ p then
      ⟨s.putInstance hdr.instanceId (inst.accept p len value),
        [makeAccepted (s.header hdr.instanceId) hdr.senderId p len value],.kOk⟩
    else ⟨s,[makeNack (s.header hdr.instanceId) hdr.senderId inst.highestPromised],.kOk⟩

/-- The instance log entry of a value that reached its quorum; a full log
keeps no entry. -/
def recordCommit (s : PaxosNode) (id : UInt32) (len : UInt16) (value : Value) : PaxosNode :=
  match s.getOrCreateInstance id with
  | none => s
  | some (inst,s) => s.putInstance id (inst.commit len value)

def handleAccepted (s : PaxosNode) (hdr : MsgHeader) (p : ProposalNum) (len : UInt16)
    (value : Value) : Outcome :=
  match s.proposerState.lookup hdr.instanceId with
  | none => ⟨s,[],.kOk⟩
  | some ps =>
    if ¬ p.same ps.proposal then ⟨s,[],.kOk⟩  -- stale
    else if ps.committed then ⟨s,[],.kAlreadyCommitted⟩
    else
      let ps := { ps with acceptedCount := ps.acceptedCount+1 }
      if s.quorum ≤ ps.acceptedCount then
        let s := s.putProposer hdr.instanceId { ps with committed := true }
        ⟨s.recordCommit hdr.instanceId len value,
          learnOthers (s.header hdr.instanceId) len value,.kOk⟩
      else ⟨s.putProposer hdr.instanceId ps,[],.kOk⟩

def handleLearn (s : PaxosNode) (hdr : MsgHeader) (len : UInt16) (value : Value) : Outcome :=
  match s.getOrCreateInstance hdr.instanceId with
  | none => ⟨s,[],.kInstanceOverflow⟩
  | some (inst,s) =>
    if inst.isCommitted then ⟨s,[],.kOk⟩
    else ⟨s.putInstance hdr.instanceId (inst.commit len value),[],.kOk⟩

def handleNack (s : PaxosNode) (highestSeen : ProposalNum) : Outcome :=
  if s.currentRound ≤ highestSeen.round then
    ⟨{ s with currentRound := highestSeen.round },[],.kOk⟩
  else ⟨s,[],.kOk⟩

def handle (s : PaxosNode) : Msg → Outcome
  | .prepare hdr p => s.handlePrepare hdr p
  | .promise hdr p acc len value => s.handlePromise hdr p acc len value
  | .accept hdr p len value => s.handleAccept hdr p len value
  | .accepted hdr p len value => s.handleAccepted hdr p len value
  | .learn hdr len value => s.handleLearn hdr len value
  | .nack _ highestSeen => s.handleNack highestSeen

def handleMessage (s : PaxosNode) (data : Memory) (len : ℕ) : Outcome :=
  match parse data len with
  | none => ⟨s,[],.kInvalidMessage⟩
  | some m => s.handle m

lemma getOrCreateInstance_cases {s t : PaxosNode} {id : UInt32} {x : InstanceState}
    (h : s.getOrCreateInstance id = some (x,t)) : (s.instances.lookup id = some x ∧ t = s) ∨
    (s.instances.lookup id = none ∧ Table.size s.instances < s.maxInstances.toNat ∧ x = {} ∧
      t = s.putInstance id {}) := by
  unfold getOrCreateInstance at h
  split at h
  · next hl =>
    cases h
    exact .inl ⟨hl,rfl⟩
  · next hl =>
    split_ifs at h with hm
    cases h
    exact .inr ⟨hl,not_le.mp hm,rfl,rfl⟩

lemma handleMessage_serialize (s : PaxosNode) (m : Msg) (beyond : Memory) :
    s.handleMessage (view m.serialize beyond) m.serialize.length = s.handle m := by
  rw [handleMessage, parse_serialize]

end PaxosNode

def needsInstance : Msg → Bool
  | .prepare _ _ | .accept _ _ _ _ | .learn _ _ _ => true
  | .promise _ _ _ _ _ | .accepted _ _ _ _ | .nack _ _ => false

inductive Handled (s : PaxosNode) : Msg → Outcome → Prop where
  | full {m : Msg} (hm : needsInstance m)
      (hg : s.getOrCreateInstance m.hdr.instanceId = none) :
      Handled s m ⟨s,[],.kInstanceOverflow⟩
  | promise (hdr : MsgHeader) (p : ProposalNum) {x : InstanceState} {t : PaxosNode}
      (hg : s.getOrCreateInstance hdr.instanceId = some (x,t)) (h : x.highestPromised < p) :
      Handled s (.prepare hdr p)
        ⟨t.putInstance hdr.instanceId { x with highestPromised := p },
          [makePromise (t.header hdr.instanceId) hdr.senderId { x with highestPromised := p }],
          .kOk⟩
  | refuse {m : Msg} {x : InstanceState} {t : PaxosNode} (hm : needsInstance m)
      (hg : s.getOrCreateInstance m.hdr.instanceId = some (x,t)) :
      Handled s m
        ⟨t,[makeNack (t.header m.hdr.instanceId) m.hdr.senderId x.highestPromised],.kOk⟩
  | inform (hdr : MsgHeader) (p : ProposalNum) (len : UInt16) (value : Value)
      {x : InstanceState} {t : PaxosNode}
      (hg : s.getOrCreateInstance hdr.instanceId = some (x,t)) (hc : x.isCommitted) :
      Handled s (.accept hdr p len value)
        ⟨t,[makeLearn (t.header hdr.instanceId) hdr.senderId x.committedValueLen
          x.committedValue],.kAlreadyCommitted⟩
  | accept (hdr : MsgHeader) (p : ProposalNum) (len : UInt16) (value : Value)
      {x : InstanceState} {t : PaxosNode}
      (hg : s.getOrCreateInstance hdr.instanceId = some (x,t)) (h : x.highestPromised ≤ p) :
      Handled s (.accept hdr p len value)
        ⟨t.putInstance hdr.instanceId (x.accept p len value),
          [makeAccepted (t.header hdr.instanceId) hdr.senderId p len value],.kOk⟩
  | known (hdr : MsgHeader) (len : UInt16) (value : Value) {x : InstanceState} {t : PaxosNode}
      (hg : s.getOrCreateInstance hdr.instanceId = some (x,t)) :
      Handled s (.learn hdr len value) ⟨t,[],.kOk⟩
  | learn (hdr : MsgHeader) (len : UInt16) (value : Value) {x : InstanceState} {t : PaxosNode}
      (hg : s.getOrCreateInstance hdr.instanceId = some (x,t)) (hc : x.isCommitted = false) :
      Handled s (.learn hdr len value)
        ⟨t.putInstance hdr.instanceId (x.commit len value),[],.kOk⟩
  | quiet {m : Msg} (status : PaxosStatus) (hm : needsInstance m = false)
      (hs : status ≠ .kInstanceOverflow) : Handled s m ⟨s,[],status⟩
  | count (hdr : MsgHeader) (p acc : ProposalNum) (len : UInt16) (value : Value)
      {ps : ProposerInstanceState} (hps : s.proposerState.lookup hdr.instanceId = some ps)
      (hp : p.same ps.proposal) (hq : ¬ s.quorum ≤ (ps.promised acc len value).promiseCount) :
      Handled s (.promise hdr p acc len value)
        ⟨s.putProposer hdr.instanceId (ps.promised acc len value),[],.kOk⟩
  | lead (hdr : MsgHeader) (p acc : ProposalNum) (len : UInt16) (value : Value)
      {ps : ProposerInstanceState} (hps : s.proposerState.lookup hdr.instanceId = some ps)
      (hp : p.same ps.proposal) (hq : s.quorum ≤ (ps.promised acc len value).promiseCount) :
      Handled s (.promise hdr p acc len value)
        ⟨s.putProposer hdr.instanceId { ps.promised acc len value with acceptedCount := 0 },
          [makeAcceptBroadcast (s.header hdr.instanceId) (ps.promised acc len value).proposal
            (ps.promised acc len value).useLen (ps.promised acc len value).useValue],.kOk⟩
  | tally (hdr : MsgHeader) (p : ProposalNum) (len : UInt16) (value : Value)
      {ps : ProposerInstanceState} (hps : s.proposerState.lookup hdr.instanceId = some ps)
      (hp : p.same ps.proposal) (hc : ps.committed = false)
      (hq : ¬ s.quorum ≤ ps.acceptedCount+1) :
      Handled s (.accepted hdr p len value)
        ⟨s.putProposer hdr.instanceId { ps with acceptedCount := ps.acceptedCount+1 },[],.kOk⟩
  | commit (hdr : MsgHeader) (p : ProposalNum) (len : UInt16) (value : Value)
      {ps : ProposerInstanceState} (hps : s.proposerState.lookup hdr.instanceId = some ps)
      (hp : p.same ps.proposal) (hc : ps.committed = false) (hq : s.quorum ≤ ps.acceptedCount+1) :
      Handled s (.accepted hdr p len value)
        ⟨(s.putProposer hdr.instanceId { ps with
            acceptedCount := ps.acceptedCount+1, committed := true }).recordCommit
          hdr.instanceId len value,
          learnOthers (s.header hdr.instanceId) len value,.kOk⟩
  | bump (hdr : MsgHeader) (q : ProposalNum) (h : s.currentRound ≤ q.round) :
      Handled s (.nack hdr q) ⟨{ s with currentRound := q.round },[],.kOk⟩

open PaxosNode

lemma handle_handled (s : PaxosNode) (m : Msg) : Handled s m (s.handle m) := by
  cases m with
  | prepare hdr p =>
    simp only [handle, handlePrepare]
    cases hg : s.getOrCreateInstance hdr.instanceId with
    | none => exact .full rfl hg
    | some =>
      dsimp only
      split_ifs with h
      · exact .promise hdr p hg h
      · exact .refuse (m := .prepare hdr p) rfl hg
  | promise hdr p acc len value =>
    simp only [handle, handlePromise]
    cases hps : s.proposerState.lookup hdr.instanceId with
    | none => exact .quiet _ rfl (by decide)
    | some =>
      dsimp only
      split_ifs with hp hq
      · exact .lead hdr p acc len value hps hp hq
      · exact .count hdr p acc len value hps hp hq
      · exact .quiet _ rfl (by decide)
  | accept hdr p len value =>
    simp only [handle, handleAccept]
    cases hg : s.getOrCreateInstance hdr.instanceId with
    | none => exact .full rfl hg
    | some =>
      dsimp only
      split_ifs with hc h
      · exact .inform hdr p len value hg hc
      · exact .accept hdr p len value hg h
      · exact .refuse (m := .accept hdr p len value) rfl hg
  | accepted hdr p len value =>
    simp only [handle, handleAccepted]
    cases hps : s.proposerState.lookup hdr.instanceId with
    | none => exact .quiet _ rfl (by decide)
    | some =>
      dsimp only
      split_ifs with hp hc hq
      · exact .quiet _ rfl (by decide)
      · exact .commit hdr p len value hps hp (Bool.of_not_eq_true hc) hq
      · exact .tally hdr p len value hps hp (Bool.of_not_eq_true hc) hq
      · exact .quiet _ rfl (by decide)
  | learn hdr len value =>
    simp only [handle, handleLearn]
    cases hg : s.getOrCreateInstance hdr.instanceId with
    | none => exact .full rfl hg
    | some =>
      dsimp only
      split_ifs with hc
      · exact .known hdr len value hg
      · exact .learn hdr len value hg (Bool.of_not_eq_true hc)
  | nack hdr q =>
    simp only [handle, handleNack]
    split_ifs with h
    · exact .bump hdr q h
    · exact .quiet _ rfl (by decide)

inductive Call where
  | propose (id : UInt32) (value : Value) (len : UInt16)
  | startLeaderElection (id : UInt32)
  | handleMessage (data : Memory) (len : ℕ)

def perform (s : PaxosNode) : Call → Outcome
  | .propose id value len => s.propose id value len
  | .startLeaderElection id => s.startLeaderElection id
  | .handleMessage data len => s.handleMessage data len

def step (s : PaxosNode) (c : Call) : PaxosNode := (perform s c).node

def emit (s : PaxosNode) (c : Call) : List OutMessage := (perform s c).out

end SimBricks.PaxosState
