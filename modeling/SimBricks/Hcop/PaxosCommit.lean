import SimBricks.Hcop.PaxosReplica

/-!
# Stability of a committed value

`HandleLearn` leaves a committed instance alone; `HandleAccepted` does not
look. The replica keeps its committed values exactly as long as no quorum
of Accepted completes for an instance committed with another value.
-/

set_option autoImplicit false

namespace SimBricks.PaxosCommit
open Library Library.Run Library.Bytes PaxosProto PaxosState Function
open PaxosReplica

def Keeps (x y : InstanceState) : Prop := x.isCommitted → y.isCommitted ∧
    y.committedValueLen = x.committedValueLen ∧ y.committedValue = x.committedValue

/-- Along the run no committed instance loses or changes its value. -/
def CommitStable (s : PaxosNode) (cs : List Call) : Prop :=
  ∀ earlier later rest, cs = earlier++later++rest →
    ∀ i, Keeps ((run step s earlier).inst i) ((run step s (earlier++later)).inst i)

/-- The bytes a commit would write are the ones already there. -/
def SameValue (x : InstanceState) (len : UInt16) (value : Value) : Prop :=
  x.committedValueLen = len ∧ ∀ j : Fin 128, j.val < (clampLen len).toNat →
  value j = x.committedValue j

/-- An Accepted that completes the quorum of a proposal whose instance is
already committed, with another value. -/
def Overwrites (s : PaxosNode) : Msg → Prop
  | .accepted hdr p len value => ∃ ps, s.proposerState.lookup hdr.instanceId = some ps ∧
      p.same ps.proposal ∧ ps.committed = false ∧ s.quorum ≤ ps.acceptedCount+1 ∧
      (s.inst hdr.instanceId).isCommitted ∧ ¬ SameValue (s.inst hdr.instanceId) len value
  | _ => False

def OverwritingCall (s : PaxosNode) : Call → Prop
  | .handleMessage data len => ∃ m, parse data len = some m ∧ Overwrites s m
  | _ => False

lemma Keeps.refl (x : InstanceState) : Keeps x x := fun h => ⟨h,rfl,rfl⟩

lemma Keeps.trans {x y z : InstanceState} (h : Keeps x y) (k : Keeps y z) : Keeps x z := by
  intro hx
  obtain ⟨hy,hyl,hyv⟩ := h hx
  obtain ⟨hz,hzl,hzv⟩ := k hy
  exact ⟨hz,hzl.trans hyl,hzv.trans hyv⟩

lemma keeps_commit_iff {x : InstanceState} (hx : x.isCommitted) (len : UInt16)
    (value : Value) : Keeps x (x.commit len value) ↔ SameValue x len value := by
  have hv : memcpy x.committedValue value (clampLen len).toNat = x.committedValue ↔
      ∀ j : Fin 128, j.val < (clampLen len).toNat → value j = x.committedValue j := by
    constructor
    · intro h j hj
      have := congrFun h j
      simpa [memcpy, hj] using this
    · intro h
      funext j
      by_cases hj : j.val < (clampLen len).toNat
      · simp [memcpy, hj, h j hj]
      · simp [memcpy, hj]
  constructor
  · intro h
    obtain ⟨-,hl,hw⟩ := h hx
    exact ⟨hl.symm,hv.mp hw⟩
  · rintro ⟨hl,hw⟩ -
    exact ⟨rfl,hl.symm,hv.mpr hw⟩

lemma handle_keeps {s : PaxosNode} (hs : s.Logged) {m : Msg} (h : ¬ Overwrites s m)
    (i : UInt32) : Keeps (s.inst i) ((s.handle m).node.inst i) := by
  change Keeps (s.view.inst i) ((s.handle m).node.view.inst i)
  rcases (PaxosNode.handle_effect hs m).log with
    hsame | ⟨hdr,len,value,-,hc,ht⟩ | ⟨hdr,p,len,value,ps,ha,hps,hp,hc,hq,ht⟩
  · intro hi
    exact ⟨(hsame i).committed.trans hi,(hsame i).len,(hsame i).value⟩
  · rw [ht]
    by_cases hi : i = hdr.instanceId
    · subst hi
      intro hi
      rw [hc] at hi
      cases hi
    · rw [update_of_ne hi]
      exact Keeps.refl _
  · rw [ht]
    by_cases hi : i = hdr.instanceId
    · subst hi
      rw [update_self]
      by_cases hx : (s.inst hdr.instanceId).isCommitted
      · obtain rfl : m = .accepted hdr p len value := by injection ha
        refine (keeps_commit_iff hx len value).mpr ?_
        by_contra hn
        exact h ⟨ps,hps,hp,hc,hq,hx,hn⟩
      · exact fun hy => absurd hy hx
    · rw [update_of_ne hi]
      exact Keeps.refl _

lemma handle_overwrites {s : PaxosNode} (hs : s.Logged) {m : Msg} (h : Overwrites s m) :
    ¬ Keeps (s.inst m.hdr.instanceId) ((s.handle m).node.inst m.hdr.instanceId) := by
  cases m with
  | accepted hdr p len value =>
    obtain ⟨_,hps,hp,hc,hq,hx,hn⟩ := h
    rw [← PaxosNode.view_inst (s.handle _).node]
    simp only [Msg.hdr, PaxosNode.handleAccepted_quorum hs hps hp hc hq len value]
    exact fun hk => hn ((keeps_commit_iff hx len value).mp hk)
  | _ => exact absurd h not_false

lemma step_keeps_iff (s : PaxosNode) (c : Call) (hs : s.Logged) :
    (∀ i, Keeps (s.inst i) ((step s c).inst i)) ↔ ¬ OverwritingCall s c := by
  have hidle : ∀ a t out, Effect s.view a t out → (∀ m, a ≠ .receive m) →
      ∀ i, Keeps (s.inst i) (t.inst i) := by
    intro a t out he ha i
    rcases he.log with hsame | ⟨hdr,len,value,h,-⟩ | ⟨hdr,p,len,value,_,h,-⟩
    · exact fun hi => ⟨(hsame i).committed.trans hi,(hsame i).len,(hsame i).value⟩
    · exact absurd h (ha _)
    · exact absurd h (ha _)
  cases c with
  | propose id value len =>
    exact iff_of_true (hidle _ _ _ (PaxosNode.propose_effect s id value len) (by simp)) not_false
  | startLeaderElection id =>
    exact iff_of_true (hidle _ _ _ (PaxosNode.startLeaderElection_effect s id) (by simp)) not_false
  | handleMessage data len =>
    simp only [step, perform, PaxosNode.handleMessage, OverwritingCall]
    cases parse data len with
    | none => simpa using fun i => Keeps.refl _
    | some m =>
      constructor
      · rintro h ⟨m',hm,ho⟩
        obtain rfl : m = m' := by injection hm
        exact handle_overwrites hs ho (h _)
      · intro h i
        exact handle_keeps hs (fun ho => h ⟨m,rfl,ho⟩) i

/-- Committed values are stable in exactly the runs in which no quorum of
Accepted completes on an instance committed with another value. -/
theorem commit_stable_iff (nodeId : UInt8) (numReplicas : UInt16) (maxInstances : UInt32)
    (cs : List Call) :
    CommitStable (.new nodeId numReplicas maxInstances) cs ↔
      Along step (fun s c => ¬ OverwritingCall s c) (.new nodeId numReplicas maxInstances) cs := by
  unfold CommitStable
  rw [along_related step (R := fun s t : PaxosNode => ∀ i, Keeps (s.inst i) (t.inst i))
    (fun s i => Keeps.refl _) (fun s t u h k i => (h i).trans (k i))]
  exact along_congr PaxosNode.step_logged step_keeps_iff (PaxosNode.new_logged _ _ _) cs

def receive (m : Msg) : Call := .handleMessage (view m.serialize fun _ => 0) m.serialize.length

/-- Replica 0 proposes, learns another value from replica 1, and then hears
its own proposal accepted by replicas 1 and 2. -/
def learnThenQuorum : List Call := [.propose 7 (fun _ => 1) 1,
    receive (.learn ⟨1,3,7⟩ 1 (fun _ => 2)),
    receive (.accepted ⟨1,3,7⟩ ⟨1,0,0⟩ 1 (fun _ => 1)),
    receive (.accepted ⟨2,3,7⟩ ⟨1,0,0⟩ 1 (fun _ => 1))]

theorem committed_value_overwritten :
    ((run step (.new 0 3 10000) (learnThenQuorum.take 3)).inst 7).isCommitted ∧
    ((run step (.new 0 3 10000) (learnThenQuorum.take 3)).inst 7).committedValue ⟨0,by decide⟩ = 2 ∧
    ((run step (.new 0 3 10000) learnThenQuorum).inst 7).committedValue ⟨0,by decide⟩ = 1 ∧
    ¬ CommitStable (.new 0 3 10000) learnThenQuorum := by
  have hc : ((run step (.new 0 3 10000) (learnThenQuorum.take 3)).inst 7).isCommitted := by
    decide +kernel
  have hold : ((run step (.new 0 3 10000) (learnThenQuorum.take 3)).inst 7).committedValue
      ⟨0,by decide⟩ = 2 := by decide +kernel
  have hnew : ((run step (.new 0 3 10000) learnThenQuorum).inst 7).committedValue
      ⟨0,by decide⟩ = 1 := by decide +kernel
  refine ⟨hc,hold,hnew,fun h => ?_⟩
  obtain ⟨-,-,hv⟩ := h (learnThenQuorum.take 3) (learnThenQuorum.drop 3) [] rfl 7 hc
  rw [List.take_append_drop] at hv
  rw [hv, hold] at hnew
  cases hnew

end SimBricks.PaxosCommit
