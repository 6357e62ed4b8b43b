import SimBricks.Hcop.PaxosReplica

/-!
# Acceptor discipline over whole runs

The messages a replica has put out are compared with what it stores. The
store always holds the last vote, so a promise reports it; a vote is never
below a promise, whatever bytes arrive and whatever the proposer does.
-/

set_option autoImplicit false

namespace SimBricks.PaxosAcceptor
open Library Library.Run PaxosProto PaxosState PaxosReplica List Function

structure Vote where
  proposal : ProposalNum
  len : UInt16
  value : Value

instance : DecidableEq Vote := fun v w =>
  decidable_of_iff (v.proposal = w.proposal ∧ v.len = w.len ∧ v.value = w.value)
    (by cases v; cases w; simp)

def voteOf (i : UInt32) (m : OutMessage) : Option Vote :=
  match m.msg with
  | .accepted hdr p len value => if hdr.instanceId = i then some ⟨p,len,value⟩ else none
  | _ => none

def votes (i : UInt32) (out : List OutMessage) : List Vote := out.filterMap (voteOf i)

def promiseOf (i : UInt32) (m : OutMessage) : Option (ProposalNum × Vote) :=
  match m.msg with
  | .promise hdr p acc len value => if hdr.instanceId = i then some (p,⟨acc,len,value⟩) else none
  | _ => none

/-- `v` is the last vote and none is above it; before the first vote it is
the null proposal with the empty value. -/
def Reports (vs : List Vote) (v : Vote) : Prop := (vs = [] ∧ v = ⟨.null,0,zeroValue⟩) ∨
  (∃ earlier, vs = earlier++[v] ∧ ∀ w ∈ vs, w.proposal ≤ v.proposal)

def stored (x : InstanceState) : Vote := ⟨x.acceptedProposal,x.acceptedValueLen,
    memcpy zeroValue x.acceptedValue x.acceptedValueLen.toNat⟩

structure Disciplined (i : UInt32) (x : InstanceState) (out : List OutMessage) : Prop where
  bounded : x.acceptedProposal ≤ x.highestPromised
  last : Reports (votes i out) (stored x)
  rising : (votes i out).Pairwise (fun v w => v.proposal ≤ w.proposal)
  kept : ∀ before m after p v, out = before++m::after → promiseOf i m = some (p,v) →
    p ≤ x.highestPromised ∧ v.proposal < p ∧ (∀ w ∈ votes i after, p ≤ w.proposal) ∧
      Reports (votes i before) v

section
variable {i : UInt32} {x y : InstanceState} {out new : List OutMessage}

@[simp] lemma votes_append (i : UInt32) (out new : List OutMessage) :
    votes i (out++new) = votes i out++votes i new := filterMap_append

def Silent (i : UInt32) (new : List OutMessage) : Prop :=
  ∀ m ∈ new, voteOf i m = none ∧ promiseOf i m = none

lemma silent_of_reply (h : ∀ m ∈ new, reply m.msg = none) : Silent i new := by
  intro m hm
  have := h m hm
  unfold voteOf promiseOf
  cases hk : m.msg <;> simp_all [reply]

lemma Silent.votes (h : Silent i new) : votes i new = [] :=
  filterMap_eq_nil_iff.mpr (fun m hm => (h m hm).1)

lemma Reports.all_le {vs : List Vote} {v : Vote} (h : Reports vs v) :
    ∀ w ∈ vs, w.proposal ≤ v.proposal := by
  rcases h with ⟨rfl,-⟩ | ⟨-,-,hle⟩
  · simp
  · exact hle

lemma promiseOf_not_vote {m : OutMessage} {q : ProposalNum × Vote} (h : promiseOf i m = some q) :
    voteOf i m = none := by
  unfold promiseOf at h
  unfold voteOf
  cases hm : m.msg <;> simp_all

variable {p : ProposalNum}

/-- What one promise says about all votes of its sender, cast before it or after. -/
lemma Disciplined.report (h : Disciplined i x out) {m : OutMessage} (hm : m ∈ out) {v : Vote}
    (hp : promiseOf i m = some (p,v)) :
    v.proposal < p ∧ (v = ⟨.null,0,zeroValue⟩ ∨ v ∈ votes i out) ∧ ∀ w ∈ votes i out,
    w.proposal < p → w.proposal ≤ v.proposal := by
  obtain ⟨before,after,hs⟩ := append_of_mem hm
  obtain ⟨-,hlt,hafter,hrep⟩ := h.kept before m after p v hs hp
  have hvotes : votes i out = votes i before++votes i after := by
    rw [hs, votes_append, ← singleton_append, votes_append]
    simp [votes, promiseOf_not_vote hp]
  refine ⟨hlt,?_,?_⟩
  · rcases hrep with ⟨-,hv⟩ | ⟨_,he,-⟩
    · exact .inl hv
    · exact .inr (by rw [hvotes, he]; simp)
  · intro w hw hwp
    rw [hvotes, mem_append] at hw
    rcases hw with hw | hw
    · exact hrep.all_le w hw
    · exact absurd hwp (hafter w hw).not_gt

/-- Messages of other roles or instances, with the acceptor's fields as they were. -/
lemma Disciplined.frame (h : Disciplined i x out) (hxy : SameVote x y)
    (hnew : Silent i new) : Disciplined i y (out++new) := by
  have hst : stored y = stored x := by simp [stored, hxy.proposal, hxy.len, hxy.value]
  refine ⟨?_,?_,?_,?_⟩
  · rw [hxy.proposal, hxy.promised]
    exact h.bounded
  · rw [votes_append, hnew.votes, append_nil, hst]
    exact h.last
  · rw [votes_append, hnew.votes, append_nil]
    exact h.rising
  · intro before m after p v hs hp
    rcases append_split hs with ⟨rest,ho,rfl⟩ | ⟨_,-,hn⟩
    · obtain ⟨h1,hv,h2,h3⟩ := h.kept before m rest p v ho hp
      rw [hxy.promised, votes_append, hnew.votes, append_nil]
      exact ⟨h1,hv,h2,h3⟩
    · rw [(hnew m (by simp [hn])).2] at hp
      cases hp

lemma Disciplined.promise (h : Disciplined i x out) (hdr : MsgHeader) (dest : UInt8)
    (hp : x.highestPromised < p) (hi : hdr.instanceId = i) :
    Disciplined i { x with highestPromised := p }
      (out++[makePromise hdr dest { x with highestPromised := p }]) := by
  have hvote : votes i [makePromise hdr dest { x with highestPromised := p }] = [] := rfl
  refine ⟨?_,?_,?_,?_⟩
  · exact (h.bounded.trans_lt hp).le
  · rw [votes_append, hvote, append_nil]
    exact h.last
  · rw [votes_append, hvote, append_nil]
    exact h.rising
  · intro before m after q v hs hq
    rcases append_split hs with ⟨rest,ho,rfl⟩ | ⟨front,rfl,hn⟩
    · obtain ⟨h1,hv,h2,h3⟩ := h.kept before m rest q v ho hq
      rw [votes_append, hvote, append_nil]
      exact ⟨(h1.trans_lt hp).le,hv,h2,h3⟩
    · cases front with
      | cons => simp at hn
      | nil =>
        obtain ⟨rfl,rfl⟩ := cons.inj hn
        have hpv : (p,stored x) = (q,v) := by simpa [promiseOf, makePromise, hi, stored] using hq
        obtain ⟨rfl,rfl⟩ := Prod.mk.inj hpv
        exact ⟨le_rfl,h.bounded.trans_lt hp,by simp [votes],by simpa using h.last⟩

lemma Disciplined.accept (h : Disciplined i x out) {len : UInt16} {value : Value}
    (hdr : MsgHeader) (dest : UInt8) (hp : x.highestPromised ≤ p) (hi : hdr.instanceId = i) :
    Disciplined i (x.accept p len value) (out++[makeAccepted hdr dest p len value]) := by
  have hst : stored (x.accept p len value) =
      ⟨p,clampLen len,memcpy zeroValue value (clampLen len).toNat⟩ := by
    simp [stored, InstanceState.accept, memcpy_memcpy]
  have hvote : votes i [makeAccepted hdr dest p len value] = [stored (x.accept p len value)] := by
    simp [votes, voteOf, makeAccepted, hi, hst]
  have hall : ∀ w ∈ votes i out, w.proposal ≤ p := fun w hw =>
    ((h.last.all_le w hw).trans h.bounded).trans hp
  refine ⟨le_rfl,?_,?_,?_⟩
  · refine .inr ⟨votes i out,by rw [votes_append, hvote],?_⟩
    intro w hw
    rw [votes_append, hvote, mem_append, mem_singleton] at hw
    rcases hw with hw | rfl
    · simpa [hst] using hall w hw
    · exact le_rfl
  · rw [votes_append, hvote, pairwise_append]
    refine ⟨h.rising,pairwise_singleton _ _,?_⟩
    intro v hv w hw
    rw [mem_singleton.mp hw, hst]
    exact hall v hv
  · intro before m after q v hs hq
    rcases append_split hs with ⟨rest,ho,rfl⟩ | ⟨front,-,hn⟩
    · obtain ⟨h1,hv,h2,h3⟩ := h.kept before m rest q v ho hq
      have hqp : q ≤ p := h1.trans hp
      refine ⟨hqp,hv,?_,h3⟩
      intro w hw
      rw [votes_append, hvote, mem_append, mem_singleton] at hw
      rcases hw with hw | rfl
      · exact h2 w hw
      · simpa [hst] using hqp
    · have hm : m = makeAccepted hdr dest p len value := by
        cases front with
        | cons => simp at hn
        | nil => exact (cons.inj hn).1.symm
      rw [hm] at hq
      cases hq

end

/-- What a replica has put out agrees, per instance, with what it stores. -/
def Sound (r : Replica) (out : List OutMessage) : Prop := ∀ i, Disciplined i (r.inst i) out

variable {r : Replica}

lemma Sound.effect {t : Replica} {a : Act} {out new : List OutMessage} (h : Sound r out)
    (he : Effect r a t new) : Sound t (out++new) := by
  intro i
  rcases he.acceptor with ⟨hs,ho⟩ | ⟨hdr,p,-,hp,rfl,rfl⟩ | ⟨hdr,p,_,_,-,hp,rfl,rfl⟩
  · exact (h i).frame (hs i) (silent_of_reply ho)
  · by_cases hi : i = hdr.instanceId
    · subst hi
      simpa [Replica.setInst, Replica.vow] using
        (h hdr.instanceId).promise (r.header hdr.instanceId) hdr.senderId hp rfl
    · refine (h i).frame ?_ ?_
      · simp only [Replica.setInst, update_of_ne hi]
        exact ⟨rfl,rfl,rfl,rfl⟩
      · simp [Silent, voteOf, promiseOf, makePromise, Replica.header, Ne.symm hi]
  · by_cases hi : i = hdr.instanceId
    · subst hi
      simpa [Replica.setInst] using
        (h hdr.instanceId).accept (r.header hdr.instanceId) hdr.senderId hp rfl
    · refine (h i).frame ?_ ?_
      · simp only [Replica.setInst, update_of_ne hi]
        exact ⟨rfl,rfl,rfl,rfl⟩
      · simp [Silent, voteOf, promiseOf, makeAccepted, Replica.header, Ne.symm hi]

lemma sound_fresh (h : ∀ i, r.inst i = {}) : Sound r [] := by
  intro i
  rw [h i]
  refine ⟨le_rfl,.inl ⟨rfl,?_⟩,List.Pairwise.nil,?_⟩
  · simp [stored]
    rfl
  · intro before m after p v h
    simp at h

lemma promised_mono {t : Replica} {a : Act} {out : List OutMessage} (he : Effect r a t out)
    (i : UInt32) : (r.inst i).highestPromised ≤ (t.inst i).highestPromised := by
  rcases he.acceptor with ⟨hs,-⟩ | ⟨hdr,p,-,hp,rfl,-⟩ | ⟨hdr,p,_,_,-,hp,rfl,-⟩
  · rw [(hs i).promised]
  · by_cases hi : i = hdr.instanceId
    · subst hi
      simpa [Replica.setInst, Replica.vow] using hp.le
    · simp [Replica.setInst, update_of_ne hi]
  · by_cases hi : i = hdr.instanceId
    · subst hi
      simpa [Replica.setInst, InstanceState.accept] using hp
    · simp [Replica.setInst, update_of_ne hi]

def Inv (s : PaxosNode) (out : List OutMessage) : Prop := s.Logged ∧ Sound s.view out

lemma inv_step (s : PaxosNode) (c : Call) (out : List OutMessage) (h : Inv s out) :
    Inv (step s c) (out++emit s c) := by
  refine ⟨PaxosNode.step_logged s c h.1,?_⟩
  rcases PaxosNode.perform_effect h.1 c with ⟨-,hn,ho⟩ | ⟨a,-,he⟩
  · rw [step, emit, hn, ho, append_nil]
    exact h.2
  · exact h.2.effect he

lemma step_promised_mono {s : PaxosNode} (hl : s.Logged) (c : Call) (i : UInt32) :
    (s.inst i).highestPromised ≤ ((step s c).inst i).highestPromised := by
  rcases PaxosNode.perform_effect hl c with ⟨-,hn,-⟩ | ⟨a,-,he⟩
  · rw [step, hn]
  · exact promised_mono he i

/-- A replica run on arbitrary calls and message bytes. Per instance: the
promise never falls, the vote stays at or below it, votes never fall, no
vote is cast below an earlier promise, and each promise reports the highest
vote so far with its value. -/
theorem acceptor_discipline (nodeId : UInt8) (numReplicas : UInt16) (maxInstances : UInt32)
    (cs : List Call) (i : UInt32) :
    (∀ earlier later rest, cs = earlier++later++rest →
      ((run step (.new nodeId numReplicas maxInstances) earlier).inst i).highestPromised ≤
        ((run step (.new nodeId numReplicas maxInstances)
        (earlier++later)).inst i).highestPromised) ∧
    ((run step (.new nodeId numReplicas maxInstances) cs).inst i).acceptedProposal ≤
      ((run step (.new nodeId numReplicas maxInstances) cs).inst i).highestPromised ∧
    (votes i (trace step emit (.new nodeId numReplicas maxInstances) cs)).Pairwise
      (fun v w => v.proposal ≤ w.proposal) ∧
    (∀ before m after p v,
      trace step emit (.new nodeId numReplicas maxInstances) cs = before++m::after →
      promiseOf i m = some (p,v) →
      (∀ w ∈ votes i after, ¬ w.proposal < p) ∧ Reports (votes i before) v) := by
  have hnew : Inv (.new nodeId numReplicas maxInstances) [] :=
    ⟨PaxosNode.new_logged _ _ _,sound_fresh fun _ => rfl⟩
  have hinv := trace_invariant inv_step _ [] cs hnew
  obtain ⟨-,hd⟩ := hinv
  refine ⟨?_,(hd i).bounded,(hd i).rising,?_⟩
  · rw [along_related step (R := fun s t : PaxosNode =>
      (s.inst i).highestPromised ≤ (t.inst i).highestPromised) (fun _ => le_rfl)
      (fun _ _ _ => le_trans)]
    exact along_always PaxosNode.step_logged (fun s c hl => step_promised_mono hl c i)
      (PaxosNode.new_logged _ _ _) cs
  · intro before m after p v hs hp
    obtain ⟨-,-,hk,hr⟩ := (hd i).kept before m after p v hs hp
    exact ⟨hk,hr⟩

end SimBricks.PaxosAcceptor
