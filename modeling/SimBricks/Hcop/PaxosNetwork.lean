import SimBricks.Hcop.PaxosAcceptor

/-!
# Replicas on a network

The network keeps every message a replica has put out and hands any of them
to a replica it is addressed to, in any order, possibly never. Which
messages were handed over is recorded, so that runs without duplication are
a condition on steps. The replicas are then read without their capacity;
all protocol arguments are about the resulting world.
-/

set_option autoImplicit false

namespace SimBricks.PaxosNetwork
open Library Library.Run Library.Bytes PaxosProto PaxosState List Function
open PaxosReplica PaxosAcceptor

variable {n : ℕ}

structure Envelope (n : ℕ) where
  src : Fin n
  out : OutMessage
  deriving DecidableEq

def Envelope.Addressed (env : Envelope n) (d : Fin n) : Prop :=
  env.out.destId = kBroadcast ∨ env.out.destId.toNat = d.val
  deriving Decidable

inductive Event (n : ℕ) where
  | propose (k : Fin n) (id : UInt32) (value : Value) (len : UInt16)
  | startLeaderElection (k : Fin n) (id : UInt32)
  | deliver (j : ℕ) (d : Fin n)

structure Sys (n : ℕ) where
  node : Fin n → PaxosNode
  sent : List (Envelope n)
  delivered : List (ℕ × Fin n)

namespace Sys

def init (n : ℕ) (maxInstances : UInt32) : Sys n where
  node k := .new (UInt8.ofNat k) (UInt16.ofNat n) maxInstances
  sent := []
  delivered := []

def call (s : Sys n) (k : Fin n) (c : Call) : Sys n := { s with
    node := update s.node k (PaxosState.step (s.node k) c)
    sent := s.sent ++ (emit (s.node k) c).map (Envelope.mk k) }

def step (s : Sys n) : Event n → Sys n
  | .propose k id value len => s.call k (.propose id value len)
  | .startLeaderElection k id => s.call k (.startLeaderElection id)
  | .deliver j d =>
    match s.sent[j]? with
    | none => s
    | some env =>
      if env.Addressed d then
        { s.call d (.handleMessage (view env.out.data fun _ => 0) env.out.data.length) with
          delivered := (j,d)::s.delivered }
      else s

end Sys

structure World (n : ℕ) where
  rep : Fin n → Replica
  sent : List (Envelope n)
  delivered : List (ℕ × Fin n)

namespace World

def next (w : World n) (k : Fin n) (t : Replica) (out : List OutMessage)
    (delivered : List (ℕ × Fin n)) : World n :=
  ⟨update w.rep k t,w.sent ++ out.map (Envelope.mk k),delivered⟩

/-- What an event makes a replica do, and the deliveries on record after it. -/
inductive Cause (w : World n) : Event n → Fin n → Act → List (ℕ × Fin n) → Prop where
  | propose (k : Fin n) (id : UInt32) (value : Value) (len : UInt16) :
      Cause w (.propose k id value len) k (.propose id value len) w.delivered
  | elect (k : Fin n) (id : UInt32) :
      Cause w (.startLeaderElection k id) k (.startLeaderElection id) w.delivered
  | deliver (j : ℕ) (d : Fin n) (env : Envelope n) (h : w.sent[j]? = some env)
      (ha : env.Addressed d) :
      Cause w (.deliver j d) d (.receive env.out.msg) ((j,d)::w.delivered)

lemma Cause.received {w : World n} {e : Event n} {k : Fin n} {m : Msg} {del : List (ℕ × Fin n)}
    (h : w.Cause e k (.receive m) del) :
    ∃ j env, e = .deliver j k ∧ w.sent[j]? = some env ∧ env.Addressed k ∧ env.out.msg = m ∧
    del = (j,k)::w.delivered := by
  generalize ha : Act.receive m = a at h
  cases h with
  | propose | elect => cases ha
  | deliver j d env hj haddr => exact ⟨j,env,rfl,hj,haddr,(Act.receive.inj ha).symm,rfl⟩

end World

def Sys.world (s : Sys n) : World n := ⟨fun k => (s.node k).view,s.sent,s.delivered⟩

lemma Sys.world_call (s : Sys n) (k : Fin n) (c : Call) :
    (s.call k c).world = s.world.next k (PaxosState.step (s.node k) c).view (emit (s.node k) c)
    s.delivered := by
  simp only [Sys.world, Sys.call, World.next, World.mk.injEq, and_true]
  funext d
  by_cases h : d = k
  · subst h
    simp
  · simp [update_of_ne h]

/-- Every step of the system is one effect at one replica, or changes nothing. -/
lemma Sys.step_world {s : Sys n} (hl : ∀ k, (s.node k).Logged) (e : Event n) :
    (s.step e).world = s.world ∨ ∃ k a t out del, s.world.Cause e k a del ∧
    Effect (s.world.rep k) a t out ∧ (s.step e).world = s.world.next k t out del := by
  cases e with
  | propose k id value len =>
    exact .inr ⟨k,_,_,_,_,.propose k id value len,
      PaxosNode.propose_effect (s.node k) id value len,s.world_call k _⟩
  | startLeaderElection k id =>
    exact .inr ⟨k,_,_,_,_,.elect k id,
      PaxosNode.startLeaderElection_effect (s.node k) id,s.world_call k _⟩
  | deliver j d =>
    simp only [Sys.step]
    cases hj : s.sent[j]? with
    | none => exact .inl rfl
    | some env =>
      by_cases ha : env.Addressed d
      · have hh := PaxosNode.handleMessage_serialize (s.node d) env.out.msg fun _ => 0
        have hc := s.world_call d
          (.handleMessage (view env.out.data fun _ => 0) env.out.data.length)
        simp only [ha, if_true]
        refine .inr ⟨d,_,_,_,_,.deliver j d env hj ha,PaxosNode.handle_effect (hl d) env.out.msg,?_⟩
        simp only [PaxosState.step, emit, perform, OutMessage.data, hh] at hc
        exact congrArg (fun w : World n => { w with delivered := (j,d)::s.delivered }) hc
      · exact .inl (by simp [ha])

lemma Sys.step_logged (s : Sys n) (e : Event n) (hl : ∀ k, (s.node k).Logged) :
    ∀ k, ((s.step e).node k).Logged := by
  have hcall : ∀ d c k, ((s.call d c).node k).Logged := by
    intro d c k
    by_cases h : k = d
    · subst h
      simpa [Sys.call] using PaxosNode.step_logged (s.node k) c (hl k)
    · simpa [Sys.call, update_of_ne h] using hl k
  cases e with
  | propose k id value len | startLeaderElection k id => exact hcall k _
  | deliver j d =>
    simp only [Sys.step]
    split
    · exact hl
    · split_ifs
      · exact hcall d _
      · exact hl

lemma Sys.run_logged (maxInstances : UInt32) (es : List (Event n)) (k : Fin n) :
    ((run Sys.step (Sys.init n maxInstances) es).node k).Logged :=
  run_always (I := fun s : Sys n => ∀ k, (s.node k).Logged) Sys.step_logged
    (fun _ => PaxosNode.new_logged _ _ _) es k

/-- The induction for protocol invariants: what each effect under a permitted
event keeps, each permitted run of the replicas keeps. -/
lemma Sys.invariant {C : World n → Event n → Prop} {I : World n → Prop}
    (hstep : ∀ w e k a t out del, I w → C w e → w.Cause e k a del → Effect (w.rep k) a t out →
      I (w.next k t out del))
    {maxInstances : UInt32} (hinit : I (Sys.init n maxInstances).world) {es : List (Event n)}
    (h : Along Sys.step (fun s e => C s.world e) (Sys.init n maxInstances) es) :
    I (run Sys.step (Sys.init n maxInstances) es).world := by
  refine (run_invariant (I := fun s : Sys n => (∀ k, (s.node k).Logged) ∧ I s.world) ?_
    ⟨fun k => PaxosNode.new_logged _ _ _,hinit⟩ h).2
  intro s e hs hc
  refine ⟨s.step_logged e hs.1,?_⟩
  rcases s.step_world hs.1 e with hw | ⟨k,a,t,out,del,hcause,heff,hw⟩
  · rw [hw]
    exact hs.2
  · rw [hw]
    exact hstep _ _ _ _ _ _ _ hs.2 hc hcause heff

variable {p : ProposalNum}

namespace World
variable {w : World n} {k : Fin n} {t : Replica} {out : List OutMessage}
  {del : List (ℕ × Fin n)} {e : Event n} {a : Act}

@[simp] lemma next_rep_self (w : World n) (k : Fin n) (t : Replica) (out : List OutMessage)
    (del : List (ℕ × Fin n)) : (w.next k t out del).rep k = t := by
  simp [next]

variable {d : Fin n} {env : Envelope n}

lemma next_rep_ne (h : d ≠ k) : (w.next k t out del).rep d = w.rep d := by
  simp [next, update_of_ne h]

/-- One replica moves; what holds of it and of the others as they were holds of all. -/
lemma next_forall {P : Fin n → Replica → Prop} (hk : P k t) (hw : ∀ d, P d (w.rep d))
    (d : Fin n) : P d ((w.next k t out del).rep d) := by
  by_cases hd : d = k
  · subst hd
    rw [next_rep_self]
    exact hk
  · rw [next_rep_ne hd]
    exact hw d

lemma mem_next :
    env ∈ (w.next k t out del).sent ↔ env ∈ w.sent ∨ (env.src = k ∧ env.out ∈ out) := by
  simp only [next, mem_append, mem_map]
  refine or_congr Iff.rfl ⟨?_,?_⟩
  · rintro ⟨m,hm,rfl⟩
    exact ⟨rfl,hm⟩
  · rintro ⟨rfl,hm⟩
    exact ⟨env.out,hm,rfl⟩

lemma getElem?_next_old {j : ℕ} (h : w.sent[j]? = some env) :
    (w.next k t out del).sent[j]? = some env := by
  rw [next, List.getElem?_append_left (List.getElem?_eq_some_iff.mp h).1, h]

lemma getElem?_next {j : ℕ} (h : (w.next k t out del).sent[j]? = some env) :
    w.sent[j]? = some env ∨ (w.sent.length ≤ j ∧ env.src = k ∧
    out[j-w.sent.length]? = some env.out) := by
  rcases lt_or_ge j w.sent.length with hj | hj
  · exact .inl (by rwa [next, getElem?_append_left hj] at h)
  · rw [next, getElem?_append_right hj, getElem?_map, Option.map_eq_some_iff] at h
    obtain ⟨m,hm,rfl⟩ := h
    exact .inr ⟨hj,rfl,hm⟩

lemma Cause.grows (h : w.Cause e k a del) {x : ℕ × Fin n} (hx : x ∈ w.delivered) : x ∈ del := by
  cases h with
  | propose | elect => exact hx
  | deliver => exact mem_cons_of_mem _ hx

/-! What the messages on record say. -/

def Asked (w : World n) (ph : Phase) (i : UInt32) (p : ProposalNum) : Prop :=
  ∃ env ∈ w.sent, request env.out.msg = some (ph,i,p)
  deriving Decidable

lemma asked_next {ph : Phase} {i : UInt32} :
    (w.next k t out del).Asked ph i p ↔ w.Asked ph i p ∨ ∃ m ∈ out,
    request m.msg = some (ph,i,p) := by
  constructor
  · rintro ⟨env,henv,hr⟩
    rcases mem_next.mp henv with hold | ⟨-,hnew⟩
    · exact .inl ⟨env,hold,hr⟩
    · exact .inr ⟨env.out,hnew,hr⟩
  · rintro (⟨env,hold,hr⟩ | ⟨m,hnew,hr⟩)
    · exact ⟨env,mem_next.mpr (.inl hold),hr⟩
    · exact ⟨⟨k,m⟩,mem_next.mpr (.inr ⟨rfl,hnew⟩),hr⟩

lemma next_entry {id : UInt32} {new : ProposerInstanceState}
    (ht : t.prop = update (w.rep k).prop id (some new)) {i : UInt32}
    {ps : ProposerInstanceState} (h : ((w.next k t out del).rep d).prop i = some ps) :
    (d = k ∧ i = id ∧ ps = new) ∨ ((d = k → i ≠ id) ∧ (w.rep d).prop i = some ps) := by
  by_cases hd : d = k
  · subst hd
    rw [next_rep_self, ht] at h
    by_cases hi : i = id
    · subst hi
      rw [update_self] at h
      cases h
      exact .inl ⟨rfl,rfl,rfl⟩
    · rw [update_of_ne hi] at h
      exact .inr ⟨fun _ => hi,h⟩
  · rw [next_rep_ne hd] at h
    exact .inr ⟨fun h => absurd h hd,h⟩

lemma next_entry_rest {i : UInt32} {ps : ProposerInstanceState}
    (h : ((w.next k t out del).rep d).prop i = some ps) (ht : t.prop = (w.rep k).prop) :
    (w.rep d).prop i = some ps := by
  by_cases hd : d = k
  · subst hd
    rwa [next_rep_self, ht] at h
  · rwa [next_rep_ne hd] at h

/-- No message reaches a replica twice. -/
def Fresh (w : World n) : Event n → Prop
  | .deliver j d => (j,d) ∉ w.delivered
  | _ => True

instance (w : World n) : DecidablePred w.Fresh
  | .deliver j d => inferInstanceAs (Decidable ((j,d) ∉ w.delivered))
  | .propose _ _ _ _ => .isTrue trivial
  | .startLeaderElection _ _ => .isTrue trivial

end World

def proposalOf (i : UInt32) (m : OutMessage) : Option Vote :=
  match m.msg with
  | .accept hdr p len value => if hdr.instanceId = i then some ⟨p,len,value⟩ else none
  | _ => none

def learnOf (i : UInt32) (m : OutMessage) : Option (UInt16 × Value) :=
  match m.msg with
  | .learn hdr len value => if hdr.instanceId = i then some (len,value) else none
  | _ => none

/-- A value as it travels: its length clamped, the bytes beyond it zero. -/
def trim (p : ProposalNum) (len : UInt16) (value : Value) : Vote :=
  ⟨p,clampLen len,memcpy zeroValue value (clampLen len).toNat⟩

def Trimmed (v : Vote) : Prop := trim v.proposal v.len v.value = v

lemma trimmed_trim (p : ProposalNum) (len : UInt16) (value : Value) :
    Trimmed (trim p len value) := by
  simp [Trimmed, trim, memcpy_memcpy]

section
variable {i : UInt32} {m : OutMessage} {v : Vote}

lemma proposalOf_broadcast {hdr : MsgHeader} {len : UInt16} {value : Value}
    (h : proposalOf i (makeAcceptBroadcast hdr p len value) = some v) :
    hdr.instanceId = i ∧ v = trim p len value := by
  by_cases hi : hdr.instanceId = i
  · simp only [proposalOf, makeAcceptBroadcast, hi, if_true, Option.some.injEq] at h
    exact ⟨hi,h.symm⟩
  · simp [proposalOf, makeAcceptBroadcast, hi] at h

lemma proposalOf_some (h : proposalOf i m = some v) :
    ∃ hdr, hdr.instanceId = i ∧ m.msg = .accept hdr v.proposal v.len v.value := by
  unfold proposalOf at h
  split at h
  · next hdr p len value hm =>
    split_ifs at h with hi
    cases h
    exact ⟨hdr,hi,hm⟩
  · cases h

lemma proposalOf_request (h : proposalOf i m = some v) :
    request m.msg = some (.two,i,v.proposal) := by
  obtain ⟨_,rfl,hm⟩ := proposalOf_some h
  rw [hm]
  rfl

lemma voteOf_some (h : voteOf i m = some v) :
    ∃ hdr, hdr.instanceId = i ∧ m.msg = .accepted hdr v.proposal v.len v.value := by
  unfold voteOf at h
  split at h
  · next hdr p len value hm =>
    split_ifs at h with hi
    cases h
    exact ⟨hdr,hi,hm⟩
  · cases h

lemma voteOf_reply (h : voteOf i m = some v) : reply m.msg = some (.two,i,v.proposal) := by
  obtain ⟨_,rfl,hm⟩ := voteOf_some h
  rw [hm]
  rfl

lemma reply_voteOf (h : reply m.msg = some (.two,i,p)) :
    ∃ v, voteOf i m = some v ∧ v.proposal = p := by
  unfold voteOf
  cases hm : m.msg with
  | accepted hdr q len value =>
    rw [hm] at h
    cases h
    exact ⟨⟨p,len,value⟩,by simp,rfl⟩
  | _ => simp [hm, reply] at h

lemma reply_promiseOf (h : reply m.msg = some (.one,i,p)) : ∃ u, promiseOf i m = some (p,u) := by
  unfold promiseOf
  cases hm : m.msg with
  | promise hdr q acc len value =>
    rw [hm] at h
    cases h
    exact ⟨⟨acc,len,value⟩,by simp⟩
  | _ => simp [hm, reply] at h

lemma learnOf_some {x : UInt16 × Value} (h : learnOf i m = some x) :
    ∃ hdr, hdr.instanceId = i ∧ m.msg = .learn hdr x.1 x.2 := by
  unfold learnOf at h
  split at h
  · next hdr len value hm =>
    split_ifs at h with hi
    cases h
    exact ⟨hdr,hi,hm⟩
  · cases h

end

end SimBricks.PaxosNetwork
