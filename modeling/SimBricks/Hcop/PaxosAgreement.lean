import SimBricks.Hcop.PaxosElection
import SimBricks.Library.Voting

/-!
# Agreement

A committed value is a decision: a majority voted for it, and the proposer
that counted the votes starts no further proposal without an election. The
numbers and votes on record form a ballot record of the voting library, and
its agreement theorem applies to decisions.
-/

set_option autoImplicit false

namespace SimBricks.PaxosNetwork
open Library Library.Run Library.Quorum Library.Voting PaxosProto PaxosState List Function
open PaxosReplica PaxosAcceptor

variable {n : ℕ}

structure Decided (w : World n) (i : UInt32) (v : Vote) : Prop where
  chosen : ∃ Q : Finset (Fin n), n/2+1 ≤ Q.card ∧
    ∀ a ∈ Q, ∃ x ∈ w.sent, x.src = a ∧ voteOf i x.out = some v
  closed : ∃ k : Fin n, v.proposal.nodeId.toNat = k.val ∧ ((w.rep k).inst i).isCommitted ∧
    ∀ x ∈ w.sent, x.src = k → ∀ ph p, request x.out.msg = some (ph,i,p) →
      ¬ w.Asked .one i p → p ≤ v.proposal

structure Holds (x : InstanceState) (v : Vote) : Prop where
  len : x.committedValueLen = v.len
  value : memcpy zeroValue x.committedValue v.len.toNat = v.value

structure Agreed (w : World n) : Prop extends Led w where
  decided : ∀ k i, ((w.rep k).inst i).isCommitted →
    ∃ v, Decided w i v ∧ Holds ((w.rep k).inst i) v
  learned : ∀ env ∈ w.sent, ∀ i x, learnOf i env.out = some x →
    ∃ v, Decided w i v ∧ x = (v.len,v.value)

variable {v : Vote}

section
variable {w : World n} {e : Event n} {k : Fin n} {a : Act} {t : Replica} {out : List OutMessage}
  {del : List (ℕ × Fin n)}

lemma Decided.cast {i : UInt32} (h : Decided w i v) : Cast w i v := by
  obtain ⟨Q,hQ,hall⟩ := h.chosen
  obtain ⟨a,ha⟩ := Finset.card_pos.mp (lt_of_lt_of_le (Nat.succ_pos _) hQ)
  obtain ⟨x,hx,-,hv⟩ := hall a ha
  exact ⟨x,hx,hv⟩

lemma trimmed_len (h : Trimmed v) :
    clampLen v.len = v.len ∧ memcpy zeroValue v.value v.len.toNat = v.value := by
  have hl : clampLen v.len = v.len := congrArg Vote.len h
  have hv : memcpy zeroValue v.value (clampLen v.len).toNat = v.value := congrArg Vote.value h
  rw [hl] at hv
  exact ⟨hl,hv⟩

lemma Holds.commit (h : Trimmed v) (x : InstanceState) : Holds (x.commit v.len v.value) v := by
  obtain ⟨hl,hv⟩ := trimmed_len h
  refine ⟨rfl,?_⟩
  simp only [InstanceState.commit, hl, memcpy_memcpy]
  exact hv

lemma Decided.next (hl : Led w) (hc : w.Cause e k a del) (he : Effect (w.rep k) a t out)
    {i : UInt32} (h : Decided w i v) : Decided (w.next k t out del) i v := by
  obtain ⟨⟨Q,hQ,hall⟩,d,hd,hcom,hskip⟩ := h
  refine ⟨⟨Q,hQ,fun a ha => ?_⟩,d,hd,?_,?_⟩
  · obtain ⟨x,hx,h⟩ := hall a ha
    exact ⟨x,World.mem_next.mpr (.inl hx),h⟩
  · by_cases hdk : d = k
    · subst hdk
      rw [World.next_rep_self]
      exact he.committed_stays hcom
    · rw [World.next_rep_ne hdk]
      exact hcom
  · intro x hx hsrc ph p hr hone
    have hone' : ¬ w.Asked .one i p := fun hold => hone (World.asked_next.mpr (.inl hold))
    rcases World.mem_next.mp hx with hx | ⟨hxk,hxo⟩
    · exact hskip x hx hsrc ph p hr hone'
    · rcases hl.new_request hc he hxo hr with ⟨_,_,rfl,hopen,-⟩ | ⟨rfl,rfl,rfl⟩ |
        ⟨ps,j,acc,rfl,-,rfl,rfl,hask⟩
      · rw [hsrc] at hxk
        rw [← hxk, hcom] at hopen
        cases hopen
      · exact absurd (World.asked_next.mpr (.inr ⟨x.out,hxo,hr⟩)) hone
      · exact absurd hask hone'

/-- The Accepted that completes a count decides its value. -/
lemma Led.decides (h : Led w) (hn : n ≤ 5) {j : ℕ} {d : Fin n} {env : Envelope n}
    (hj : w.sent[j]? = some env) (hf : (j,d) ∉ w.delivered)
    (hb : Base (w.next d t out ((j,d)::w.delivered)))
    {m : Msg} (he : Effect (w.rep d) (.receive m) t out) {hdr : MsgHeader} {p : ProposalNum}
    {len : UInt16} {value : Value} (hm : env.out.msg = .accepted hdr p len value)
    {ps : ProposerInstanceState} (hps : (w.rep d).prop hdr.instanceId = some ps)
    (hs : p.same ps.proposal) (hc : ps.committed = false)
    (hq : (w.rep d).quorum ≤ ps.acceptedCount+1) (ht : (t.inst hdr.instanceId).isCommitted) :
    Trimmed ⟨p,len,value⟩ ∧ Decided (w.next d t out ((j,d)::w.delivered)) hdr.instanceId
    ⟨p,len,value⟩ := by
  have hv : voteOf hdr.instanceId env.out = some ⟨p,len,value⟩ := by simp [voteOf, hm]
  obtain ⟨hp,Q,hQ,hall⟩ := h.commit_quorum hn hj hf hv hps hc hs hq
  refine ⟨h.proposed_trimmed (h.cast_proposed ⟨env,mem_of_getElem? hj,hv⟩),?_,d,?_,?_,?_⟩
  · refine ⟨Q,hQ,fun a ha => ?_⟩
    obtain ⟨x,hx,h⟩ := hall a ha
    exact ⟨x,World.mem_next.mpr (.inl hx),h⟩
  · rw [hp]
    exact (h.current d _ ps hps).1
  · rw [World.next_rep_self]
    exact ht
  · intro x hx hsrc ph q hr _
    obtain ⟨qs,hqs,hle⟩ := hb.latest x hx ph _ q hr
    rw [hsrc, World.next_rep_self] at hqs
    obtain ⟨rs,hrs,hkeep | ⟨hbeg,-⟩⟩ := he.stays hps
    · cases hqs.symm.trans hrs
      rw [hp, ← hkeep]
      exact hle
    · exact absurd hbeg not_false

lemma learns_of_effect {r : Replica} (h : Effect r a t out) {m : OutMessage} (hm : m ∈ out)
    {i : UInt32} {x : UInt16 × Value} (hx : learnOf i m = some x) :
    ((r.inst i).isCommitted ∧ x = (clampLen (r.inst i).committedValueLen,
      memcpy zeroValue (r.inst i).committedValue (clampLen (r.inst i).committedValueLen).toNat)) ∨
    (∃ hdr p len value ps, a = .receive (.accepted hdr p len value) ∧ hdr.instanceId = i ∧
      r.prop i = some ps ∧ p.same ps.proposal ∧ ps.committed = false ∧
      r.quorum ≤ ps.acceptedCount+1 ∧ (t.inst i).isCommitted ∧
      x = (clampLen len,memcpy zeroValue value (clampLen len).toNat)) := by
  obtain ⟨_,rfl,hmsg⟩ := learnOf_some hx
  cases h with
  | inform hdr p len value hc =>
    rw [mem_singleton] at hm
    subst hm
    simp only [makeLearn, Msg.learn.injEq] at hmsg
    obtain ⟨rfl,hl,hv⟩ := hmsg
    exact .inl ⟨hc,Prod.ext hl.symm hv.symm⟩
  | commit hdr p len value ps hps hs hc hq =>
    rw [learnOthers_learn hm] at hmsg
    simp only [Msg.learn.injEq] at hmsg
    obtain ⟨rfl,hl,hv⟩ := hmsg
    refine .inr ⟨hdr,p,len,value,ps,rfl,rfl,hps,hs,hc,hq,?_,Prod.ext hl.symm hv.symm⟩
    simp [Replica.setInst, Replica.header, InstanceState.commit]
  | _ => simp_all [makeAcceptBroadcast, makePrepareBroadcast, makePromise, makeNack, makeAccepted]

variable (h : Agreed w) (hn : n ≤ 5) (ho : Orderly w e) (hc : w.Cause e k a del)
  (he : Effect (w.rep k) a t out)
include h hn ho hc he

lemma Agreed.decided_next (hb : Base (w.next k t out del)) (d : Fin n) (i : UInt32)
    (hcom : (((w.next k t out del).rep d).inst i).isCommitted) :
    ∃ v, Decided (w.next k t out del) i v ∧ Holds (((w.next k t out del).rep d).inst i) v := by
  have hkeep : ∀ {y : InstanceState}, SameCommit ((w.rep d).inst i) y → y.isCommitted →
      ∃ v, Decided (w.next k t out del) i v ∧ Holds y v := by
    intro y hy hcy
    obtain ⟨v,hv,hh⟩ := h.decided d i (hy.committed ▸ hcy)
    exact ⟨v,hv.next h.toLed hc he,by rw [hy.len]; exact hh.len,by rw [hy.value]; exact hh.value⟩
  by_cases hd : d = k
  · subst hd
    rw [World.next_rep_self] at hcom ⊢
    rcases he.log with hsame | ⟨hdr,len,value,ha,-,ht⟩ | ⟨hdr,p,len,value,_,ha,hps,hs,hnc,hq,ht⟩
    · exact hkeep (hsame i) hcom
    · by_cases hi : i = hdr.instanceId
      · subst hi
        subst ha
        obtain ⟨_,env,-,hj,-,hm,-⟩ := hc.received
        obtain ⟨v,hv,hx⟩ := h.learned env (mem_of_getElem? hj) hdr.instanceId (len,value)
          (by simp [learnOf, hm])
        obtain ⟨rfl,rfl⟩ := Prod.mk.inj hx
        refine ⟨v,hv.next h.toLed hc he,?_⟩
        rw [ht, update_self]
        exact Holds.commit (h.proposed_trimmed (h.cast_proposed hv.cast)) _
      · rw [ht, update_of_ne hi] at hcom ⊢
        exact hkeep ⟨rfl,rfl,rfl⟩ hcom
    · by_cases hi : i = hdr.instanceId
      · subst hi
        subst ha
        obtain ⟨j,env,rfl,hj,-,hm,rfl⟩ := hc.received
        obtain ⟨htrim,hdec⟩ := h.decides hn hj ho.fresh hb he hm hps hs hnc hq hcom
        refine ⟨_,hdec,?_⟩
        rw [ht, update_self]
        exact Holds.commit htrim _
      · rw [ht, update_of_ne hi] at hcom ⊢
        exact hkeep ⟨rfl,rfl,rfl⟩ hcom
  · rw [World.next_rep_ne hd] at hcom ⊢
    exact hkeep ⟨rfl,rfl,rfl⟩ hcom

lemma Agreed.learned_next (hb : Base (w.next k t out del)) (env : Envelope n)
    (henv : env ∈ (w.next k t out del).sent) (i : UInt32) (x : UInt16 × Value)
    (hx : learnOf i env.out = some x) :
    ∃ v, Decided (w.next k t out del) i v ∧ x = (v.len,v.value) := by
  rcases World.mem_next.mp henv with hold | ⟨-,hnew⟩
  · obtain ⟨v,hv,hx⟩ := h.learned env hold i x hx
    exact ⟨v,hv.next h.toLed hc he,hx⟩
  · rcases learns_of_effect he hnew hx with
      ⟨hcom,rfl⟩ | ⟨hdr,p,len,value,ps,ha,rfl,hps,hs,hnc,hq,ht,rfl⟩
    · obtain ⟨v,hv,hh⟩ := h.decided k i hcom
      obtain ⟨hl,-⟩ := trimmed_len (h.proposed_trimmed (h.cast_proposed hv.cast))
      refine ⟨v,hv.next h.toLed hc he,?_⟩
      rw [hh.len, hl, hh.value]
    · subst ha
      obtain ⟨j,env,rfl,hj,-,hm,rfl⟩ := hc.received
      obtain ⟨htrim,hdec⟩ := h.decides hn hj ho.fresh hb he hm hps hs hnc hq ht
      obtain ⟨hl,hv⟩ := trimmed_len htrim
      refine ⟨_,hdec,?_⟩
      dsimp only at hl hv ⊢
      rw [hl, hv]

lemma Agreed.next (hu : Unopposed w e) : Agreed (w.next k t out del) := by
  have hb := h.toBase.next hc he ho.noWrap
  exact ⟨h.toLed.next hc he ho hn hu,h.decided_next hn ho hc he hb,h.learned_next hn ho hc he hb⟩

end

lemma agreed_init (hn : n ≤ 5) (maxInstances : UInt32) :
    Agreed (Sys.init n maxInstances).world := by
  exact ⟨led_init hn maxInstances,nofun,nofun⟩

/-! ## The record of one instance -/

def ballots (w : World n) (i : UInt32) : Record (Fin n) ℕ (UInt16 × Value) where
  proposed b x := ∃ v, Proposed w i v ∧ v.proposal.key = b ∧ (v.len,v.value) = x
  voted a b x := ∃ env ∈ w.sent, env.src = a ∧
    ∃ v, voteOf i env.out = some v ∧ v.proposal.key = b ∧ (v.len,v.value) = x

section
variable {w : World n} {i : UInt32}

lemma Base.proposed_own (hb : Base w) (h : Proposed w i v) :
    ∃ x ∈ w.sent, request x.out.msg = some (.two,i,v.proposal) ∧
    Own x.src (w.rep x.src).round v.proposal := by
  obtain ⟨x,hx,hr⟩ := h.asked
  exact ⟨x,hx,hr,hb.issued x hx _ _ _ hr⟩

variable {u : Vote}

lemma Counted.proposed_unique (h : Counted w) (hu : Proposed w i u) (hv : Proposed w i v)
    (hk : u.proposal.key = v.proposal.key) : u = v := by
  obtain ⟨_,-,-,hou⟩ := h.proposed_own hu
  obtain ⟨_,-,-,hov⟩ := h.proposed_own hv
  have hp : u.proposal = v.proposal := hou.eq hov ((ProposalNum.same_iff_key _ _).mpr hk)
  obtain ⟨x,hx,hxu⟩ := hu
  obtain ⟨y,hy,hyv⟩ := hv
  obtain ⟨j,hj⟩ := mem_iff_getElem?.mp hx
  obtain ⟨j',hj'⟩ := mem_iff_getElem?.mp hy
  have hjj : j = j' := h.once j j' x y _ hj hj' (proposalOf_request hxu)
    (by rw [proposalOf_request hyv, hp])
  subst hjj
  cases hj.symm.trans hj'
  rw [hxu] at hyv
  exact Option.some.inj hyv

lemma Counted.ballots_honest (h : Counted w) : (ballots w i).Honest := by
  refine ⟨?_,?_⟩
  · rintro b - - ⟨u,hu,hub,rfl⟩ ⟨v,hv,hvb,rfl⟩
    rw [h.proposed_unique hu hv (hub.trans hvb.symm)]
  · rintro a b x ⟨env,henv,-,v,hv,hb,hx⟩
    exact ⟨v,h.cast_proposed ⟨env,henv,hv⟩,hb,hx⟩

lemma Decided.ballots_chosen (h : Decided w i v) :
    (ballots w i).Chosen v.proposal.key (v.len,v.value) := by
  obtain ⟨Q,hQ,hall⟩ := h.chosen
  refine ⟨Q,by simpa [Majority] using hQ,fun a ha => ?_⟩
  obtain ⟨x,hx,hsrc,hv⟩ := hall a ha
  exact ⟨x,hx,hsrc,v,hv,rfl,rfl⟩

/-- An elected proposal above a decision repeats a proposal from between. -/
lemma Led.elected_covers (h : Led w) (hu : Elected w i u) (hv : Decided w i v)
    (hlt : v.proposal.key < u.proposal.key) :
    ∃ m, v.proposal.key ≤ m ∧ m < u.proposal.key ∧ (ballots w i).proposed m (u.len,u.value) := by
  obtain ⟨P,hP,top,hall,htop⟩ := hu
  have hbound : ∀ a ∈ P, ∀ c x, (ballots w i).voted a c x → c < u.proposal.key → c ≤ top.key := by
    rintro a ha c - ⟨y,hy,hsrc,z,hz,rfl,-⟩ hc
    obtain ⟨_,henv,hes,r,hr,hle⟩ := hall a ha
    obtain ⟨-,-,hrep⟩ := h.report henv hr
    have hzr := hrep y hy (hsrc.trans hes.symm) z hz ((ProposalNum.lt_iff_key _ _).mpr hc)
    exact (ProposalNum.le_iff_key _ _).mp (hzr.trans hle)
  rcases htop with hnull | ⟨hbelow,hcast⟩
  · have hmaj : Majority P := by simpa [Majority] using hP
    obtain ⟨Q,hQ,hvoted⟩ := hv.ballots_chosen
    obtain ⟨a,hap,haq⟩ := majorities_meet hmaj hQ
    have hle := hbound a hap _ _ (hvoted a haq) hlt
    rw [(ProposalNum.isNull_iff_key _).mp hnull] at hle
    obtain ⟨_,-,-,hown⟩ := h.proposed_own (h.cast_proposed hv.cast)
    have hpos := hown.2.2.1
    unfold ProposalNum.key at hle
    omega
  · have hr : (ballots w i).Reported u.proposal.key (u.len,u.value) P top.key :=
      ⟨by simpa [Majority] using hP,(ProposalNum.lt_iff_key _ _).mp hbelow,
        ⟨_,h.cast_proposed hcast,rfl,rfl⟩,hbound⟩
    exact hr.covers hv.ballots_chosen hlt

/-- A proposal without an election is never above a decision. -/
lemma Led.skipped_below (h : Led w) (hu : Proposed w i u) (hskip : ¬ w.Asked .one i u.proposal)
    (hv : Decided w i v) : u.proposal ≤ v.proposal := by
  obtain ⟨x,hx,hrx,-⟩ := h.proposed_own hu
  obtain ⟨y,hy,hry,hoy⟩ := h.proposed_own (h.cast_proposed hv.cast)
  obtain ⟨k,hk,-,hclosed⟩ := hv.closed
  have hyk : y.src = k := Fin.ext (hoy.1.symm.trans hk)
  by_cases hxk : x.src = k
  · exact hclosed x hx hxk _ _ hrx hskip
  · exact (h.skips x hx y hy (fun hyx => hxk (hyx.symm.trans hyk)) _ _ i _ _ hrx hry hskip).le

lemma Led.decisions_agree (h : Led w) (hu : Decided w i u) (hv : Decided w i v) :
    (u.len,u.value) = (v.len,v.value) := by
  refine Record.decisions_agree (R := ballots w i)
    (D := fun b x => ∃ v, Decided w i v ∧ v.proposal.key = b ∧ (v.len,v.value) = x)
    h.toCounted.ballots_honest ?_ ?_ ⟨u,hu,rfl,rfl⟩ ⟨v,hv,rfl,rfl⟩
  · rintro c - ⟨v,hv,rfl,rfl⟩
    exact hv.ballots_chosen
  · rintro b - c - ⟨u,hu,rfl,rfl⟩ ⟨v,hv,rfl,rfl⟩ hlt
    by_cases hone : w.Asked .one i u.proposal
    · exact h.elected_covers (h.elected i u hu hone) hv hlt
    · exact absurd ((ProposalNum.le_iff_key _ _).mp (h.skipped_below hu hone hv)) hlt.not_ge

end

/-- Two replicas that have committed an instance hold the same value, in
every run that is orderly and in which no proposal that skips its election
meets a competing one. -/
theorem paxos_agreement (hn : 3 ≤ n ∧ n ≤ 5) (maxInstances : UInt32) (es : List (Event n))
    (h : Along Sys.step (fun s e => Orderly s.world e ∧ Unopposed s.world e)
      (Sys.init n maxInstances) es) (i : UInt32) (a b : Fin n)
    (ha : (((run Sys.step (Sys.init n maxInstances) es).node a).inst i).isCommitted)
    (hb : (((run Sys.step (Sys.init n maxInstances) es).node b).inst i).isCommitted) :
    (((run Sys.step (Sys.init n maxInstances) es).node a).inst i).committedValueLen =
      (((run Sys.step (Sys.init n maxInstances) es).node b).inst i).committedValueLen ∧
    ∀ j : Fin 128,
      j.val <
        (((run Sys.step (Sys.init n maxInstances) es).node a).inst i).committedValueLen.toNat →
      (((run Sys.step (Sys.init n maxInstances) es).node a).inst i).committedValue j =
        (((run Sys.step (Sys.init n maxInstances) es).node b).inst i).committedValue j := by
  have hinv : Agreed (run Sys.step (Sys.init n maxInstances) es).world :=
    Sys.invariant (C := fun w e => Orderly w e ∧ Unopposed w e)
      (fun w e k a t out del hi hc hcause he => hi.next hn.2 hc.1 hcause he hc.2)
      (agreed_init hn.2 maxInstances) h
  obtain ⟨u,hu,hua⟩ := hinv.decided a i ha
  obtain ⟨v,hv,hvb⟩ := hinv.decided b i hb
  obtain ⟨hlen,hval⟩ := Prod.mk.inj (hinv.decisions_agree hu hv)
  refine ⟨(hua.len.trans hlen).trans hvb.len.symm,fun j hj => ?_⟩
  have hlt : j.val < u.len.toNat := by
    rw [← hua.len]
    exact hj
  have hbytes := congrFun ((hua.value.trans hval).trans hvb.value.symm) j
  simp only [memcpy, hlt, hlen ▸ hlt, if_true] at hbytes
  exact hbytes

/-- Replica 0 proposes and commits; replica 1, which has not learned, proposes
another value, and replica 2 completes its quorum. -/
def rivalProposals [NeZero n] : List (Event n) :=
  [.propose 0 7 (fun _ => 1) 1,.deliver 0 0,.deliver 0 1,.deliver 1 0,.deliver 2 0,
    .propose 1 7 (fun _ => 2) 1,.deliver 5 1,.deliver 5 2,.deliver 6 1,.deliver 7 1]

theorem rival_values_committed :
    Along Sys.step (fun s e => Orderly s.world e) (Sys.init 3 10000) rivalProposals ∧
    (((run Sys.step (Sys.init 3 10000) rivalProposals).node 0).inst 7).isCommitted ∧
    (((run Sys.step (Sys.init 3 10000) rivalProposals).node 1).inst 7).isCommitted ∧
    (((run Sys.step (Sys.init 3 10000) rivalProposals).node 0).inst 7).committedValueLen = 1 ∧
    (((run Sys.step (Sys.init 3 10000) rivalProposals).node 0).inst 7).committedValue
      ⟨0,by decide⟩ = 1 ∧
    (((run Sys.step (Sys.init 3 10000) rivalProposals).node 1).inst 7).committedValue
      ⟨0,by decide⟩ = 2 := by
  decide +kernel

/-- Replica 0 proposes and commits; replica 1 then holds an election, finds
the value among the promises and commits it too. -/
def recoveredValue [NeZero n] : List (Event n) :=
  [.propose 0 7 (fun _ => 1) 1,.deliver 0 0,.deliver 0 1,.deliver 1 0,.deliver 2 0,
    .startLeaderElection 1 7,.deliver 5 1,.deliver 5 2,.deliver 6 1,.deliver 7 1,
    .deliver 8 1,.deliver 8 2,.deliver 9 1,.deliver 10 1]

theorem paxos_agreement_recovered :
    (((run Sys.step (Sys.init 3 10000) recoveredValue).node 0).inst 7).committedValueLen = 1 ∧
    (((run Sys.step (Sys.init 3 10000) recoveredValue).node 0).inst 7).committedValueLen =
      (((run Sys.step (Sys.init 3 10000) recoveredValue).node 1).inst 7).committedValueLen :=
  ⟨by decide +kernel,(paxos_agreement (by decide) 10000 recoveredValue (by decide +kernel) 7 0 1
    (by decide +kernel) (by decide +kernel)).1⟩

end SimBricks.PaxosNetwork
