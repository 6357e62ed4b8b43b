import SimBricks.Hcop.PaxosNetwork

/-!
# Proposal numbers and the values sent under them

A proposal number belongs to the replica named in it and is issued once, as
long as the round counter does not wrap; a reply answers a request that was
delivered to its sender. From this, one number carries one value as long as
no promise raises the tracked proposal after the Accept has gone out.
-/

set_option autoImplicit false

namespace SimBricks.PaxosNetwork
open PaxosProto PaxosState PaxosReplica PaxosAcceptor

/-- The reply answers the request: same phase, instance and number, and a
vote is for the value that was asked. -/
structure Answers (req rep : OutMessage) : Prop where
  key : request req.msg = reply rep.msg
  value : ∀ i v, voteOf i rep = some v →
    ∃ u, proposalOf i req = some u ∧ v = trim u.proposal u.len u.value

end SimBricks.PaxosNetwork

namespace SimBricks.PaxosReplica
open PaxosProto PaxosState PaxosAcceptor PaxosNetwork

variable {r t : Replica} {a : Act} {out : List OutMessage} {m : OutMessage}

lemma Effect.trims (h : Effect r a t out) (hm : m ∈ out) {i : UInt32} {v : Vote}
    (hv : proposalOf i m = some v) : Trimmed v := by
  cases (h.requested hm (proposalOf_request hv)).1 with
  | propose | lead =>
    obtain ⟨-,rfl⟩ := proposalOf_broadcast hv
    exact trimmed_trim _ _ _
  | elect => cases hv

lemma Effect.answers (req : OutMessage) (h : Effect r (.receive req.msg) t out) (hm : m ∈ out)
    (hk : reply m.msg ≠ none) : Answers req m := by
  rcases h.acceptor with ⟨-,ho⟩ | ⟨hdr,p,ha,-,-,ho⟩ | ⟨hdr,p,len,value,ha,-,-,ho⟩
  · exact absurd (ho m hm) hk
  · rw [ho, List.mem_singleton] at hm
    subst hm
    have hr : req.msg = .prepare hdr p := by injection ha
    refine ⟨by rw [hr]; rfl,?_⟩
    intro i v hv
    cases hv
  · rw [ho, List.mem_singleton] at hm
    subst hm
    have hr : req.msg = .accept hdr p len value := by injection ha
    refine ⟨by rw [hr]; rfl,?_⟩
    intro i v hv
    have hi : hdr.instanceId = i := by
      by_contra hi
      simp [voteOf, makeAccepted, Replica.header, hi] at hv
    refine ⟨⟨p,len,value⟩,by simp [proposalOf, hr, hi],?_⟩
    simpa [voteOf, makeAccepted, Replica.header, hi, trim] using hv.symm

lemma Effect.replies_received (h : Effect r a t out) (hm : m ∈ out) (hk : reply m.msg ≠ none) :
    ∃ req, a = .receive req := by
  rcases h.acceptor with ⟨-,ho⟩ | ⟨hdr,p,ha,-⟩ | ⟨hdr,p,_,_,ha,-⟩
  · exact absurd (ho m hm) hk
  · exact ⟨_,ha⟩
  · exact ⟨_,ha⟩

end SimBricks.PaxosReplica

namespace SimBricks.PaxosNetwork
open Library Library.Run PaxosProto PaxosState
open PaxosReplica PaxosAcceptor

variable {n : ℕ}

/-- The round counter of a replica that starts a proposal is not at its end. -/
def NoWrap (w : World n) : Event n → Prop
  | .propose k _ _ _ => (w.rep k).round ≠ 0xFFFFFFFF
  | .startLeaderElection k _ => (w.rep k).round ≠ 0xFFFFFFFF
  | .deliver _ _ => True

instance (w : World n) : DecidablePred (NoWrap w)
  | .propose _ _ _ _ | .startLeaderElection _ _ => inferInstanceAs (Decidable (_ ≠ _))
  | .deliver _ _ => .isTrue trivial

lemma succ_round {r : UInt32} (h : r ≠ 0xFFFFFFFF) : (r+1).toNat = r.toNat+1 := by
  have hne : r.toNat ≠ 4294967295 := fun hr => h (UInt32.toNat_inj.mp hr)
  have hlt := r.toNat_lt
  rw [UInt32.toNat_add, UInt32.toNat_one]
  omega

lemma NoWrap.succ {w : World n} {e : Event n} {k : Fin n} {a : Act} {del : List (ℕ × Fin n)}
    (h : NoWrap w e) (hc : w.Cause e k a del) (hb : Begins a) :
    ((w.rep k).round+1).toNat = (w.rep k).round.toNat+1 := by
  cases hc with
  | propose | elect => exact succ_round h
  | deliver => exact absurd hb not_false

/-! ## The facts every protocol argument starts from -/

def Own (k : Fin n) (round : UInt32) (p : ProposalNum) : Prop :=
  p.nodeId.toNat = k.val ∧ p.pad = 0 ∧ 0 < p.round.toNat ∧ p.round.toNat ≤ round.toNat

variable {p : ProposalNum} {d : Fin n} {q : ProposalNum} {ps : ProposerInstanceState}
variable {env : Envelope n} {ph : Phase} {hdr : MsgHeader}

lemma Own.mono {k : Fin n} {r r' : UInt32} (h : Own k r p) (hr : r.toNat ≤ r'.toNat) :
    Own k r' p := ⟨h.1,h.2.1,h.2.2.1,h.2.2.2.trans hr⟩

lemma Own.eq {k : Fin n} {r r' : UInt32} (hp : Own k r p) (hq : Own d r' q) (h : p.same q) :
    p = q := by
  obtain ⟨_,_,_⟩ := p
  obtain ⟨_,_,_⟩ := q
  obtain ⟨-,_,-⟩ := hp
  obtain ⟨-,_,-⟩ := hq
  obtain ⟨rfl,rfl⟩ := h
  simp_all

structure Base (w : World n) : Prop where
  id : ∀ k, (w.rep k).nodeId.toNat = k.val
  quorum : ∀ k, (w.rep k).quorum.toNat = n/2+1
  issued : ∀ env ∈ w.sent, ∀ ph i p, request env.out.msg = some (ph,i,p) →
    Own env.src (w.rep env.src).round p
  current : ∀ k i ps, (w.rep k).prop i = some ps → Own k (w.rep k).round ps.proposal
  latest : ∀ env ∈ w.sent, ∀ ph i p, request env.out.msg = some (ph,i,p) →
    ∃ ps, (w.rep env.src).prop i = some ps ∧ p ≤ ps.proposal
  answered : ∀ env ∈ w.sent, reply env.out.msg ≠ none →
    ∃ j req, w.sent[j]? = some req ∧ (j,env.src) ∈ w.delivered ∧ Answers req.out env.out
  trimmed : ∀ env ∈ w.sent, ∀ i v, proposalOf i env.out = some v → Trimmed v

section
variable {w : World n} {e : Event n} {k : Fin n} {a : Act} {t : Replica} {out : List OutMessage}
  {del : List (ℕ × Fin n)} {i : UInt32} (hb : Base w)
include hb

section
variable (hs : ((w.rep k).round+1).toNat = (w.rep k).round.toNat+1)
include hs

lemma Base.next_own : Own k ((w.rep k).round+1) (w.rep k).nextProposal := by
  refine ⟨?_,rfl,?_,?_⟩
  · simpa [Replica.nextProposal] using hb.id k
  · change 0 < ((w.rep k).round+1).toNat
    omega
  · exact le_rfl

lemma Base.fresh (hp : Own k (w.rep k).round p) : p < (w.rep k).nextProposal := by
  rw [ProposalNum.lt_iff_key]
  have hk := (hb.next_own hs).1
  have hr : (w.rep k).nextProposal.round.toNat = (w.rep k).round.toNat+1 := hs
  unfold ProposalNum.key
  rw [hr, hk, hp.1]
  have := hp.2.2.2
  omega

lemma Base.not_asked (ph : Phase) (i : UInt32) : ¬ w.Asked ph i (w.rep k).nextProposal := by
  rintro ⟨env,henv,hreq⟩
  have ho := hb.issued env henv ph i _ hreq
  have hk : env.src = k := Fin.ext (by rw [← ho.1, (hb.next_own hs).1])
  subst hk
  exact lt_irrefl _ (hb.fresh hs ho)

lemma Base.entry_ne (hps : (w.rep d).prop i = some ps) : ps.proposal ≠ (w.rep k).nextProposal := by
  intro h
  have ho := hb.current d i ps hps
  have hd : d = k := Fin.ext (by rw [← ho.1, h, (hb.next_own hs).1])
  subst hd
  exact (hb.fresh hs ho).ne h

end

lemma Base.entry_owner {i' : UInt32} {ps' : ProposerInstanceState}
    (hps : (w.rep k).prop i = some ps) (hps' : (w.rep d).prop i' = some ps')
    (h : ps'.proposal = ps.proposal) : d = k :=
  Fin.ext (by rw [← (hb.current d i' ps' hps').1, h, (hb.current k i ps hps).1])

/-- A reply that matches a proposer's number is an answer to its request. -/
lemma Base.reply_asked (henv : env ∈ w.sent) (hr : reply env.out.msg = some (ph,i,p))
    {i' : UInt32} (hps : (w.rep k).prop i' = some ps)
    (hs : p.same ps.proposal) : p = ps.proposal ∧ w.Asked ph i p := by
  obtain ⟨j,req,hj,-,hans⟩ := hb.answered env henv (by rw [hr]; exact Option.some_ne_none _)
  have hreq : request req.out.msg = some (ph,i,p) := hans.key.trans hr
  have hmem : req ∈ w.sent := List.mem_of_getElem? hj
  exact ⟨(hb.issued req hmem ph i p hreq).eq (hb.current k i' ps hps) hs,⟨req,hmem,hreq⟩⟩

section
variable (hs : Begins a → ((w.rep k).round+1).toNat = (w.rep k).round.toNat+1)
  (hd : Effect (w.rep k) a t out)
include hs hd

lemma Base.own_next (hps : t.prop i = some ps) : Own k t.round ps.proposal := by
  rcases hd.entry hps with ⟨hbeg,hp,hr⟩ | ⟨old,hold,hp⟩
  · rw [hp, hr]
    exact hb.next_own (hs hbeg)
  · rw [hp]
    exact (hb.current k i old hold).mono (hd.round_le hs)

open World

lemma Base.issued_next (henv : env ∈ (w.next k t out del).sent)
    (hreq : request env.out.msg = some (ph,i,p)) :
    Own env.src ((w.next k t out del).rep env.src).round p := by
  have hround : ∀ d, (w.rep d).round.toNat ≤ ((w.next k t out del).rep d).round.toNat :=
    next_forall (P := fun d r => (w.rep d).round.toNat ≤ r.round.toNat) (hd.round_le hs)
      fun _ => le_rfl
  rcases mem_next.mp henv with hold | ⟨rfl,hnew⟩
  · exact (hb.issued env hold ph i p hreq).mono (hround env.src)
  · obtain ⟨-,_,hps,rfl⟩ := hd.requested hnew hreq
    rw [next_rep_self]
    exact hb.own_next hs hd hps

lemma Base.latest_next (henv : env ∈ (w.next k t out del).sent)
    (hreq : request env.out.msg = some (ph,i,p)) :
    ∃ ps, ((w.next k t out del).rep env.src).prop i = some ps ∧ p ≤ ps.proposal := by
  rcases mem_next.mp henv with hold | ⟨rfl,hnew⟩
  · obtain ⟨old,hps,hle⟩ := hb.latest env hold ph i p hreq
    by_cases h : env.src = k
    · subst h
      rw [next_rep_self]
      obtain ⟨ps,hps',hp | ⟨hbeg,hp⟩⟩ := hd.stays hps
      · exact ⟨ps,hps',by rw [hp]; exact hle⟩
      · refine ⟨ps,hps',?_⟩
        rw [hp]
        exact (hb.fresh (hs hbeg) (hb.issued env hold ph i p hreq)).le
    · rw [next_rep_ne h]
      exact ⟨old,hps,hle⟩
  · obtain ⟨-,ps,hps,rfl⟩ := hd.requested hnew hreq
    rw [next_rep_self]
    exact ⟨ps,hps,le_rfl⟩

end

variable (hc : w.Cause e k a del) (he : Effect (w.rep k) a t out)
include hc he

lemma Base.answered_next (henv : env ∈ (w.next k t out del).sent)
    (hrep : reply env.out.msg ≠ none) :
    ∃ j req, (w.next k t out del).sent[j]? = some req ∧
    (j,env.src) ∈ (w.next k t out del).delivered ∧ Answers req.out env.out := by
  rcases World.mem_next.mp henv with hold | ⟨rfl,hnew⟩
  · obtain ⟨j,req,hj,hdel,hans⟩ := hb.answered env hold hrep
    exact ⟨j,req,World.getElem?_next_old hj,hc.grows hdel,hans⟩
  · cases hc with
    | propose | elect => obtain ⟨req,h⟩ := Effect.replies_received he hnew hrep; cases h
    | deliver j d req hj =>
      exact ⟨j,req,World.getElem?_next_old hj,List.mem_cons_self,
        Effect.answers req.out he hnew hrep⟩

lemma Base.next (hw : NoWrap w e) : Base (w.next k t out del) where
  id := by
    apply World.next_forall (P := fun d r => r.nodeId.toNat = d.val) ?_ hb.id
    rw [he.config.1]
    exact hb.id k
  quorum := by
    apply World.next_forall (P := fun _ r => r.quorum.toNat = n/2+1) ?_ hb.quorum
    rw [he.config.2.1]
    exact hb.quorum k
  issued _ henv _ _ _ hreq := hb.issued_next (hw.succ hc) he henv hreq
  current := by
    apply World.next_forall
      (P := fun d r => ∀ i ps, r.prop i = some ps → Own d r.round ps.proposal) ?_ hb.current
    intro i ps hps
    exact hb.own_next (hw.succ hc) he hps
  latest _ henv _ _ _ hreq := hb.latest_next (hw.succ hc) he henv hreq
  answered _ henv hrep := hb.answered_next hc he henv hrep
  trimmed env henv i v hv := by
    rcases World.mem_next.mp henv with hold | ⟨-,hnew⟩
    · exact hb.trimmed env hold i v hv
    · exact Effect.trims he hnew hv

end

lemma base_init (hn : n ≤ 5) (maxInstances : UInt32) : Base (Sys.init n maxInstances).world := by
  have hq : ((UInt16.ofNat n)/2+1).toNat = n/2+1 := by
    have hlt : n < 2^16 := by omega
    rw [UInt16.toNat_add, UInt16.toNat_div, UInt16.toNat_ofNat_of_lt' hlt]
    exact Nat.mod_eq_of_lt (by change n/2+1 < 2^16; omega)
  refine ⟨fun k => ?_,fun k => hq,nofun,nofun,nofun,nofun,nofun⟩
  exact UInt8.toNat_ofNat_of_lt' (by have := k.isLt; change k.val < 2^8; omega)

/-! ## One value per number -/

/-- The promise a delivery hands to the proposer that waits for it: its
instance, the proposer's entry and the accepted proposal it reports. -/
def counted (w : World n) (j : ℕ) (d : Fin n) :
    Option (UInt32 × ProposerInstanceState × ProposalNum) :=
  match w.sent[j]? with
  | some env =>
    match env.out.msg with
    | .promise hdr p acc _ _ =>
      match (w.rep d).prop hdr.instanceId with
      | some ps =>
        if env.Addressed d ∧ p.same ps.proposal then some (hdr.instanceId,ps,acc) else none
      | none => none
    | _ => none
  | none => none

lemma counted_eq {w : World n} {j : ℕ} {acc : ProposalNum} {len : UInt16} {value : Value}
    (hj : w.sent[j]? = some env) (ha : env.Addressed d)
    (hm : env.out.msg = .promise hdr p acc len value)
    (hps : (w.rep d).prop hdr.instanceId = some ps) (hs : p.same ps.proposal) :
    counted w j d = some (hdr.instanceId,ps,acc) := by
  simp [counted, hj, hm, hps, ha, hs]

/-- Where a new request comes from: a call that takes a new number, or the
promise that completes an election. -/
lemma Base.new_request {w : World n} {e : Event n} {k : Fin n} {a : Act} {t : Replica}
    {out : List OutMessage} {del : List (ℕ × Fin n)} (hb : Base w) (hc : w.Cause e k a del)
    (he : Effect (w.rep k) a t out) {m : OutMessage} (hm : m ∈ out) {i : UInt32}
    (hr : request m.msg = some (ph,i,p)) :
    (∃ value len, e = .propose k i value len ∧ ((w.rep k).inst i).isCommitted = false ∧
      p = (w.rep k).nextProposal) ∨
    (e = .startLeaderElection k i ∧ ph = .one ∧ p = (w.rep k).nextProposal) ∨
    (∃ ps j acc, e = .deliver j k ∧ counted w j k = some (i,ps,acc) ∧ ph = .two ∧
      p = ps.proposal ∧ w.Asked .one i p) := by
  cases (he.requested hm hr).1 with
  | propose id value len hcom =>
    cases hr
    cases hc
    exact .inl ⟨value,len,rfl,hcom,rfl⟩
  | elect =>
    cases hr
    cases hc
    exact .inr (.inl ⟨rfl,rfl,rfl⟩)
  | lead hdr q acc len value ps hps hsame =>
    cases hr
    obtain ⟨j,env,rfl,hj,haddr,hmsg,-⟩ := hc.received
    have hrep : reply env.out.msg = some (.one,hdr.instanceId,q) := by rw [hmsg]; rfl
    obtain ⟨rfl,hask⟩ := hb.reply_asked (List.mem_of_getElem? hj) hrep hps hsame
    have hcount := counted_eq hj haddr hmsg hps hsame
    exact .inr (.inr ⟨ps,j,acc,rfl,hcount,rfl,rfl,hask⟩)

/-- A promise for a proposal whose Accept is already out, reporting a higher
accepted proposal than those before it. -/
def Revises (w : World n) : Event n → Prop
  | .deliver j d => ∃ x ∈ counted w j d, w.Asked .two x.1 x.2.1.proposal ∧ x.2.1.Raises x.2.2
  | _ => False

instance (w : World n) : DecidablePred (Revises w)
  | .deliver j d => inferInstanceAs (Decidable (∃ x ∈ counted w j d, _))
  | .propose _ _ _ _ => .isFalse not_false
  | .startLeaderElection _ _ => .isFalse not_false

def Proposed (w : World n) (i : UInt32) (v : Vote) : Prop :=
  ∃ env ∈ w.sent, proposalOf i env.out = some v
  deriving Decidable

lemma Proposed.asked {w : World n} {i : UInt32} {v : Vote} (h : Proposed w i v) :
    w.Asked .two i v.proposal := by
  obtain ⟨env,henv,hv⟩ := h
  obtain ⟨_,rfl,hm⟩ := proposalOf_some hv
  exact ⟨env,henv,by rw [hm]; rfl⟩

structure OneValue (w : World n) : Prop extends Base w where
  one : ∀ i u v, Proposed w i u → Proposed w i v → u.proposal = v.proposal → u = v
  held : ∀ k i ps v, (w.rep k).prop i = some ps → w.Asked .one i ps.proposal →
    Proposed w i v → v.proposal = ps.proposal → v = trim ps.proposal ps.useLen ps.useValue

section
variable {w : World n} {e : Event n} {k : Fin n} {a : Act} {t : Replica} {out : List OutMessage}
  {del : List (ℕ × Fin n)}

lemma proposed_next {i : UInt32} {v : Vote} :
    Proposed (w.next k t out del) i v ↔ Proposed w i v ∨ ∃ m ∈ out, proposalOf i m = some v := by
  constructor
  · rintro ⟨env,henv,hv⟩
    rcases World.mem_next.mp henv with hold | ⟨-,hnew⟩
    · exact .inl ⟨env,hold,hv⟩
    · exact .inr ⟨env.out,hnew,hv⟩
  · rintro (⟨env,hold,hv⟩ | ⟨m,hnew,hv⟩)
    · exact ⟨env,World.mem_next.mpr (.inl hold),hv⟩
    · exact ⟨⟨k,m⟩,World.mem_next.mpr (.inr ⟨rfl,hnew⟩),hv⟩

lemma proposed_next_quiet (ho : ∀ m ∈ out, request m.msg = none) {i : UInt32} {v : Vote} :
    Proposed (w.next k t out del) i v ↔ Proposed w i v := by
  rw [proposed_next]
  refine or_iff_left ?_
  rintro ⟨m,hm,hv⟩
  have hr := proposalOf_request hv
  rw [ho m hm] at hr
  cases hr

lemma asked_next_quiet (ho : ∀ m ∈ out, request m.msg = none) {i : UInt32} :
    (w.next k t out del).Asked ph i p ↔ w.Asked ph i p := by
  rw [World.asked_next]
  refine or_iff_left ?_
  rintro ⟨m,hm,hr⟩
  rw [ho m hm] at hr
  cases hr

/-- A step that asks nothing. An entry it writes keeps its number and, once
its Accept is out, the value it would propose. -/
lemma OneValue.quiet (h : OneValue w) (hb : Base (w.next k t out del))
    (ho : ∀ m ∈ out, request m.msg = none)
    (hentry : ∀ d i ps, ((w.next k t out del).rep d).prop i = some ps →
      ∃ old, (w.rep d).prop i = some old ∧ ps.proposal = old.proposal ∧
        (w.Asked .two i old.proposal → ps.useLen = old.useLen ∧ ps.useValue = old.useValue)) :
    OneValue (w.next k t out del) := by
  refine ⟨hb,?_,?_⟩
  · intro i u v hu hv
    exact h.one i u v ((proposed_next_quiet ho).mp hu) ((proposed_next_quiet ho).mp hv)
  · intro d i ps v hps hask hv hvp
    obtain ⟨old,hold,hp,huse⟩ := hentry d i ps hps
    rw [asked_next_quiet ho, hp] at hask
    rw [proposed_next_quiet ho] at hv
    rw [hp] at hvp ⊢
    obtain ⟨hl,hval⟩ := huse (hvp ▸ hv.asked)
    rw [hl, hval]
    exact h.held d i old v hold hask hv hvp

variable {new : ProposerInstanceState}

lemma OneValue.touch (h : OneValue w) (hb : Base (w.next k t out del))
    (ho : ∀ m ∈ out, request m.msg = none) {id : UInt32} {old : ProposerInstanceState}
    (hold : (w.rep k).prop id = some old)
    (ht : t.prop = Function.update (w.rep k).prop id (some new)) (hp : new.proposal = old.proposal)
    (hu : w.Asked .two id old.proposal → new.useLen = old.useLen ∧ new.useValue = old.useValue) :
    OneValue (w.next k t out del) := by
  refine h.quiet hb ho fun d i ps hps => ?_
  rcases World.next_entry ht hps with ⟨rfl,rfl,rfl⟩ | ⟨-,hps⟩
  · exact ⟨old,hold,hp,hu⟩
  · exact ⟨ps,hps,rfl,fun _ => ⟨rfl,rfl⟩⟩

lemma OneValue.announce (h : OneValue w) (hb : Base (w.next k t out del)) {len : UInt16}
    {value : Value} (ho : out = [makeAcceptBroadcast hdr q len value])
    (ht : t.prop = Function.update (w.rep k).prop hdr.instanceId (some new)) (hq : new.proposal = q)
    (howner : ∀ d i ps, (w.rep d).prop i = some ps → ps.proposal = q → d = k)
    (hold : ∀ v, Proposed w hdr.instanceId v → v.proposal = q → v = trim q len value)
    (huse : w.Asked .one hdr.instanceId q → trim q len value = trim q new.useLen new.useValue) :
    OneValue (w.next k t out del) := by
  have hnew : ∀ {i v}, Proposed (w.next k t out del) i v → Proposed w i v ∨
      (i = hdr.instanceId ∧ v = trim q len value) := by
    intro i v hv
    rcases proposed_next.mp hv with hv | ⟨m,hm,hv⟩
    · exact .inl hv
    · rw [ho, List.mem_singleton] at hm
      subst hm
      obtain ⟨hi,hv⟩ := proposalOf_broadcast hv
      exact .inr ⟨hi.symm,hv⟩
  refine ⟨hb,?_,?_⟩
  · intro i u v hu hv hpuv
    rcases hnew hu with hu | ⟨hi,rfl⟩ <;> rcases hnew hv with hv | ⟨hi',rfl⟩
    · exact h.one i u v hu hv hpuv
    · subst hi'
      exact hold u hu hpuv
    · subst hi
      exact (hold v hv hpuv.symm).symm
    · rfl
  · intro d i ps v hps hask hv hvp
    have hask' : w.Asked .one i ps.proposal := by
      rcases World.asked_next.mp hask with hask | ⟨m,hm,hreq⟩
      · exact hask
      · rw [ho, List.mem_singleton] at hm
        subst hm
        cases hreq
    rcases World.next_entry ht hps with ⟨rfl,rfl,rfl⟩ | ⟨hne,hps⟩
    · subst hq
      rcases hnew hv with hv | ⟨-,rfl⟩
      · rw [hold v hv hvp]
        exact huse hask'
      · exact huse hask'
    · rcases hnew hv with hv | ⟨rfl,rfl⟩
      · exact h.held d i ps v hps hask' hv hvp
      · exact absurd rfl (hne (howner d _ ps hps hvp.symm))

lemma OneValue.open (h : OneValue w) (hb : Base (w.next k t out del))
    (ho : out = [makePrepareBroadcast hdr q])
    (ht : t.prop = Function.update (w.rep k).prop hdr.instanceId (some new)) (hq : new.proposal = q)
    (hfresh : ∀ i, ¬ w.Asked .two i q)
    (howner : ∀ d i ps, (w.rep d).prop i = some ps → ps.proposal ≠ q) :
    OneValue (w.next k t out del) := by
  have hold : ∀ {i v}, Proposed (w.next k t out del) i v → Proposed w i v := by
    intro i v hv
    rcases proposed_next.mp hv with hv | ⟨m,hm,hv⟩
    · exact hv
    · rw [ho, List.mem_singleton] at hm
      subst hm
      cases hv
  refine ⟨hb,fun i u v hu hv => h.one i u v (hold hu) (hold hv),?_⟩
  intro d i ps v hps hask hv hvp
  rcases World.next_entry ht hps with ⟨rfl,rfl,rfl⟩ | ⟨-,hps⟩
  · have := (hold hv).asked
    rw [hvp, hq] at this
    exact absurd this (hfresh _)
  · rcases World.asked_next.mp hask with hask | ⟨m,hm,hreq⟩
    · exact h.held d i ps v hps hask (hold hv) hvp
    · rw [ho, List.mem_singleton] at hm
      subst hm
      simp only [makePrepareBroadcast, request, Option.some.injEq, Prod.mk.injEq] at hreq
      exact absurd hreq.2.2.symm (howner d i ps hps)

lemma OneValue.next (h : OneValue w) (hw : NoWrap w e) (hr : ¬ Revises w e)
    (hc : w.Cause e k a del) (he : Effect (w.rep k) a t out) : OneValue (w.next k t out del) := by
  have hb : Base (w.next k t out del) := h.toBase.next hc he hw
  have hs := hw.succ hc
  cases he with
  | propose id value len hl hcom =>
    refine h.announce hb rfl rfl rfl ?_ ?_ ?_
    · intro d i ps hps hq
      exact absurd hq (h.entry_ne (hs trivial) hps)
    · intro v hv hq
      exact absurd (hq ▸ hv.asked) (h.not_asked (hs trivial) _ _)
    · intro hask
      exact absurd hask (h.not_asked (hs trivial) _ _)
  | elect id =>
    exact h.open hb rfl rfl rfl (h.not_asked (hs trivial) .two)
      fun d i ps hps => h.entry_ne (hs trivial) hps
  | count hdr p acc len value ps hps hsame hq =>
    refine h.touch hb (by simp) hps rfl (by simp) fun hask => ?_
    obtain ⟨j,env,rfl,hj,haddr,hm,-⟩ := hc.received
    exact ps.promised_use acc len value fun hraise =>
      hr ⟨_,counted_eq hj haddr hm hps hsame,hask,hraise⟩
  | lead hdr p acc len value ps hps hsame hq =>
    obtain ⟨j,env,rfl,hj,haddr,hm,-⟩ := hc.received
    have hrep : reply env.out.msg = some (.one,hdr.instanceId,p) := by rw [hm]; rfl
    obtain ⟨hpeq,hask⟩ := h.reply_asked (List.mem_of_getElem? hj) hrep hps hsame
    rw [hpeq] at hask
    have hown := ps.promised_proposal acc len value
    refine h.announce hb (congrArg (fun q => [makeAcceptBroadcast _ q _ _]) hown) rfl hown
      (fun d i qs hqs hq => h.entry_owner hps hqs hq) ?_ fun _ => rfl
    intro v hv hvp
    obtain ⟨hul,huv⟩ := ps.promised_use acc len value fun hraise =>
      hr ⟨_,counted_eq hj haddr hm hps hsame,hvp ▸ hv.asked,hraise⟩
    rw [hul, huv]
    exact h.held _ _ ps v hps hask hv hvp
  | tally hdr p len value ps hps =>
    exact h.touch hb (by simp) hps rfl rfl fun _ => ⟨rfl,rfl⟩
  | commit hdr p len value ps hps =>
    refine h.touch hb ?_ hps rfl rfl fun _ => ⟨rfl,rfl⟩
    intro m hm
    rw [learnOthers_learn hm]
    rfl
  | _ =>
    refine h.quiet hb ?_ fun d i ps hps =>
      ⟨ps,World.next_entry_rest hps rfl,rfl,fun _ => ⟨rfl,rfl⟩⟩
    simp [makePromise, makeNack, makeLearn, makeAccepted, request]

end

lemma oneValue_init (hn : n ≤ 5) (maxInstances : UInt32) :
    OneValue (Sys.init n maxInstances).world := by
  refine ⟨base_init hn maxInstances,?_,nofun⟩
  rintro i u v ⟨_,henv,-⟩
  cases henv

/-- One number carries one value, in every run in which no round counter
wraps and no promise raises a proposal whose Accept is already out. -/
theorem accept_value_unique (hn : 3 ≤ n ∧ n ≤ 5) (maxInstances : UInt32) (es : List (Event n))
    (h : Along Sys.step (fun s e => NoWrap s.world e ∧ ¬ Revises s.world e)
      (Sys.init n maxInstances) es) (i : UInt32) (u v : Vote)
    (hu : Proposed (run Sys.step (Sys.init n maxInstances) es).world i u)
    (hv : Proposed (run Sys.step (Sys.init n maxInstances) es).world i v)
    (hs : u.proposal.same v.proposal) : u.len = v.len ∧ u.value = v.value := by
  have hinv : OneValue (run Sys.step (Sys.init n maxInstances) es).world :=
    Sys.invariant (C := fun w e => NoWrap w e ∧ ¬ Revises w e)
      (fun w e k a t out del hi hc hcause he => hi.next hc.1 hc.2 hcause he)
      (oneValue_init hn.2 maxInstances) h
  obtain ⟨eu,heu,hru⟩ := hu.asked
  obtain ⟨ev,hev,hrv⟩ := hv.asked
  have hp : u.proposal = v.proposal :=
    (hinv.issued eu heu _ _ _ hru).eq (hinv.issued ev hev _ _ _ hrv) hs
  have := hinv.one i u v hu hv hp
  exact ⟨congrArg Vote.len this,congrArg Vote.value this⟩

/-- Replica 1 wins an election for instance 7 with the promises of replicas
1 and 2; replica 0 had accepted a value and its promise comes third. -/
def lateRaise [NeZero n] : List (Event n) :=
  [.propose 0 7 (fun _ => 5) 1,.deliver 0 0,.startLeaderElection 1 7,.deliver 2 1,.deliver 2 2,
    .deliver 2 0,.deliver 3 1,.deliver 4 1,.deliver 5 1]

theorem accept_value_revised :
    Along Sys.step (fun s e => s.world.Fresh e ∧ NoWrap s.world e) (Sys.init 3 10000) lateRaise ∧
    Proposed (run Sys.step (Sys.init 3 10000) lateRaise).world 7 (trim ⟨1,1,0⟩ 0 zeroValue) ∧
    Proposed (run Sys.step (Sys.init 3 10000) lateRaise).world 7 (trim ⟨1,1,0⟩ 1 fun _ => 5) ∧
    (trim ⟨1,1,0⟩ 0 zeroValue).len ≠ (trim ⟨1,1,0⟩ 1 fun _ => 5).len := by
  decide +kernel

theorem accept_value_unique_election :
    Proposed (run Sys.step (Sys.init 3 10000) (lateRaise.take 8)).world 7
      (trim ⟨1,1,0⟩ 0 zeroValue) ∧
    ∀ v, Proposed (run Sys.step (Sys.init 3 10000) (lateRaise.take 8)).world 7 v →
      v.proposal.same ⟨1,1,0⟩ →
        clampLen 0 = v.len ∧ memcpy zeroValue zeroValue (clampLen 0).toNat = v.value := by
  have hp : Proposed (run Sys.step (Sys.init 3 10000) (lateRaise.take 8)).world 7
      (trim ⟨1,1,0⟩ 0 zeroValue) := by decide +kernel
  refine ⟨hp,fun v hv hs => ?_⟩
  exact accept_value_unique (by decide) 10000 (lateRaise.take 8) (by decide +kernel) 7
    (trim ⟨1,1,0⟩ 0 zeroValue) v hp hv ⟨hs.1.symm,hs.2.symm⟩

end SimBricks.PaxosNetwork
