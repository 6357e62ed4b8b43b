import SimBricks.Hcop.PaxosTally

/-!
# Elections and proposals that skip them

A proposal with a Prepare behind it takes its value from a majority of
promises, and promises bind the votes of their senders for good. A proposal
without one is only harmless while every other replica's proposal for the
instance is above it.
-/

set_option autoImplicit false

namespace SimBricks.PaxosNetwork
open Library Library.Run PaxosProto PaxosState
open PaxosReplica PaxosAcceptor

variable {n : ℕ}

/-- A proposal that skips its election starts below all proposals of other
replicas for the instance, and these stay above it. -/
def Unopposed (w : World n) : Event n → Prop
  | .propose k i _ _ => ((w.rep k).inst i).isCommitted = false →
      ∀ env ∈ w.sent, env.src ≠ k → ∀ x ∈ request env.out.msg, x.2.1 = i →
        (w.rep k).nextProposal < x.2.2 ∧ w.Asked .one i x.2.2
  | .startLeaderElection k i =>
      ∀ env ∈ w.sent, env.src ≠ k → ∀ x ∈ request env.out.msg, x.2.1 = i →
        ¬ w.Asked .one i x.2.2 → x.2.2 < (w.rep k).nextProposal
  | .deliver _ _ => True

instance (w : World n) : DecidablePred (Unopposed w)
  | .propose _ _ _ _ => inferInstanceAs (Decidable (_ → ∀ env ∈ w.sent, _))
  | .startLeaderElection _ _ => inferInstanceAs (Decidable (∀ env ∈ w.sent, _))
  | .deliver _ _ => .isTrue trivial

def World.said (w : World n) (a : Fin n) : List OutMessage :=
  (w.sent.filter (·.src = a)).map Envelope.out

open World

lemma World.mem_said {w : World n} {a : Fin n} {m : OutMessage} :
    m ∈ w.said a ↔ ∃ env ∈ w.sent, env.src = a ∧ env.out = m := by
  simp only [said, List.mem_map, List.mem_filter, decide_eq_true_eq, and_assoc]

def Cast (w : World n) (i : UInt32) (v : Vote) : Prop := ∃ env ∈ w.sent, voteOf i env.out = some v

structure Tracked (w : World n) (i : UInt32) (ps : ProposerInstanceState) (J : List ℕ) : Prop where
  bound : ∀ j ∈ J, ∀ env : Envelope n, w.sent[j]? = some env → ∀ p u,
    promiseOf i env.out = some (p,u) → u.proposal ≤ ps.highestAcceptedInPromises
  source : ps.highestAcceptedInPromises.isNull ∨
    (ps.highestAcceptedInPromises < ps.proposal ∧ Cast w i
      (trim ps.highestAcceptedInPromises ps.highestAcceptedValueLen ps.highestAcceptedValue))

/-- A majority promised the number; no promise reports a vote above `top`,
and `top` is null or a vote for the value proposed. -/
def Elected (w : World n) (i : UInt32) (v : Vote) : Prop :=
  ∃ P : Finset (Fin n), n/2+1 ≤ P.card ∧ ∃ top : ProposalNum,
    (∀ a ∈ P, ∃ env ∈ w.sent, env.src = a ∧ ∃ u, promiseOf i env.out = some (v.proposal,u) ∧
      u.proposal ≤ top) ∧
    (top.isNull ∨ (top < v.proposal ∧ Cast w i ⟨top,v.len,v.value⟩))

/-- The promises counted so far are promises of as many acceptors. -/
def Vowed (w : World n) (k : Fin n) (i : UInt32) (ps : ProposerInstanceState) : Prop :=
  ps.promiseCount.toNat < n/2+1 ∧
  ∃ J, Receipts w k (.one,i,ps.proposal) J ∧ J.length = ps.promiseCount.toNat ∧ Tracked w i ps J

structure Led (w : World n) : Prop extends Counted w where
  sound : ∀ a, Sound (w.rep a) (w.said a)
  vowed : ∀ k i ps, (w.rep k).prop i = some ps → w.Asked .one i ps.proposal →
    ¬ w.Asked .two i ps.proposal → Vowed w k i ps
  elected : ∀ i v, Proposed w i v → w.Asked .one i v.proposal → Elected w i v
  skips : ∀ x ∈ w.sent, ∀ y ∈ w.sent, y.src ≠ x.src → ∀ ph ph' i p q,
    request x.out.msg = some (ph,i,p) → request y.out.msg = some (ph',i,q) →
    ¬ w.Asked .one i p → p < q

section
variable {w : World n} {e : Event n} {k : Fin n} {a : Act} {t : Replica} {out : List OutMessage}
  {del : List (ℕ × Fin n)}

variable {i : UInt32} {v : Vote} {ps : ProposerInstanceState} {d : Fin n} {env : Envelope n}
variable {p acc : ProposalNum} {j : ℕ} {len : UInt16} {value : Value} {hdr : MsgHeader}

lemma Cast.next (h : Cast w i v) : Cast (w.next k t out del) i v := by
  obtain ⟨env,henv,hv⟩ := h
  exact ⟨env,mem_next.mpr (.inl henv),hv⟩

lemma Elected.next (h : Elected w i v) : Elected (w.next k t out del) i v := by
  obtain ⟨P,hP,top,hall,htop⟩ := h
  refine ⟨P,hP,top,?_,htop.imp id fun ⟨hlt,hc⟩ => ⟨hlt,hc.next⟩⟩
  intro a ha
  obtain ⟨env,henv,h⟩ := hall a ha
  exact ⟨env,mem_next.mpr (.inl henv),h⟩

lemma Tracked.next {J : List ℕ} (h : Tracked w i ps J)
    (hJ : ∀ j ∈ J, ∃ env : Envelope n, w.sent[j]? = some env) :
    Tracked (w.next k t out del) i ps J := by
  refine ⟨?_,h.source.imp id fun ⟨hlt,hc⟩ => ⟨hlt,hc.next⟩⟩
  intro j hj env henv
  obtain ⟨env',henv'⟩ := hJ j hj
  rw [getElem?_next_old henv'] at henv
  obtain rfl : env' = env := Option.some.inj henv
  exact h.bound j hj env' henv'

lemma Vowed.next (hc : w.Cause e k a del) (h : Vowed w d i ps) :
    Vowed (w.next k t out del) d i ps := by
  obtain ⟨hlt,J,hJ,hlen,ht⟩ := h
  refine ⟨hlt,J,hJ.next hc,hlen,ht.next fun j hj => ?_⟩
  obtain ⟨-,env,henv,-⟩ := hJ.received j hj
  exact ⟨env,henv⟩

lemma Vowed.congr (h : Vowed w d i ps) (c : UInt16) (b : Bool) :
    Vowed w d i { ps with acceptedCount := c, committed := b } := by
  obtain ⟨hlt,J,hJ,hlen,ht⟩ := h
  exact ⟨hlt,J,hJ,hlen,ht.bound,ht.source⟩

lemma Base.cast_proposed (hb : Base w) (h : Cast w i v) : Proposed w i v := by
  obtain ⟨env,henv,hv⟩ := h
  have hrep := voteOf_reply hv
  obtain ⟨j,req,hj,-,hans⟩ := hb.answered env henv (by rw [hrep]; exact Option.some_ne_none _)
  obtain ⟨u,hu,rfl⟩ := hans.value i v hv
  have hmem := List.mem_of_getElem? hj
  have ht : trim u.proposal u.len u.value = u := hb.trimmed req hmem i u hu
  rw [ht]
  exact ⟨req,hmem,hu⟩

lemma Base.proposed_trimmed (hb : Base w) (h : Proposed w i v) : Trimmed v := by
  obtain ⟨env,henv,hv⟩ := h
  exact hb.trimmed env henv i v hv

lemma Led.sound_next (h : Led w) (he : Effect (w.rep k) a t out) (d : Fin n) :
    Sound ((w.next k t out del).rep d) ((w.next k t out del).said d) := by
  by_cases hd : d = k
  · subst hd
    have hsaid : (w.next d t out del).said d = w.said d ++ out := by
      simp [said, next, List.filter_append, List.filter_map, Function.comp_def]
    rw [hsaid, next_rep_self]
    exact (h.sound d).effect he
  · have hsaid : (w.next k t out del).said d = w.said d := by
      simp [said, next, List.filter_append, List.filter_map, Function.comp_def, Ne.symm hd]
    rw [hsaid, next_rep_ne hd]
    exact h.sound d

lemma Led.report (h : Led w) (henv : env ∈ w.sent) {u : Vote}
    (hp : promiseOf i env.out = some (p,u)) :
    u.proposal < p ∧ (u = ⟨.null,0,zeroValue⟩ ∨ Cast w i u) ∧ ∀ x ∈ w.sent, x.src = env.src → ∀ v,
    voteOf i x.out = some v → v.proposal < p → v.proposal ≤ u.proposal := by
  obtain ⟨hlt,hsrc,hall⟩ := ((h.sound env.src) i).report
    (mem_said.mpr ⟨env,henv,rfl,rfl⟩) hp
  refine ⟨hlt,hsrc.imp id ?_,?_⟩
  · intro hu
    obtain ⟨m,hm,hv⟩ := List.mem_filterMap.mp hu
    obtain ⟨x,hx,-,rfl⟩ := mem_said.mp hm
    exact ⟨x,hx,hv⟩
  · intro x hx hsx v hv
    exact hall v (List.mem_filterMap.mpr ⟨x.out,mem_said.mpr ⟨x,hx,hsx,rfl⟩,hv⟩)

open ProposerInstanceState

lemma Tracked.promised (hb : Base w) {J : List ℕ} (h : Tracked w i ps J)
    (hj : w.sent[j]? = some env) (hm : promiseOf i env.out = some (ps.proposal,⟨acc,len,value⟩))
    (hlt : acc < ps.proposal)
    (hsrc : (⟨acc,len,value⟩ : Vote) = ⟨.null,0,zeroValue⟩ ∨ Cast w i ⟨acc,len,value⟩) :
    Tracked w i (ps.promised acc len value) (j::J) := by
  obtain ⟨hold,hnew⟩ := ps.promised_highest acc len value
  refine ⟨?_,?_⟩
  · intro j' hj' env' henv' p u hu
    rcases List.mem_cons.mp hj' with rfl | hj'
    · cases hj.symm.trans henv'
      rw [hm] at hu
      cases hu
      exact hnew
    · exact (h.bound j' hj' env' henv' p u hu).trans hold
  · unfold ProposerInstanceState.promised
    by_cases hr : ps.Raises acc
    · rw [if_pos hr]
      refine .inr ⟨hlt,?_⟩
      rcases hsrc with hnull | hcast
      · injection hnull with hacc
        exact absurd (hacc ▸ ⟨rfl,rfl⟩) hr.1
      · have ht : trim acc len value = ⟨acc,len,value⟩ :=
          hb.proposed_trimmed (hb.cast_proposed hcast)
        simp only [trim, memcpy_memcpy]
        rw [← trim, ht]
        exact hcast
    · rw [if_neg hr]
      exact h.source

variable (h : Led w)
include h

section
variable (hj : w.sent[j]? = some env) (hm : env.out.msg = .promise hdr p acc len value)
  (hps : (w.rep d).prop hdr.instanceId = some ps) (hs : p.same ps.proposal)
include hj hm hps hs

lemma Led.promise :
    w.Asked .one hdr.instanceId ps.proposal ∧
    reply env.out.msg = some (.one,hdr.instanceId,ps.proposal) ∧
    promiseOf hdr.instanceId env.out = some (ps.proposal,⟨acc,len,value⟩) ∧ ∀ J,
    Tracked w hdr.instanceId ps J →
    Tracked w hdr.instanceId (ps.promised acc len value) (j::J) := by
  have hmem := List.mem_of_getElem? hj
  have hrep : reply env.out.msg = some (.one,hdr.instanceId,p) := by rw [hm]; rfl
  obtain ⟨rfl,hask⟩ := h.reply_asked hmem hrep hps hs
  have hprom : promiseOf hdr.instanceId env.out = some (ps.proposal,⟨acc,len,value⟩) := by
    simp [promiseOf, hm]
  obtain ⟨hlt,hsrc,-⟩ := h.report hmem hprom
  exact ⟨hask,hrep,hprom,fun J hJ => hJ.promised h.toBase hj hprom hlt hsrc⟩

variable (hf : (j,d) ∉ w.delivered) (htwo : ¬ w.Asked .two hdr.instanceId ps.proposal)
include hf htwo

lemma Led.vowed_count (hn : n ≤ 5)
    (hq : ¬ (w.rep d).quorum ≤ (ps.promised acc len value).promiseCount) :
    Vowed (w.next d t out ((j,d)::w.delivered)) d hdr.instanceId (ps.promised acc len value) := by
  obtain ⟨hask,hrep,-,htrack⟩ := h.promise hj hm hps hs
  obtain ⟨_,J,hJ,hlen,ht⟩ := h.vowed _ _ ps hps hask htwo
  have hsucc : (ps.promiseCount+1).toNat = ps.promiseCount.toNat+1 := by
    rw [UInt16.toNat_add, UInt16.toNat_one]
    omega
  rw [UInt16.le_iff_toNat_le, h.quorum, not_le] at hq
  refine ⟨hq,j::J,?_,?_,(htrack J ht).next ?_⟩
  · rw [promised_proposal]
    exact hJ.cons hj hrep hf
  · rw [List.length_cons, hlen, promised_promiseCount, hsucc]
  · intro q hmem
    rcases List.mem_cons.mp hmem with rfl | hmem
    · exact ⟨env,hj⟩
    · obtain ⟨-,x,hx,-⟩ := hJ.received q hmem
      exact ⟨x,hx⟩

/-- The promise that completes a majority elects the value it leaves. -/
lemma Led.elects (hq : (w.rep d).quorum ≤ (ps.promised acc len value).promiseCount) :
    Elected w hdr.instanceId
    (trim ps.proposal (ps.promised acc len value).useLen (ps.promised acc len value).useValue) := by
  obtain ⟨hask,hrep,_,htrack⟩ := h.promise hj hm hps hs
  obtain ⟨hlt,J,hJ,_,ht⟩ := h.vowed _ _ ps hps hask htwo
  obtain ⟨P,_,hP⟩ := h.senders_cons hJ hj hrep hf
  have htr := htrack J ht
  rw [UInt16.le_iff_toNat_le, h.quorum, promised_promiseCount,
    UInt16.toNat_add, UInt16.toNat_one] at hq
  refine ⟨P,by omega,(ps.promised acc len value).highestAcceptedInPromises,?_,?_⟩
  · intro a ha
    obtain ⟨q,hq,x,hx,hsrc,hr⟩ := hP a ha
    obtain ⟨u,hu⟩ := reply_promiseOf hr
    exact ⟨x,List.mem_of_getElem? hx,hsrc,u,hu,htr.bound q hq x hx _ _ hu⟩
  · rcases htr.source with hnull | ⟨hlt,hcast⟩
    · exact .inl hnull
    · by_cases hnull : (ps.promised acc len value).highestAcceptedInPromises.isNull
      · exact .inl hnull
      · rw [promised_proposal] at hlt
        refine .inr ⟨hlt,?_⟩
        simpa [trim, useLen, useValue, hnull] using hcast

end

variable (hc : w.Cause e k a del) (he : Effect (w.rep k) a t out)
include hc he

lemma Led.skips_next (hb : Base (w.next k t out del)) (hu : Unopposed w e) (x : Envelope n)
    (hx : x ∈ (w.next k t out del).sent) (y : Envelope n) (hy : y ∈ (w.next k t out del).sent)
    (hne : y.src ≠ x.src) (ph ph' : Phase) (i : UInt32) (p q : ProposalNum)
    (hp : request x.out.msg = some (ph,i,p)) (hq : request y.out.msg = some (ph',i,q))
    (hskip : ¬ (w.next k t out del).Asked .one i p) : p < q := by
  have hskip' : ¬ w.Asked .one i p := fun hold => hskip (asked_next.mpr (.inl hold))
  rcases mem_next.mp hx with hx | ⟨hxs,hxo⟩ <;>
    rcases mem_next.mp hy with hy | ⟨hys,hyo⟩
  · exact h.skips x hx y hy hne ph ph' i p q hp hq hskip'
  · rw [hys] at hne
    rcases h.new_request hc he hyo hq with ⟨value,len,rfl,hcom,rfl⟩ | ⟨rfl,-,rfl⟩ |
      ⟨ps,j,acc,rfl,hcount,rfl,rfl,env,henv,hask⟩
    · exact absurd (hu hcom x hx hne.symm _ hp rfl).2 hskip'
    · exact hu x hx hne.symm _ hp rfl hskip'
    · have hsrc : env.src = y.src := Fin.ext ((h.issued env henv _ _ _ hask).1.symm.trans
          (hb.issued y (mem_next.mpr (.inr ⟨hys,hyo⟩)) _ _ _ hq).1)
      exact h.skips x hx env henv (by rw [hsrc, hys]; exact hne) ph .one i p _ hp hask hskip'
  · rw [hxs] at hne
    rcases h.new_request hc he hxo hp with ⟨value,len,rfl,hcom,rfl⟩ | ⟨rfl,rfl,rfl⟩ |
      ⟨ps,j,acc,rfl,hcount,rfl,rfl,hask⟩
    · exact (hu hcom y hy hne _ hq rfl).1
    · exact absurd (asked_next.mpr (.inr ⟨x.out,hxo,hp⟩)) hskip
    · exact absurd hask hskip'
  · exact absurd (hys.trans hxs.symm) hne

variable (ho : Orderly w e)
include ho

/-- A Prepare on record after a step was there before, or opens a number
that no proposer drove. -/
lemma Led.asked_one (hp : (w.next k t out del).Asked .one i p) :
    w.Asked .one i p ∨ (a = .startLeaderElection i ∧ (∀ i', ¬ w.Asked .two i' p) ∧
      ∀ d i' ps, (w.rep d).prop i' = some ps → ps.proposal ≠ p) := by
  rcases asked_next.mp hp with hold | ⟨m,hm,hr⟩
  · exact .inl hold
  · cases (he.requested hm hr).1 with
    | propose | lead => cases hr
    | elect =>
      cases hr
      have hs := ho.noWrap.succ hc trivial
      exact .inr ⟨rfl,h.not_asked hs .two,fun d i' ps hps => h.entry_ne hs hps⟩

lemma Led.vowed_next (hn : n ≤ 5) (d : Fin n) (i : UInt32) (qs : ProposerInstanceState)
    (hqs : ((w.next k t out del).rep d).prop i = some qs)
    (hone : (w.next k t out del).Asked .one i qs.proposal)
    (htwo : ¬ (w.next k t out del).Asked .two i qs.proposal) :
    Vowed (w.next k t out del) d i qs := by
  have hone' := h.asked_one hc he ho hone
  have htwo' : ¬ w.Asked .two i qs.proposal := fun hold => htwo (asked_next.mpr (.inl hold))
  have hkeep : ∀ {x : ProposerInstanceState}, (w.rep d).prop i = some x →
      x.proposal = qs.proposal → Vowed (w.next k t out del) d i x := by
    intro x hx hp
    rcases hone' with hask | ⟨-,-,hne⟩
    · rw [← hp] at hask htwo'
      exact (h.vowed d i x hx hask htwo').next hc
    · exact absurd hp (hne d i x hx)
  cases he with
  | propose =>
    rcases next_entry rfl hqs with ⟨rfl,rfl,rfl⟩ | ⟨-,hqs⟩
    · rcases hone' with hask | ⟨ha,-⟩
      · exact absurd hask (h.not_asked (ho.noWrap.succ hc trivial) _ _)
      · cases ha
    · exact hkeep hqs rfl
  | elect =>
    rcases next_entry rfl hqs with ⟨rfl,rfl,rfl⟩ | ⟨-,hqs⟩
    · refine ⟨Nat.succ_pos _,[],Receipts.nil _ _ _,rfl,?_,.inl ⟨rfl,rfl⟩⟩
      intro j hj
      cases hj
    · exact hkeep hqs rfl
  | count hdr p acc len value ps hps hsame hq =>
    rcases next_entry rfl hqs with ⟨rfl,rfl,rfl⟩ | ⟨-,hqs⟩
    · obtain ⟨j,env,rfl,hj,-,hm,rfl⟩ := hc.received
      rw [promised_proposal] at htwo'
      exact h.vowed_count hj hm hps hsame ho.fresh htwo' hn hq
    · exact hkeep hqs rfl
  | lead =>
    rcases next_entry rfl hqs with ⟨rfl,rfl,rfl⟩ | ⟨-,hqs⟩
    · refine absurd (asked_next.mpr (.inr ⟨_,List.mem_singleton_self _,?_⟩)) htwo
      simp [makeAcceptBroadcast, request, Replica.header]
    · exact hkeep hqs rfl
  | tally hdr p len value ps hps | commit hdr p len value ps hps =>
    rcases next_entry rfl hqs with ⟨rfl,rfl,rfl⟩ | ⟨-,hqs⟩
    · exact (hkeep hps rfl).congr _ _
    · exact hkeep hqs rfl
  | _ => exact hkeep (next_entry_rest hqs rfl) rfl

lemma Led.elected_next (i : UInt32) (v : Vote) (hv : Proposed (w.next k t out del) i v)
    (hone : (w.next k t out del).Asked .one i v.proposal) : Elected (w.next k t out del) i v := by
  have hone' := h.asked_one hc he ho hone
  rcases proposed_next.mp hv with hv | ⟨m,hm,hv⟩
  · rcases hone' with hask | ⟨-,hne,-⟩
    · exact (h.elected i v hv hask).next
    · exact absurd hv.asked (hne i)
  · cases (he.requested hm (proposalOf_request hv)).1 with
    | propose =>
      obtain ⟨-,rfl⟩ := proposalOf_broadcast hv
      rcases hone' with hask | ⟨ha,-⟩
      · exact absurd hask (h.not_asked (ho.noWrap.succ hc trivial) _ _)
      · cases ha
    | elect => cases hv
    | lead hdr p acc len value ps hps hsame hq =>
      obtain ⟨rfl,rfl⟩ := proposalOf_broadcast hv
      obtain ⟨j,env,rfl,hj,haddr,hm,-⟩ := hc.received
      refine (h.elects hj hm hps hsame ho.fresh ?_ hq).next
      exact fun hask => ho.notLate ⟨_,counted_eq hj haddr hm hps hsame,hask⟩

lemma Led.next (hn : n ≤ 5) (hu : Unopposed w e) : Led (w.next k t out del) :=
  ⟨h.toCounted.next ho hc he hn,h.sound_next he,h.vowed_next hc he ho hn,h.elected_next hc he ho,
    h.skips_next hc he (h.toBase.next hc he ho.noWrap) hu⟩

end

lemma led_init (hn : n ≤ 5) (maxInstances : UInt32) : Led (Sys.init n maxInstances).world := by
  refine ⟨counted_init hn maxInstances,fun a => sound_fresh fun _ => rfl,nofun,?_,nofun⟩
  rintro i v ⟨_,henv,-⟩
  cases henv

end SimBricks.PaxosNetwork
