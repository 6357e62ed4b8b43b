import SimBricks.Hcop.PaxosBallots
import SimBricks.Library.Quorum

/-!
# The count of Accepted messages

A proposer counts answers and not who gave them. The count is a quorum of
acceptors because the request goes out once, reaches each acceptor once,
and so is answered once by each; a promise past the quorum sends the request
again and breaks the first of these.
-/

set_option autoImplicit false

namespace SimBricks.PaxosNetwork
open Library Library.Run Library.Quorum PaxosProto PaxosState List Function Option
open PaxosReplica PaxosAcceptor

variable {n : ℕ}

/-- A promise for a proposal whose Accept is already out. -/
def Late (w : World n) : Event n → Prop
  | .deliver j d => ∃ x ∈ counted w j d, w.Asked .two x.1 x.2.1.proposal
  | _ => False

instance (w : World n) : DecidablePred (Late w)
  | .deliver j d => inferInstanceAs (Decidable (∃ x ∈ counted w j d, _))
  | .propose _ _ _ _ => .isFalse not_false
  | .startLeaderElection _ _ => .isFalse not_false

structure Orderly (w : World n) (e : Event n) : Prop where
  fresh : w.Fresh e
  noWrap : NoWrap w e
  notLate : ¬ Late w e

instance (w : World n) (e : Event n) : Decidable (Orderly w e) :=
  decidable_of_iff (w.Fresh e ∧ NoWrap w e ∧ ¬ Late w e)
    ⟨fun h => ⟨h.1,h.2.1,h.2.2⟩,fun h => ⟨h.fresh,h.noWrap,h.notLate⟩⟩

/-- Distinct messages handed to `k`, all of them answers to one request. -/
structure Receipts (w : World n) (k : Fin n) (key : Phase × UInt32 × ProposalNum)
    (J : List ℕ) : Prop where
  nodup : J.Nodup
  received : ∀ j ∈ J, (j,k) ∈ w.delivered ∧
    ∃ env : Envelope n, w.sent[j]? = some env ∧ reply env.out.msg = some key

structure Counted (w : World n) : Prop extends Base w where
  once : ∀ (j j' : ℕ) (env env' : Envelope n) key, w.sent[j]? = some env → w.sent[j']? = some env' →
    request env.out.msg = some key → request env'.out.msg = some key → j = j'
  single : ∀ (j j' : ℕ) (env env' : Envelope n) key, w.sent[j]? = some env →
    w.sent[j']? = some env' →
    env.src = env'.src → reply env.out.msg = some key → reply env'.out.msg = some key → j = j'
  tally : ∀ k i ps, (w.rep k).prop i = some ps → ps.committed = false →
    ps.acceptedCount.toNat < n/2+1 ∧
    ∃ J, Receipts w k (.two,i,ps.proposal) J ∧ J.length = ps.acceptedCount.toNat

variable {i : UInt32}

section
variable {w : World n} {e : Event n} {k : Fin n} {a : Act} {t : Replica} {out : List OutMessage}
  {del : List (ℕ × Fin n)}

variable {J : List ℕ} {d : Fin n} {key : Phase × UInt32 × ProposalNum} {env : Envelope n} {j : ℕ}

lemma Receipts.next (hc : w.Cause e k a del) (h : Receipts w d key J) :
    Receipts (w.next k t out del) d key J := by
  refine ⟨h.nodup,fun j hj => ?_⟩
  obtain ⟨hd,env,henv,hr⟩ := h.received j hj
  exact ⟨hc.grows hd,env,World.getElem?_next_old henv,hr⟩

lemma Receipts.nil (w : World n) (k : Fin n) (key : Phase × UInt32 × ProposalNum) :
    Receipts w k key [] := ⟨nodup_nil,by simp⟩

lemma Receipts.cons (h : Receipts w d key J) (hj : w.sent[j]? = some env)
    (hr : reply env.out.msg = some key) (hf : (j,d) ∉ w.delivered) :
    Receipts (w.next d t out ((j,d)::w.delivered)) d key (j::J) := by
  refine ⟨nodup_cons.mpr ⟨fun hmem => hf (h.received j hmem).1,h.nodup⟩,?_⟩
  intro j' hj'
  rcases mem_cons.mp hj' with rfl | hj'
  · exact ⟨mem_cons_self,env,World.getElem?_next_old hj,hr⟩
  · obtain ⟨hd,env',henv,hr'⟩ := h.received j' hj'
    exact ⟨mem_cons_of_mem _ hd,env',World.getElem?_next_old henv,hr'⟩

/-- Distinct answers to one request come from as many acceptors. -/
lemma Counted.senders (h : Counted w) (d : Fin n) (hJ : J.Nodup)
    (hr : ∀ j ∈ J, ∃ env : Envelope n, w.sent[j]? = some env ∧ reply env.out.msg = some key) :
    ∃ Q : Finset (Fin n), Q.card = J.length ∧ ∀ a ∈ Q, ∃ j ∈ J, ∃ env : Envelope n,
    w.sent[j]? = some env ∧ env.src = a ∧ reply env.out.msg = some key := by
  let sender : ℕ → Fin n := fun j => (w.sent[j]?.map Envelope.src).getD d
  have hsender : ∀ {j : ℕ} {env : Envelope n}, w.sent[j]? = some env → sender j = env.src := by
    intro j env hj
    simp [sender, hj]
  refine ⟨(J.map sender).toFinset,senders_card hJ sender ?_,?_⟩
  · intro i hi j hj hs
    obtain ⟨ei,hei,hri⟩ := hr i hi
    obtain ⟨ej,hej,hrj⟩ := hr j hj
    rw [hsender hei, hsender hej] at hs
    exact h.single i j ei ej key hei hej hs hri hrj
  · intro a ha
    obtain ⟨j,hj,rfl⟩ := mem_map.mp (mem_toFinset.mp ha)
    obtain ⟨env,henv,hrep⟩ := hr j hj
    exact ⟨j,hj,env,henv,(hsender henv).symm,hrep⟩

lemma Counted.senders_cons (h : Counted w) (hJ : Receipts w d key J) (hj : w.sent[j]? = some env)
    (hr : reply env.out.msg = some key) (hf : (j,d) ∉ w.delivered) :
    ∃ Q : Finset (Fin n), Q.card = J.length+1 ∧ ∀ a ∈ Q, ∃ q ∈ j::J, ∃ env : Envelope n,
    w.sent[q]? = some env ∧ env.src = a ∧ reply env.out.msg = some key := by
  refine h.senders d (J := j::J)
    (nodup_cons.mpr ⟨fun hmem => hf (hJ.received j hmem).1,hJ.nodup⟩) ?_
  intro q hq
  rcases mem_cons.mp hq with rfl | hq
  · exact ⟨env,hj,hr⟩
  · exact (hJ.received q hq).2

/-- Messages of a kind stay apart if a new one is alone and the first of its kind. -/
lemma World.unique_next {P : Envelope n → Prop}
    (hold : ∀ (j j' : ℕ) (x y : Envelope n), w.sent[j]? = some x → w.sent[j']? = some y → P x →
      P y → j = j')
    (hnew : ∀ x : Envelope n, x.src = k → x.out ∈ out → P x → out = [x.out] ∧ ∀ y ∈ w.sent, ¬ P y)
    (j j' : ℕ) {x y : Envelope n} (hj : (w.next k t out del).sent[j]? = some x)
    (hj' : (w.next k t out del).sent[j']? = some y) (hx : P x) (hy : P y) : j = j' := by
  rcases World.getElem?_next hj with ho | ⟨_,hs,hn⟩ <;>
    rcases World.getElem?_next hj' with ho' | ⟨_,hs',hn'⟩
  · exact hold j j' x y ho ho' hx hy
  · exact absurd hx ((hnew y hs' (mem_of_getElem? hn') hy).2 x (mem_of_getElem? ho))
  · exact absurd hy ((hnew x hs (mem_of_getElem? hn) hx).2 y (mem_of_getElem? ho'))
  · have hlen := congrArg length (hnew x hs (mem_of_getElem? hn) hx).1
    have hb := (List.getElem?_eq_some_iff.mp hn).1
    have hb' := (List.getElem?_eq_some_iff.mp hn').1
    rw [length_singleton] at hlen
    omega

lemma Counted.vote_unique (h : Counted w) {x y : Envelope n} (hx : x ∈ w.sent) (hy : y ∈ w.sent)
    {u v : Vote} (hu : voteOf i x.out = some u) (hv : voteOf i y.out = some v)
    (hp : u.proposal = v.proposal) : u = v := by
  have hru := voteOf_reply hu
  have hrv := voteOf_reply hv
  obtain ⟨j,req,hj,-,hans⟩ := h.answered x hx (by rw [hru]; exact some_ne_none _)
  obtain ⟨j',req',hj',-,hans'⟩ := h.answered y hy (by rw [hrv]; exact some_ne_none _)
  have hkey : request req'.out.msg = some (.two,i,u.proposal) := by rw [hans'.key, hrv, hp]
  have : j = j' := h.once j j' req req' _ hj hj' (hans.key.trans hru) hkey
  subst this
  obtain rfl : req = req' := by
    rw [hj] at hj'
    injection hj'
  obtain ⟨a,ha,rfl⟩ := hans.value i u hu
  obtain ⟨b,hb,rfl⟩ := hans'.value i v hv
  rw [ha] at hb
  injection hb with hab
  rw [hab]

/-- The Accepted that completes a count has a quorum of votes for its value. -/
lemma Counted.commit_quorum (h : Counted w) (hn : n ≤ 5) (hj : w.sent[j]? = some env)
    (hf : (j,d) ∉ w.delivered) {v : Vote} (hv : voteOf i env.out = some v)
    {ps : ProposerInstanceState} (hps : (w.rep d).prop i = some ps) (hc : ps.committed = false)
    (hs : v.proposal.same ps.proposal) (hq : (w.rep d).quorum ≤ ps.acceptedCount+1) :
    v.proposal = ps.proposal ∧ ∃ Q : Finset (Fin n), n/2+1 ≤ Q.card ∧ ∀ a ∈ Q, ∃ x ∈ w.sent,
    x.src = a ∧ voteOf i x.out = some v := by
  have hmem := mem_of_getElem? hj
  obtain ⟨hp,-⟩ := h.reply_asked hmem (voteOf_reply hv) hps hs
  obtain ⟨_,J,hJ,_⟩ := h.tally d i ps hps hc
  rw [← hp] at hJ
  obtain ⟨Q,_,hQ⟩ := h.senders_cons hJ hj (voteOf_reply hv) hf
  rw [UInt16.le_iff_toNat_le, h.quorum, UInt16.toNat_add, UInt16.toNat_one] at hq
  refine ⟨hp,Q,by omega,fun a ha => ?_⟩
  obtain ⟨q,-,x,hx,hsrc,hrep⟩ := hQ a ha
  obtain ⟨u,hu,hup⟩ := reply_voteOf hrep
  have hxmem := mem_of_getElem? hx
  rw [h.vote_unique hxmem hmem hu hv hup] at hu
  exact ⟨x,hxmem,hsrc,hu⟩

variable {m : OutMessage} (ho : Orderly w e) (hc : w.Cause e k a del)
  (he : Effect (w.rep k) a t out)
include ho hc he

lemma Base.request_fresh (hb : Base w) (hm : m ∈ out) {ph : Phase} {p : ProposalNum}
    (hr : request m.msg = some (ph,i,p)) : ¬ w.Asked ph i p := by
  rcases hb.new_request hc he hm hr with ⟨_,_,rfl,-,rfl⟩ | ⟨rfl,-,rfl⟩ |
    ⟨ps,j,acc,rfl,hcount,rfl,rfl,-⟩
  · exact hb.not_asked (succ_round ho.noWrap) ph i
  · exact hb.not_asked (succ_round ho.noWrap) ph i
  · exact fun hask => ho.notLate ⟨_,hcount,hask⟩

/-- An acceptor that has answered a request does not get it again. -/
lemma Counted.reply_fresh (h : Counted w) (hm : m ∈ out) (hr : reply m.msg = some key)
    {x : Envelope n} (hx : x ∈ w.sent) (hsrc : x.src = k) : reply x.out.msg ≠ some key := by
  intro hrx
  obtain ⟨q,req,hq,hdel,hans⟩ := h.answered x hx (by rw [hrx]; exact some_ne_none _)
  have hne : reply m.msg ≠ none := by rw [hr]; exact some_ne_none _
  cases hc with
  | propose | elect => obtain ⟨req,hreq⟩ := he.replies_received hm hne; cases hreq
  | deliver i' d env hi' =>
    have hans' := Effect.answers env.out he hm hne
    have : q = i' := h.once q i' req env key hq hi' (hans.key.trans hrx) (hans'.key.trans hr)
    subst this
    rw [hsrc] at hdel
    exact ho.fresh hdel

lemma Counted.tally_next (h : Counted w) (hn : n ≤ 5) (d : Fin n) (i : UInt32)
    (qs : ProposerInstanceState) (hqs : ((w.next k t out del).rep d).prop i = some qs)
    (hcom : qs.committed = false) :
    qs.acceptedCount.toNat < n/2+1 ∧ ∃ J, Receipts (w.next k t out del) d (.two,i,qs.proposal) J ∧
    J.length = qs.acceptedCount.toNat := by
  have hkeep : ∀ {qs : ProposerInstanceState}, (w.rep d).prop i = some qs → qs.committed = false →
      qs.acceptedCount.toNat < n/2+1 ∧
      ∃ J, Receipts (w.next k t out del) d (.two,i,qs.proposal) J ∧
        J.length = qs.acceptedCount.toNat := by
    intro qs hqs hcom
    obtain ⟨hlt,J,hJ,hlen⟩ := h.tally d i qs hqs hcom
    exact ⟨hlt,J,hJ.next hc,hlen⟩
  have hzero : ∀ p, (0 : UInt16).toNat < n/2+1 ∧
      ∃ J, Receipts (w.next k t out del) d (.two,i,p) J ∧ J.length = (0 : UInt16).toNat :=
    fun p => ⟨by simp,[],Receipts.nil _ _ _,rfl⟩
  cases he with
  | propose | elect | lead =>
    rcases World.next_entry rfl hqs with ⟨rfl,rfl,rfl⟩ | ⟨-,hqs⟩
    · exact hzero _
    · exact hkeep hqs hcom
  | count hdr p acc len value ps hps =>
    rcases World.next_entry rfl hqs with ⟨rfl,rfl,rfl⟩ | ⟨-,hqs⟩
    · simpa using hkeep hps (by simpa using hcom)
    · exact hkeep hqs hcom
  | tally hdr p len value ps hps hsame hcom' hq =>
    rcases World.next_entry rfl hqs with ⟨rfl,rfl,rfl⟩ | ⟨-,hqs⟩
    · obtain ⟨j,env,rfl,hj,-,hm,rfl⟩ := hc.received
      have hrep : reply env.out.msg = some (.two,hdr.instanceId,p) := by rw [hm]; rfl
      obtain ⟨hpeq,-⟩ := h.reply_asked (mem_of_getElem? hj) hrep hps hsame
      rw [hpeq] at hrep
      obtain ⟨hlt,J,hJ,hlen⟩ := h.tally _ _ ps hps hcom'
      have hsucc : (ps.acceptedCount+1).toNat = ps.acceptedCount.toNat+1 := by
        rw [UInt16.toNat_add, UInt16.toNat_one]
        omega
      rw [UInt16.le_iff_toNat_le, h.quorum, not_le] at hq
      exact ⟨hq,j::J,hJ.cons hj hrep ho.fresh,by rw [length_cons, hlen]; exact hsucc.symm⟩
    · exact hkeep hqs hcom
  | commit =>
    rcases World.next_entry rfl hqs with ⟨rfl,rfl,rfl⟩ | ⟨-,hqs⟩
    · cases hcom
    · exact hkeep hqs hcom
  | _ => exact hkeep (World.next_entry_rest hqs rfl) hcom

lemma Counted.next (h : Counted w) (hn : n ≤ 5) : Counted (w.next k t out del) := by
  refine ⟨h.toBase.next hc he ho.noWrap,?_,?_,h.tally_next ho hc he hn⟩
  · intro j j' x y key hj hj' hx hy
    refine World.unique_next (P := fun x => request x.out.msg = some key)
      (fun j j' x y hj hj' => h.once j j' x y key hj hj') (fun x _ hm hr => ⟨?_,?_⟩) j j' hj hj' hx
      hy
    · exact he.alone hm (.inl (by simp [hr]))
    · exact fun y hy hry => h.toBase.request_fresh ho hc he hm hr ⟨y,hy,hry⟩
  · intro j j' x y key hj hj' hs hx hy
    refine World.unique_next (P := fun z => z.src = x.src ∧ reply z.out.msg = some key)
      (fun j j' x y hj hj' hx hy => h.single j j' x y key hj hj' (hx.1.trans hy.1.symm) hx.2 hy.2)
      (fun z hz hm hr => ⟨?_,?_⟩) j j' hj hj' ⟨rfl,hx⟩ ⟨hs.symm,hy⟩
    · exact he.alone hm (.inr (by simp [hr.2]))
    · exact fun y hy hry =>
        h.reply_fresh ho hc he hm hr.2 hy (hry.1.trans (hr.1.symm.trans hz)) hry.2

end

lemma counted_init (hn : n ≤ 5) (maxInstances : UInt32) :
    Counted (Sys.init n maxInstances).world := by
  exact ⟨base_init hn maxInstances,nofun,nofun,nofun⟩

def AcceptedBy (s : Sys n) (a : Fin n) (i : UInt32) (v : Vote) : Prop :=
  ∃ env ∈ s.sent, env.src = a ∧ voteOf i env.out = some v
  deriving Decidable

/-- The delivery hands an Accepted with vote `v` to `d`, and `d`'s proposal
for the instance becomes committed by it. -/
def Commits (s : Sys n) (j : ℕ) (d : Fin n) (i : UInt32) (v : Vote) : Prop :=
  (∃ env ∈ s.sent[j]?, voteOf i env.out = some v) ∧
  (∃ ps ∈ (s.node d).proposerState.lookup i, ps.committed = false) ∧
  ∃ ps ∈ ((s.step (.deliver j d)).node d).proposerState.lookup i, ps.committed
  deriving Decidable

lemma Effect.commits {r t : Replica} {m : Msg} {out : List OutMessage}
    (h : Effect r (.receive m) t out) {ps qs : ProposerInstanceState} (hps : r.prop i = some ps)
    (hold : ps.committed = false) (hqs : t.prop i = some qs) (hnew : qs.committed) :
    ∃ hdr p len value, m = .accepted hdr p len value ∧ hdr.instanceId = i ∧ p.same ps.proposal ∧
    r.quorum ≤ ps.acceptedCount+1 := by
  have hput : ∀ {id : UInt32} {x y : ProposerInstanceState}, r.prop id = some x →
      t.prop = update r.prop id (some y) → y.committed = x.committed → False := by
    intro id x y hx ht hxy
    rw [ht] at hqs
    by_cases hi : i = id
    · subst hi
      rw [update_self] at hqs
      rw [hps] at hx
      simp_all
    · rw [update_of_ne hi, hps] at hqs
      simp_all
  cases h with
  | count hdr p acc len value x hx | lead hdr p acc len value x hx =>
    exact (hput hx rfl (by simp)).elim
  | tally hdr p len value x hx => exact (hput hx rfl rfl).elim
  | commit hdr p len value x hx hs hc hq =>
    by_cases hi : i = hdr.instanceId
    · subst hi
      rw [hps] at hx
      cases hx
      exact ⟨hdr,p,len,value,rfl,rfl,hs,hq⟩
    · change update r.prop _ _ i = _ at hqs
      rw [update_of_ne hi, hps] at hqs
      simp_all
  | _ =>
    cases hps.symm.trans hqs
    simp_all

/-- A proposal commits only with a quorum of acceptors behind the value, in
every run without duplicate deliveries, counter wrap or late promises. -/
theorem quorum_sound (hn : 3 ≤ n ∧ n ≤ 5) (maxInstances : UInt32) (es : List (Event n)) (j : ℕ)
    (d : Fin n) (h : Along Sys.step (fun s e => Orderly s.world e) (Sys.init n maxInstances)
      (es++[.deliver j d])) (i : UInt32) (v : Vote)
    (hc : Commits (run Sys.step (Sys.init n maxInstances) es) j d i v) :
    ∃ Q : Finset (Fin n),
      ((run Sys.step (Sys.init n maxInstances) es).node d).quorum.toNat ≤ Q.card ∧
      ∀ a ∈ Q, AcceptedBy (run Sys.step (Sys.init n maxInstances) es) a i v := by
  rw [along_append] at h
  obtain ⟨halong,⟨ho,-⟩⟩ := h
  have hl := Sys.run_logged maxInstances es
  have hcount : Counted (run Sys.step (Sys.init n maxInstances) es).world :=
    Sys.invariant (fun w e k a t out del hi hc hcause he => hi.next hc hcause he hn.2)
      (counted_init hn.2 maxInstances) halong
  obtain ⟨⟨env,hj,hv⟩,⟨ps,hps,hold⟩,⟨qs,hqs,hnew⟩⟩ := hc
  generalize run Sys.step (Sys.init n maxInstances) es = s at *
  change ((s.step (.deliver j d)).world.rep d).prop i = some qs at hqs
  rcases s.step_world hl (.deliver j d) with hw | ⟨k,a,t,out,del,hcause,heff,hw⟩
  · rw [hw] at hqs
    cases hps.symm.trans hqs
    rw [hold] at hnew
    cases hnew
  · cases hcause with
    | deliver _ _ env' hj' =>
      cases hj.symm.trans hj'
      rw [hw, World.next_rep_self] at hqs
      obtain ⟨_,p,len,value,hm,rfl,hs,hq⟩ := Effect.commits heff hps hold hqs hnew
      have hvp : v = ⟨p,len,value⟩ := by simpa [voteOf, hm] using hv.symm
      subst hvp
      obtain ⟨-,Q,hQ,hall⟩ := hcount.commit_quorum hn.2 hj' ho.fresh hv hps hold hs hq
      exact ⟨Q,(hcount.quorum d).trans_le hQ,hall⟩

/-- Replica 0 wins an election with three promises. The third one sends the
Accept again, replica 1 answers both, and both answers are counted. -/
def answeredTwice [NeZero n] : List (Event n) :=
  [.startLeaderElection 0 7,.deliver 0 0,.deliver 0 1,.deliver 0 2,.deliver 1 0,.deliver 2 0,
    .deliver 3 0,.deliver 4 1,.deliver 5 1,.deliver 6 0]

theorem committed_by_one_acceptor :
    Along Sys.step (fun s e => s.world.Fresh e ∧ NoWrap s.world e) (Sys.init 3 10000)
      (answeredTwice++[.deliver 7 0]) ∧
    Commits (run Sys.step (Sys.init 3 10000) answeredTwice) 7 0 7 (trim ⟨1,0,0⟩ 0 zeroValue) ∧
    ¬ ∃ Q : Finset (Fin 3),
      ((run Sys.step (Sys.init 3 10000) answeredTwice).node 0).quorum.toNat ≤ Q.card ∧
      ∀ a ∈ Q, AcceptedBy (run Sys.step (Sys.init 3 10000) answeredTwice) a 7
        (trim ⟨1,0,0⟩ 0 zeroValue) := by
  refine ⟨by decide +kernel,by decide +kernel,?_⟩
  rintro ⟨Q,_,hQ⟩
  have hq : ((run Sys.step (Sys.init 3 10000) answeredTwice).node 0).quorum.toNat = 2 := by
    decide +kernel
  have honly : ∀ a, AcceptedBy (run Sys.step (Sys.init 3 10000) answeredTwice) a 7
      (trim ⟨1,0,0⟩ 0 zeroValue) → a = 1 := by decide +kernel
  have hsub : Q ⊆ {1} := fun a ha => Finset.mem_singleton.mpr (honly a (hQ a ha))
  have hle := Finset.card_le_card hsub
  rw [Finset.card_singleton] at hle
  omega

/-- The same election with two promises, answered by replicas 1 and 2. -/
def answeredByTwo [NeZero n] : List (Event n) :=
  [.startLeaderElection 0 7,.deliver 0 0,.deliver 0 1,.deliver 1 0,.deliver 2 0,.deliver 3 1,
    .deliver 3 2,.deliver 4 0]

theorem quorum_sound_election :
    Commits (run Sys.step (Sys.init 3 10000) answeredByTwo) 5 0 7 (trim ⟨1,0,0⟩ 0 zeroValue) ∧
    ∃ Q : Finset (Fin 3),
      ((run Sys.step (Sys.init 3 10000) answeredByTwo).node 0).quorum.toNat ≤ Q.card ∧
      ∀ a ∈ Q, AcceptedBy (run Sys.step (Sys.init 3 10000) answeredByTwo) a 7
        (trim ⟨1,0,0⟩ 0 zeroValue) := by
  have hc : Commits (run Sys.step (Sys.init 3 10000) answeredByTwo) 5 0 7
      (trim ⟨1,0,0⟩ 0 zeroValue) := by decide +kernel
  exact ⟨hc,quorum_sound (by decide) 10000 answeredByTwo 5 0 (by decide +kernel) 7 _ hc⟩

end SimBricks.PaxosNetwork
