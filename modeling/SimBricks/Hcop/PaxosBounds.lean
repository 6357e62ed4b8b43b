import SimBricks.Hcop.PaxosPassive
import SimBricks.Hcop.PaxosReplica

/-!
# Errors, capacity and stored lengths of a replica

A call that fails changes nothing and the tables keep to the capacity. Of the
lengths a replica stores, that of an Accept is clamped and that of a proposal
checked; those of a Promise, an Accepted and a Learn are stored as they come.
-/

set_option autoImplicit false

namespace SimBricks.PaxosBounds
open Library Library.Run Library.Bytes PaxosProto PaxosState PaxosReplica PaxosNode

/-! ## Errors and capacity -/

def Within (s : PaxosNode) : Prop := Table.size s.instances ≤ s.maxInstances.toNat

structure Disciplined (s : PaxosNode) (o : Outcome) : Prop where
  refused : o.status ≠ .kOk → o.node = s
  capacity : Within s → Within o.node

section
variable {s t : PaxosNode} {id : UInt32} {x : InstanceState}

lemma Disciplined.refuse (s : PaxosNode) (out : List OutMessage) (status : PaxosStatus) :
    Disciplined s ⟨s,out,status⟩ := ⟨fun _ => rfl,id⟩

lemma within_create (hg : s.getOrCreateInstance id = some (x,t)) (hs : Within s) :
    Within t ∧ ∀ y, Within (t.putInstance id y) := by
  obtain ⟨-,hm,hk,hroom⟩ := getOrCreateInstance_grows hg
  have hcard : (insert id s.instances.keys).card ≤ s.maxInstances.toNat := by
    rcases hroom with hin | hlt
    · rwa [Finset.insert_eq_of_mem hin]
    · exact (Finset.card_insert_le _ _).trans hlt
  refine ⟨?_,fun y => ?_⟩
  · rwa [Within, Table.size, hk, hm]
  · rwa [Within, Table.size, putInstance, Table.keys_insert, hk, Finset.insert_idem, hm]

lemma handle_disciplined (s : PaxosNode) (m : Msg) : Disciplined s (s.handle m) := by
  have h := handle_handled s m
  generalize s.handle m = o at h
  cases h with
  | full | quiet => exact .refuse s _ _
  | refuse hm hg | known hdr len value hg =>
    exact ⟨fun hn => absurd rfl hn,fun hs => (within_create hg hs).1⟩
  | promise hdr p hg | accept hdr p len value hg | learn hdr len value hg =>
    exact ⟨fun hn => absurd rfl hn,fun hs => (within_create hg hs).2 _⟩
  | inform hdr p len value hg hc =>
    -- a new instance is not committed, so this one was there
    refine ⟨fun _ => ?_,fun hs => (within_create hg hs).1⟩
    rcases getOrCreateInstance_cases hg with ⟨-,rfl⟩ | ⟨-,-,rfl,-⟩
    · rfl
    · cases hc
  | commit hdr p len value =>
    refine ⟨fun hn => absurd rfl hn,fun hs => ?_⟩
    unfold recordCommit
    split
    · exact hs
    · next hg => exact (within_create hg hs).2 _
  | count | lead | tally | bump => exact ⟨fun hn => absurd rfl hn,id⟩

lemma perform_disciplined (s : PaxosNode) (c : Call) : Disciplined s (perform s c) := by
  have hcreate : ∀ {id x t} (_ : s.getOrCreateInstance id = some (x,t)) ps r out,
      Disciplined s ⟨{ t.putProposer id ps with currentRound := r },out,.kOk⟩ :=
    fun hg _ _ _ => ⟨fun hn => absurd rfl hn,fun hs => (within_create hg hs).1⟩
  cases c with
  | propose id value len =>
    simp only [perform, propose]
    split_ifs
    · exact .refuse s _ _
    · exact .refuse s _ _
    · split
      · exact .refuse s _ _
      · next hg => exact hcreate hg _ _ _
  | startLeaderElection id =>
    simp only [perform, startLeaderElection]
    split
    · exact .refuse s _ _
    · next hg => exact hcreate hg _ _ _
  | handleMessage data len =>
    simp only [perform, handleMessage]
    split
    · exact .refuse s _ _
    · exact handle_disciplined s _

end

/-- In every state a node reaches, a call that fails leaves the node as it is,
the log is within its capacity, and every instance with a proposer is in the log. -/
theorem calls_disciplined (nodeId : UInt8) (numReplicas : UInt16) (maxInstances : UInt32)
    (cs : List Call) :
    (∀ c, (perform (run step (.new nodeId numReplicas maxInstances) cs) c).status ≠ .kOk →
      step (run step (.new nodeId numReplicas maxInstances) cs) c =
        run step (.new nodeId numReplicas maxInstances) cs) ∧
    Table.size (run step (.new nodeId numReplicas maxInstances) cs).instances ≤
      maxInstances.toNat ∧
    (run step (.new nodeId numReplicas maxInstances) cs).proposerState.keys ⊆
      (run step (.new nodeId numReplicas maxInstances) cs).instances.keys := by
  have hinv : ∀ s, s.maxInstances = maxInstances ∧ Within s ∧ s.Logged →
      ∀ c, (step s c).maxInstances = maxInstances ∧ Within (step s c) ∧ (step s c).Logged := by
    intro s ⟨hm,hw,hl⟩ c
    have he := perform_extends s c
    exact ⟨he.bound.trans hm,(perform_disciplined s c).capacity hw,he.logged hl⟩
  obtain ⟨hm,hw,hl⟩ := run_always (fun s c h => hinv s h c)
    (s := .new nodeId numReplicas maxInstances) ⟨rfl,Nat.zero_le _,Finset.Subset.refl _⟩ cs
  rw [Within, hm] at hw
  exact ⟨fun c => (perform_disciplined _ c).refused,hw,hl⟩

/-! ## Stored lengths -/

def InstanceState.Short (x : InstanceState) : Prop :=
  x.acceptedValueLen.toNat ≤ kMaxValueSize ∧ x.committedValueLen.toNat ≤ kMaxValueSize

def ProposerInstanceState.Short (ps : ProposerInstanceState) : Prop :=
  ps.valueLen.toNat ≤ kMaxValueSize ∧ ps.highestAcceptedValueLen.toNat ≤ kMaxValueSize

structure Short (r : Replica) : Prop where
  inst : ∀ id, InstanceState.Short (r.inst id)
  prop : ∀ id ps, r.prop id = some ps → ProposerInstanceState.Short ps

/-- The message has a length over the size of a value, and the node stores it. -/
def Overlong (s : PaxosNode) : Msg → Prop
  | .promise hdr p acc len _ => kMaxValueSize < len.toNat ∧
    ∃ ps, s.proposerState.lookup hdr.instanceId = some ps ∧ p.same ps.proposal ∧ ps.Raises acc
  | .accepted hdr p len _ => kMaxValueSize < len.toNat ∧
    ∃ ps, s.proposerState.lookup hdr.instanceId = some ps ∧ p.same ps.proposal ∧
    ps.committed = false ∧ s.quorum ≤ ps.acceptedCount+1
  | .learn hdr len _ => kMaxValueSize < len.toNat ∧
    ∃ x t, s.getOrCreateInstance hdr.instanceId = some (x,t) ∧ x.isCommitted = false
  | _ => False

def OverlongCall (s : PaxosNode) : Call → Prop
  | .handleMessage data len => ∃ m, parse data len = some m ∧ Overlong s m
  | _ => False

section
variable {r : Replica} {s : PaxosNode} {m : Msg}

lemma Short.setInst (h : Short r) {x : InstanceState} {id : UInt32}
    (hx : InstanceState.Short x) : Short (r.setInst id x) := by
  refine ⟨?_,h.prop⟩
  exact (Function.forall_update_iff r.inst fun _ => InstanceState.Short).mpr
    ⟨hx,fun j _ => h.inst j⟩

lemma Short.setProp (h : Short r) {ps : ProposerInstanceState} {id : UInt32}
    (hp : ProposerInstanceState.Short ps) : Short (r.setProp id ps) := by
  refine ⟨h.inst,?_⟩
  refine (Function.forall_update_iff r.prop fun _ y => ∀ ps, y = some ps →
    ProposerInstanceState.Short ps).mpr ⟨?_,fun j _ => h.prop j⟩
  rintro _ ⟨⟩
  exact hp

lemma Short.begin (h : Short r) {ps : ProposerInstanceState} {id : UInt32}
    (hp : ProposerInstanceState.Short ps) : Short (r.begin id ps) :=
  ⟨h.inst,(h.setProp hp).prop⟩

lemma promised_short {ps : ProposerInstanceState} (h : ProposerInstanceState.Short ps)
    {acc : ProposalNum} {len : UInt16} (hl : ps.Raises acc → len.toNat ≤ kMaxValueSize)
    (value : Value) : ProposerInstanceState.Short (ps.promised acc len value) := by
  unfold ProposerInstanceState.promised
  split_ifs with hr
  · exact ⟨h.1,hl hr⟩
  · exact h

lemma handle_short (hl : s.Logged) (h : Short s.view) (ho : ¬ Overlong s m) :
    Short (s.handle m).node.view := by
  have hh := handle_handled s m
  generalize s.handle m = o at hh
  cases hh with
  | full | quiet => exact h
  | bump => exact ⟨h.inst,h.prop⟩
  | refuse _ hg | inform _ _ _ _ hg | known _ _ _ hg =>
    rw [(getOrCreate_view hg).2.1]
    exact h
  | promise hdr p hg =>
    obtain ⟨rfl,hv,-⟩ := getOrCreate_view hg
    rw [view_putInstance, hv]
    apply h.setInst
    exact h.inst hdr.instanceId
  | accept hdr p len value hg =>
    obtain ⟨rfl,hv,-⟩ := getOrCreate_view hg
    rw [view_putInstance, hv]
    apply h.setInst
    exact ⟨clampLen_le len,(h.inst hdr.instanceId).2⟩
  | learn hdr len value hg hc =>
    obtain ⟨hx,hv,-⟩ := getOrCreate_view hg
    rw [view_putInstance, hv]
    refine h.setInst ⟨?_,not_lt.mp fun hlt => ho ⟨hlt,_,_,hg,hc⟩⟩
    rw [hx]
    exact (h.inst hdr.instanceId).1
  | count hdr p acc len value hps hp | lead hdr p acc len value hps hp =>
    rw [view_putProposer]
    apply h.setProp
    exact promised_short (h.prop _ _ hps)
      (fun hr => not_lt.mp fun hlt => ho ⟨hlt,_,hps,hp,hr⟩) value
  | tally hdr p len value hps =>
    have hold := h.prop _ _ hps
    rw [view_putProposer]
    apply h.setProp
    exact hold
  | commit hdr p len value hps hp hc hq =>
    obtain ⟨x,hx⟩ := hl.tracked hps
    rw [recordCommit_view (s := s.putProposer _ _) hx, view_putProposer]
    have hold := h.prop _ _ hps
    refine (h.setProp ?_).setInst ?_
    · exact hold
    · exact ⟨(h.inst hdr.instanceId).1,not_lt.mp fun hlt => ho ⟨hlt,_,hps,hp,hc,hq⟩⟩

lemma handle_overlong (hl : s.Logged) (ho : Overlong s m) : ¬ Short (s.handle m).node.view := by
  intro h
  cases m with
  | promise hdr p acc len value =>
    obtain ⟨hlt,ps,hps,hp,hr⟩ := ho
    have hstored : ∃ ps', (s.handle (.promise hdr p acc len value)).node.view.prop
        hdr.instanceId = some ps' ∧ ps'.highestAcceptedValueLen = len := by
      simp only [handle, handlePromise, hps, if_neg (not_not_intro hp)]
      split_ifs <;> simp [putProposer, ProposerInstanceState.promised, hr]
    obtain ⟨ps',hps',rfl⟩ := hstored
    exact absurd (h.prop _ _ hps').2 (not_le.mpr hlt)
  | accepted hdr p len value =>
    obtain ⟨hlt,ps,hps,hp,hc,hq⟩ := ho
    have hi := (h.inst hdr.instanceId).2
    rw [handleAccepted_quorum hl hps hp hc hq] at hi
    exact absurd hi (not_le.mpr hlt)
  | learn hdr len value =>
    obtain ⟨hlt,x,t,hg,hc⟩ := ho
    have hi := (h.inst hdr.instanceId).2
    simp only [handle, handleLearn, hg, hc] at hi
    simp [view_putInstance, Replica.setInst] at hi
    exact absurd hi (not_le.mpr hlt)
  | prepare | accept | nack => exact ho

lemma step_short (c : Call) (hl : s.Logged) (h : Short s.view) :
    Short (step s c).view ↔ ¬ OverlongCall s c := by
  have hprop : ∀ id, ProposerInstanceState.Short ((s.view.prop id).getD {}) := by
    intro id
    cases hps : s.view.prop id with
    | none => exact ⟨Nat.zero_le _,Nat.zero_le _⟩
    | some ps => exact h.prop id ps hps
  have hown : ∀ {a t out}, Effect s.view a t out → (∀ m, a ≠ .receive m) → Short t := by
    intro a t out he ha
    cases he with
    | idle => exact h
    | propose id value len hlen =>
      apply h.begin
      exact ⟨hlen,(hprop id).2⟩
    | elect id =>
      apply h.begin
      exact ⟨(hprop id).1,Nat.zero_le _⟩
    | _ => exact absurd rfl (ha _)
  cases c with
  | propose id value len =>
    exact iff_of_true (hown (propose_effect s id value len) nofun) not_false
  | startLeaderElection id =>
    exact iff_of_true (hown (startLeaderElection_effect s id) nofun) not_false
  | handleMessage data len =>
    simp only [step, perform, handleMessage, OverlongCall]
    cases parse data len with
    | none => exact iff_of_true h (by simp)
    | some m =>
      simp only [Option.some.injEq, exists_eq_left']
      exact ⟨fun hs ho => handle_overlong hl ho hs,handle_short hl h⟩

end

/-- Every stored length is at most the size of a value exactly if no message
with a longer one is stored. -/
theorem lengths_short_iff (nodeId : UInt8) (numReplicas : UInt16) (maxInstances : UInt32)
    (cs : List Call) :
    (∀ earlier later, cs = earlier++later →
      Short (run step (.new nodeId numReplicas maxInstances) earlier).view) ↔
    Along step (fun s c => ¬ OverlongCall s c) (.new nodeId numReplicas maxInstances) cs :=
  always_iff_along (L := fun _ => True) (fun s c _ => step_logged s c)
    (fun _ c _ => step_short c) (new_logged _ _ _)
    ⟨fun _ => ⟨Nat.zero_le _,Nat.zero_le _⟩,nofun⟩ cs fun _ _ => trivial

def longLearn : Msg := .learn ⟨1,3,7⟩ 200 zeroValue

theorem learn_stores_long_length :
    ((run step (.new 0 3 10000) [.handleMessage (Bytes.view longLearn.serialize fun _ => 0)
      longLearn.serialize.length]).inst 7).committedValueLen = 200 := by
  decide +kernel

end SimBricks.PaxosBounds
