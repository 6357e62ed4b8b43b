import SimBricks.Hcop.PaxosNetwork

/-!
# Where committed values come from

Values travel in Promise, Accept, Accepted and Learn. No step makes one up,
whatever is lost, repeated or late.
-/

set_option autoImplicit false

namespace SimBricks.PaxosValidity
open Library.Run PaxosProto PaxosState PaxosReplica PaxosNetwork Function

def content (len : UInt16) (value : Value) : List UInt8 := (List.ofFn value).take len.toNat

section
variable (len : UInt16) (d value : Value)

@[simp] lemma clampLen_toNat : (clampLen len).toNat = min len.toNat kMaxValueSize := by
  unfold clampLen
  split_ifs with h
  · exact (min_eq_left h).symm
  · exact (min_eq_right (not_le.mp h).le).symm

@[simp] lemma content_clampLen : content (clampLen len) value = content len value := by
  simp [content, List.take_eq_take_iff]

@[simp] lemma content_memcpy {m : ℕ} (h : min len.toNat kMaxValueSize ≤ m) :
    content len (memcpy d value m) = content len value := by
  refine List.ext_getElem (by simp [content]) fun j hj _ => ?_
  rw [content, List.length_take, List.length_ofFn] at hj
  simp [content, memcpy, hj.trans_le h]

end

section
variable (W : UInt32 → List UInt8 → Prop)

@[simp] def Carried : Msg → Prop
  | .promise hdr _ _ len value | .accept hdr _ len value | .accepted hdr _ len value
  | .learn hdr len value => W hdr.instanceId (content len value)
  | _ => True

@[simp] def Supplied : Act → Prop
  | .propose id value len => W id (content len value)
  | .startLeaderElection id => W id []
  | .receive m => Carried W m

def Logs (i : UInt32) (x : InstanceState) : Prop :=
  W i (content x.acceptedValueLen x.acceptedValue) ∧
  W i (content x.committedValueLen x.committedValue)

def Drives (i : UInt32) (ps : ProposerInstanceState) : Prop :=
  W i (content ps.valueLen ps.value) ∧
  W i (content ps.highestAcceptedValueLen ps.highestAcceptedValue)

structure Sourced (r : Replica) : Prop where
  inst : ∀ i, Logs W i (r.inst i)
  prop : ∀ i, Drives W i ((r.prop i).getD {})

end

section
variable {W : UInt32 → List UInt8 → Prop} {r t : Replica} {id : UInt32} {ps : ProposerInstanceState}

lemma Sourced.setInst (h : Sourced W r) {x : InstanceState} (hx : Logs W id x) :
    Sourced W (r.setInst id x) :=
  ⟨(forall_update_iff r.inst (Logs W)).mpr ⟨hx,fun i _ => h.inst i⟩,h.prop⟩

lemma Sourced.setProp (h : Sourced W r) (hp : Drives W id ps) : Sourced W (r.setProp id ps) :=
  ⟨h.inst,(forall_update_iff r.prop fun i x => Drives W i (x.getD {})).mpr
    ⟨hp,fun i _ => h.prop i⟩⟩

lemma Sourced.entry (h : Sourced W r) (hps : r.prop id = some ps) : Drives W id ps := by
  simpa [hps] using h.prop id

lemma Drives.promised (h : Drives W id ps) {len : UInt16} {value : Value}
    (hm : W id (content len value)) (acc : ProposalNum) :
    Drives W id (ps.promised acc len value) := by
  unfold ProposerInstanceState.promised
  split_ifs
  · exact ⟨h.1,by simpa using hm⟩
  · exact h

lemma Drives.use (h : Drives W id ps) : W id (content ps.useLen ps.useValue) := by
  unfold ProposerInstanceState.useLen ProposerInstanceState.useValue
  split_ifs
  · exact h.1
  · exact h.2

lemma Sourced.effect (h : Sourced W r) {a : Act} (ha : Supplied W a) {out : List OutMessage}
    (he : Effect r a t out) : Sourced W t ∧ ∀ m ∈ out, Carried W m.msg := by
  cases he with
  | idle => exact ⟨h,nofun⟩
  | propose id value len =>
    refine ⟨⟨h.inst,(h.setProp ?_).prop⟩,by simpa [makeAcceptBroadcast, Replica.header] using ha⟩
    exact ⟨by simpa [ProposerInstanceState.propose] using ha,(h.prop id).2⟩
  | elect id =>
    refine ⟨⟨h.inst,(h.setProp ?_).prop⟩,by simp [makePrepareBroadcast]⟩
    exact ⟨(h.prop id).1,ha⟩
  | promise hdr p =>
    exact ⟨h.setInst (h.inst _),
      by simpa [makePromise, Replica.header, Replica.vow] using (h.inst hdr.instanceId).1⟩
  | refuse => exact ⟨h,by simp [makeNack]⟩
  | count hdr p acc len value ps hps => exact ⟨h.setProp ((h.entry hps).promised ha acc),nofun⟩
  | lead hdr p acc len value ps hps =>
    have hnew := (h.entry hps).promised ha acc
    exact ⟨h.setProp hnew,by simpa [makeAcceptBroadcast, Replica.header] using hnew.use⟩
  | inform hdr => exact ⟨h,by simpa [makeLearn, Replica.header] using (h.inst hdr.instanceId).2⟩
  | accept hdr p len value =>
    exact ⟨h.setInst ⟨by simpa [InstanceState.accept] using ha,(h.inst _).2⟩,
      by simpa [makeAccepted, Replica.header] using ha⟩
  | tally _ _ _ _ _ hps =>
    have hold := h.entry hps
    exact ⟨h.setProp hold,nofun⟩
  | commit _ _ _ _ _ hps =>
    have hold := h.entry hps
    refine ⟨(h.setProp ?_).setInst ⟨(h.inst _).1,?_⟩,fun m hm => ?_⟩
    · exact hold
    · simpa [InstanceState.commit] using ha
    · rw [learnOthers_learn hm]
      simpa [Replica.header] using ha
  | learn =>
    exact ⟨h.setInst ⟨(h.inst _).1,by simpa [InstanceState.commit] using ha⟩,nofun⟩
  | bump => exact ⟨⟨h.inst,h.prop⟩,nofun⟩

end

variable {n : ℕ}

/-- The value is empty, or was proposed for the instance. -/
def Origin (es : List (Event n)) (i : UInt32) (x : List UInt8) : Prop :=
  x = [] ∨ ∃ k value len, .propose k i value len ∈ es ∧ x = content len value

/-- What a replica has accepted or committed, in every run. -/
theorem logged_was_proposed (maxInstances : UInt32) (es : List (Event n)) (k : Fin n) (i : UInt32) :
    Logs (Origin es) i (((run Sys.step (.init n maxInstances) es).node k).inst i) := by
  have hall := Sys.invariant (C := fun _ e => e ∈ es) (I := fun w : World n =>
    (∀ k, Sourced (Origin es) (w.rep k)) ∧ ∀ env ∈ w.sent, Carried (Origin es) env.out.msg)
    ?_ ?_ (along_of_forall Sys.step (fun _ he => he) (.init n maxInstances))
  · exact (hall.1 k).inst i
  · intro w e k a t out del ⟨hr,hs⟩ he hc heff
    have ha : Supplied (Origin es) a := by
      cases hc with
      | propose k id value len => exact .inr ⟨k,value,len,he,rfl⟩
      | elect => exact .inl rfl
      | deliver j d env hj => exact hs env (List.mem_of_getElem? hj)
    obtain ⟨ht,hout⟩ := (hr k).effect ha heff
    refine ⟨World.next_forall ht hr,fun env henv => ?_⟩
    rcases World.mem_next.mp henv with hold | ⟨-,hnew⟩
    · exact hs env hold
    · exact hout _ hnew
  · exact ⟨fun k => ⟨fun i => ⟨.inl rfl,.inl rfl⟩,fun i => ⟨.inl rfl,.inl rfl⟩⟩,nofun⟩

end SimBricks.PaxosValidity
