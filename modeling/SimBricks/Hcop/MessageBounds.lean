import SimBricks.Hcop.BarrierState
import SimBricks.Hcop.LockState
import SimBricks.Hcop.PaxosState

/-!
# What the state machines read of a message

A message is a pointer and a length. The lock and barrier managers check the
length before they read. A Paxos message is accepted if it reaches up to its
value; the handlers then copy as many bytes as the message claims the value
to have, up to 128, from wherever the message is stored.
-/

set_option autoImplicit false

namespace SimBricks.MessageBounds
open Library Library.Bytes List Option

/-! ## Locks and barriers -/

variable {len : ℕ} {m m' : Memory}

lemma lock_parse_agree (h : Agree len m m') : LockProto.parse m' len = LockProto.parse m len := by
  unfold LockProto.parse
  by_cases hlen : len < 12
  · rw [if_pos hlen, if_pos hlen]
  · have hh : LockProto.headerAt m' = LockProto.headerAt m := by
      rw [LockProto.headerAt, LockProto.headerAt, h 1 (by omega), h.u64At (o := 4) (by omega)]
    rw [if_neg hlen, if_neg hlen, h 0 (by omega), hh]
    by_cases hl : 20 ≤ len
    · rw [h.u64At (o := 12) (by omega)]
    · simp only [if_neg hl]

lemma barrier_parse_agree (h : Agree len m m') :
    BarrierProto.parse m' len = BarrierProto.parse m len := by
  unfold BarrierProto.parse
  by_cases hlen : len < 8
  · rw [if_pos hlen, if_pos hlen]
  · have hh : BarrierProto.headerAt m' = BarrierProto.headerAt m := by
      rw [BarrierProto.headerAt, BarrierProto.headerAt, h 1 (by omega),
        h.u16At (o := 2) (by omega), h.u32At (o := 4) (by omega)]
    rw [if_neg hlen, if_neg hlen, h 0 (by omega), hh]

/-! ## Paxos -/

section
open PaxosProto PaxosState

def withValue (v : Value) : Msg → Msg
  | .prepare hdr p => .prepare hdr p
  | .promise hdr p acc n _ => .promise hdr p acc n v
  | .accept hdr p n _ => .accept hdr p n v
  | .accepted hdr p n _ => .accepted hdr p n v
  | .learn hdr n _ => .learn hdr n v
  | .nack hdr p => .nack hdr p

def valueOffset : Msg → ℕ
  | .promise _ _ _ _ _ => 26
  | .accept _ _ _ _ => 18
  | .accepted _ _ _ _ => 18
  | .learn _ _ _ => 10
  | _ => 0

/-- The number of value bytes a handler copies if it copies the value. -/
def copied : Msg → ℕ
  | .promise _ _ _ n _ => (clampLen n).toNat
  | .accept _ _ n _ => (clampLen n).toNat
  | .accepted _ _ n _ => (clampLen n).toNat
  | .learn _ n _ => (clampLen n).toNat
  | _ => 0

lemma copied_le (msg : Msg) : copied msg ≤ kMaxValueSize := by
  cases msg with
  | prepare | nack => exact Nat.zero_le _
  | promise hdr p acc n v | accept hdr p n v | accepted hdr p n v | learn hdr n v =>
    exact clampLen_le n

lemma parse_agree (h : Agree len m m') :
    parse m' len = (parse m len).map fun msg => withValue (valueAt m' (valueOffset msg)) msg := by
  unfold parse
  by_cases hlen : len < 8
  · simp only [if_pos hlen, map_none]
  · have hh : headerAt m' = headerAt m := by
      rw [headerAt, headerAt, h 1 (by omega), h.u16At (o := 2) (by omega),
        h.u32At (o := 4) (by omega)]
    have hread : ∀ o, o+8 ≤ len → ProposalNum.read m' o = ProposalNum.read m o := by
      intro o ho
      rw [ProposalNum.read, ProposalNum.read, h.u32At (o := o) (by omega),
        h.u16At (o := o+4) (by omega), h.u16At (o := o+6) (by omega)]
    simp only [if_neg hlen, ← h 0 (by omega), hh, kMaxValueSize, Nat.reduceSub]
    split
    · by_cases hl : 16 ≤ len
      · simp [hl, withValue, hread 8 (by omega)]
      · simp [hl]
    · by_cases hl : 26 ≤ len
      · simp [hl, withValue, valueOffset, hread 8 (by omega), hread 16 (by omega),
          h.u16At (o := 24) (by omega)]
      · simp [hl]
    · by_cases hl : 18 ≤ len
      · simp [hl, withValue, valueOffset, hread 8 (by omega), h.u16At (o := 16) (by omega)]
      · simp [hl]
    · by_cases hl : 18 ≤ len
      · simp [hl, withValue, valueOffset, hread 8 (by omega), h.u16At (o := 16) (by omega)]
      · simp [hl]
    · by_cases hl : 10 ≤ len
      · simp [hl, withValue, valueOffset, h.u16At (o := 8) (by omega)]
      · simp [hl]
    · by_cases hl : 16 ≤ len
      · simp [hl, withValue, hread 8 (by omega)]
      · simp [hl]
    · rfl

lemma parse_value {msg : Msg} (h : parse m len = some msg) :
    valueOffset msg ≤ len ∧ msg = withValue (valueAt m (valueOffset msg)) msg := by
  constructor
  · unfold parse at h
    by_cases hlen : len < 8
    · rw [if_pos hlen] at h
      cases h
    · rw [if_neg hlen] at h
      split at h
      case h_7 => cases h
      all_goals
        obtain ⟨hl,hmsg⟩ := ite_none_right_eq_some.mp h
        cases hmsg
        simp only [valueOffset, kMaxValueSize] at hl ⊢
        omega
  · have hsame : Agree len m m := fun _ _ => rfl
    have hself := parse_agree hsame
    rw [h] at hself
    exact some.inj hself

def Copies (s : PaxosNode) : Msg → Prop
  | .promise hdr p acc _ _ =>
    ∃ ps, s.proposerState.lookup hdr.instanceId = some ps ∧ p.same ps.proposal ∧ ps.Raises acc
  | .accept hdr p _ _ =>
    ∃ inst t, s.getOrCreateInstance hdr.instanceId = some (inst,t) ∧ inst.isCommitted = false ∧
      inst.highestPromised ≤ p
  | .accepted hdr p _ _ =>
    ∃ ps, s.proposerState.lookup hdr.instanceId = some ps ∧ p.same ps.proposal ∧
      ps.committed = false ∧ s.quorum ≤ ps.acceptedCount+1 ∧
      ((s.getOrCreateInstance hdr.instanceId).isSome ∨
        ∃ i < s.numReplicas.toNat, i ≠ s.nodeId.toNat)
  | .learn hdr _ _ =>
    ∃ inst t, s.getOrCreateInstance hdr.instanceId = some (inst,t) ∧ inst.isCommitted = false
  | _ => False

lemma memcpy_congr {v w : Value} {n : ℕ} (h : ∀ i, i.val < n → v i = w i) (a : Value) :
    memcpy a v n = memcpy a w n := by
  funext i
  by_cases hi : i.val < n
  · simp [memcpy, hi, h i hi]
  · simp [memcpy, hi]

lemma memcpy_ne {v w : Value} {n : ℕ} {i : Fin kMaxValueSize} (hi : i.val < n)
    (h : v i ≠ w i) (a : Value) : memcpy a v n ≠ memcpy a w n := by
  intro he
  have hat := congrFun he i
  simp only [memcpy, if_pos hi] at hat
  exact h hat

lemma promised_agree {ps : ProposerInstanceState} {acc : ProposalNum} {n : UInt16} {v w : Value}
    (h : ps.Raises acc → ∀ i, i.val < (clampLen n).toNat → v i = w i) :
    ps.promised acc n v = ps.promised acc n w := by
  unfold ProposerInstanceState.promised
  by_cases hr : ps.Raises acc
  · rw [if_pos hr, if_pos hr, memcpy_congr (h hr)]
  · rw [if_neg hr, if_neg hr]

open PaxosNode

lemma getOrCreateInstance_putProposer (s : PaxosNode) (id id' : UInt32)
    (ps : ProposerInstanceState) :
    (s.putProposer id' ps).getOrCreateInstance id = (s.getOrCreateInstance id).map fun x =>
    (x.1,x.2.putProposer id' ps) := by
  simp only [getOrCreateInstance, putProposer]
  cases s.instances.lookup id with
  | some => rfl
  | none =>
    by_cases hfull : s.maxInstances.toNat ≤ Table.size s.instances
    · simp only [hfull, if_true, map_none]
    · simp only [hfull, if_false, map_some, putInstance]

lemma recordCommit_full {s : PaxosNode} {id : UInt32} (h : s.getOrCreateInstance id = none)
    (ps : ProposerInstanceState) (n : UInt16) (v : Value) :
    (s.putProposer id ps).recordCommit id n v = s.putProposer id ps := by
  rw [recordCommit, getOrCreateInstance_putProposer, h, map_none]

lemma recordCommit_room {s t : PaxosNode} {id : UInt32} {inst : InstanceState}
    (h : s.getOrCreateInstance id = some (inst,t))
    (ps : ProposerInstanceState) (n : UInt16) (v : Value) :
    ((s.putProposer id ps).recordCommit id n v).instances.lookup id = some (inst.commit n v) := by
  rw [recordCommit, getOrCreateInstance_putProposer, h, map_some]
  exact Finmap.lookup_insert _

lemma putProposer_header (s : PaxosNode) (id id' : UInt32) (ps : ProposerInstanceState) :
    (s.putProposer id ps).header id' = s.header id' := rfl

lemma learnOthers_alone {hdr : MsgHeader}
    (h : ∀ i < hdr.numReplicas.toNat, i = hdr.senderId.toNat) (n : UInt16) (v : Value) :
    learnOthers hdr n v = [] := by
  rw [learnOthers, map_eq_nil_iff, filter_eq_nil_iff]
  intro i hi
  simp [h i (mem_range.mp hi)]

lemma learnOthers_cons (hdr : MsgHeader) (h : ∃ i < hdr.numReplicas.toNat, i ≠ hdr.senderId.toNat) :
    ∃ (d : ℕ) (ds : List ℕ), ∀ n v, learnOthers hdr n v = makeLearn hdr (UInt8.ofNat d) n v ::
    ds.map fun i => makeLearn hdr (UInt8.ofNat i) n v := by
  obtain ⟨i,hi,hne⟩ := h
  have hmem : i ∈ (range hdr.numReplicas.toNat).filter (· ≠ hdr.senderId.toNat) := by
    simpa using ⟨hi,hne⟩
  obtain ⟨d,ds,hds⟩ := exists_cons_of_ne_nil (ne_nil_of_mem hmem)
  refine ⟨d,ds,fun n v => ?_⟩
  rw [learnOthers, hds, map_cons]

section
variable (s : PaxosNode) (msg : Msg) {v w : Value}

lemma handle_agree (h : Copies s msg → ∀ i, i.val < copied msg → v i = w i) :
    s.handle (withValue v msg) = s.handle (withValue w msg) := by
  cases msg with
  | prepare => rfl
  | promise hdr p =>
    simp only [withValue, handle, handlePromise]
    cases hps : s.proposerState.lookup hdr.instanceId with
    | none => rfl
    | some ps =>
      by_cases hp : p.same ps.proposal
      · have hv := promised_agree fun hr => h ⟨ps,hps,hp,hr⟩
        simp only [hv]
      · simp only [hp, not_false_eq_true, if_true]
  | accept hdr p =>
    simp only [withValue, handle, handleAccept]
    cases hi : s.getOrCreateInstance hdr.instanceId with
    | none => rfl
    | some x =>
      obtain ⟨inst,t⟩ := x
      by_cases hc : inst.isCommitted
      · simp only [hc, if_true]
      · by_cases hp : inst.highestPromised ≤ p
        · have hv := memcpy_congr (h ⟨inst,t,hi,eq_false_of_ne_true hc,hp⟩)
          simp only [copied] at hv
          simp only [InstanceState.accept, makeAccepted, hv]
        · simp only [hp, if_false]
  | accepted hdr p n u =>
    simp only [withValue, handle, handleAccepted]
    cases hps : s.proposerState.lookup hdr.instanceId with
    | none => rfl
    | some ps =>
      by_cases hp : p.same ps.proposal
      · by_cases hc : ps.committed
        · simp only [hc, if_true]
        · by_cases hq : s.quorum ≤ ps.acceptedCount+1
          · by_cases hroom : (s.getOrCreateInstance hdr.instanceId).isSome ∨
                ∃ i < s.numReplicas.toNat, i ≠ s.nodeId.toNat
            · have hv := memcpy_congr (h ⟨ps,hps,hp,eq_false_of_ne_true hc,hq,hroom⟩)
              simp only [copied] at hv
              simp only [recordCommit, InstanceState.commit, learnOthers, makeLearn, hv]
            · rw [not_or] at hroom
              have hfull := not_isSome_iff_eq_none.mp hroom.1
              have halone : ∀ u, learnOthers (s.header hdr.instanceId) n u = [] :=
                learnOthers_alone (fun i hi => by_contra fun hne => hroom.2 ⟨i,hi,hne⟩) n
              simp only [putProposer_header, recordCommit_full hfull, halone]
          · simp only [hq, if_false]
      · simp only [hp, not_false_eq_true, if_true]
  | learn hdr =>
    simp only [withValue, handle, handleLearn]
    cases hi : s.getOrCreateInstance hdr.instanceId with
    | none => rfl
    | some x =>
      obtain ⟨inst,t⟩ := x
      by_cases hc : inst.isCommitted
      · simp only [hc, if_true]
      · have hv := memcpy_congr (h ⟨inst,t,hi,eq_false_of_ne_true hc⟩)
        simp only [copied] at hv
        simp only [InstanceState.commit, hv]
  | nack => rfl

/-- Two outcomes differ in what the node keeps or in the first message it sends. -/
def Differ (x y : Outcome) : Prop := x.node ≠ y.node ∨ x.status = .kOk ∧ y.status = .kOk ∧
      ∃ a as b bs, x.out = a :: as ∧ y.out = b :: bs ∧ a.msg ≠ b.msg

lemma Differ.ne {x y : Outcome} (h : Differ x y) : x ≠ y := by
  rintro rfl
  rcases h with hnode | ⟨-,-,a,_,b,_,ha,hb,hne⟩
  · exact hnode rfl
  · rw [ha] at hb
    exact hne (congrArg OutMessage.msg (cons.inj hb).1)

/-- Every value byte that is copied shows in the outcome. -/
lemma handle_differ (h : Copies s msg) {i : Fin kMaxValueSize} (hi : i.val < copied msg)
    (hne : v i ≠ w i) : Differ (s.handle (withValue v msg)) (s.handle (withValue w msg)) := by
  cases msg with
  | prepare => exact h.elim
  | promise hdr =>
    obtain ⟨ps,hps,hp,hr⟩ := h
    refine Or.inl fun he => memcpy_ne hi hne ps.highestAcceptedValue ?_
    have hv := congrArg (fun t => (t.proposerState.lookup hdr.instanceId).map
      (·.highestAcceptedValue)) he
    simp only [withValue, handle, handlePromise, hps, hp,
      ProposerInstanceState.promised_promiseCount] at hv
    by_cases hq : s.quorum ≤ ps.promiseCount+1
    · simpa [hq, putProposer, ProposerInstanceState.promised, hr, copied] using hv
    · simpa [hq, putProposer, ProposerInstanceState.promised, hr, copied] using hv
  | accept hdr =>
    obtain ⟨inst,t,hinst,hc,hp⟩ := h
    refine Or.inl fun he => memcpy_ne hi hne inst.acceptedValue ?_
    have hv := congrArg (fun t => (t.instances.lookup hdr.instanceId).map (·.acceptedValue)) he
    simpa [withValue, handle, handleAccept, hinst, hc, hp,
      putInstance, InstanceState.accept, copied] using hv
  | accepted hdr p n u =>
    obtain ⟨ps,hps,hp,hc,hq,hroom⟩ := h
    cases hinst : s.getOrCreateInstance hdr.instanceId with
    | some x =>
      obtain ⟨inst,t⟩ := x
      refine Or.inl fun he => memcpy_ne hi hne inst.committedValue ?_
      have hv := congrArg (fun t => (t.instances.lookup hdr.instanceId).map (·.committedValue)) he
      simpa [withValue, handle, handleAccepted, hps, hc, hp, hq,
        recordCommit_room hinst, InstanceState.commit, copied] using hv
    | none =>
      -- The log is full, but the other replicas are still told the value.
      have hothers := hroom.resolve_left (by simp [hinst])
      obtain ⟨d,_,hlearn⟩ := learnOthers_cons (s.header hdr.instanceId) hothers
      have hout : ∀ x, (s.handle (withValue x (.accepted hdr p n u))).status = .kOk ∧
          (s.handle (withValue x (.accepted hdr p n u))).out =
            learnOthers (s.header hdr.instanceId) n x := by
        intro x
        simp [withValue, handle, handleAccepted, hps, hc, hp, hq, putProposer_header]
      refine Or.inr ⟨(hout v).1,(hout w).1,_,_,_,_,(hout v).2.trans (hlearn n v),
        (hout w).2.trans (hlearn n w),fun he => ?_⟩
      exact memcpy_ne hi hne zeroValue (Msg.learn.inj he).2.2
  | learn hdr =>
    obtain ⟨inst,t,hinst,hc⟩ := h
    refine Or.inl fun he => memcpy_ne hi hne inst.committedValue ?_
    have hv := congrArg (fun t => (t.instances.lookup hdr.instanceId).map (·.committedValue)) he
    simpa [withValue, handle, handleLearn, hinst, hc,
      putInstance, InstanceState.commit, copied] using hv
  | nack => exact h.elim

end

/-- The message makes the handler copy value bytes that were not received. -/
def Overreads (s : PaxosNode) (m : Memory) (len : ℕ) : Prop :=
  ∃ msg, parse m len = some msg ∧ Copies s msg ∧ len < valueOffset msg+copied msg

lemma handleMessage_agree {s : PaxosNode} (h : ¬ Overreads s m len) (ha : Agree len m m') :
    s.handleMessage m' len = s.handleMessage m len := by
  unfold handleMessage
  rw [parse_agree ha]
  cases hp : parse m len with
  | none => rfl
  | some msg =>
    conv_rhs => rw [(parse_value hp).2]
    refine handle_agree s msg fun hc i hi => ?_
    have hfit : valueOffset msg+copied msg ≤ len := by
      by_contra hlt
      exact h ⟨msg,hp,hc,by omega⟩
    exact (ha _ (by omega)).symm

def flipped (m : Memory) (len : ℕ) : Memory := fun i => if i = len then m i+1 else m i

lemma flipped_agree (m : Memory) (len : ℕ) : Agree len m (flipped m len) := by
  intro i hi
  rw [flipped, if_neg (by omega)]

lemma handleMessage_differ {s : PaxosNode} (h : Overreads s m len) :
    Differ (s.handleMessage (flipped m len) len) (s.handleMessage m len) := by
  obtain ⟨msg,hp,hc,_⟩ := h
  obtain ⟨_,hself⟩ := parse_value hp
  have hbound := copied_le msg
  unfold handleMessage
  rw [parse_agree (flipped_agree m len), hp]
  conv => arg 2; rw [hself]
  refine handle_differ s msg hc (i := ⟨len-valueOffset msg,by omega⟩) (by dsimp only; omega) ?_
  have haddr : valueOffset msg+(len-valueOffset msg) = len := by omega
  simp only [valueAt, haddr, flipped, if_true]
  simp

end

end SimBricks.MessageBounds
