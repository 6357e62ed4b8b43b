import SimBricks.Mem.Interconnect

/-!
# Requests through the interconnect

Each request is a transaction of its own: queued at its host, sent to its
device, answered, completed. The queues, logs and records of the interconnect
are those of its transactions, whatever the ids of the requests are.
-/

set_option autoImplicit false

namespace SimBricks.Transactions
open Library Library.Run Library.Tickets Function NetProto Interconnect

variable {H D : Type}

/-- How far a transaction is, with the messages it consists of so far. -/
inductive Stage (H D : Type) where
  | unused
  | queued (h : H) (r : H2M)
  | sent (d : D) (m : H2M)
  | answered (d : D) (m : H2M) (data : List UInt8) (c : M2H)
  | completed (h : H) (d : D) (m : H2M) (data : List UInt8) (c : M2H)
  | taken (d : D) (m : H2M) (data : List UInt8)

namespace Stage

def record : Stage H D → Option UInt64
  | .sent _ m => if m.posted then none else some m.reqId
  | .answered _ _ _ c => some c.reqId
  | _ => none

section
variable [DecidableEq H] [DecidableEq D]

def atHost (h : H) : Stage H D → Option H2M
  | .queued h' r => if h' = h then some r else none
  | _ => none

def toDevice (d : D) : Stage H D → Option H2M
  | .sent d' m => if d' = d then some m else none
  | _ => none

def servedBy (d : D) : Stage H D → Option (H2M × List UInt8)
  | .answered d' m data _ | .completed _ d' m data _ | .taken d' m data =>
    if d' = d then some (m,data) else none
  | _ => none

def fromDevice (d : D) : Stage H D → Option M2H
  | .answered d' _ _ c => if d' = d then some c else none
  | _ => none

def completedTo (h : H) : Stage H D → Option M2H
  | .completed h' _ _ _ c => if h' = h then some c else none
  | _ => none

end

structure Sent (table : List (TableEntry D)) (r : H2M) (d : D) (m : H2M) (p addr : UInt64) : Prop
    where
  target : target table r = .ok (d,addr)
  msg : m = deviceMsg p addr r

/-- The messages of the stage are those of the request issued under the ticket,
and its record has what is needed to complete it. -/
def Fits (table : List (TableEntry D)) (heap : Table UInt64 (Pending H))
    (issue : Option (H × H2M)) :
    Stage H D → Prop
  | .unused => issue = none
  | .queued h r => issue = some (h,r)
  | .sent d m => ∃ h r p addr, issue = some (h,r) ∧ Sent table r d m p addr ∧
    (r.posted = false → heap.lookup p = some (pendingOf h addr r))
  | .answered d m data c => ∃ h r p addr, issue = some (h,r) ∧ Sent table r d m p addr ∧
    r.posted = false ∧ heap.lookup p = some (pendingOf h addr r) ∧
    reply m data = some c ∧ Sized data r
  | .completed h d m data c => ∃ r p addr, issue = some (h,r) ∧ Sent table r d m p addr ∧
    r.posted = false ∧ c = completion data r
  | .taken d m _ => ∃ h r p addr, issue = some (h,r) ∧ Sent table r d m p addr ∧ r.posted

end Stage

lemma deviceMsg_posted (p addr : UInt64) (r : H2M) : (deviceMsg p addr r).posted = r.posted := by
  cases r <;> rfl

variable {p : UInt64} {r : H2M} {c : M2H} {x : Stage H D} {t : ℕ}

lemma deviceMsg_reqId {addr : UInt64} (h : r.posted = false) : (deviceMsg p addr r).reqId = p := by
  cases r with
  | read reqId asId a len | write reqId asId a data => rfl
  | writePosted => cases h

lemma reply_reqId {addr : UInt64} {data : List UInt8}
    (h : reply (deviceMsg p addr r) data = some c) : c.reqId = p := by
  cases r with
  | read reqId asId a len | write reqId asId a data => cases h; rfl
  | writePosted => cases h

lemma sized_deviceMsg (p addr : UInt64) (r : H2M) (data : List UInt8) :
    Sized data (deviceMsg p addr r) ↔ Sized data r := by
  cases r <;> rfl

lemma reply_isSome (p addr : UInt64) (r : H2M) (data : List UInt8) :
    (reply (deviceMsg p addr r) data).isSome = !r.posted := by
  cases r <;> rfl

open Stage

section
variable {table : List (TableEntry D)} {heap heap' : Table UInt64 (Pending H)}
  {issue : Option (H × H2M)}

lemma Stage.Fits.mono (h : x.Fits table heap issue)
    (hheap : ∀ p, x.record = some p → heap'.lookup p = heap.lookup p) :
    x.Fits table heap' issue := by
  cases x with
  | unused | queued h r => exact h
  | sent =>
    obtain ⟨h,r,p,addr,hi,hs,hp⟩ := h
    refine ⟨h,r,p,addr,hi,hs,fun hr => ?_⟩
    rw [hheap p, hp hr]
    simp [record, hs.msg, deviceMsg_posted, hr, deviceMsg_reqId]
  | answered =>
    obtain ⟨h,r,p,addr,hi,hs,hr,hp,hc,hd⟩ := h
    refine ⟨h,r,p,addr,hi,hs,hr,?_,hc,hd⟩
    rw [hheap p, hp]
    rw [hs.msg] at hc
    simp [record, reply_reqId hc]
  | completed h d m data c | taken d m data => exact h

lemma Stage.Fits.unused (h : x.Fits table heap none) : x = .unused := by
  cases x with
  | unused => rfl
  | queued h => cases h
  | sent d m | answered d m data c => obtain ⟨h,r,p,addr,hi,-⟩ := h; cases hi
  | completed h => obtain ⟨r,p,addr,hi,-⟩ := h; cases hi
  | taken => obtain ⟨h,r,p,addr,hi,-⟩ := h; cases hi

end

lemma atHost_eq [DecidableEq H] {h : H} : x.atHost h = some r ↔ x = .queued h r := by
  cases x <;> simp [atHost]

lemma toDevice_eq [DecidableEq D] {d : D} {m : H2M} : x.toDevice d = some m ↔ x = .sent d m := by
  cases x <;> simp [toDevice]

lemma fromDevice_eq [DecidableEq D] {d : D} :
    x.fromDevice d = some c ↔ ∃ m data, x = .answered d m data c := by
  cases x <;> simp [fromDevice]

lemma completedTo_eq [DecidableEq H] {h : H} :
    x.completedTo h = some c ↔ ∃ d m data, x = .completed h d m data c := by
  cases x <;> simp [completedTo]

def Stage.weight : Stage H D → ℕ
  | .queued _ _ => 3
  | .sent _ _ => 2
  | .answered _ _ _ _ => 1
  | _ => 0

def Stage.after (d : D) (m : H2M) (data : List UInt8) : Stage H D :=
  match reply m data with
  | some c => .answered d m data c
  | none => .taken d m data

section
variable (d d' : D) (m : H2M) (data : List UInt8)

@[simp] lemma atHost_after [DecidableEq H] (h : H) :
    (after d m data : Stage H D).atHost h = none := by
  unfold after
  split <;> rfl

@[simp] lemma toDevice_after [DecidableEq D] : (after d m data : Stage H D).toDevice d' = none := by
  unfold after
  split <;> rfl

@[simp] lemma servedBy_after [DecidableEq D] :
    (after d m data : Stage H D).servedBy d' = if d = d' then some (m,data) else none := by
  unfold after
  split <;> rfl

@[simp] lemma fromDevice_after [DecidableEq D] :
    (after d m data : Stage H D).fromDevice d' = if d = d' then reply m data else none := by
  unfold after
  split <;> simp_all [fromDevice]

@[simp] lemma completedTo_after [DecidableEq H] (h : H) :
    (after d m data : Stage H D).completedTo h = none := by
  unfold after
  split <;> rfl

@[simp] lemma record_after :
    (after d m data : Stage H D).record = (Stage.sent d m : Stage H D).record := by
  cases m <;> rfl

lemma weight_after : (after d m data : Stage H D).weight < 2 := by
  unfold after
  split <;> simp [weight]

end

lemma fits_update {table : List (TableEntry D)} {s : State H D} {stage : ℕ → Stage H D}
    (hfits : ∀ t, (stage t).Fits table s.heap s.issued[t]?) {new : Stage H D}
    {heap : Table UInt64 (Pending H)} (hnew : new.Fits table heap s.issued[t]?)
    (hheap : ∀ u p, u ≠ t → (stage u).record = some p → heap.lookup p = s.heap.lookup p) (u : ℕ) :
    (update stage t new u).Fits table heap s.issued[u]? := by
  by_cases hu : u = t
  · subst hu
    rwa [update_self]
  · rw [update_of_ne hu]
    exact (hfits u).mono fun p hp => hheap u p hu hp

variable [DecidableEq H] [DecidableEq D]

structure Inv (table : List (TableEntry D)) (s : State H D) (stage : ℕ → Stage H D) : Prop where
  hostIn : ∀ h, Holds (atHost h) stage (s.hostIn h)
  toDev : ∀ d, Holds (toDevice d) stage (s.toDev d)
  served : ∀ d, Holds (servedBy d) stage (s.served d)
  fromDev : ∀ d, Holds (fromDevice d) stage (s.fromDev d)
  hostOut : ∀ h, Holds (completedTo h) stage (s.hostOut h)
  owned : Owned record stage s.heap
  fits : ∀ t, (stage t).Fits table s.heap s.issued[t]?
  mapped : ∀ x ∈ s.issued, Mapped table x.2

section
variable {table : List (TableEntry D)} {s : State H D} {stage : ℕ → Stage H D}

lemma init_inv (table : List (TableEntry D)) : Inv table ({} : State H D) (fun _ => .unused) where
  hostIn _ := Holds.empty fun _ => rfl
  toDev _ := Holds.empty fun _ => rfl
  served _ := Holds.empty fun _ => rfl
  fromDev _ := Holds.empty fun _ => rfl
  hostOut _ := Holds.empty fun _ => rfl
  owned := ⟨by simp [record],by simp [record]⟩
  fits _ := rfl
  mapped := by simp

variable (h : Inv table s stage)
include h

lemma issue_inv (k : H) (hr : Mapped table r) :
    Inv table (s.issue k r) (update stage s.issued.length (.queued k r)) := by
  have hnone : stage s.issued.length = .unused := by
    have hfit := h.fits s.issued.length
    rw [List.getElem?_eq_none le_rfl] at hfit
    exact hfit.unused
  refine ⟨?_,?_,?_,?_,?_,?_,?_,?_⟩
  · apply holds_update
    · exact (h.hostIn k).push (by simp [hnone, atHost]) (by simp [atHost])
    · intro k' hk
      exact (h.hostIn k').keep (by simp [hnone, atHost, hk.symm])
  · exact fun d => (h.toDev d).keep (by simp [hnone, toDevice])
  · exact fun d => (h.served d).keep (by simp [hnone, servedBy])
  · exact fun d => (h.fromDev d).keep (by simp [hnone, fromDevice])
  · exact fun k' => (h.hostOut k').keep (by simp [hnone, completedTo])
  · exact h.owned.keep (by simp [hnone, record])
  · intro t
    simp only [State.issue]
    by_cases ht : t = s.issued.length
    · subst ht
      rw [update_self, List.getElem?_concat_length]
      rfl
    · rw [update_of_ne ht]
      have hsame : (s.issued++[(k,r)])[t]? = s.issued[t]? := by
        rcases Nat.lt_or_gt_of_ne ht with hlt | hgt
        · exact List.getElem?_append_left hlt
        · rw [List.getElem?_eq_none (by simp; omega), List.getElem?_eq_none hgt.le]
      rw [hsame]
      exact h.fits t
  · intro x hx
    rcases List.mem_append.mp hx with hx | hx
    · exact h.mapped x hx
    · obtain rfl := List.mem_singleton.mp hx
      exact hr

variable {k : H}

lemma hostPoll_inv {rest : List (ℕ × H2M)} (hq : s.hostIn k = (t,r)::rest)
    (hp : s.heap.lookup p = none) :
    ∃ s' d addr, s.hostPoll table k p = some s' ∧ stage t = .queued k r ∧
    Inv table s' (update stage t (.sent d (deviceMsg p addr r))) := by
  have hin : Holds (atHost k) stage ([]++(t,r)::rest) := hq ▸ h.hostIn k
  have hstage : stage t = .queued k r := atHost_eq.mp hin.shown
  have hissue : s.issued[t]? = some (k,r) := by
    have hfit := h.fits t
    rwa [hstage] at hfit
  obtain ⟨d,addr,ht⟩ := target_of_mapped (h.mapped _ (List.mem_of_getElem? hissue))
  have hrecord : (stage t).record = none := by rw [hstage]; rfl
  refine ⟨_,d,addr,hostPoll_eq hq ht hp,hstage,?_,?_,?_,?_,?_,?_,?_,h.mapped⟩
  · apply holds_update
    · exact hin.remove (by simp [atHost])
    · intro k' hk
      exact (h.hostIn k').keep (by simp [hstage, atHost, hk.symm])
  · apply holds_update
    · exact (h.toDev d).push (by simp [hstage, toDevice]) (by simp [toDevice])
    · intro d' hd
      exact (h.toDev d').keep (by simp [hstage, toDevice, hd.symm])
  · exact fun d' => (h.served d').keep (by simp [hstage, servedBy])
  · exact fun d' => (h.fromDev d').keep (by simp [hstage, fromDevice])
  · exact fun k' => (h.hostOut k').keep (by simp [hstage, completedTo])
  · cases hr : r.posted with
    | true => exact h.owned.keep (by simp [hstage, record, deviceMsg_posted, hr])
    | false =>
      exact h.owned.insert hp hrecord (by simp [record, deviceMsg_posted, hr, deviceMsg_reqId]) _
  · apply fits_update h.fits
    · exact ⟨k,r,p,addr,hissue,⟨ht,rfl⟩,fun hr => by simp [hr]⟩
    · intro u q hu huq
      have hne : q ≠ p := by
        rintro rfl
        exact h.owned.unnamed hp u huq
      cases hr : r.posted <;> simp [hne]

lemma answer_inv {d : D} {i : ℕ} {m : H2M}
    (hi : (s.toDev d)[i]? = some (t,m)) {data : List UInt8} (hdata : Sized data m) :
    stage t = .sent d m ∧ Inv table (s.answer d i data) (update stage t (.after d m data)) := by
  obtain ⟨_,hget⟩ := List.getElem?_eq_some_iff.mp hi
  have hsplit : s.toDev d = (s.toDev d).take i++(t,m)::(s.toDev d).drop (i+1) := by
    rw [← hget, List.getElem_cons_drop, List.take_append_drop]
  have hto : Holds (toDevice d) stage ((s.toDev d).take i++(t,m)::(s.toDev d).drop (i+1)) :=
    hsplit ▸ h.toDev d
  have hstage : stage t = .sent d m := toDevice_eq.mp hto.shown
  refine ⟨hstage,?_⟩
  obtain ⟨k,r,p,addr,hissue,hsent,hheap⟩ : (Stage.sent d m).Fits table s.heap s.issued[t]? :=
    hstage ▸ h.fits t
  obtain ⟨ht,rfl⟩ := hsent
  rw [State.answer, hi]
  refine ⟨?_,?_,?_,?_,?_,?_,?_,h.mapped⟩
  · exact fun k' => (h.hostIn k').keep (by rw [hstage, atHost_after]; rfl)
  · apply holds_update
    · rw [List.eraseIdx_eq_take_drop_succ]
      exact hto.remove (by simp)
    · intro d' hd
      exact (h.toDev d').keep (by rw [hstage, toDevice_after, toDevice, if_neg hd.symm])
  · apply holds_update
    · exact (h.served d).push (by simp [hstage, servedBy]) (by simp)
    · intro d' hd
      exact (h.served d').keep (by rw [hstage, servedBy_after, if_neg hd.symm]; rfl)
  · apply holds_update
    · cases hc : reply (deviceMsg p addr r) data with
      | none =>
        rw [Option.map_none, Option.toList_none, List.append_nil]
        exact (h.fromDev d).keep (by rw [hstage, fromDevice_after, hc, ite_self]; rfl)
      | some => exact (h.fromDev d).push (by simp [hstage, fromDevice]) (by simp [hc])
    · intro d' hd
      exact (h.fromDev d').keep (by rw [hstage, fromDevice_after, if_neg hd.symm]; rfl)
  · exact fun k' => (h.hostOut k').keep (by rw [hstage, completedTo_after]; rfl)
  · exact h.owned.keep (by rw [hstage, record_after])
  · apply fits_update h.fits
    · have hreply := reply_isSome p addr r data
      unfold after
      cases hc : reply (deviceMsg p addr r) data with
      | none =>
        have hr : r.posted := by simpa [hc] using hreply
        exact ⟨k,r,p,addr,hissue,⟨ht,rfl⟩,hr⟩
      | some =>
        have hr : r.posted = false := by simpa [hc] using hreply
        exact ⟨k,r,p,addr,hissue,⟨ht,rfl⟩,hr,hheap hr,hc,(sized_deviceMsg p addr r data).mp hdata⟩
    · exact fun u q _ _ => rfl

lemma devicePoll_inv {d : D} {rest : List (ℕ × M2H)} (hq : s.fromDev d = (t,c)::rest) :
    ∃ s' k m data r, s.devicePoll d = some s' ∧ stage t = .answered d m data c ∧
    Inv table s' (update stage t (.completed k d m data (completion data r))) := by
  have hfrom : Holds (fromDevice d) stage ([]++(t,c)::rest) := hq ▸ h.fromDev d
  obtain ⟨m,data,hstage⟩ := fromDevice_eq.mp hfrom.shown
  obtain ⟨k,r,p,addr,hissue,hsent,hr,hp,hc,hsized⟩ :
    (Stage.answered d m data c).Fits table s.heap s.issued[t]? := hstage ▸ h.fits t
  have hreply : reply (deviceMsg p addr r) data = some c := hsent.msg ▸ hc
  have hrecord : (stage t).record = some p := by rw [hstage, record, reply_reqId hreply]
  refine ⟨_,k,m,data,r,devicePoll_eq hq hp hreply hsized,hstage,?_,?_,?_,?_,?_,?_,?_,h.mapped⟩
  · exact fun k' => (h.hostIn k').keep (by simp [hstage, atHost])
  · exact fun d' => (h.toDev d').keep (by simp [hstage, toDevice])
  · exact fun d' => (h.served d').keep (by simp [hstage, servedBy])
  · apply holds_update
    · exact hfrom.remove (by simp [fromDevice])
    · intro d' hd
      exact (h.fromDev d').keep (by simp [hstage, fromDevice, hd.symm])
  · apply holds_update
    · exact (h.hostOut k).push (by simp [hstage, completedTo]) (by simp [completedTo])
    · intro k' hk
      exact (h.hostOut k').keep (by simp [hstage, completedTo, hk.symm])
  · exact h.owned.erase hrecord rfl
  · apply fits_update h.fits
    · exact ⟨r,p,addr,hissue,hsent,hr,rfl⟩
    · intro u q hu huq
      have hne : q ≠ p := by
        rintro rfl
        exact hu (h.owned.unique u t q huq hrecord)
      exact Finmap.lookup_erase_ne hne

/-- A legal step keeps the state one of transactions; none of them can make it abort. -/
lemma step_inv {e : Event H D} (he : Legal table (some s) e) :
    ∃ s' stage', step table (some s) e = some s' ∧ Inv table s' stage' := by
  cases e with
  | issue k => exact ⟨_,_,rfl,issue_inv h k he⟩
  | hostPoll k =>
    cases hq : s.hostIn k with
    | nil => exact ⟨s,stage,by simp [step, State.hostPoll, hq],h⟩
    | cons =>
      obtain ⟨s',d,_,hs',-,hinv⟩ := hostPoll_inv h hq he
      exact ⟨s',_,hs',hinv⟩
  | answer d i =>
    cases hi : (s.toDev d)[i]? with
    | none => exact ⟨s,stage,by simp [step, State.answer, hi],h⟩
    | some x => exact ⟨_,_,rfl,(answer_inv h hi (he x hi)).2⟩
  | devicePoll d =>
    cases hq : s.fromDev d with
    | nil => exact ⟨s,stage,by simp [step, State.devicePoll, hq],h⟩
    | cons =>
      obtain ⟨s',k,m,data,r,hs',-,hinv⟩ := devicePoll_inv h hq
      exact ⟨s',_,hs',hinv⟩

omit h in
lemma run_inv {es : List (Event H D)} (hlegal : Along (step table) (Legal table) (some {}) es) :
    ∃ s stage, run (step table) (some {}) es = some s ∧ Inv table s stage := by
  have hstep : ∀ (x : Option (State H D)) e, (∃ s stage, x = some s ∧ Inv table s stage) →
      Legal table x e → ∃ s stage, step table x e = some s ∧ Inv table s stage := by
    rintro x e ⟨s,stage,rfl,h⟩ he
    exact step_inv h he
  exact run_invariant hstep ⟨{},_,rfl,init_inv table⟩ hlegal

/-! ## What the transactions say about the state -/

lemma Inv.outstanding_iff (t : ℕ) (p : UInt64) :
    s.Outstanding t p ↔ (stage t).record = some p := by
  unfold State.Outstanding
  simp only [(h.toDev _).mem_iff, (h.fromDev _).mem_iff, toDevice_eq, fromDevice_eq]
  constructor
  · rintro (⟨d,m,hs,hm,rfl⟩ | ⟨d,c,⟨m,data,hs⟩,rfl⟩)
    · simp [hs, record, hm]
    · simp [hs, record]
  · intro hp
    cases hs : stage t with
    | sent d m =>
      simp only [hs, record, Option.ite_none_left_eq_some, Bool.not_eq_true,
        Option.some.injEq] at hp
      exact .inl ⟨d,m,rfl,hp.1,hp.2⟩
    | answered d m data c => exact .inr ⟨d,c,⟨m,data,rfl⟩,by simpa [hs, record] using hp⟩
    | _ => simp [hs, record] at hp

def Stage.reachedBy (d : D) : Stage H D → Option H2M
  | .sent d' m | .answered d' m _ _ | .completed _ d' m _ _ | .taken d' m _ =>
    if d' = d then some m else none
  | _ => none

lemma Inv.reached (d : D) : Holds (reachedBy d) stage (s.reached d) := by
  constructor
  · unfold State.reached
    rw [List.map_append, List.nodup_append, List.map_map]
    refine ⟨(h.toDev d).nodup,(h.served d).nodup,?_⟩
    rintro t ht u hu rfl
    obtain ⟨⟨t',m⟩,hm,rfl⟩ := List.mem_map.mp ht
    have hs := toDevice_eq.mp (((h.toDev d).mem_iff _ _).mp hm)
    exact (h.served d).not_mem (by simp [hs, servedBy]) hu
  · intro t m
    simp only [State.reached, List.mem_append, List.mem_map, Prod.exists, Prod.mk.injEq,
      (h.toDev d).mem_iff, (h.served d).mem_iff]
    cases hs : stage t with
    | _ => simp [hs, toDevice, servedBy, reachedBy]

lemma Inv.sent (hi : s.issued[t]? = some (k,r)) (hq : stage t ≠ .queued k r) :
    ∃ d p addr, Sent table r d (deviceMsg p addr r) p addr ∧
    (stage t).reachedBy d = some (deviceMsg p addr r) := by
  have hfit := h.fits t
  rw [hi] at hfit
  generalize stage t = x at hfit hq ⊢
  cases x with
  | unused => cases hfit
  | queued => cases hfit; exact absurd rfl hq
  | sent d | answered d | taken d =>
    obtain ⟨_,_,p,addr,heq,⟨ht,rfl⟩,-⟩ := hfit
    cases heq
    exact ⟨d,p,addr,⟨ht,rfl⟩,by simp [reachedBy]⟩
  | completed k' d =>
    obtain ⟨_,p,addr,heq,⟨ht,rfl⟩,-⟩ := hfit
    cases heq
    exact ⟨d,p,addr,⟨ht,rfl⟩,by simp [reachedBy]⟩

lemma Inv.completed_iff (hi : s.issued[t]? = some (k,r)) (hr : r.posted = false) :
    (∃ c d m data, stage t = .completed k d m data c) ↔ stage t ≠ .queued k r ∧
    (stage t).record = none := by
  have hfit := h.fits t
  rw [hi] at hfit
  generalize stage t = x at hfit ⊢
  cases x with
  | unused => cases hfit
  | queued => cases hfit; simp
  | sent =>
    obtain ⟨_,_,p,addr,heq,⟨_,rfl⟩,-⟩ := hfit
    cases heq
    simp [record, deviceMsg_posted, hr]
  | answered => simp [record]
  | completed =>
    obtain ⟨_,p,addr,heq,-⟩ := hfit
    cases heq
    simp [record]
  | taken =>
    obtain ⟨_,_,p,addr,heq,-,hposted⟩ := hfit
    cases heq
    cases hr.symm.trans hposted

lemma Inv.record (hp : (stage t).record = some p) :
    ∃ k r d addr, s.issued[t]? = some (k,r) ∧ r.posted = false ∧ target table r = .ok (d,addr) ∧
    s.heap.lookup p = some (pendingOf k addr r) := by
  have hfit := h.fits t
  cases hs : stage t with
  | sent d =>
    rw [hs] at hfit hp
    obtain ⟨k,r,q,addr,hi,⟨ht,rfl⟩,hheap⟩ := hfit
    simp only [Stage.record, deviceMsg_posted, Option.ite_none_left_eq_some, Bool.not_eq_true,
      Option.some.injEq] at hp
    obtain ⟨hr,rfl⟩ := hp
    exact ⟨k,r,d,addr,hi,hr,ht,by rw [deviceMsg_reqId hr, hheap hr]⟩
  | answered d m data c =>
    rw [hs] at hfit hp
    obtain ⟨k,r,q,addr,hi,⟨ht,rfl⟩,hr,hheap,hc,-⟩ := hfit
    obtain rfl : c.reqId = p := Option.some.inj hp
    exact ⟨k,r,d,addr,hi,hr,ht,by rw [reply_reqId hc, hheap]⟩
  | _ => rw [hs] at hp; cases hp

lemma Inv.transparent : Transparent table s where
  completed := by
    intro k t c hc
    obtain ⟨d,m,data,hs⟩ := completedTo_eq.mp (((h.hostOut k).mem_iff t c).mp hc)
    obtain ⟨r,p,addr,hi,⟨ht,rfl⟩,hr,hc⟩ :
      (Stage.completed k d m data c).Fits table s.heap s.issued[t]? := hs ▸ h.fits t
    refine ⟨r,d,addr,p,data,hi,hr,ht,?_,hc⟩
    rw [(h.served d).mem_iff, hs]
    simp [servedBy]
  once k := (h.hostOut k).nodup
  answered := by
    intro t k r hi hr
    simp only [(h.hostOut k).mem_iff, (h.hostIn k).mem_iff, completedTo_eq, atHost_eq,
      h.outstanding_iff, h.completed_iff hi hr, Option.eq_none_iff_forall_ne_some, ne_eq]
  posted := by
    intro t k r hi hr k' c hc
    obtain ⟨d,m,data,hs⟩ := completedTo_eq.mp (((h.hostOut k').mem_iff t c).mp hc)
    obtain ⟨_,p,addr,hi',-,hr',-⟩ :
      (Stage.completed k' d m data c).Fits table s.heap s.issued[t]? := hs ▸ h.fits t
    cases hi.symm.trans hi'
    cases hr.symm.trans hr'
  reached := by
    intro t k r hi hq
    rw [(h.hostIn k).mem_iff, atHost_eq] at hq
    obtain ⟨d,p,addr,hsent,hreached⟩ := h.sent hi hq
    refine ⟨d,addr,p,hsent.target,((h.reached d).mem_iff t _).mpr hreached,?_⟩
    intro d' m hm
    rw [(h.reached d').mem_iff] at hm
    cases hs : stage t <;> simp_all [reachedBy]
  reachedOnce d := (h.reached d).nodup
  records p := by
    simp only [h.outstanding_iff]
    exact h.owned.alive p
  record t p hp := h.record ((h.outstanding_iff t p).mp hp)
  owner := by
    intro t u p ht hu
    rw [h.outstanding_iff] at ht hu
    exact h.owned.unique t u p ht hu
  recordOnce := by
    intro t p q hp hq
    rw [h.outstanding_iff] at hp hq
    exact Option.some.inj (hp.symm.trans hq)

/-! ## Every request can be answered -/

omit h in
lemma exists_sized (m : H2M) : ∃ data, Sized data m := by
  cases m with
  | read p asId addr len => exact ⟨List.replicate len.toNat 0,List.length_replicate⟩
  | write p asId addr data | writePosted p asId addr data => exact ⟨[],trivial⟩

lemma Inv.no_records (hd : ∀ d, s.toDev d = [] ∧ s.fromDev d = [])
    (p : UInt64) : s.heap.lookup p = none := by
  by_contra hp
  obtain ⟨t,ht⟩ := (h.transparent.records p).mp hp
  rcases ht with ⟨d,m,hm,-⟩ | ⟨d,c,hc,-⟩
  · simp [(hd d).1] at hm
  · simp [(hd d).2] at hc

/-- Until all requests are answered, some transaction can take a step. -/
lemma Inv.progress :
    s.Quiet ∨ ∃ e s' t new, e.isIssue = false ∧ Legal table (some s) e ∧
    step table (some s) e = some s' ∧ Inv table s' (update stage t new) ∧
    new.weight < (stage t).weight := by
  by_cases hfrom : ∃ d, s.fromDev d ≠ []
  · obtain ⟨d,hne⟩ := hfrom
    obtain ⟨x,rest,hq⟩ := List.exists_cons_of_ne_nil hne
    obtain ⟨s',k,m,data,r,hs',hstage,hinv⟩ := devicePoll_inv h hq
    exact .inr ⟨.devicePoll d,s',_,_,rfl,trivial,hs',hinv,by simp [hstage, weight]⟩
  by_cases hto : ∃ d, s.toDev d ≠ []
  · obtain ⟨d,hne⟩ := hto
    obtain ⟨x,rest,hq⟩ := List.exists_cons_of_ne_nil hne
    have hi : (s.toDev d)[0]? = some x := by rw [hq]; rfl
    obtain ⟨data,hdata⟩ := exists_sized x.2
    obtain ⟨hstage,hinv⟩ := answer_inv h hi hdata
    refine .inr ⟨.answer d 0 data,_,_,_,rfl,?_,rfl,hinv,?_⟩
    · intro y hy
      cases hi.symm.trans hy
      exact hdata
    · rw [hstage]
      exact weight_after d x.2 data
  have hd : ∀ d, s.toDev d = [] ∧ s.fromDev d = [] := fun d =>
    ⟨by_contra fun hne => hto ⟨d,hne⟩,by_contra fun hne => hfrom ⟨d,hne⟩⟩
  by_cases hin : ∃ k, s.hostIn k ≠ []
  · obtain ⟨k,hne⟩ := hin
    obtain ⟨x,rest,hq⟩ := List.exists_cons_of_ne_nil hne
    have hfree := h.no_records hd 0
    obtain ⟨s',d,_,hs',hstage,hinv⟩ := hostPoll_inv h hq hfree
    exact .inr ⟨.hostPoll k 0,s',_,_,rfl,hfree,hs',hinv,by simp [hstage, weight]⟩
  · exact .inl ⟨fun k => by_contra fun hne => hin ⟨k,hne⟩,hd⟩

/-- What the transactions still have to do is finite, and each step does some of it. -/
lemma Inv.exists_quiet_run :
    ∃ es s', (∀ e ∈ es, e.isIssue = false) ∧ Along (step table) (Legal table) (some s) es ∧
    run (step table) (some s) es = some s' ∧ s'.Quiet := by
  have hzero : ∀ t, s.issued.length ≤ t → (stage t).weight = 0 := by
    intro t ht
    have hfit := h.fits t
    rw [List.getElem?_eq_none ht] at hfit
    rw [hfit.unused]
    rfl
  generalize s.issued.length = n at hzero
  induction hw : ∑ t ∈ Finset.range n, (stage t).weight using Nat.strong_induction_on
    generalizing s stage with
  | _ w ih =>
    rcases h.progress with hquiet | ⟨e,s',t,new,he,hlegal,hs',hinv,hlt⟩
    · exact ⟨[],s,by simp,trivial,rfl,hquiet⟩
    · have ht : t < n := by
        by_contra hge
        rw [hzero t (Nat.le_of_not_lt hge)] at hlt
        exact Nat.not_lt_zero _ hlt
      have hle : ∀ u, (update stage t new u).weight ≤ (stage u).weight := by
        intro u
        by_cases hu : u = t
        · subst hu
          rw [update_self]
          exact hlt.le
        · rw [update_of_ne hu]
      have hless : ∑ u ∈ Finset.range n, (update stage t new u).weight < w := by
        rw [← hw]
        refine Finset.sum_lt_sum (fun u _ => hle u) ⟨t,Finset.mem_range.mpr ht,?_⟩
        rwa [update_self]
      have hzero' : ∀ u, n ≤ u → (update stage t new u).weight = 0 := fun u hu =>
        Nat.eq_zero_of_le_zero (hzero u hu ▸ hle u)
      obtain ⟨es,s'',hes,_,hrun,hquiet⟩ := ih _ hless hinv hzero' rfl
      refine ⟨e::es,s'',?_,⟨hlegal,by rwa [hs']⟩,by rw [run_cons, hs', hrun],hquiet⟩
      simpa [he] using hes

end

/-- In every run in which each request's first window contains all of it, each
non-posted request gets exactly its own completion and each posted write
reaches its device once; the records alive are those of the outstanding
requests; and all requests can be answered from where the run is. -/
theorem interconnect_transparent (table : List (TableEntry D)) (es : List (Event H D))
    (hlegal : Along (step table) (Legal table) (some {}) es) :
    ∃ s, run (step table) (some {}) es = some s ∧ Transparent table s ∧
      ∃ rest s', (∀ e ∈ rest, e.isIssue = false) ∧ Along (step table) (Legal table) (some s) rest ∧
        run (step table) (some s) rest = some s' ∧ s'.Quiet ∧ Transparent table s' := by
  obtain ⟨s,_,hs,hinv⟩ := run_inv hlegal
  obtain ⟨rest,s',hrest,halong,hs',hquiet⟩ := hinv.exists_quiet_run
  have hboth : Along (step table) (Legal table) (some {}) (es++rest) := by
    rw [along_append, hs]
    exact ⟨hlegal,halong⟩
  obtain ⟨u,_,hu,hinv'⟩ := run_inv hboth
  rw [run_append, hs, hs'] at hu
  cases hu
  exact ⟨s,hs,hinv.transparent,rest,s',hrest,halong,hs',hquiet,hinv'.transparent⟩

/-- Two hosts use one id for requests to one device, which answers out of order. -/
def sameId : List (Event Bool Unit) :=
  [.issue false (.read 7 0 8 1),.issue true (.read 7 0 9 1),.hostPoll true 40,.hostPoll false 80,
   .answer () 1 [5],.answer () 0 [6],.devicePoll (),.devicePoll ()]

def oneWindow : List (TableEntry Unit) := [⟨0,0x100,0x1000,()⟩]

theorem interconnect_transparent_same_id : ∃ s, run (step oneWindow) (some {}) sameId = some s ∧
    Transparent oneWindow s ∧ s.hostOut false = [(0,.readcomp 7 [5])] ∧
    s.hostOut true = [(1,.readcomp 7 [6])] := by
  obtain ⟨s,hs,htrans,-⟩ := interconnect_transparent oneWindow sameId (by decide +kernel)
  refine ⟨s,hs,htrans,?_⟩
  have hout : (run (step oneWindow) (some {}) sameId).all (fun s =>
      decide (s.hostOut false = [(0,.readcomp 7 [5])] ∧ s.hostOut true = [(1,.readcomp 7 [6])])) =
      true := by decide +kernel
  rw [hs] at hout
  exact of_decide_eq_true hout

def overlapping : List (TableEntry Unit) := [⟨0,0x10,0x1000,()⟩,⟨0,0x100,0x2000,()⟩]

/-- A request that lies in a mapped window is refused: its end lies outside the
first window that contains its start. -/
theorem overlapping_windows_abort :
    (∃ te ∈ overlapping, te.vaddrStart.toNat ≤ 8 ∧ 8+16 ≤ te.vaddrEnd.toNat) ∧
    lookup overlapping 8 16 = .error .unsupported ∧
    run (step overlapping) (some ({} : State Unit Unit))
      [.issue () (.read 7 0 8 16),.hostPoll () 40] = none := by
  refine ⟨⟨⟨0,0x100,0x2000,()⟩,by simp [overlapping],by decide,by decide⟩,by rfl,?_⟩
  decide +kernel

end SimBricks.Transactions
