import SimBricks.Hcop.LockLeases

/-!
# The queue of a key

A key's waiters as a queue seen from outside: who was put into it, read off
the answers to acquires, and who was handed the lock, read off the GRANT
messages of releases and timeouts. Whatever the calls, the second list is the
front part of the first, and the rest is waiting.
-/

set_option autoImplicit false

namespace SimBricks.LockQueue
open Library Library.Run Library.Bytes LockProto LockState LockOwners List
  LockTable LockLeases

def direct : Op → Option Op
  | .handleMessage data len now => asCall data len now
  | op => some op

def Waits (s : LockManager) (key : UInt64) (r : UInt8) : Prop :=
  ∃ w ∈ s.waitersOf key, w.requesterId = r
  deriving Decidable

/-- An acquire that is denied to a requester not yet waiting puts it, with the
lease it asks for, into the queue. -/
def entered (s : LockManager) (op : Op) (key : UInt64) : List WaitingRequest :=
  match direct op with
  | some (.acquire k r lease now) =>
    if k = key ∧ (s.acquire k r lease now).status = .kDenied ∧ ¬ Waits s k r then
      [⟨r,leaseOf s lease⟩] else []
  | _ => []

def grantee (m : OutMessage) : Option UInt8 :=
  match m.msg with
  | .grant _ _ => some m.destId
  | _ => none

def handedOver (s : LockManager) (op : Op) (key : UInt64) : List UInt8 :=
  match direct op with
  | some (.release k r now) => (about key (s.release k r now).out).filterMap grantee
  | some (.checkTimeouts now walk) => (about key (s.checkTimeouts now walk).2.1).filterMap grantee
  | _ => []

structure History where
  mgr : LockManager
  enqueued : UInt64 → List WaitingRequest
  handed : UInt64 → List UInt8

def History.step (h : History) (op : Op) : History where
  mgr := LockTable.step h.mgr op
  enqueued key := h.enqueued key++entered h.mgr op key
  handed key := h.handed key++handedOver h.mgr op key

def History.init (maxKeys : UInt32) (defaultLeaseNs : UInt64) (maxWaitersPerKey : UInt16) :
    History :=
  ⟨.new maxKeys defaultLeaseNs maxWaitersPerKey,fun _ => [],fun _ => []⟩

/-- The key is given up at this time, by its holder or by its lease. -/
def FreedAt (s : LockManager) (op : Op) (key now : UInt64) : Prop :=
  match direct op with
  | some (.release k r t) => k = key ∧ t = now ∧ (s.release k r t).status = .kOk
  | some (.checkTimeouts t walk) => t = now ∧ ∃ r, makeTimeout r key ∈ (s.checkTimeouts t walk).2.1
  | _ => False

/-- The call grants the key to a requester that does not hold it. -/
def Overtakes (s : LockManager) (op : Op) (key : UInt64) : Prop :=
  match direct op with
  | some (.acquire k r lease now) =>
    k = key ∧ (s.acquire k r lease now).status = .kGranted ∧ s.holderOf k ≠ r
  | _ => False

/-! ## One call -/

inductive Directly (s : LockManager) (op : Op) : Prop where
  | idle (hd : direct op = none) (hs : LockTable.step s op = s)
  | acquire (key : UInt64) (r : UInt8) (lease now : UInt64)
      (hd : direct op = some (.acquire key r lease now))
      (hs : LockTable.step s op = (s.acquire key r lease now).mgr)
  | release (key : UInt64) (r : UInt8) (now : UInt64)
      (hd : direct op = some (.release key r now))
      (hs : LockTable.step s op = (s.release key r now).mgr)
  | checkTimeouts (now : UInt64) (walk : WalkOrder)
      (hd : direct op = some (.checkTimeouts now walk))
      (hs : LockTable.step s op = (s.checkTimeouts now walk).1)

lemma directly (s : LockManager) (op : Op) : Directly s op := by
  cases op with
  | acquire k r lease now => exact .acquire k r lease now rfl rfl
  | release k r now => exact .release k r now rfl rfl
  | checkTimeouts now walk => exact .checkTimeouts now walk rfl rfl
  | handleMessage data len now =>
    have hs := step_handleMessage s data len now
    cases hp : parse data len with
    | none =>
      rw [asCall, hp] at hs
      exact .idle (by rw [direct, asCall, hp]) hs
    | some m =>
      rw [asCall, hp] at hs
      cases m with
      | acquire hdr lease => exact .acquire _ _ lease now (by rw [direct, asCall, hp]) hs
      | release => exact .release _ _ now (by rw [direct, asCall, hp]) hs
      | _ => exact .idle (by rw [direct, asCall, hp]) hs

def Left (s : LockManager) (op : Op) (key : UInt64) (left : List WaitingRequest) : Prop :=
  handedOver s op key = left.map WaitingRequest.requesterId ∧
  s.waitersOf key++entered s op key = left++(LockTable.step s op).waitersOf key

section
variable {s : LockManager} {op : Op}

open LockManager

variable {key now : UInt64}

lemma waitersOf_of_lookup {t : LockManager} (h : t.keys.lookup key = s.keys.lookup key) :
    t.waitersOf key = s.waitersOf key := by
  unfold waitersOf
  rw [h]

lemma waitersOf_handOver {t : LockManager} {ks : KeyState} (hl : s.keys.lookup key = some ks)
    (ht : t.keys.lookup key = handOver now ks) :
    s.waitersOf key = ks.waiters.take 1++t.waitersOf key := by
  rw [waitersOf_eq hl]
  unfold handOver at ht
  cases hw : ks.waiters with
  | nil =>
    rw [hw] at ht
    simp [waitersOf, ht]
  | cons =>
    rw [hw] at ht
    simp [waitersOf_eq ht]

lemma grantees_handMessages (key now : UInt64) (ks : KeyState) :
    (handMessages key now ks).filterMap grantee = (ks.waiters.take 1).map
    WaitingRequest.requesterId := by
  unfold handMessages
  cases ks.waiters <;> rfl

lemma left_acquire {k : UInt64} {r : UInt8} {lease : UInt64}
    (hd : direct op = some (.acquire k r lease now))
    (hs : LockTable.step s op = (s.acquire k r lease now).mgr) (key : UInt64) :
    Left s op key [] := by
  unfold Left
  simp only [entered, handedOver, hd, hs, map_nil, nil_append, true_and]
  cases s.acquire_spec k r lease now with
  | overflow _ ho | full _ _ _ _ _ ho => simp [ho]
  | again ks hl _ _ _ hw ho => simp [ho, Waits, waitersOf_eq hl, hw]
  | granted _ _ ho => by_cases hk : key = k <;> simp [ho, waitersOf_put, hk]
  | refreshed ks hl _ _ ho =>
    by_cases hk : key = k <;> simp [ho, waitersOf_put, hk, waitersOf_eq hl]
  | queued ks hl _ _ _ hnew ho =>
    rw [ho, waitersOf_put]
    by_cases hk : k = key
    · subst hk
      rw [if_pos ⟨rfl,rfl,by rwa [Waits, waitersOf_eq hl]⟩, if_pos rfl, waitersOf_eq hl]
      rfl
    · rw [if_neg fun h => hk h.1, if_neg (Ne.symm hk), append_nil]

lemma left_release {k : UInt64} {r : UInt8} (hd : direct op = some (.release k r now))
    (hs : LockTable.step s op = (s.release k r now).mgr) (key : UInt64) :
    ∃ left, Left s op key left := by
  unfold Left
  simp only [entered, handedOver, hd, hs, append_nil]
  cases s.release_spec k r now with
  | refused _ ho =>
    rw [ho]
    exact ⟨[],rfl,rfl⟩
  | freed ks hl _ ho =>
    rw [ho, vacate_out, about_handMessages]
    have hlook := vacate_lookup s k now ks key
    by_cases hk : key = k
    · subst hk
      rw [if_pos rfl] at hlook ⊢
      exact ⟨ks.waiters.take 1,grantees_handMessages ..,waitersOf_handOver hl hlook⟩
    · rw [if_neg hk] at hlook ⊢
      exact ⟨[],rfl,(waitersOf_of_lookup hlook).symm⟩

lemma left_checkTimeouts {walk : WalkOrder} (hd : direct op = some (.checkTimeouts now walk))
    (hs : LockTable.step s op = (s.checkTimeouts now walk).1) (key : UInt64) :
    ∃ left, Left s op key left := by
  unfold Left
  simp only [entered, handedOver, hd, hs, append_nil]
  have hlook := checkTimeouts_lookup s now walk key
  rw [checkTimeouts_about]
  by_cases he : s.expired now key
  · rw [if_pos he] at hlook ⊢
    cases hl : s.keys.lookup key with
    | none => simp [expired, hl] at he
    | some ks =>
      rw [hl, Option.bind_some] at hlook
      exact ⟨ks.waiters.take 1,grantees_handMessages key now ks,waitersOf_handOver hl hlook⟩
  · rw [if_neg he] at hlook ⊢
    exact ⟨[],rfl,(waitersOf_of_lookup hlook).symm⟩

lemma left_step (s : LockManager) (op : Op) (key : UInt64) : ∃ left, Left s op key left := by
  cases directly s op with
  | idle hd hs =>
    refine ⟨[],?_,?_⟩
    · simp only [handedOver, hd, map_nil]
    · simp only [entered, hd, hs, append_nil, nil_append]
  | acquire k r lease now hd hs => exact ⟨[],left_acquire hd hs key⟩
  | release k r now hd hs => exact left_release hd hs key
  | checkTimeouts now walk hd hs => exact left_checkTimeouts hd hs key

/-- Whoever gives a waited-for key up, its first waiter holds it next. -/
lemma freed_key {w : WaitingRequest} {rest : List WaitingRequest} (h : FreedAt s op key now)
    (hw : s.waitersOf key = w::rest) :
    (LockTable.step s op).keys.lookup key = some ⟨w.requesterId,now+w.leaseDurationNs,rest⟩ := by
  have hover : ∀ ks, s.keys.lookup key = some ks →
      handOver now ks = some ⟨w.requesterId,now+w.leaseDurationNs,rest⟩ := by
    intro ks hl
    rw [waitersOf_eq hl] at hw
    rw [handOver, hw]
  unfold FreedAt at h
  cases directly s op with
  | idle hd hs | acquire k r lease t hd hs => simp [hd] at h
  | release k r t hd hs =>
    simp only [hd] at h
    obtain ⟨rfl,rfl,hst⟩ := h
    rw [hs]
    cases s.release_spec k r t with
    | refused _ ho => simp [ho] at hst
    | freed ks hl _ ho => rw [ho, vacate_lookup, if_pos rfl, hover ks hl]
  | checkTimeouts t walk hd hs =>
    simp only [hd] at h
    obtain ⟨rfl,r,hm⟩ := h
    have he := ((timeout_mem_iff ..).mp hm).1
    rw [hs, checkTimeouts_lookup, if_pos he]
    cases hl : s.keys.lookup key with
    | none => simp [expired, hl] at he
    | some ks => rw [Option.bind_some, hover ks hl]

/-- A key with waiters is held, so no acquire gets past them. -/
lemma no_overtaking {maxKeys : UInt32} {maxWaiters : UInt16} (h : Sound maxKeys maxWaiters s)
    (hw : s.waitersOf key ≠ []) : ¬ Overtakes s op key := by
  unfold Overtakes
  cases directly s op with
  | idle hd _ | release k r now hd _ | checkTimeouts now walk hd _ => simp [hd]
  | acquire k r lease now hd =>
    simp only [hd]
    rintro ⟨rfl,hst,hr⟩
    cases s.acquire_spec k r lease now with
    | overflow _ ho | full _ _ _ _ _ ho | again _ _ _ _ _ _ ho | queued _ _ _ _ _ _ ho =>
      simp [ho] at hst
    | refreshed ks hl _ hr' => exact hr ((holderOf_eq hl).trans hr')
    | granted _ hfree =>
      cases hl : s.keys.lookup k with
      | none => exact hw (by simp [waitersOf, hl])
      | some => exact h.held hl ((holderOf_eq hl).symm.trans hfree)

end

/-! ## Runs -/

/-- Those enqueued are those handed the lock, in this order, and then those
waiting. -/
def Ordered (h : History) : Prop := ∀ key, ∃ served, h.enqueued key = served++h.mgr.waitersOf key ∧
    h.handed key = served.map WaitingRequest.requesterId

lemma Ordered.step {h : History} (ho : Ordered h) (op : Op) : Ordered (h.step op) := by
  intro key
  obtain ⟨served,he,hh⟩ := ho key
  obtain ⟨left,hl,hw⟩ := left_step h.mgr op key
  refine ⟨served++left,?_,?_⟩
  · show h.enqueued key++entered h.mgr op key = _
    rw [he, append_assoc, hw, append_assoc]
    rfl
  · show h.handed key++handedOver h.mgr op key = _
    rw [hh, hl, map_append]

lemma Ordered.waiting {h : History} (ho : Ordered h) (key : UInt64) :
    h.handed key <+: (h.enqueued key).map WaitingRequest.requesterId ∧
    (h.enqueued key).drop (h.handed key).length = h.mgr.waitersOf key := by
  obtain ⟨_,he,hh⟩ := ho key
  rw [he, hh]
  refine ⟨⟨_,(map_append ..).symm⟩,?_⟩
  rw [length_map, drop_left]

structure Tracked (maxKeys : UInt32) (maxWaiters : UInt16) (h : History) : Prop where
  ordered : Ordered h
  sound : Sound maxKeys maxWaiters h.mgr

/-- In every run with named requesters, at every point and for every key:
those handed the lock are a front part of those enqueued and the others wait;
a call that frees the key makes the longest waiting one its holder, under the
lease it asked for; and no acquire gets past a waiting requester. -/
theorem lock_fifo (maxKeys : UInt32) (defaultLeaseNs : UInt64) (maxWaitersPerKey : UInt16)
    (ops : List Op) (hops : ∀ op ∈ ops, Named op) (key : UInt64) :
    (∀ earlier later, ops = earlier++later →
      let h := run History.step (.init maxKeys defaultLeaseNs maxWaitersPerKey) earlier
      h.handed key <+: (h.enqueued key).map WaitingRequest.requesterId ∧
      (h.enqueued key).drop (h.handed key).length = h.mgr.waitersOf key) ∧
    Along History.step (fun h op => h.mgr.waitersOf key ≠ [] → (∀ now, FreedAt h.mgr op key now →
          ∃ w ks, (h.enqueued key)[(h.handed key).length]? = some w ∧
            (h.step op).mgr.keys.lookup key = some ks ∧ ks.holderId = w.requesterId ∧
            ks.leaseExpiryNs = now+w.leaseDurationNs) ∧
        ¬ Overtakes h.mgr op key)
      (.init maxKeys defaultLeaseNs maxWaitersPerKey) ops := by
  have h0 : Tracked maxKeys maxWaitersPerKey (.init maxKeys defaultLeaseNs maxWaitersPerKey) := by
    refine ⟨fun _ => ⟨[],by simp [History.init, LockManager.waitersOf, LockManager.new],rfl⟩,
      rfl,rfl,?_,Nat.zero_le _⟩
    intro _ _ hl
    simp [History.init, LockManager.new] at hl
  have hstep : ∀ h op, Tracked maxKeys maxWaitersPerKey h → Named op →
      Tracked maxKeys maxWaitersPerKey (h.step op) :=
    fun h op ht hop => ⟨ht.ordered.step op,ht.sound.step hop⟩
  constructor
  · rintro earlier later rfl
    have hpre : ∀ op ∈ earlier, Named op := fun op ho => hops op (mem_append_left later ho)
    exact (run_invariant hstep h0 (along_of_forall _ hpre _)).ordered.waiting key
  · apply along_imp hstep ?_ h0 (along_of_forall _ hops _)
    intro h op ht _ hw
    refine ⟨fun now hf => ?_,no_overtaking ht.sound hw⟩
    obtain ⟨w,_,hq⟩ := exists_cons_of_ne_nil hw
    refine ⟨w,_,?_,freed_key hf hq,rfl,rfl⟩
    rw [← head?_drop, (ht.ordered.waiting key).2, hq]
    rfl

/-- Two requesters wait when the key is released. -/
theorem lock_fifo_two :
    (∀ op ∈ [Op.acquire 7 1 100 0,.acquire 7 2 50 1,.acquire 7 3 0 2,.release 7 1 10],Named op) ∧
    (run History.step (.init 10 1000 4)
      [.acquire 7 1 100 0,.acquire 7 2 50 1,.acquire 7 3 0 2,.release 7 1 10]).handed 7 <+:
      ((run History.step (.init 10 1000 4)
        [.acquire 7 1 100 0,.acquire 7 2 50 1,.acquire 7 3 0 2,.release 7 1 10]).enqueued 7).map
          WaitingRequest.requesterId := by
  have hops : ∀ op ∈ [Op.acquire 7 1 100 0,.acquire 7 2 50 1,.acquire 7 3 0 2,.release 7 1 10],
      Named op := by
    simp [Named]
  exact ⟨hops,((lock_fifo 10 1000 4 _ hops 7).1 _ [] (append_nil _).symm).1⟩

/-- Of the two waiting requesters the first one is handed the key. -/
example : (run History.step (.init 10 1000 4)
    [.acquire 7 1 100 0,.acquire 7 2 50 1,.acquire 7 3 0 2,.release 7 1 10]).handed 7 = [2] := by
  decide

end SimBricks.LockQueue
