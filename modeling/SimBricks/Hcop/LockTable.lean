import SimBricks.Hcop.LockOwners

/-!
# The key table of the lock manager

A key is in the table exactly while somebody holds it, so a free key gives
its place back. The queue of a key names each requester once and never the
holder. A call that reports a refusal leaves the manager as it was.
-/

set_option autoImplicit false

namespace SimBricks.LockTable
open Library Library.Run Library.Bytes LockProto LockState LockOwners List Option

def call (s : LockManager) : Op → LockManager × Option LockStatus
  | .handleMessage data len nowNs =>
    let o := s.handleMessage data len nowNs
    (o.mgr,some o.status)
  | .acquire key r lease nowNs =>
    let o := s.acquire key r lease nowNs
    (o.mgr,some o.status)
  | .release key r nowNs =>
    let o := s.release key r nowNs
    (o.mgr,some o.status)
  | .checkTimeouts nowNs walk => ((s.checkTimeouts nowNs walk).1,none)

def step (s : LockManager) (op : Op) : LockManager := (call s op).1

def Named : Op → Prop
  | .handleMessage data len _ =>
    match parse data len with
    | some m => m.hdr.requesterId.toNat < 255
    | none => True
  | .acquire _ r _ _ => r.toNat < 255
  | .release _ r _ => r.toNat < 255
  | .checkTimeouts _ _ => True

def Refusal (st : LockStatus) : Prop :=
  st = .kNotHeld ∨ st = .kKeyOverflow ∨ st = .kContention ∨ st = .kInvalidMessage

structure Consistent (maxKeys : UInt32) (maxWaitersPerKey : UInt16) (s : LockManager) : Prop where
  tracked_iff_held : ∀ key, (s.keys.lookup key).isSome ↔ s.holderOf key ≠ kFree
  waiters_distinct : ∀ key, ((s.waitersOf key).map WaitingRequest.requesterId).Nodup
  holder_not_waiting : ∀ key, ∀ w ∈ s.waitersOf key, w.requesterId ≠ s.holderOf key
  queue_bounded : ∀ key, (s.waitersOf key).length ≤ maxWaitersPerKey.toNat
  keys_bounded : Table.size s.keys ≤ maxKeys.toNat

/-! ## One key -/

def ids (ks : KeyState) : List UInt8 := ks.waiters.map WaitingRequest.requesterId

/-- The holder and the waiters are different requesters, none of them nobody. -/
structure KeyOk (maxWaitersPerKey : UInt16) (ks : KeyState) : Prop where
  distinct : (ks.holderId::ids ks).Nodup
  named : kFree ∉ ks.holderId::ids ks
  bounded : ks.waiters.length ≤ maxWaitersPerKey.toNat

variable {r : UInt8} {now : UInt64}

lemma ne_kFree (h : r.toNat < 255) : r ≠ kFree := by
  rintro rfl
  exact absurd h (by decide)

variable {maxWaiters : UInt16} {ks : KeyState}

lemma KeyOk.fresh (hr : r ≠ kFree) (expiry : UInt64) : KeyOk maxWaiters ⟨r,expiry,[]⟩ :=
  ⟨by simp [ids],by simpa [ids] using hr.symm,Nat.zero_le _⟩

lemma KeyOk.refresh (h : KeyOk maxWaiters ks) (expiry : UInt64) :
    KeyOk maxWaiters { ks with leaseExpiryNs := expiry } :=
  ⟨h.distinct,h.named,h.bounded⟩

lemma KeyOk.enqueue (h : KeyOk maxWaiters ks) (hr : r ≠ kFree) (hheld : ks.holderId ≠ r)
    (hnew : ¬ ∃ w ∈ ks.waiters, w.requesterId = r) (hroom : ks.waiters.length < maxWaiters.toNat)
    (lease : UInt64) : KeyOk maxWaiters { ks with waiters := ks.waiters++[⟨r,lease⟩] } := by
  have hids : ids { ks with waiters := ks.waiters++[⟨r,lease⟩] } = ids ks++[r] := by simp [ids]
  have hnot : r ∉ ks.holderId::ids ks := by
    intro hm
    rcases mem_cons.mp hm with heq | hm
    · exact hheld heq.symm
    · obtain ⟨w,hw,hid⟩ := mem_map.mp hm
      exact hnew ⟨w,hw,hid⟩
  refine ⟨?_,?_,by simpa using hroom⟩
  · rw [hids, ← cons_append]
    exact h.distinct.append (nodup_singleton r) (disjoint_singleton.mpr hnot)
  · rw [hids, ← cons_append]
    intro hm
    rcases mem_append.mp hm with hm | hm
    · exact h.named hm
    · exact hr (mem_singleton.mp hm).symm

lemma KeyOk.next (h : KeyOk maxWaiters ks) {w : WaitingRequest} {rest : List WaitingRequest}
    (hw : ks.waiters = w::rest) (expiry : UInt64) :
    KeyOk maxWaiters ⟨w.requesterId,expiry,rest⟩ := by
  have hids : ids ks = w.requesterId::ids ⟨w.requesterId,expiry,rest⟩ := by simp [ids, hw]
  refine ⟨?_,?_,?_⟩
  · have hd := h.distinct
    rw [hids] at hd
    exact (nodup_cons.mp hd).2
  · have hn := h.named
    rw [hids] at hn
    exact (not_or.mp (mt mem_cons.mpr hn)).2
  · have hb := h.bounded
    rw [hw] at hb
    exact (Nat.le_succ _).trans hb

/-! ## The table -/

structure Sound (maxKeys : UInt32) (maxWaiters : UInt16) (s : LockManager) : Prop where
  limit : s.maxKeys = maxKeys
  queueLimit : s.maxWaitersPerKey = maxWaiters
  keyOk : ∀ key ks, s.keys.lookup key = some ks → KeyOk maxWaiters ks
  size : Table.size s.keys ≤ maxKeys.toNat

variable {maxKeys : UInt32} {s : LockManager} {key : UInt64}

open LockManager

variable (h : Sound maxKeys maxWaiters s)
include h

lemma Sound.put (hcan : s.CanTrack key) (hks : KeyOk maxWaiters ks) :
    Sound maxKeys maxWaiters (s.put key ks) := by
  refine ⟨h.limit,h.queueLimit,?_,?_⟩
  · intro k x hx
    simp only [LockManager.put, Table.lookup_insert_ite] at hx
    split_ifs at hx
    · exact some.inj hx ▸ hks
    · exact h.keyOk k x hx
  · simp only [LockManager.put, Table.size, Table.keys_insert]
    rcases hcan with hk | hroom
    · obtain ⟨x,hx⟩ := isSome_iff_exists.mp hk
      rw [Finset.insert_eq_of_mem (Table.mem_keys_of_lookup hx)]
      exact h.size
    · rw [h.limit] at hroom
      exact (Finset.card_insert_le _ _).trans hroom

lemma Sound.erase (key : UInt64) :
    Sound maxKeys maxWaiters { s with keys := s.keys.erase key } := by
  refine ⟨h.limit,h.queueLimit,?_,?_⟩
  · intro k x hx
    by_cases hk : k = key
    · subst hk
      simp at hx
    · exact h.keyOk k x (by simpa [hk] using hx)
  · refine le_trans (Finset.card_le_card ?_) h.size
    intro k hk
    rw [Finmap.mem_keys, Finmap.mem_erase] at hk
    exact Finmap.mem_keys.mpr hk.2

lemma Sound.vacate (hl : s.keys.lookup key = some ks) (now : UInt64) :
    Sound maxKeys maxWaiters (s.vacate key ks now).1 := by
  have hok := h.keyOk key ks hl
  unfold LockManager.vacate LockManager.grantNextWaiter
  cases hw : ks.waiters with
  | nil =>
    have herase : (s.keys.insert key ⟨kFree,0,[]⟩).erase key = s.keys.erase key := by
      apply Finmap.ext_lookup
      intro k
      by_cases hk : k = key
      · subst hk
        simp
      · simp [hk]
    simpa [LockManager.maybeRemoveKey, LockManager.put, hw, herase] using h.erase key
  | cons =>
    exact h.put (canTrack_of_lookup hl) (hok.next hw _)

lemma Sound.held (hl : s.keys.lookup key = some ks) : ks.holderId ≠ kFree :=
  fun hf => (h.keyOk key ks hl).named (hf ▸ mem_cons_self)

lemma Sound.acquire (hr : r ≠ kFree) (lease now : UInt64) :
    Sound maxKeys maxWaiters (s.acquire key r lease now).mgr := by
  cases s.acquire_spec key r lease now with
  | overflow _ ho | full _ _ _ _ _ ho | again _ _ _ _ _ _ ho =>
    rw [ho]
    exact h
  | granted hcan hfree ho =>
    rw [ho]
    cases hl : s.keys.lookup key with
    | none =>
      rw [waitersOf, hl]
      exact h.put hcan (KeyOk.fresh hr _)
    | some => exact absurd ((holderOf_eq hl).symm.trans hfree) (h.held hl)
  | refreshed ks hl _ _ ho =>
    rw [ho]
    exact h.put (canTrack_of_lookup hl) ((h.keyOk key ks hl).refresh _)
  | queued ks hl _ hne hroom hnew ho =>
    rw [h.queueLimit] at hroom
    rw [ho]
    exact h.put (canTrack_of_lookup hl) ((h.keyOk key ks hl).enqueue hr hne hnew hroom _)

lemma Sound.release (r : UInt8) (now : UInt64) :
    Sound maxKeys maxWaiters (s.release key r now).mgr := by
  cases s.release_spec key r now with
  | refused _ ho =>
    rw [ho]
    exact h
  | freed ks hl _ ho =>
    rw [ho]
    exact h.vacate hl now

lemma Sound.expireKey (now key : UInt64) : Sound maxKeys maxWaiters (s.expireKey now key).1 := by
  unfold LockManager.expireKey
  cases hl : s.keys.lookup key with
  | none => exact h
  | some =>
    dsimp only
    split_ifs
    · exact h
    · exact h.vacate hl now

lemma Sound.expireKeys (now : UInt64) (L : List UInt64) :
    Sound maxKeys maxWaiters (expireKeys now s L).1 := by
  induction L generalizing s with
  | nil => exact h
  | cons key rest ih => exact ih (h.expireKey now key)

lemma Sound.handleMessage {data : Memory} {len : ℕ} (now : UInt64)
    (hop : Named (.handleMessage data len now)) :
    Sound maxKeys maxWaiters (s.handleMessage data len now).mgr := by
  simp only [Named] at hop
  unfold LockManager.handleMessage
  cases hp : parse data len with
  | none => exact h
  | some m =>
    simp only [hp] at hop
    cases m with
    | acquire hdr lease => exact h.acquire (ne_kFree hop) lease now
    | release => exact h.release _ now
    | _ => exact h

lemma Sound.step {op : Op} (hop : Named op) : Sound maxKeys maxWaiters (step s op) := by
  cases op with
  | acquire key r lease now => exact h.acquire (ne_kFree hop) lease now
  | release key r now => exact h.release r now
  | checkTimeouts now => exact h.expireKeys now _
  | handleMessage data len now => exact h.handleMessage now hop

lemma Sound.consistent : Consistent maxKeys maxWaiters s := by
  have hkey : ∀ key, (s.keys.lookup key = none ∧ s.holderOf key = kFree ∧ s.waitersOf key = []) ∨
      ∃ ks, s.keys.lookup key = some ks ∧ s.holderOf key = ks.holderId ∧
        s.waitersOf key = ks.waiters ∧ KeyOk maxWaiters ks := by
    intro key
    cases hl : s.keys.lookup key with
    | none => exact .inl ⟨rfl,by simp [holderOf, hl],by simp [waitersOf, hl]⟩
    | some ks =>
      exact .inr ⟨ks,rfl,holderOf_eq hl,waitersOf_eq hl,h.keyOk key ks hl⟩
  refine ⟨fun key => ?_,fun key => ?_,fun key => ?_,fun key => ?_,h.size⟩
  all_goals rcases hkey key with ⟨hl,hh,hw⟩ | ⟨ks,hl,hh,hw,hok⟩
  · simp [hl, hh]
  · rw [hl, hh]
    exact iff_of_true rfl (h.held hl)
  · simp [hw]
  · rw [hw]
    exact (nodup_cons.mp hok.distinct).2
  · simp [hw]
  · rw [hw, hh]
    intro w hm heq
    exact (nodup_cons.mp hok.distinct).1 (heq ▸ mem_map_of_mem hm)
  · simp [hw]
  · rw [hw]
    exact hok.bounded

omit h

/-! ## Refused calls -/

lemma acquire_refused {lease : UInt64} (h : Refusal (s.acquire key r lease now).status) :
    (s.acquire key r lease now).mgr = s := by
  cases s.acquire_spec key r lease now with
  | overflow _ ho | full _ _ _ _ _ ho | again _ _ _ _ _ _ ho => rw [ho]
  | granted _ _ ho | refreshed _ _ _ _ ho | queued _ _ _ _ _ _ ho => simp [ho, Refusal] at h

lemma release_refused (h : Refusal (s.release key r now).status) :
    (s.release key r now).mgr = s := by
  cases s.release_spec key r now with
  | refused _ ho => rw [ho]
  | freed _ _ _ ho => simp [ho, Refusal] at h

lemma handleMessage_refused {data : Memory} {len : ℕ}
    (h : Refusal (s.handleMessage data len now).status) :
    (s.handleMessage data len now).mgr = s := by
  unfold handleMessage at h ⊢
  cases hp : parse data len with
  | none => rfl
  | some m =>
    rw [hp] at h
    cases m with
    | acquire => exact acquire_refused h
    | release => exact release_refused h
    | _ => rfl

lemma call_refused {op : Op} {st : LockStatus} (h : (call s op).2 = some st)
    (hst : Refusal st) : step s op = s := by
  cases op with
  | acquire =>
    cases h
    exact acquire_refused hst
  | release =>
    cases h
    exact release_refused hst
  | checkTimeouts => cases h
  | handleMessage =>
    cases h
    exact handleMessage_refused hst

/-- At every point of every run the table is consistent, and the next call,
if refused, changes nothing. -/
theorem lock_table_consistent (maxKeys : UInt32) (defaultLeaseNs : UInt64)
    (maxWaitersPerKey : UInt16) (ops : List Op) (hops : ∀ op ∈ ops, Named op) :
    Consistent maxKeys maxWaitersPerKey
      (run step (.new maxKeys defaultLeaseNs maxWaitersPerKey) ops) ∧
    Along step (fun s op => ∀ st, (call s op).2 = some st → Refusal st → step s op = s)
      (.new maxKeys defaultLeaseNs maxWaitersPerKey) ops := by
  have h0 : Sound maxKeys maxWaitersPerKey (.new maxKeys defaultLeaseNs maxWaitersPerKey) :=
    ⟨rfl,rfl,fun _ _ h => by simp [LockManager.new] at h,Nat.zero_le _⟩
  constructor
  · exact (run_invariant (fun s op h hop => h.step hop) h0 (along_of_forall step hops _)).consistent
  · exact along_always (I := fun _ => True) (fun _ _ _ => trivial)
      (fun s op _ st h hst => call_refused h hst) trivial ops

/-- A grant, a refused acquire, a hand-over and the removal of the free key. -/
theorem lock_table_consistent_run :
    (∀ op ∈ [Op.acquire 7 1 0 0,.acquire 7 2 0 0,.acquire 7 3 0 0,.release 7 1 5,.release 7 2 6],
      Named op) ∧
    Consistent 4 1 (run step (.new 4 100 1)
      [.acquire 7 1 0 0,.acquire 7 2 0 0,.acquire 7 3 0 0,.release 7 1 5,.release 7 2 6]) := by
  have hops : ∀ op ∈ [Op.acquire 7 1 0 0,.acquire 7 2 0 0,.acquire 7 3 0 0,.release 7 1 5,
      .release 7 2 6], Named op := by
    simp [Named]
  exact ⟨hops,(lock_table_consistent 4 100 1 _ hops).1⟩

end SimBricks.LockTable
