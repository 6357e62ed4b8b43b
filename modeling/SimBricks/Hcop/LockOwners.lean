import SimBricks.Hcop.LockWalk

/-!
# Owners of a lock

The owners of a key are read off the messages a manager puts out. They are
the holder on record exactly as long as nobody is granted a lock under the
id that marks a free key.
-/

set_option autoImplicit false

namespace SimBricks.LockOwners
open Library Library.Run Library.Bytes LockProto LockState LockLeases List Function

abbrev Owners := UInt64 → Finset UInt8

def noteMessage (o : Owners) (m : OutMessage) : Owners :=
  match m.msg with
  | .grant hdr _ => update o hdr.lockKey (insert m.destId (o hdr.lockKey))
  | .timeout hdr => update o hdr.lockKey ((o hdr.lockKey).erase m.destId)
  | _ => o

def note (o : Owners) (out : List OutMessage) : Owners := out.foldl noteMessage o

inductive Op where
  | handleMessage (data : Memory) (len : ℕ) (nowNs : UInt64)
  | acquire (key : UInt64) (requesterId : UInt8) (leaseDurationNs nowNs : UInt64)
  | release (key : UInt64) (requesterId : UInt8) (nowNs : UInt64)
  | checkTimeouts (nowNs : UInt64) (walk : WalkOrder)

structure Audit where
  mgr : LockManager
  owners : Owners

/-- A Release that returned `kOk` removes its sender before the messages it
caused are read. -/
def Audit.record (a : Audit) (released : Option MsgHeader) (o : Outcome) : Audit :=
  match released with
  | none => ⟨o.mgr,note a.owners o.out⟩
  | some hdr =>
    ⟨o.mgr,note (if o.status = .kOk then update a.owners hdr.lockKey
      ((a.owners hdr.lockKey).erase hdr.requesterId) else a.owners) o.out⟩

def releaseIn (data : Memory) (len : ℕ) : Option MsgHeader :=
  match parse data len with
  | some (.release hdr) => some hdr
  | _ => none

def Audit.step (a : Audit) : Op → Audit
  | .handleMessage data len nowNs =>
    a.record (releaseIn data len) (a.mgr.handleMessage data len nowNs)
  | .acquire key r lease nowNs => a.record none (a.mgr.acquire key r lease nowNs)
  | .release key r nowNs => a.record (some ⟨r,key⟩) (a.mgr.release key r nowNs)
  | .checkTimeouts nowNs walk =>
    let (mgr,out,_) := a.mgr.checkTimeouts nowNs walk
    ⟨mgr,note a.owners out⟩

def Audit.init (maxKeys : UInt32) (defaultLeaseNs : UInt64) (maxWaitersPerKey : UInt16) : Audit :=
  ⟨.new maxKeys defaultLeaseNs maxWaitersPerKey,fun _ => ∅⟩

/-- At most one owner per key, and it is the holder on record. -/
def Exclusive (a : Audit) : Prop := ∀ key, (a.owners key).card ≤ 1 ∧ ∀ r, r ∈ a.owners key ↔
      ∃ ks, a.mgr.keys.lookup key = some ks ∧ ks.holderId = r ∧ ks.holderId ≠ kFree

/-- The acquire is granted although its sender carries the id of a free key. -/
def AcquiresFree (s : LockManager) (key : UInt64) (r : UInt8) : Prop :=
  r = kFree ∧ s.CanTrack key ∧ s.holderOf key = kFree

/-- The release hands the lock to a waiter that carries the id of a free key. -/
def ReleasesFree (s : LockManager) (key : UInt64) (r : UInt8) : Prop :=
  s.holderOf key = r ∧ s.nextWaiter key = some kFree

def GrantsFree (s : LockManager) : Op → Prop
  | .handleMessage data len _ =>
    match parse data len with
    | some (.acquire hdr _) => AcquiresFree s hdr.lockKey hdr.requesterId
    | some (.release hdr) => ReleasesFree s hdr.lockKey hdr.requesterId
    | _ => False
  | .acquire key r _ _ => AcquiresFree s key r
  | .release key r _ => ReleasesFree s key r
  | .checkTimeouts nowNs _ => ∃ key, s.expired nowNs key ∧ s.nextWaiter key = some kFree

/-! ## One key -/

def holders (h : UInt8) : Finset UInt8 := if h = kFree then ∅ else {h}

def GoodAt (a : Audit) (key : UInt64) : Prop := a.owners key = holders (a.mgr.holderOf key)

lemma singleton_eq_holders (h : UInt8) : {h} = holders h ↔ h ≠ kFree := by
  unfold holders
  by_cases hh : h = kFree <;> simp [hh]

lemma holders_erase (h : UInt8) : (holders h).erase h = ∅ := by
  unfold holders
  split_ifs <;> simp

open LockManager

lemma exclusive_iff (a : Audit) : Exclusive a ↔ ∀ key, GoodAt a key := by
  refine forall_congr' fun key => ?_
  have hmem : ∀ r, r ∈ holders (a.mgr.holderOf key) ↔
      ∃ ks, a.mgr.keys.lookup key = some ks ∧ ks.holderId = r ∧ ks.holderId ≠ kFree := by
    intro r
    unfold holderOf holders
    cases a.mgr.keys.lookup key with
    | none => simp
    | some ks =>
      by_cases hf : ks.holderId = kFree
      · simp [hf]
      · rw [if_neg hf, Finset.mem_singleton]
        exact ⟨fun h => ⟨ks,rfl,h.symm,hf⟩,fun ⟨_,h,hr,_⟩ => by rw [← hr, ← Option.some.inj h]⟩
  constructor
  · rintro ⟨-,h⟩
    ext r
    rw [h r, hmem r]
  · intro h
    rw [GoodAt] at h
    refine ⟨?_,fun r => by rw [h, hmem r]⟩
    rw [h]
    unfold holders
    split_ifs <;> simp

section
variable {a : Audit} {mgr : LockManager} {key : UInt64}

lemma goodAt_update (h : ∀ k, GoodAt a k) {S : Finset UInt8} {r : UInt8}
    (hm : mgr.holderOf = update a.mgr.holderOf key r) :
    (∀ k, GoodAt ⟨mgr,update a.owners key S⟩ k) ↔ S = holders r := by
  constructor
  · intro hk
    simpa [GoodAt, hm] using hk key
  · intro hS k
    by_cases hk : k = key
    · subst hk
      simpa [GoodAt, hm] using hS
    · simpa [GoodAt, hm, update_of_ne hk] using h k

lemma goodAt_same (h : ∀ k, GoodAt a k) (hm : mgr.holderOf = a.mgr.holderOf) :
    ∀ k, GoodAt ⟨mgr,a.owners⟩ k := by
  intro k
  rw [GoodAt, hm]
  exact h k

end

@[simp] lemma note_grant (o : Owners) (r : UInt8) (key expiry : UInt64) :
    note o [makeGrant r key expiry] = update o key (insert r (o key)) := rfl

@[simp] lemma note_deny (o : Owners) (r : UInt8) (key : UInt64) (h : UInt8) :
    note o [makeDeny r key h] = o := rfl

@[simp] lemma note_nil (o : Owners) : note o [] = o := rfl

lemma note_append (o : Owners) (out more : List OutMessage) :
    note o (out++more) = note (note o out) more := foldl_append

/-! ## One operation -/

lemma acquire_exclusive {a : Audit} (h : ∀ k, GoodAt a k) (key : UInt64) (r : UInt8)
    (lease now : UInt64) :
    (∀ k, GoodAt (a.record none (a.mgr.acquire key r lease now)) k) ↔
    ¬ AcquiresFree a.mgr key r := by
  simp only [Audit.record, AcquiresFree]
  cases a.mgr.acquire_spec key r lease now with
  | overflow hcan ho =>
    rw [ho]
    exact iff_of_true h fun hg => hcan hg.2.1
  | granted hcan hfree ho =>
    have hempty : a.owners key = ∅ := by rw [h key, hfree, holders, if_pos rfl]
    rw [ho, note_grant, goodAt_update h (holderOf_put ..), hempty, insert_empty_eq,
      singleton_eq_holders]
    simp [hcan, hfree]
  | refreshed ks hl hheld hr ho =>
    subst hr
    rw [ho, note_grant, goodAt_update h (holderOf_put ..), h key, holderOf_eq hl]
    simp [holders, hheld]
  | full ks hl hheld _ _ ho | again ks hl hheld _ _ _ ho =>
    rw [ho, note_deny]
    exact iff_of_true h fun hg => hheld ((holderOf_eq hl).symm.trans hg.2.2)
  | queued ks hl hheld _ _ _ ho =>
    rw [ho, note_deny]
    exact iff_of_true (goodAt_same h (holderOf_put_same hl rfl))
      fun hg => hheld ((holderOf_eq hl).symm.trans hg.2.2)

lemma release_exclusive {a : Audit} (h : ∀ k, GoodAt a k) (key : UInt64) (r : UInt8)
    (now : UInt64) :
    (∀ k, GoodAt (a.record (some ⟨r,key⟩) (a.mgr.release key r now)) k) ↔
    ¬ ReleasesFree a.mgr key r := by
  simp only [Audit.record, ReleasesFree]
  cases a.mgr.release_spec key r now with
  | refused hr ho =>
    rw [ho]
    refine iff_of_true h ?_
    rintro ⟨hh,hw⟩
    simp [nextWaiter_of_refused hr hh] at hw
  | freed ks hl hr ho =>
    have hempty : (a.owners key).erase r = ∅ := by
      rw [h key, holderOf_eq hl, hr, holders_erase]
    simp only [ho, if_true, hempty]
    rcases vacate_spec hl now with ⟨hw,hout,hm⟩ | ⟨w,_,hw,hout,hm⟩
    · rw [hout, note_nil, goodAt_update h hm]
      simp [holders, hw]
    · rw [hout, note_grant, update_self, update_idem, insert_empty_eq, goodAt_update h hm,
        singleton_eq_holders]
      simp [hw, holderOf_eq hl, hr]

lemma handleMessage_exclusive {a : Audit} (h : ∀ k, GoodAt a k) (data : Memory) (len : ℕ)
    (now : UInt64) :
    (∀ k, GoodAt (a.step (.handleMessage data len now)) k) ↔
    ¬ GrantsFree a.mgr (.handleMessage data len now) := by
  simp only [Audit.step, releaseIn, handleMessage, GrantsFree]
  cases parse data len with
  | none => exact iff_of_true h not_false
  | some m =>
    cases m with
    | acquire hdr lease => exact acquire_exclusive h hdr.lockKey hdr.requesterId lease now
    | release hdr => exact release_exclusive h hdr.lockKey hdr.requesterId now
    | _ => exact iff_of_true h not_false

/-! ## The walk over expired keys -/

/-- Who owns a key is told by the messages about it. -/
lemma note_about {o p : Owners} {k : UInt64} (out : List OutMessage) (h : p k = o k) :
    note p out k = note o (about k out) k := by
  induction out generalizing o p with
  | nil => exact h
  | cons m rest ih =>
    by_cases hm : m.msg.hdr.lockKey = k
    · rw [about, filter_cons_of_pos (by simpa using hm)]
      apply ih
      cases hmsg : m.msg <;> simp_all [noteMessage, Msg.hdr]
    · rw [about, filter_cons_of_neg (by simpa using hm)]
      apply ih
      have hne := Ne.symm hm
      cases hmsg : m.msg <;> simp_all [noteMessage, Msg.hdr]

lemma checkTimeouts_exclusive {a : Audit} (h : ∀ k, GoodAt a k) (now : UInt64) (walk : WalkOrder) :
    (∀ k, GoodAt (a.step (.checkTimeouts now walk)) k) ↔
    ¬ GrantsFree a.mgr (.checkTimeouts now walk) := by
  simp only [Audit.step, GrantsFree, not_exists, not_and]
  refine forall_congr' fun k => ?_
  have hk := h k
  unfold GoodAt holderOf at hk ⊢
  dsimp only
  rw [note_about _ rfl, checkTimeouts_about, checkTimeouts_lookup]
  by_cases he : a.mgr.expired now k
  · cases hl : a.mgr.keys.lookup k with
    | none => simp [expired, hl] at he
    | some ks =>
      rw [hl] at hk
      have hone : note a.owners [makeTimeout ks.holderId k] = update a.owners k ∅ := by
        rw [← holders_erase ks.holderId, ← hk]
        rfl
      rw [if_pos he, if_pos he, Option.map_some, Option.getD_some, expiryMessages,
        ← singleton_append, note_append, hone, Option.bind_some]
      unfold handMessages handOver nextWaiter
      cases hw : ks.waiters with
      | nil => simp [holders, hl, hw]
      | cons w => simp [singleton_eq_holders, hl, he, hw]
  · simpa [he] using hk

lemma step_exclusive (a : Audit) (op : Op) (h : Exclusive a) :
    Exclusive (a.step op) ↔ ¬ GrantsFree a.mgr op := by
  rw [exclusive_iff] at h ⊢
  cases op with
  | handleMessage data len now => exact handleMessage_exclusive h data len now
  | acquire key r lease now => exact acquire_exclusive h key r lease now
  | release key r now => exact release_exclusive h key r now
  | checkTimeouts now walk => exact checkTimeouts_exclusive h now walk

/-- At every point of a run each key has at most one owner, namely its holder,
exactly if no operation of the run grants a lock to the id of a free key. -/
theorem lock_exclusive_iff (maxKeys : UInt32) (defaultLeaseNs : UInt64) (maxWaitersPerKey : UInt16)
    (ops : List Op) :
    (∀ earlier later, ops = earlier++later →
      Exclusive (run Audit.step (.init maxKeys defaultLeaseNs maxWaitersPerKey) earlier)) ↔
    Along Audit.step (fun a op => ¬ GrantsFree a.mgr op)
      (.init maxKeys defaultLeaseNs maxWaitersPerKey) ops := by
  have h0 : Exclusive (.init maxKeys defaultLeaseNs maxWaitersPerKey) := by
    rw [exclusive_iff]
    intro key
    rfl
  exact always_iff_along (I := fun _ => True) (fun _ _ _ _ => trivial)
    (fun a op _ _ h => step_exclusive a op h) trivial h0 ops (fun _ _ => trivial)

/-- The id `0xFF` acquires a key, and so does the next requester. -/
theorem two_owners : (run Audit.step (.init 10000 10000000 16)
      [.acquire 7 255 0 0,.acquire 7 1 0 0]).owners 7 = {255,1} ∧
    ¬ Exclusive (run Audit.step (.init 10000 10000000 16)
    [.acquire 7 255 0 0,.acquire 7 1 0 0]) := by
  have ho : (run Audit.step (.init 10000 10000000 16)
      [.acquire 7 255 0 0,.acquire 7 1 0 0]).owners 7 = {255,1} := by decide +kernel
  refine ⟨ho,fun h => ?_⟩
  have hle := (h 7).1
  exact absurd hle (by decide)

end SimBricks.LockOwners
