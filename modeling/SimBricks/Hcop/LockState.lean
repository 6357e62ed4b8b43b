import SimBricks.Hcop.LockProto
import SimBricks.Library.Table

/-!
# The lock manager of `lock_state.cc`

A key is untracked, or tracked with a holder, an expiry time and a queue of
waiters; the holder `0xFF` stands for nobody. `CheckTimeouts` walks the
unordered key table, so it takes the order of the walk. The exception
callback is telemetry and read by nothing.
-/

set_option autoImplicit false

namespace SimBricks.LockState
open Library Library.Bytes LockProto Function

inductive LockStatus where
  | kOk | kGranted | kDenied | kKeyOverflow | kContention | kNotHeld | kInvalidMessage
  deriving DecidableEq, Repr

structure WaitingRequest where
  requesterId : UInt8
  leaseDurationNs : UInt64
  deriving DecidableEq, Repr

def kFree : UInt8 := 0xFF

structure KeyState where
  holderId : UInt8 := kFree
  leaseExpiryNs : UInt64 := 0
  waiters : List WaitingRequest := []
  deriving DecidableEq, Repr

structure OutMessage where
  destId : UInt8
  msg : Msg
  deriving DecidableEq, Repr

def OutMessage.data (m : OutMessage) : List UInt8 := m.msg.serialize

structure LockManager where
  maxKeys : UInt32
  defaultLeaseNs : UInt64
  maxWaitersPerKey : UInt16
  keys : Table UInt64 KeyState

structure Outcome where
  mgr : LockManager
  out : List OutMessage
  status : LockStatus

def makeGrant (dest : UInt8) (key leaseExpiryNs : UInt64) : OutMessage :=
  ⟨dest,.grant ⟨dest,key⟩ leaseExpiryNs⟩

def makeDeny (dest : UInt8) (key : UInt64) (holderId : UInt8) : OutMessage :=
  ⟨dest,.deny ⟨dest,key⟩ holderId⟩

def makeTimeout (dest : UInt8) (key : UInt64) : OutMessage := ⟨dest,.timeout ⟨dest,key⟩⟩

/-- An order in which a hash map yields a set of keys. -/
structure WalkOrder where
  list : Finset UInt64 → List UInt64
  nodup : ∀ keys, (list keys).Nodup
  complete : ∀ keys k, k ∈ list keys ↔ k ∈ keys

variable {key : UInt64} {ks : KeyState} {s : LockManager}

namespace LockManager

def new (maxKeys : UInt32) (defaultLeaseNs : UInt64) (maxWaitersPerKey : UInt16) : LockManager :=
  ⟨maxKeys,defaultLeaseNs,maxWaitersPerKey,∅⟩

def put (s : LockManager) (key : UInt64) (ks : KeyState) : LockManager :=
  { s with keys := s.keys.insert key ks }

def getOrCreateKey (s : LockManager) (key : UInt64) : Option (KeyState × LockManager) :=
  match s.keys.lookup key with
  | some ks => some (ks,s)
  | none => if s.maxKeys.toNat ≤ Table.size s.keys then none else some ({},s.put key {})

def grantLock (ks : KeyState) (key : UInt64) (requesterId : UInt8)
    (leaseDurationNs nowNs : UInt64) : KeyState × OutMessage :=
  ({ ks with holderId := requesterId, leaseExpiryNs := nowNs+leaseDurationNs },
    makeGrant requesterId key (nowNs+leaseDurationNs))

def grantNextWaiter (ks : KeyState) (key nowNs : UInt64) : Option (KeyState × OutMessage) :=
  match ks.waiters with
  | [] => none
  | next::rest =>
    some (grantLock { ks with waiters := rest } key next.requesterId next.leaseDurationNs nowNs)

def maybeRemoveKey (s : LockManager) (key : UInt64) : LockManager :=
  match s.keys.lookup key with
  | none => s
  | some ks =>
    if ks.holderId = kFree ∧ ks.waiters = [] then { s with keys := s.keys.erase key } else s

def acquire (s : LockManager) (key : UInt64) (requesterId : UInt8)
    (leaseDurationNs nowNs : UInt64) : Outcome :=
  let lease := if leaseDurationNs = 0 then s.defaultLeaseNs else leaseDurationNs
  match s.getOrCreateKey key with
  | none => ⟨s,[],.kKeyOverflow⟩
  | some (ks,s) =>
    if ks.holderId = kFree then
      let (ks,grant) := grantLock ks key requesterId lease nowNs
      ⟨s.put key ks,[grant],.kGranted⟩
    else if ks.holderId = requesterId then  -- lease refresh
      ⟨s.put key { ks with leaseExpiryNs := nowNs+lease },
        [makeGrant requesterId key (nowNs+lease)],.kGranted⟩
    else if s.maxWaitersPerKey = 0 then ⟨s,[makeDeny requesterId key ks.holderId],.kContention⟩
    else if s.maxWaitersPerKey.toNat ≤ ks.waiters.length then
      ⟨s,[makeDeny requesterId key ks.holderId],.kContention⟩
    else if ∃ w ∈ ks.waiters, w.requesterId = requesterId then
      ⟨s,[makeDeny requesterId key ks.holderId],.kDenied⟩
    else
      ⟨s.put key { ks with waiters := ks.waiters++[⟨requesterId,lease⟩] },
        [makeDeny requesterId key ks.holderId],.kDenied⟩

/-- The lock is given up and goes to the next waiter; without one the key is
removed. The common tail of `Release` and `CheckTimeouts`. -/
def vacate (s : LockManager) (key : UInt64) (ks : KeyState) (nowNs : UInt64) :
    LockManager × List OutMessage :=
  let ks := { ks with holderId := kFree, leaseExpiryNs := 0 }
  match grantNextWaiter ks key nowNs with
  | some (ks,grant) => (s.put key ks,[grant])
  | none => ((s.put key ks).maybeRemoveKey key,[])

def release (s : LockManager) (key : UInt64) (requesterId : UInt8) (nowNs : UInt64) : Outcome :=
  match s.keys.lookup key with
  | none => ⟨s,[],.kNotHeld⟩
  | some ks =>
    if ks.holderId ≠ requesterId then ⟨s,[],.kNotHeld⟩
    else
      let (s,out) := s.vacate key ks nowNs
      ⟨s,out,.kOk⟩

def expired (s : LockManager) (nowNs key : UInt64) : Bool :=
  match s.keys.lookup key with
  | none => false
  | some ks => ks.holderId ≠ kFree ∧ 0 < ks.leaseExpiryNs ∧ ks.leaseExpiryNs ≤ nowNs

def expireKey (s : LockManager) (nowNs key : UInt64) : LockManager × List OutMessage × Bool :=
  match s.keys.lookup key with
  | none => (s,[],false)
  | some ks =>
    if ks.holderId = kFree then (s,[],false)
    else
      let (t,out) := s.vacate key ks nowNs
      (t,makeTimeout ks.holderId key::out,true)

def expireKeys (nowNs : UInt64) : LockManager → List UInt64 → LockManager × List OutMessage × UInt32
  | s, [] => (s,[],0)
  | s, key::rest =>
    let (s,out,b) := s.expireKey nowNs key
    let (s,outs,count) := expireKeys nowNs s rest
    (s,out++outs,if b then count+1 else count)

def checkTimeouts (s : LockManager) (nowNs : UInt64) (walk : WalkOrder) :
    LockManager × List OutMessage × UInt32 :=
  expireKeys nowNs s ((walk.list s.keys.keys).filter (s.expired nowNs))

def handle (s : LockManager) (m : Msg) (nowNs : UInt64) : Outcome :=
  match m with
  | .acquire hdr lease => s.acquire hdr.lockKey hdr.requesterId lease nowNs
  | .release hdr => s.release hdr.lockKey hdr.requesterId nowNs
  | _ => ⟨s,[],.kInvalidMessage⟩

def handleMessage (s : LockManager) (data : Memory) (len : ℕ) (nowNs : UInt64) : Outcome :=
  match parse data len with
  | none => ⟨s,[],.kInvalidMessage⟩
  | some m => s.handle m nowNs

/-! ## Who holds a key -/

def holderOf (s : LockManager) (key : UInt64) : UInt8 :=
  match s.keys.lookup key with
  | none => kFree
  | some ks => ks.holderId

def CanTrack (s : LockManager) (key : UInt64) : Prop :=
  (s.keys.lookup key).isSome ∨ Table.size s.keys < s.maxKeys.toNat
  deriving Decidable

def nextWaiter (s : LockManager) (key : UInt64) : Option UInt8 :=
  match s.keys.lookup key with
  | none => none
  | some ks => ks.waiters.head?.map WaitingRequest.requesterId

def waitersOf (s : LockManager) (key : UInt64) : List WaitingRequest :=
  match s.keys.lookup key with
  | none => []
  | some ks => ks.waiters

@[simp] lemma holderOf_put (s : LockManager) (key : UInt64) (ks : KeyState) :
    (s.put key ks).holderOf = update s.holderOf key ks.holderId := by
  funext k
  by_cases h : k = key
  · subst h
    simp [holderOf, put]
  · simp [holderOf, put, h]

lemma holderOf_eq (h : s.keys.lookup key = some ks) : s.holderOf key = ks.holderId := by
  simp [holderOf, h]

lemma holderOf_put_same (h : s.keys.lookup key = some ks) {x : KeyState}
    (hx : x.holderId = ks.holderId) : (s.put key x).holderOf = s.holderOf := by
  rw [holderOf_put, hx, ← holderOf_eq h, update_eq_self]

lemma waitersOf_eq (h : s.keys.lookup key = some ks) : s.waitersOf key = ks.waiters := by
  simp [waitersOf, h]

lemma waitersOf_put (s : LockManager) (key k : UInt64) (ks : KeyState) :
    (s.put key ks).waitersOf k = if k = key then ks.waiters else s.waitersOf k := by
  by_cases h : k = key
  · subst h
    simp [waitersOf, put]
  · simp [waitersOf, put, h]

lemma canTrack_of_lookup (h : s.keys.lookup key = some ks) : s.CanTrack key := .inl (by simp [h])

end LockManager

/-! ## What a call can do -/

/-- `lease` is the lease asked for, or the default one. -/
inductive Acquired (s : LockManager) (key : UInt64) (r : UInt8) (lease now : UInt64)
    (o : Outcome) : Prop where
  | overflow (hcan : ¬ s.CanTrack key) (ho : o = ⟨s,[],.kKeyOverflow⟩)
  | granted (hcan : s.CanTrack key) (hfree : s.holderOf key = kFree)
      (ho : o = ⟨s.put key ⟨r,now+lease,s.waitersOf key⟩,[makeGrant r key (now+lease)],.kGranted⟩)
  | refreshed (ks : KeyState) (hl : s.keys.lookup key = some ks) (hheld : ks.holderId ≠ kFree)
      (hr : ks.holderId = r)
      (ho : o = ⟨s.put key { ks with leaseExpiryNs := now+lease },[makeGrant r key (now+lease)],
        .kGranted⟩)
  | full (ks : KeyState) (hl : s.keys.lookup key = some ks) (hheld : ks.holderId ≠ kFree)
      (hr : ks.holderId ≠ r) (hfull : s.maxWaitersPerKey.toNat ≤ ks.waiters.length)
      (ho : o = ⟨s,[makeDeny r key ks.holderId],.kContention⟩)
  | again (ks : KeyState) (hl : s.keys.lookup key = some ks) (hheld : ks.holderId ≠ kFree)
      (hr : ks.holderId ≠ r) (hroom : ks.waiters.length < s.maxWaitersPerKey.toNat)
      (hw : ∃ w ∈ ks.waiters, w.requesterId = r)
      (ho : o = ⟨s,[makeDeny r key ks.holderId],.kDenied⟩)
  | queued (ks : KeyState) (hl : s.keys.lookup key = some ks) (hheld : ks.holderId ≠ kFree)
      (hr : ks.holderId ≠ r) (hroom : ks.waiters.length < s.maxWaitersPerKey.toNat)
      (hnew : ¬ ∃ w ∈ ks.waiters, w.requesterId = r)
      (ho : o = ⟨s.put key { ks with waiters := ks.waiters++[⟨r,lease⟩] },
        [makeDeny r key ks.holderId],.kDenied⟩)

inductive Released (s : LockManager) (key : UInt64) (r : UInt8) (now : UInt64)
    (o : Outcome) : Prop where
  | refused (hr : ∀ ks ∈ s.keys.lookup key, ks.holderId ≠ r) (ho : o = ⟨s,[],.kNotHeld⟩)
  | freed (ks : KeyState) (hl : s.keys.lookup key = some ks) (hr : ks.holderId = r)
      (ho : o = ⟨(s.vacate key ks now).1,(s.vacate key ks now).2,.kOk⟩)

namespace LockManager

lemma acquire_spec (s : LockManager) (key : UInt64) (r : UInt8) (lease now : UInt64) :
    Acquired s key r (if lease = 0 then s.defaultLeaseNs else lease) now
      (s.acquire key r lease now) := by
  unfold acquire getOrCreateKey
  generalize (if lease = 0 then s.defaultLeaseNs else lease) = d
  cases hl : s.keys.lookup key with
  | none =>
    by_cases hm : s.maxKeys.toNat ≤ Table.size s.keys
    · exact .overflow (by simpa [CanTrack, hl] using hm) (by simp [hm])
    · -- the record put first is overwritten by the grant
      refine .granted (.inr (not_le.mp hm)) (by simp [holderOf, hl]) ?_
      simp [hm, grantLock, waitersOf, hl, put]
  | some ks =>
    have hw := waitersOf_eq hl
    dsimp only
    split_ifs with h1 h2 h3 h4 h5
    · refine .granted (canTrack_of_lookup hl) (by rw [holderOf_eq hl, h1]) ?_
      rw [hw]
      rfl
    · exact .refreshed ks hl h1 h2 rfl
    · exact .full ks hl h1 h2 (by simp [h3]) rfl
    · exact .full ks hl h1 h2 h4 rfl
    · exact .again ks hl h1 h2 (not_le.mp h4) h5 rfl
    · exact .queued ks hl h1 h2 (not_le.mp h4) h5 rfl

lemma release_spec (s : LockManager) (key : UInt64) (r : UInt8) (now : UInt64) :
    Released s key r now (s.release key r now) := by
  unfold release
  cases hl : s.keys.lookup key with
  | none => exact .refused (by simp [hl]) rfl
  | some ks =>
    dsimp only
    split_ifs with hr
    · exact .refused (by simpa [hl] using hr) rfl
    · exact .freed ks hl (not_not.mp hr) rfl

/-- The key is held by somebody else and its queue takes nobody. -/
def Contended (s : LockManager) (key : UInt64) (r : UInt8) : Prop :=
  ∃ ks ∈ s.keys.lookup key, ks.holderId ≠ kFree ∧ ks.holderId ≠ r ∧
    s.maxWaitersPerKey.toNat ≤ ks.waiters.length

def Wakes (s : LockManager) (key : UInt64) (r : UInt8) : Prop :=
  s.holderOf key = r ∧ (s.nextWaiter key).isSome

lemma acquire_contention_iff (s : LockManager) (key : UInt64) (r : UInt8) (lease now : UInt64) :
    (s.acquire key r lease now).status = .kContention ↔ s.Contended key r := by
  cases s.acquire_spec key r lease now with
  | full ks hl hheld hr hfull ho => exact iff_of_true (by rw [ho]) ⟨ks,hl,hheld,hr,hfull⟩
  | overflow hcan ho =>
    refine iff_of_false (by simp [ho]) ?_
    rintro ⟨ks,hl,-⟩
    exact hcan (canTrack_of_lookup hl)
  | granted _ hfree ho =>
    refine iff_of_false (by simp [ho]) ?_
    rintro ⟨ks,hl,hheld,-⟩
    exact hheld ((holderOf_eq hl).symm.trans hfree)
  | refreshed ks hl _ hr ho =>
    refine iff_of_false (by simp [ho]) ?_
    rintro ⟨x,hx,-,hne,-⟩
    cases hl.symm.trans hx
    exact hne hr
  | again ks hl _ _ hroom _ ho | queued ks hl _ _ hroom _ ho =>
    refine iff_of_false (by simp [ho]) ?_
    rintro ⟨x,hx,-,-,hle⟩
    cases hl.symm.trans hx
    exact not_le.mpr hroom hle

lemma acquire_overflow_iff (s : LockManager) (key : UInt64) (r : UInt8) (lease now : UInt64) :
    (s.acquire key r lease now).status = .kKeyOverflow ↔ ¬ s.CanTrack key := by
  cases s.acquire_spec key r lease now with
  | overflow hcan ho => exact iff_of_true (by rw [ho]) hcan
  | granted hcan _ ho => exact iff_of_false (by simp [ho]) (not_not.mpr hcan)
  | refreshed ks hl _ _ ho | full ks hl _ _ _ ho | again ks hl _ _ _ _ ho
  | queued ks hl _ _ _ _ ho =>
    exact iff_of_false (by simp [ho]) (not_not.mpr (canTrack_of_lookup hl))

lemma vacate_spec (h : s.keys.lookup key = some ks) (now : UInt64) :
    (s.nextWaiter key = none ∧ (s.vacate key ks now).2 = [] ∧
      (s.vacate key ks now).1.holderOf = update s.holderOf key kFree) ∨
    (∃ w expiry, s.nextWaiter key = some w ∧ (s.vacate key ks now).2 = [makeGrant w key expiry] ∧
      (s.vacate key ks now).1.holderOf = update s.holderOf key w) := by
  unfold vacate grantNextWaiter nextWaiter
  cases hw : ks.waiters with
  | nil =>
    refine .inl ⟨by simp [h, hw],by simp,?_⟩
    funext k
    by_cases hk : k = key
    · subst hk
      simp [maybeRemoveKey, put, holderOf]
    · simp [maybeRemoveKey, put, holderOf, hk]
  | cons w =>
    refine .inr ⟨w.requesterId,now+w.leaseDurationNs,by simp [h, hw],by simp [grantLock],?_⟩
    simp [grantLock]

lemma release_status (s : LockManager) (key : UInt64) (r : UInt8) (now : UInt64) :
    (s.release key r now).status = .kOk ∨ (s.release key r now).status = .kNotHeld := by
  cases s.release_spec key r now with
  | refused _ ho => exact .inr (by rw [ho])
  | freed ks _ _ ho => exact .inl (by rw [ho])

lemma nextWaiter_of_refused {r : UInt8} (h : ∀ ks ∈ s.keys.lookup key, ks.holderId ≠ r)
    (hr : s.holderOf key = r) : s.nextWaiter key = none := by
  cases hl : s.keys.lookup key with
  | none => simp [nextWaiter, hl]
  | some ks => exact absurd ((holderOf_eq hl).symm.trans hr) (h ks hl)

lemma release_quiet_iff (s : LockManager) (key : UInt64) (r : UInt8) (now : UInt64) :
    (s.release key r now).out = [] ↔ ¬ s.Wakes key r := by
  unfold Wakes
  cases s.release_spec key r now with
  | refused hr ho =>
    refine iff_of_true (by rw [ho]) ?_
    rintro ⟨hh,hw⟩
    simp [nextWaiter_of_refused hr hh] at hw
  | freed ks hl hr ho =>
    rw [ho, holderOf_eq hl]
    rcases vacate_spec hl now with ⟨hw,hout,-⟩ | ⟨w,_,hw,hout,-⟩
    · simp [hw, hout]
    · simp [hr, hw, hout]

def grantee (s : LockManager) : Msg → Option (UInt64 × UInt8)
  | .acquire hdr _ =>
    if s.CanTrack hdr.lockKey ∧ s.holderOf hdr.lockKey = kFree then
      some (hdr.lockKey,hdr.requesterId)
    else none
  | .release hdr =>
    if s.holderOf hdr.lockKey = hdr.requesterId then
      (s.nextWaiter hdr.lockKey).map (hdr.lockKey,·)
    else none
  | _ => none

lemma handle_holders (s : LockManager) (m : Msg) (now : UInt64) :
    (∃ key r, s.grantee m = some (key,r) ∧
      (s.handle m now).mgr.holderOf = update s.holderOf key r) ∨
    (s.grantee m = none ∧ ((s.handle m now).mgr.holderOf = s.holderOf ∨
      ∃ key, (s.handle m now).mgr.holderOf = update s.holderOf key kFree)) := by
  cases m with
  | acquire hdr lease =>
    simp only [handle, grantee]
    cases s.acquire_spec hdr.lockKey hdr.requesterId lease now with
    | overflow hcan ho => exact .inr ⟨by simp [hcan],.inl (by rw [ho])⟩
    | granted hcan hfree ho => exact .inl ⟨_,_,if_pos ⟨hcan,hfree⟩,by rw [ho, holderOf_put]⟩
    | full ks hl hheld _ _ ho | again ks hl hheld _ _ _ ho =>
      exact .inr ⟨by simp [holderOf_eq hl, hheld],.inl (by rw [ho])⟩
    | refreshed ks hl hheld _ ho | queued ks hl hheld _ _ _ ho =>
      refine .inr ⟨by simp [holderOf_eq hl, hheld],.inl ?_⟩
      rw [ho]
      exact holderOf_put_same hl rfl
  | release hdr =>
    simp only [handle, grantee]
    cases s.release_spec hdr.lockKey hdr.requesterId now with
    | refused hr ho =>
      refine .inr ⟨?_,.inl (by rw [ho])⟩
      split_ifs with hh
      · rw [nextWaiter_of_refused hr hh, Option.map_none]
      · rfl
    | freed ks hl hr ho =>
      rw [holderOf_eq hl, if_pos hr, ho]
      rcases vacate_spec hl now with ⟨hw,-,hm⟩ | ⟨w,expiry,hw,-,hm⟩
      · exact .inr ⟨by simp [hw],.inr ⟨_,hm⟩⟩
      · exact .inl ⟨hdr.lockKey,w,by simp [hw],hm⟩
  | _ => exact .inr ⟨rfl,.inl rfl⟩

lemma handle_out (s : LockManager) (m : Msg) (now : UInt64) :
    ∀ x ∈ (s.handle m now).out, x.msg.tag ≠ 1 ∧ x.msg.tag ≠ 3 := by
  cases m with
  | acquire hdr lease =>
    simp only [handle]
    cases s.acquire_spec hdr.lockKey hdr.requesterId lease now with
    | overflow _ ho => simp [ho]
    | granted _ _ ho | refreshed _ _ _ _ ho => simp [ho, makeGrant, Msg.tag]
    | full _ _ _ _ _ ho | again _ _ _ _ _ _ ho | queued _ _ _ _ _ _ ho =>
      simp [ho, makeDeny, Msg.tag]
  | release hdr =>
    simp only [handle]
    cases s.release_spec hdr.lockKey hdr.requesterId now with
    | refused _ ho => simp [ho]
    | freed ks hl _ ho =>
      rcases vacate_spec hl now with ⟨-,hout,-⟩ | ⟨w,expiry,-,hout,-⟩
      · simp [ho, hout]
      · simp [ho, hout, makeGrant, Msg.tag]
  | _ => simp [handle]

lemma nextWaiter_mem {r : UInt8} (h : s.nextWaiter key = some r) :
    ∃ w ∈ s.waitersOf key, w.requesterId = r := by
  unfold nextWaiter at h
  cases hl : s.keys.lookup key with
  | none => simp [hl] at h
  | some ks =>
    rw [waitersOf_eq hl]
    cases hw : ks.waiters with
    | nil => simp [hl, hw] at h
    | cons w => exact ⟨w,List.mem_cons_self,by simpa [hl, hw] using h⟩

lemma vacate_lookup_ne (s : LockManager) {k : UInt64} (hk : k ≠ key) (ks : KeyState)
    (now : UInt64) : (s.vacate key ks now).1.keys.lookup k = s.keys.lookup k := by
  unfold vacate grantNextWaiter
  cases ks.waiters with
  | nil => simp [maybeRemoveKey, put, hk]
  | cons => simp [grantLock, put, hk]

lemma vacate_waiters (h : s.keys.lookup key = some ks) (now k : UInt64) (w : WaitingRequest)
    (hw : w ∈ (s.vacate key ks now).1.waitersOf k) : w ∈ s.waitersOf k := by
  by_cases hk : k = key
  · subst hk
    rw [waitersOf_eq h]
    unfold vacate grantNextWaiter at hw
    cases hq : ks.waiters with
    | nil => simp [hq, maybeRemoveKey, put, waitersOf] at hw
    | cons x =>
      simp only [hq, waitersOf_put, if_true, grantLock] at hw
      exact List.mem_cons_of_mem x hw
  · simpa [waitersOf, s.vacate_lookup_ne hk ks now] using hw

lemma acquire_waiters (s : LockManager) (key : UInt64) (r : UInt8) (lease now k : UInt64)
    (w : WaitingRequest) (hw : w ∈ (s.acquire key r lease now).mgr.waitersOf k) :
    w ∈ s.waitersOf k ∨ w.requesterId = r := by
  have hput : ∀ {x : KeyState}, w ∈ (s.put key x).waitersOf k →
      (∀ v ∈ x.waiters, v ∈ s.waitersOf key ∨ v.requesterId = r) →
      w ∈ s.waitersOf k ∨ w.requesterId = r := by
    intro x hmem hx
    rw [waitersOf_put] at hmem
    split_ifs at hmem with hk
    · rw [hk]
      exact hx w hmem
    · exact .inl hmem
  cases s.acquire_spec key r lease now with
  | overflow _ ho | full _ _ _ _ _ ho | again _ _ _ _ _ _ ho =>
    rw [ho] at hw
    exact .inl hw
  | granted _ _ ho =>
    rw [ho] at hw
    exact hput hw fun _ => .inl
  | refreshed ks hl _ _ ho =>
    rw [ho] at hw
    exact hput hw fun _ hv => .inl (waitersOf_eq hl ▸ hv)
  | queued ks hl _ _ _ _ ho =>
    rw [ho] at hw
    refine hput hw fun v hv => ?_
    rcases List.mem_append.mp hv with hv | hv
    · exact .inl (waitersOf_eq hl ▸ hv)
    · exact .inr (by rw [List.mem_singleton.mp hv])

lemma release_waiters (s : LockManager) (key : UInt64) (r : UInt8) (now k : UInt64)
    (w : WaitingRequest) (hw : w ∈ (s.release key r now).mgr.waitersOf k) : w ∈ s.waitersOf k := by
  cases s.release_spec key r now with
  | refused _ ho =>
    rw [ho] at hw
    exact hw
  | freed ks hl _ ho =>
    rw [ho] at hw
    exact vacate_waiters hl now k w hw

lemma handle_waiters (s : LockManager) (m : Msg) (now k : UInt64) (w : WaitingRequest)
    (hw : w ∈ (s.handle m now).mgr.waitersOf k) :
    w ∈ s.waitersOf k ∨ w.requesterId = m.hdr.requesterId := by
  cases m with
  | acquire hdr lease => exact s.acquire_waiters hdr.lockKey hdr.requesterId lease now k w hw
  | release hdr => exact .inl (s.release_waiters hdr.lockKey hdr.requesterId now k w hw)
  | _ => exact .inl hw

end LockManager

end SimBricks.LockState
