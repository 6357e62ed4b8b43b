import SimBricks.Hcop.LockTable

/-!
# Leases of the lock manager

An expiry time is a sum modulo `2^64` and zero stands for no expiry, so a
lease ends when its two numbers say only if they sum to something from 1 to
`2^64`.
-/

set_option autoImplicit false

namespace SimBricks.LockLeases
open Library Library.Run Library.Bytes LockProto LockState LockOwners List Option
  LockTable

def leaseOf (s : LockManager) (lease : UInt64) : UInt64 :=
  if lease = 0 then s.defaultLeaseNs else lease

/-! ## Leases -/

structure Lease where
  key : UInt64
  holder : UInt8
  start : UInt64
  duration : UInt64

def Lease.ending (l : Lease) : ℕ := l.start.toNat+l.duration.toNat

/-- The call grants, refreshes or hands over a key under this lease. -/
inductive Starts (s : LockManager) : Op → Lease → Prop where
  | acquire {key : UInt64} {r : UInt8} {lease now : UInt64}
      (h : (s.acquire key r lease now).status = .kGranted) :
      Starts s (.acquire key r lease now) ⟨key,r,now,leaseOf s lease⟩
  | release {key : UInt64} {r : UInt8} {now : UInt64} {ks : KeyState} {w : WaitingRequest}
      {rest : List WaitingRequest} (hl : s.keys.lookup key = some ks) (hr : ks.holderId = r)
      (hw : ks.waiters = w::rest) :
      Starts s (.release key r now) ⟨key,w.requesterId,now,w.leaseDurationNs⟩
  | timeout {key now : UInt64} {walk : WalkOrder} {ks : KeyState} {w : WaitingRequest}
      {rest : List WaitingRequest} (he : s.expired now key)
      (hl : s.keys.lookup key = some ks) (hw : ks.waiters = w::rest) :
      Starts s (.checkTimeouts now walk) ⟨key,w.requesterId,now,w.leaseDurationNs⟩
  | acquireMessage {data : Memory} {len : ℕ} {now : UInt64} {hdr : MsgHeader} {lease : UInt64}
      {l : Lease} (hp : parse data len = some (.acquire hdr lease))
      (h : Starts s (.acquire hdr.lockKey hdr.requesterId lease now) l) :
      Starts s (.handleMessage data len now) l
  | releaseMessage {data : Memory} {len : ℕ} {now : UInt64} {hdr : MsgHeader} {l : Lease}
      (hp : parse data len = some (.release hdr))
      (h : Starts s (.release hdr.lockKey hdr.requesterId now) l) :
      Starts s (.handleMessage data len now) l

def asCall (data : Memory) (len : ℕ) (now : UInt64) : Option Op :=
  match parse data len with
  | some (.acquire hdr lease) => some (.acquire hdr.lockKey hdr.requesterId lease now)
  | some (.release hdr) => some (.release hdr.lockKey hdr.requesterId now)
  | _ => none

lemma step_handleMessage (s : LockManager) (data : Memory) (len : ℕ) (now : UInt64) :
    step s (.handleMessage data len now) = ((asCall data len now).map (step s)).getD s := by
  have hs : step s (.handleMessage data len now) = (s.handleMessage data len now).mgr := rfl
  rw [hs, asCall, LockManager.handleMessage]
  cases parse data len with
  | none => rfl
  | some m => cases m <;> rfl

def Running (l : Lease) (s : LockManager) : Prop :=
  ∃ ks, s.keys.lookup l.key = some ks ∧ ks.holderId = l.holder ∧
    ks.leaseExpiryNs = l.start+l.duration

lemma lookup_put_self (s : LockManager) (key : UInt64) (ks : KeyState) :
    (s.put key ks).keys.lookup key = some ks := by
  simp [LockManager.put]

variable {op : Op} {r : UInt8}

lemma Starts.running {s : LockManager} {l : Lease} (h : Starts s op l) : Running l (step s op) := by
  induction h with
  | @acquire key r lease now hst =>
    show Running _ (s.acquire key r lease now).mgr
    cases s.acquire_spec key r lease now with
    | granted _ _ ho =>
      rw [ho]
      exact ⟨_,lookup_put_self ..,rfl,rfl⟩
    | refreshed _ _ _ hr ho =>
      rw [ho]
      exact ⟨_,lookup_put_self ..,hr,rfl⟩
    | overflow _ ho | full _ _ _ _ _ ho | again _ _ _ _ _ _ ho | queued _ _ _ _ _ _ ho =>
      simp [ho] at hst
  | @release key r now ks w rest hl hr hw =>
    show Running _ (s.release key r now).mgr
    cases s.release_spec key r now with
    | refused hno => exact absurd hr (hno ks hl)
    | freed _ hl' _ ho =>
      cases hl.symm.trans hl'
      exact ⟨_,by rw [ho, vacate_lookup, if_pos rfl, handOver, hw],rfl,rfl⟩
  | @timeout key now walk ks w rest he hl hw =>
    have hlook := checkTimeouts_lookup s now walk key
    rw [if_pos he, hl, bind_some, handOver, hw] at hlook
    exact ⟨_,hlook,rfl,rfl⟩
  | acquireMessage hp _ ih | releaseMessage hp _ ih =>
    rw [step_handleMessage, asCall, hp]
    exact ih

/-! ## How long a lease runs -/

/-- The call is no release, no refresh and no end of the lease. -/
def Undisturbed (l : Lease) (s : LockManager) : Op → Prop
  | .acquire key r _ _ => ¬ (key = l.key ∧ r = l.holder)
  | .release key r _ => ¬ (key = l.key ∧ r = l.holder)
  | .checkTimeouts now walk => makeTimeout l.holder l.key ∉ (s.checkTimeouts now walk).2.1
  | .handleMessage data len _ =>
    match parse data len with
    | some (.acquire hdr _) => ¬ (hdr.lockKey = l.key ∧ hdr.requesterId = l.holder)
    | some (.release hdr) => ¬ (hdr.lockKey = l.key ∧ hdr.requesterId = l.holder)
    | _ => True

/-- Between its start and its release or refresh, a `CheckTimeouts` not before
the start revokes the lease exactly if the lease has ended. -/
def LeaseExact (s : LockManager) (op : Op) (l : Lease) : Prop :=
  ∀ between t walk, Along step (Undisturbed l) (step s op) between → l.start ≤ t →
    (makeTimeout l.holder l.key ∈
        ((run step (step s op) between).checkTimeouts t walk).2.1 ↔ l.ending ≤ t.toNat)

/-- A holder's lease sums to a number from 1 to `2^64`; the mark of a free key
is granted nothing that ends. -/
def Measurable (l : Lease) : Prop :=
  if l.holder = kFree then 2^64 ≤ l.ending else 0 < l.ending ∧ l.ending ≤ 2^64
  deriving Decidable

lemma timeout_mem_iff (s : LockManager) (now key : UInt64) (walk : WalkOrder) (r : UInt8) :
    makeTimeout r key ∈ (s.checkTimeouts now walk).2.1 ↔ s.expired now key ∧ s.holderOf key =
    r := by
  have habout : makeTimeout r key ∈ (s.checkTimeouts now walk).2.1 ↔
      makeTimeout r key ∈ about key (s.checkTimeouts now walk).2.1 := by
    simp [about, makeTimeout, Msg.hdr]
  rw [habout, checkTimeouts_about]
  by_cases he : s.expired now key
  · cases hl : s.keys.lookup key with
    | none => simp [LockManager.expired, hl] at he
    | some ks =>
      have hgrant : makeTimeout r key ∉ handMessages key now ks := by
        unfold handMessages
        cases ks.waiters <;> simp [makeTimeout, makeGrant]
      have heq : makeTimeout r key = makeTimeout ks.holderId key ↔ ks.holderId = r := by
        simp [makeTimeout, eq_comm]
      simp [expiryMessages, hgrant, heq, LockManager.holderOf_eq hl, he]
  · simp [he]

lemma expired_iff {s : LockManager} {now key : UInt64} {ks : KeyState}
    (hl : s.keys.lookup key = some ks) (hheld : ks.holderId ≠ kFree) :
    s.expired now key ↔ 0 < ks.leaseExpiryNs ∧ ks.leaseExpiryNs ≤ now := by
  simp [LockManager.expired, hl, hheld]

section
variable {s : LockManager} {l : Lease}

lemma Running.of_lookup {t : LockManager} (h : Running l s)
    (hl : t.keys.lookup l.key = s.keys.lookup l.key) : Running l t := by
  unfold Running
  rw [hl]
  exact h

lemma Running.acquire (h : Running l s) (hheld : l.holder ≠ kFree) {key : UInt64}
    (hne : ¬ (key = l.key ∧ r = l.holder)) (lease now : UInt64) :
    Running l (s.acquire key r lease now).mgr := by
  have hput : ∀ x : KeyState, key ≠ l.key → Running l (s.put key x) := by
    intro x hk
    apply h.of_lookup
    simp [LockManager.put, Ne.symm hk]
  obtain ⟨ks,hl,hh,hx⟩ := h
  have hold : s.holderOf l.key = l.holder := (LockManager.holderOf_eq hl).trans hh
  cases s.acquire_spec key r lease now with
  | overflow _ ho | full _ _ _ _ _ ho | again _ _ _ _ _ _ ho =>
    rw [ho]
    exact ⟨ks,hl,hh,hx⟩
  | granted _ hfree ho =>
    rw [ho]
    apply hput
    rintro rfl
    exact hheld (hold.symm.trans hfree)
  | refreshed _ hl' _ hr ho =>
    rw [ho]
    apply hput
    rintro rfl
    exact hne ⟨rfl,by rw [← hr, ← hh, some.inj (hl.symm.trans hl')]⟩
  | queued _ hl' _ _ _ _ ho =>
    rw [ho]
    by_cases hk : key = l.key
    · subst hk
      cases hl.symm.trans hl'
      exact ⟨_,lookup_put_self ..,hh,hx⟩
    · exact hput _ hk

lemma Running.release (h : Running l s) {key : UInt64} (hne : ¬ (key = l.key ∧ r = l.holder))
    (now : UInt64) : Running l (s.release key r now).mgr := by
  cases s.release_spec key r now with
  | refused _ ho =>
    rw [ho]
    exact h
  | freed _ hl hr ho =>
    rw [ho]
    apply h.of_lookup
    rw [vacate_lookup, if_neg]
    rintro rfl
    obtain ⟨_,hl',hh,-⟩ := h
    exact hne ⟨rfl,by rw [← hr, ← hh, some.inj (hl.symm.trans hl')]⟩

lemma Running.step (h : Running l s) (hheld : l.holder ≠ kFree) (hop : Undisturbed l s op) :
    Running l (step s op) := by
  cases op with
  | acquire key r lease now => exact h.acquire hheld hop lease now
  | release key r now => exact h.release hop now
  | checkTimeouts now walk =>
    apply h.of_lookup
    have hlook := checkTimeouts_lookup s now walk l.key
    rw [if_neg] at hlook
    · exact hlook
    · intro he
      obtain ⟨_,hl,hh,-⟩ := h
      exact hop ((timeout_mem_iff ..).mpr ⟨he,(LockManager.holderOf_eq hl).trans hh⟩)
  | handleMessage data len now =>
    rw [step_handleMessage, asCall]
    simp only [Undisturbed] at hop
    cases hp : parse data len with
    | none => exact h
    | some m =>
      rw [hp] at hop
      cases m with
      | acquire hdr lease => exact h.acquire hheld hop lease now
      | release => exact h.release hop now
      | _ => exact h

lemma revoked_iff_ended {t : UInt64} (ht : l.start ≤ t) :
    ((0 < l.start+l.duration ∧ l.start+l.duration ≤ t) ↔ l.ending ≤ t.toNat) ↔ 0 < l.ending ∧
    l.ending ≤ 2^64 := by
  have hs := UInt64.le_iff_toNat_le.mp ht
  have h2 := l.duration.toNat_lt
  have h3 := t.toNat_lt
  rw [UInt64.lt_iff_toNat_lt, UInt64.le_iff_toNat_le, UInt64.toNat_add, UInt64.toNat_zero]
  unfold Lease.ending
  omega

end

lemma walkOrder_nonempty : Nonempty WalkOrder :=
  ⟨fun S => S.toList,fun S => S.nodup_toList,fun _ _ => Finset.mem_toList⟩

/-- A lease ends exactly when it should if and only if it is measurable. -/
theorem lease_exact_iff (s : LockManager) (op : Op) (l : Lease) (h : Starts s op l) :
    LeaseExact s op l ↔ Measurable l := by
  have hrun := h.running
  have hstart : l.start ≤ l.start := UInt64.le_refl _
  obtain ⟨walk⟩ := walkOrder_nonempty
  by_cases hfree : l.holder = kFree
  · -- nobody is told that the mark of a free key has lost its lease
    have hnever : ∀ (u : LockManager) t walk,
        makeTimeout l.holder l.key ∉ (u.checkTimeouts t walk).2.1 := by
      intro u t walk hm
      obtain ⟨he,hh⟩ := (timeout_mem_iff ..).mp hm
      exact (expired_held he).2 (hh.trans hfree)
    rw [Measurable, if_pos hfree]
    constructor
    · intro hx
      have hlast := hx [] (UInt64.ofNat (2^64-1)) walk trivial (by
        exact Nat.le_of_lt_succ l.start.toNat_lt)
      have hno := mt hlast.mpr (hnever _ _ _)
      have : (UInt64.ofNat (2^64-1)).toNat = 2^64-1 := rfl
      omega
    · intro hl between t walk _ _
      have ht := t.toNat_lt
      exact iff_of_false (hnever _ _ _) (by omega)
  · have hmem : ∀ between t walk, Along step (Undisturbed l) (step s op) between →
        (makeTimeout l.holder l.key ∈ ((run step (step s op) between).checkTimeouts t walk).2.1 ↔
          0 < l.start+l.duration ∧ l.start+l.duration ≤ t) := by
      intro between t walk hb
      obtain ⟨_,hl,hh,hx⟩ : Running l (run step (step s op) between) :=
        run_invariant (fun _ _ hr hu => hr.step hfree hu) hrun hb
      rw [timeout_mem_iff, LockManager.holderOf_eq hl, expired_iff hl (hh ▸ hfree), hx]
      exact and_iff_left hh
    rw [Measurable, if_neg hfree]
    constructor
    · intro hx
      have hnow := hx [] l.start walk trivial hstart
      rw [hmem [] l.start walk trivial] at hnow
      exact (revoked_iff_ended hstart).mp hnow
    · intro hl between t walk hb ht
      rw [hmem between t walk hb]
      exact (revoked_iff_ended ht).mpr hl

/-- A lease of the default length, started at time 5. -/
theorem lease_exact_iff_default : Starts (.new 10 1000 4) (.acquire 7 1 0 5) ⟨7,1,5,1000⟩ ∧
    LeaseExact (.new 10 1000 4) (.acquire 7 1 0 5) ⟨7,1,5,1000⟩ := by
  have h : Starts (.new 10 1000 4) (.acquire 7 1 0 5) ⟨7,1,5,1000⟩ := .acquire rfl
  exact ⟨h,(lease_exact_iff _ _ _ h).mpr (by decide)⟩

/-- The longest lease there is, asked for at time 2, is revoked at time 2. -/
theorem longest_lease_revoked_at_once :
    Starts (.new 10 1000 4) (.acquire 7 1 0xFFFFFFFFFFFFFFFF 2) ⟨7,1,2,0xFFFFFFFFFFFFFFFF⟩ ∧
    (∀ walk, makeTimeout 1 7 ∈
      ((step (.new 10 1000 4) (.acquire 7 1 0xFFFFFFFFFFFFFFFF 2)).checkTimeouts 2 walk).2.1) ∧
    ¬ LeaseExact (.new 10 1000 4) (.acquire 7 1 0xFFFFFFFFFFFFFFFF 2)
      ⟨7,1,2,0xFFFFFFFFFFFFFFFF⟩ := by
  have hnow : ∀ walk, makeTimeout 1 7 ∈
      ((step (.new 10 1000 4) (.acquire 7 1 0xFFFFFFFFFFFFFFFF 2)).checkTimeouts 2 walk).2.1 := by
    intro walk
    exact (timeout_mem_iff ..).mpr (by decide)
  refine ⟨.acquire rfl,hnow,fun h => ?_⟩
  obtain ⟨walk⟩ := walkOrder_nonempty
  have hended := (h [] 2 walk trivial (by decide)).mp (hnow walk)
  exact absurd hended (by decide)

/-! ## `CheckTimeouts` as a whole -/

/-- The lease is positive and ends within the range of the clock. -/
def Fits (l : Lease) : Prop := 0 < l.duration.toNat ∧ l.ending < 2^64

def due (s : LockManager) (now key : UInt64) : Bool :=
  match s.keys.lookup key with
  | none => false
  | some ks => ks.leaseExpiryNs ≤ now

def isTimeout (m : OutMessage) : Bool :=
  match m.msg with
  | .timeout _ => true
  | _ => false

structure TimeoutsExact (s : LockManager) (now : UInt64)
    (r : LockManager × List OutMessage × UInt32) : Prop where
  one_timeout : ∀ key ks, s.keys.lookup key = some ks → ks.leaseExpiryNs ≤ now →
    (about key r.2.1).filter isTimeout = [makeTimeout ks.holderId key]
  silent : ∀ key, due s now key = false → about key r.2.1 = []
  counted : r.2.2.toNat = (s.keys.keys.filter fun key => due s now key).card
  handed : ∀ key ks w rest, s.keys.lookup key = some ks → ks.leaseExpiryNs ≤ now →
    ks.waiters = w::rest →
    r.1.keys.lookup key = some ⟨w.requesterId,now+w.leaseDurationNs,rest⟩
  removed : ∀ key ks, s.keys.lookup key = some ks → ks.leaseExpiryNs ≤ now → ks.waiters = [] →
    r.1.keys.lookup key = none
  kept : ∀ key, due s now key = false → r.1.keys.lookup key = s.keys.lookup key

def Timed (s : LockManager) : Prop :=
  ∀ key ks, s.keys.lookup key = some ks → ks.holderId ≠ kFree ∧ 0 < ks.leaseExpiryNs

lemma Timed.expired {s : LockManager} (h : Timed s) (now key : UInt64) :
    s.expired now key = due s now key := by
  unfold due
  cases hl : s.keys.lookup key with
  | none => simp [LockManager.expired, hl]
  | some ks =>
    obtain ⟨hheld,hpos⟩ := h key ks hl
    rw [Bool.eq_iff_iff, expired_iff hl hheld]
    simp [hpos]

lemma expired_card (s : LockManager) (now : UInt64) (walk : WalkOrder) :
    ((walk.list s.keys.keys).filter (s.expired now)).length =
    (s.keys.keys.filter fun key => s.expired now key).card := by
  rw [← toFinset_card_of_nodup ((walk.nodup _).filter _)]
  congr 1
  ext key
  simp [walk.complete]

lemma Timed.exact {s : LockManager} (h : Timed s) (hsize : Table.size s.keys < 2^32)
    (now : UInt64) (walk : WalkOrder) : TimeoutsExact s now (s.checkTimeouts now walk) := by
  have hdue : ∀ key ks, s.keys.lookup key = some ks → ks.leaseExpiryNs ≤ now →
      s.expired now key := by
    intro key ks hl hle
    rw [h.expired]
    simpa [due, hl] using hle
  refine ⟨?_,?_,?_,?_,?_,?_⟩
  · intro key ks hl hle
    rw [checkTimeouts_about, if_pos (hdue key ks hl hle), hl]
    simp only [map_some, getD_some, expiryMessages, handMessages]
    cases ks.waiters <;> rfl
  · intro key hno
    rw [checkTimeouts_about, h.expired, if_neg (by simp [hno])]
  · rw [(checkTimeouts_expired s now walk).count, UInt32.toNat_ofNat', expired_card]
    simp only [h.expired]
    apply Nat.mod_eq_of_lt
    exact lt_of_le_of_lt (Finset.card_filter_le _ _) hsize
  · intro key ks w rest hl hle hw
    rw [checkTimeouts_lookup, if_pos (hdue key ks hl hle), hl, bind_some, handOver, hw]
  · intro key ks hl hle hw
    rw [checkTimeouts_lookup, if_pos (hdue key ks hl hle), hl, bind_some, handOver, hw]
  · intro key hno
    rw [checkTimeouts_lookup, h.expired, if_neg (by simp [hno])]

/-- Nothing of the outcome depends on the order of the walk. -/
lemma checkTimeouts_walk (s : LockManager) (now : UInt64) (walk walk' : WalkOrder) :
    (s.checkTimeouts now walk).1 = (s.checkTimeouts now walk').1 ∧
    (∀ key, about key (s.checkTimeouts now walk).2.1 = about key (s.checkTimeouts now walk').2.1) ∧
    (s.checkTimeouts now walk).2.2 = (s.checkTimeouts now walk').2.2 := by
  refine ⟨?_,fun key => ?_,?_⟩
  · apply manager_ext
    · rw [(checkTimeouts_expired s now walk).limits, (checkTimeouts_expired s now walk').limits]
    · intro key
      rw [checkTimeouts_lookup, checkTimeouts_lookup]
  · rw [checkTimeouts_about, checkTimeouts_about]
  · rw [(checkTimeouts_expired s now walk).count, (checkTimeouts_expired s now walk').count,
      expired_card, expired_card]

lemma checkTimeouts_quiet {s : LockManager} {now : UInt64} (h : ∀ key, s.expired now key = false)
    (walk : WalkOrder) : s.checkTimeouts now walk = (s,[],0) := by
  have hnil : (walk.list s.keys.keys).filter (s.expired now) = [] := by
    rw [filter_eq_nil_iff]
    intro key _
    simp [h key]
  rw [LockManager.checkTimeouts, hnil]
  rfl

/-- An expiry time on record was there before the call, or the call starts the
lease it belongs to. -/
def Timeline (s : LockManager) (op : Op) (t : LockManager) : Prop :=
  ∀ key ks', t.keys.lookup key = some ks' →
    (∃ ks, s.keys.lookup key = some ks ∧ ks'.leaseExpiryNs = ks.leaseExpiryNs) ∨
    (∃ l, Starts s op l ∧ ks'.leaseExpiryNs = l.start+l.duration)

section
variable {s : LockManager}

lemma timeline_same (op : Op) : Timeline s op s := fun _ ks hl => .inl ⟨ks,hl,rfl⟩

lemma timeline_put {key : UInt64} {x : KeyState}
    (hx : (∃ ks, s.keys.lookup key = some ks ∧ x.leaseExpiryNs = ks.leaseExpiryNs) ∨
      (∃ l, Starts s op l ∧ x.leaseExpiryNs = l.start+l.duration)) :
    Timeline s op (s.put key x) := by
  intro k ks' hl
  simp only [LockManager.put, Table.lookup_insert_ite] at hl
  split_ifs at hl with hk
  · cases hl
    rw [hk]
    exact hx
  · exact .inl ⟨ks',hl,rfl⟩

lemma timeline_acquire (key : UInt64) (r : UInt8) (lease now : UInt64) :
    Timeline s (.acquire key r lease now) (s.acquire key r lease now).mgr := by
  cases s.acquire_spec key r lease now with
  | overflow _ ho | full _ _ _ _ _ ho | again _ _ _ _ _ _ ho =>
    rw [ho]
    exact timeline_same _
  | granted _ _ ho | refreshed _ _ _ _ ho =>
    have hst : (s.acquire key r lease now).status = .kGranted := by rw [ho]
    rw [ho]
    exact timeline_put (.inr ⟨_,.acquire hst,rfl⟩)
  | queued ks hl _ _ _ _ ho =>
    rw [ho]
    exact timeline_put (.inl ⟨ks,hl,rfl⟩)

lemma timeline_release (key : UInt64) (r : UInt8) (now : UInt64) :
    Timeline s (.release key r now) (s.release key r now).mgr := by
  cases s.release_spec key r now with
  | refused _ ho =>
    rw [ho]
    exact timeline_same _
  | freed _ hl hr ho =>
    intro k ks' hl'
    rw [ho, vacate_lookup] at hl'
    split_ifs at hl' with hk
    · obtain ⟨w,_,hw,rfl⟩ := handOver_eq_some hl'
      exact .inr ⟨_,.release hl hr hw,rfl⟩
    · exact .inl ⟨ks',hl',rfl⟩

lemma timeline_checkTimeouts (now : UInt64) (walk : WalkOrder) :
    Timeline s (.checkTimeouts now walk) (s.checkTimeouts now walk).1 := by
  intro k ks' hl'
  rw [checkTimeouts_lookup] at hl'
  split_ifs at hl' with he
  · obtain ⟨_,hl,hover⟩ := bind_eq_some_iff.mp hl'
    obtain ⟨w,_,hw,rfl⟩ := handOver_eq_some hover
    exact .inr ⟨_,.timeout he hl hw,rfl⟩
  · exact .inl ⟨ks',hl',rfl⟩

lemma timeline_step (s : LockManager) (op : Op) : Timeline s op (step s op) := by
  cases op with
  | acquire key r lease now => exact timeline_acquire key r lease now
  | release key r now => exact timeline_release key r now
  | checkTimeouts now walk => exact timeline_checkTimeouts now walk
  | handleMessage data len now =>
    rw [step_handleMessage, asCall]
    cases hp : parse data len with
    | none => exact timeline_same _
    | some m =>
      cases m with
      | acquire hdr lease =>
        intro k ks' hl
        rcases timeline_acquire hdr.lockKey hdr.requesterId lease now k ks' hl with h | ⟨l,h,hx⟩
        · exact .inl h
        · exact .inr ⟨l,.acquireMessage hp h,hx⟩
      | release hdr =>
        intro k ks' hl
        rcases timeline_release hdr.lockKey hdr.requesterId now k ks' hl with h | ⟨l,h,hx⟩
        · exact .inl h
        · exact .inr ⟨l,.releaseMessage hp h,hx⟩
      | _ => exact timeline_same _

lemma Fits.expiry {l : Lease} (h : Fits l) :
    (l.start+l.duration).toNat = l.ending ∧ l.start < l.start+l.duration := by
  obtain ⟨_,hlt⟩ := h
  have hsum : (l.start+l.duration).toNat = l.ending := by
    exact Nat.mod_eq_of_lt hlt
  refine ⟨hsum,?_⟩
  rw [UInt64.lt_iff_toNat_lt, hsum, Lease.ending]
  omega

/-- The call names its requester, and every lease it starts fits the clock. -/
def Proper (s : LockManager) (op : Op) : Prop := Named op ∧ ∀ l, Starts s op l → Fits l

structure Kept (maxKeys : UInt32) (maxWaiters : UInt16) (s : LockManager) : Prop where
  sound : Sound maxKeys maxWaiters s
  pending : ∀ key ks, s.keys.lookup key = some ks → 0 < ks.leaseExpiryNs

variable {maxKeys : UInt32} {maxWaiters : UInt16}

lemma Kept.timed (h : Kept maxKeys maxWaiters s) : Timed s :=
  fun key ks hl => ⟨h.sound.held hl,h.pending key ks hl⟩

lemma Kept.step (h : Kept maxKeys maxWaiters s) (hop : Proper s op) :
    Kept maxKeys maxWaiters (step s op) := by
  refine ⟨h.sound.step hop.1,fun key ks' hl => ?_⟩
  rcases timeline_step s op key ks' hl with ⟨ks,hks,hx⟩ | ⟨l,hl,hx⟩
  · rw [hx]
    exact h.pending key ks hks
  · obtain ⟨-,hlt⟩ := (hop.2 l hl).expiry
    rw [hx]
    exact UInt64.lt_of_le_of_lt (UInt64.le_iff_toNat_le.mpr (Nat.zero_le _)) hlt

lemma kept_run {defaultLeaseNs : UInt64} {ops : List Op}
    (h : Along step Proper (.new maxKeys defaultLeaseNs maxWaiters) ops) :
    Kept maxKeys maxWaiters (run step (.new maxKeys defaultLeaseNs maxWaiters) ops) := by
  apply run_invariant (fun _ _ hk hop => Kept.step hk hop) ?_ h
  refine ⟨⟨rfl,rfl,?_,Nat.zero_le _⟩,?_⟩
  · intro _ _ hl
    simp [LockManager.new] at hl
  · intro _ _ hl
    simp [LockManager.new] at hl

/-- After the call every key that was due is held beyond `now`, or untracked. -/
lemma Timed.settled (h : Timed s) {now : UInt64} {walk : WalkOrder}
    (hfits : ∀ l, Starts s (.checkTimeouts now walk) l → Fits l) (key : UInt64) :
    (s.checkTimeouts now walk).1.expired now key = false := by
  unfold LockManager.expired
  cases hl : (s.checkTimeouts now walk).1.keys.lookup key with
  | none => rfl
  | some ks' =>
    rw [decide_eq_false_iff_not]
    rintro ⟨-,-,hle⟩
    rw [checkTimeouts_lookup] at hl
    split_ifs at hl with he
    · obtain ⟨_,hks,hover⟩ := Option.bind_eq_some_iff.mp hl
      obtain ⟨w,_,hw,rfl⟩ := handOver_eq_some hover
      have hlt := (hfits _ (.timeout he hks hw)).expiry.2
      exact absurd hlt (UInt64.not_lt.mpr hle)
    · obtain ⟨hheld,hpos⟩ := h key ks' hl
      exact he ((expired_iff hl hheld).mpr ⟨hpos,hle⟩)

end

abbrev after (maxKeys : UInt32) (defaultLeaseNs : UInt64) (maxWaitersPerKey : UInt16)
    (ops : List Op) : LockManager :=
  run step (.new maxKeys defaultLeaseNs maxWaitersPerKey) ops

/-- In every reachable state of a lock manager with named requesters and
leases that fit the clock, `CheckTimeouts` is exact and does not depend on the
order of its walk. When the leases it starts fit the clock too, it has nothing
left to do when called again. -/
theorem timeouts_exact (maxKeys : UInt32) (defaultLeaseNs : UInt64) (maxWaitersPerKey : UInt16)
    (ops : List Op)
    (hops : Along step Proper (.new maxKeys defaultLeaseNs maxWaitersPerKey) ops) :
    ∀ (now : UInt64) (walk walk' : WalkOrder),
      let s := after maxKeys defaultLeaseNs maxWaitersPerKey ops
      TimeoutsExact s now (s.checkTimeouts now walk) ∧
      (s.checkTimeouts now walk).1 = (s.checkTimeouts now walk').1 ∧
      (∀ key, about key (s.checkTimeouts now walk).2.1 =
        about key (s.checkTimeouts now walk').2.1) ∧
      ((∀ l, Starts s (.checkTimeouts now walk) l → Fits l) →
        (s.checkTimeouts now walk).1.checkTimeouts now walk' =
          ((s.checkTimeouts now walk).1,[],0)) := by
  intro now walk walk' s
  have hk : Kept maxKeys maxWaitersPerKey s := kept_run hops
  obtain ⟨hst,hmsg,-⟩ := checkTimeouts_walk s now walk walk'
  refine ⟨hk.timed.exact (lt_of_le_of_lt hk.sound.size maxKeys.toNat_lt) now walk,hst,hmsg,?_⟩
  intro hlast
  exact checkTimeouts_quiet (hk.timed.settled hlast) walk'

lemma proper_acquire {s : LockManager} {key : UInt64} {lease now : UInt64} (hr : r.toNat < 255)
    (h : Fits ⟨key,r,now,leaseOf s lease⟩) : Proper s (.acquire key r lease now) := by
  refine ⟨hr,fun l hl => ?_⟩
  cases hl with
  | acquire => exact h

/-- Requester 1 holds key 7 until 100 and requester 2 waits for it. -/
theorem timeouts_exact_handed : ∃ walk : WalkOrder,
    TimeoutsExact (after 10 1000 4 [.acquire 7 1 100 0,.acquire 7 2 50 0]) 100
      ((after 10 1000 4 [.acquire 7 1 100 0,.acquire 7 2 50 0]).checkTimeouts 100 walk) ∧
    LockManager.checkTimeouts
      ((after 10 1000 4 [.acquire 7 1 100 0,.acquire 7 2 50 0]).checkTimeouts 100 walk).1
      100 walk =
      (((after 10 1000 4 [.acquire 7 1 100 0,.acquire 7 2 50 0]).checkTimeouts 100 walk).1,
        [],0) := by
  obtain ⟨walk⟩ := walkOrder_nonempty
  have hops : Along step Proper (.new 10 1000 4) [.acquire 7 1 100 0,.acquire 7 2 50 0] :=
    ⟨proper_acquire (by decide) ⟨by decide,by decide⟩,
      proper_acquire (by decide) ⟨by decide,by decide⟩,trivial⟩
  obtain ⟨hx,-,-,hagain⟩ := timeouts_exact 10 1000 4 _ hops 100 walk walk
  refine ⟨walk,hx,hagain ?_⟩
  intro l hl
  cases hl with
  | @timeout key _ _ ks w rest he hl hw =>
    by_cases hk : key = 7
    · subst hk
      have hks : (after 10 1000 4 [.acquire 7 1 100 0,.acquire 7 2 50 0]).keys.lookup 7 =
          some ⟨1,100,[⟨2,50⟩]⟩ := by decide
      cases hks.symm.trans hl
      obtain ⟨rfl,-⟩ : (⟨2,50⟩ : WaitingRequest) = w ∧ [] = rest := by simpa using hw
      exact ⟨by decide,by decide⟩
    · have hkeys : (after 10 1000 4 [.acquire 7 1 100 0,.acquire 7 2 50 0]).keys.keys = {7} := by
        decide
      have hmem := Table.mem_keys_of_lookup hl
      rw [hkeys, Finset.mem_singleton] at hmem
      exact absurd hmem hk

end SimBricks.LockLeases
