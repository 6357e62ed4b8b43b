import SimBricks.Hcop.LockState

/-!
# The walk of `CheckTimeouts`

The expired keys are vacated one after the other. What becomes of a key and
which messages are about it does not depend on the order of the walk.
-/

set_option autoImplicit false

namespace SimBricks.LockLeases
open Library LockProto LockState List

/-! ## Vacating a key -/

/-- The first waiter takes a vacated key over; without one it is untracked. -/
def handOver (now : UInt64) (ks : KeyState) : Option KeyState :=
  match ks.waiters with
  | [] => none
  | w::rest => some ⟨w.requesterId,now+w.leaseDurationNs,rest⟩

lemma handOver_eq_some {now : UInt64} {ks ks' : KeyState} (h : handOver now ks = some ks') :
    ∃ w rest, ks.waiters = w::rest ∧ ks' = ⟨w.requesterId,now+w.leaseDurationNs,rest⟩ := by
  unfold handOver at h
  cases hw : ks.waiters with
  | nil => simp [hw] at h
  | cons w rest =>
    rw [hw] at h
    exact ⟨w,rest,rfl,(Option.some.inj h).symm⟩

def handMessages (key now : UInt64) (ks : KeyState) : List OutMessage :=
  match ks.waiters with
  | [] => []
  | w::_ => [makeGrant w.requesterId key (now+w.leaseDurationNs)]

section
variable (s : LockManager) (key now : UInt64) (ks : KeyState)

open LockManager

lemma vacate_lookup (k : UInt64) :
    (s.vacate key ks now).1.keys.lookup k = if k = key then handOver now ks else s.keys.lookup
    k := by
  by_cases hk : k = key
  · subst hk
    unfold vacate grantNextWaiter handOver
    cases hw : ks.waiters with
    | nil => simp [maybeRemoveKey, put]
    | cons => simp [grantLock, put]
  · rw [if_neg hk, s.vacate_lookup_ne hk]

lemma vacate_out : (s.vacate key ks now).2 = handMessages key now ks := by
  unfold vacate grantNextWaiter handMessages
  cases ks.waiters with
  | nil | cons w rest => rfl

def limits (s : LockManager) : UInt32 × UInt64 × UInt16 :=
  (s.maxKeys,s.defaultLeaseNs,s.maxWaitersPerKey)

lemma limits_vacate : limits (s.vacate key ks now).1 = limits s := by
  unfold vacate grantNextWaiter
  cases ks.waiters with
  | nil => simp [maybeRemoveKey, put, limits]
  | cons => rfl

lemma manager_ext {s t : LockManager} (hlim : limits t = limits s)
    (hk : ∀ k, t.keys.lookup k = s.keys.lookup k) : t = s := by
  obtain ⟨_,_,_⟩ : t.maxKeys = s.maxKeys ∧ t.defaultLeaseNs = s.defaultLeaseNs ∧
      t.maxWaitersPerKey = s.maxWaitersPerKey := by simpa [limits] using hlim
  have h4 : t.keys = s.keys := Finmap.ext_lookup hk
  cases s
  cases t
  simp_all

end

/-! ## The walk of `CheckTimeouts` -/

def about (key : UInt64) (out : List OutMessage) : List OutMessage :=
  out.filter fun m => m.msg.hdr.lockKey = key

lemma about_append (key : UInt64) (out more : List OutMessage) :
    about key (out++more) = about key out++about key more := filter_append ..

lemma about_handMessages (key k now : UInt64) (ks : KeyState) :
    about k (handMessages key now ks) = if k = key then handMessages key now ks else [] := by
  unfold handMessages
  cases ks.waiters with
  | nil => simp [about]
  | cons =>
    by_cases hk : k = key
    · simp [about, makeGrant, Msg.hdr, hk]
    · simp [about, makeGrant, Msg.hdr, hk, Ne.symm hk]

def expiryMessages (key now : UInt64) (ks : KeyState) : List OutMessage :=
  makeTimeout ks.holderId key::handMessages key now ks

lemma about_expiryMessages (key k now : UInt64) (ks : KeyState) :
    about k (expiryMessages key now ks) = if k = key then expiryMessages key now ks else [] := by
  have h := about_handMessages key k now ks
  unfold about expiryMessages at *
  by_cases hk : k = key
  · subst hk
    rw [filter_cons, h]
    simp [makeTimeout, Msg.hdr]
  · rw [if_neg hk] at h ⊢
    rw [filter_cons, h]
    simp [makeTimeout, Msg.hdr, Ne.symm hk]

section
variable {s : LockManager} {key now : UInt64}

open LockManager

lemma expireKey_held {ks : KeyState} (hl : s.keys.lookup key = some ks)
    (hh : ks.holderId ≠ kFree) :
    s.expireKey now key = ((s.vacate key ks now).1,expiryMessages key now ks,true) := by
  simp [expireKey, hl, if_neg hh, vacate_out, expiryMessages]

/-- A walk over different held keys vacates each of them and nothing else. -/
structure Expired (s : LockManager) (now : UInt64) (L : List UInt64)
    (r : LockManager × List OutMessage × UInt32) : Prop where
  limits : limits r.1 = limits s
  state : ∀ k, r.1.keys.lookup k =
    if k ∈ L then (s.keys.lookup k).bind (handOver now) else s.keys.lookup k
  messages : ∀ k, about k r.2.1 =
    if k ∈ L then ((s.keys.lookup k).map (expiryMessages k now)).getD [] else []
  count : r.2.2 = UInt32.ofNat L.length

lemma expireKeys_expired (now : UInt64) (L : List UInt64) (hL : L.Nodup)
    (hheld : ∀ k ∈ L, s.holderOf k ≠ kFree) : Expired s now L (expireKeys now s L) := by
  induction L generalizing s with
  | nil => exact ⟨rfl,fun _ => by simp [expireKeys],fun _ => rfl,rfl⟩
  | cons key rest ih =>
    obtain ⟨hnot,hnodup⟩ := nodup_cons.mp hL
    obtain ⟨ks,hl,hh⟩ : ∃ ks, s.keys.lookup key = some ks ∧ ks.holderId ≠ kFree := by
      have hk := hheld key mem_cons_self
      unfold holderOf at hk
      cases hl : s.keys.lookup key with
      | none => simp [hl] at hk
      | some ks => exact ⟨ks,rfl,by simpa [hl] using hk⟩
    have hlook : ∀ k ∈ rest, (s.vacate key ks now).1.keys.lookup k = s.keys.lookup k := by
      intro k hk
      have he : k ≠ key := fun he => hnot (he ▸ hk)
      rw [vacate_lookup, if_neg he]
    have h := ih hnodup (by
      intro k hk
      have hs := hheld k (mem_cons_of_mem key hk)
      unfold holderOf at hs ⊢
      rw [hlook k hk]
      exact hs)
    simp only [expireKeys, expireKey_held hl hh]
    refine ⟨h.limits.trans (limits_vacate ..),fun k => ?_,fun k => ?_,?_⟩
    · have hk := h.state k
      rw [hk, vacate_lookup]
      by_cases he : k = key
      · subst he
        simp [hnot, hl]
      · simp [he]
    · rw [about_append, h.messages k, about_expiryMessages, vacate_lookup]
      by_cases he : k = key
      · subst he
        simp [hnot, hl]
      · simp [he]
    · rw [if_pos trivial, h.count, length_cons]
      exact (UInt32.ofNat_add _ 1).symm

lemma expired_held {now key : UInt64} (h : s.expired now key) :
    key ∈ s.keys.keys ∧ s.holderOf key ≠ kFree := by
  unfold expired at h
  cases hl : s.keys.lookup key with
  | none => simp [hl] at h
  | some =>
    refine ⟨Table.mem_keys_of_lookup hl,?_⟩
    rw [holderOf_eq hl]
    simp only [hl, decide_eq_true_eq] at h
    exact h.1

lemma mem_walk (s : LockManager) (now : UInt64) (walk : WalkOrder) (k : UInt64) :
    k ∈ (walk.list s.keys.keys).filter (s.expired now) ↔ s.expired now k := by
  rw [mem_filter, walk.complete]
  exact ⟨fun hk => hk.2,fun hk => ⟨(expired_held hk).1,hk⟩⟩

lemma checkTimeouts_expired (s : LockManager) (now : UInt64) (walk : WalkOrder) :
    Expired s now ((walk.list s.keys.keys).filter (s.expired now)) (s.checkTimeouts now walk) :=
  expireKeys_expired now _ ((walk.nodup _).filter _)
    fun k hk => (expired_held ((mem_walk s now walk k).mp hk)).2

lemma checkTimeouts_lookup (s : LockManager) (now : UInt64) (walk : WalkOrder) (k : UInt64) :
    (s.checkTimeouts now walk).1.keys.lookup k = if s.expired now k then (s.keys.lookup k).bind
    (handOver now) else s.keys.lookup k := by
  rw [(checkTimeouts_expired s now walk).state k]
  simp only [mem_walk]

lemma checkTimeouts_about (s : LockManager) (now : UInt64) (walk : WalkOrder) (k : UInt64) : about
    k (s.checkTimeouts now walk).2.1 = if s.expired now k then
    ((s.keys.lookup k).map (expiryMessages k now)).getD [] else [] := by
  rw [(checkTimeouts_expired s now walk).messages k]
  simp only [mem_walk]

end

end SimBricks.LockLeases
