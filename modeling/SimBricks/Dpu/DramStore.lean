import SimBricks.Library.Bytes
import SimBricks.Library.Table

/-!
# The DRAM of the DPU

`dram_store.cc`: values by key under one capacity. Allocation of a vector
succeeds; a vector is its length and its bytes, and says nothing about the
bytes behind its end. `size_t` and `uint64_t` wrap. A signed sum that leaves
64 bits has no meaning: the store is `none` from there on.
-/

set_option autoImplicit false

namespace SimBricks.DramStore
open Library Library.Bytes Library.Run UInt64 Finmap

def int64 (x : UInt64) : ℤ := if x.toNat < 2^63 then x.toNat else x.toNat-2^64

def Representable (x : ℤ) : Prop := -2^63 ≤ x ∧ x < 2^63
  deriving Decidable

structure Value where
  size : UInt64
  bytes : Memory

def Value.resize (v : Value) (size : UInt64) : Value :=
  ⟨size,fun i => if i < v.size.toNat then v.bytes i else 0⟩

def Value.copy (v : Value) (data : Memory) (len : UInt64) : Value :=
  { v with bytes := fun i => if i < len.toNat then data i else v.bytes i }

structure Store where
  capacityBytes : UInt64
  usedBytes : UInt64 := 0
  store : Table UInt64 Value := ∅

inductive Call where
  | allocate (key size : UInt64)
  | read (key : UInt64)
  | write (key : UInt64) (data : Memory) (len : UInt64)
  | free (key : UInt64)

namespace Store

def allocate (s : Store) (key size : UInt64) : Store × Bool :=
  if s.store.lookup key ≠ none then (s,false)
  else if s.usedBytes+size > s.capacityBytes then (s,false)
  else ({ s with
    store := insert key (Value.resize ⟨0,fun _ => 0⟩ size) s.store
    usedBytes := s.usedBytes+size },true)

def read (s : Store) (key : UInt64) : Option Value := s.store.lookup key

def write (s : Store) (key : UInt64) (data : Memory) (len : UInt64) : Option (Store × Bool) :=
  match s.store.lookup key with
  | none => some (s,false)
  | some v =>
    if len ≠ v.size then
      let delta := int64 len-int64 v.size
      if ¬ Representable delta then none
      else if 0 < delta ∧ s.usedBytes+ofInt delta > s.capacityBytes then some (s,false)
      else if ¬ Representable (int64 s.usedBytes+delta) then none
      else some ({ s with
        usedBytes := ofInt (int64 s.usedBytes+delta)
        store := insert key ((v.resize len).copy data len) s.store },true)
    else some ({ s with store := insert key (v.copy data len) s.store },true)

def free (s : Store) (key : UInt64) : Store :=
  match s.store.lookup key with
  | none => s
  | some v => { s with usedBytes := s.usedBytes-v.size, store := s.store.erase key }

/-- A call with the value it returns; the two that return no `bool` count as
successful. -/
def perform (s : Store) : Call → Option (Store × Bool)
  | .allocate key size => some (s.allocate key size)
  | .read _ => some (s,true)
  | .write key data len => s.write key data len
  | .free key => some (s.free key,true)

def total (s : Store) : ℕ := Table.total (fun v => v.size.toNat) s.store

end Store

def step (s : Option Store) (c : Call) : Option Store := s.bind fun s => (s.perform c).map Prod.fst

def start (capacityBytes : UInt64) : Option Store := some { capacityBytes }

def Call.Changes (key : UInt64) : Call → Prop
  | .write k _ _ | .free k => k = key
  | .allocate _ _ | .read _ => False

/-! ## What the store is for -/

structure Exact (s : Store) : Prop where
  used : s.usedBytes.toNat = s.total
  capacity : s.usedBytes ≤ s.capacityBytes

def Counted (s : Option Store) : Prop := ∃ t, s = some t ∧ Exact t

instance (s : Store) : Decidable (Exact s) :=
  decidable_of_iff (s.usedBytes.toNat = s.total ∧ s.usedBytes ≤ s.capacityBytes)
    ⟨fun h => ⟨h.1,h.2⟩,fun h => ⟨h.used,h.capacity⟩⟩

instance : (s : Option Store) → Decidable (Counted s)
  | none => .isFalse fun ⟨_,h,_⟩ => by cases h
  | some s => decidable_of_iff (Exact s)
    ⟨fun h => ⟨s,rfl,h⟩,fun ⟨_,ht,h⟩ => Option.some.inj ht ▸ h⟩

def Holds (s : Store) (key : UInt64) (data : Memory) (len : UInt64) : Prop :=
  ∃ v, s.read key = some v ∧ v.size = len ∧ Agree len.toNat v.bytes data

structure Accounted (capacityBytes : UInt64) (calls : List Call) : Prop where
  counted : ∀ earlier later, calls = earlier++later →
    Counted (run step (start capacityBytes) earlier)
  refused : ∀ earlier c later, calls = earlier++c::later →
    ∀ s t, run step (start capacityBytes) earlier = some s → s.perform c = some (t,false) → t = s
  readBack : ∀ earlier key data len later rest, calls = earlier++.write key data len::later++rest →
    ∀ s t u, run step (start capacityBytes) earlier = some s →
      s.perform (.write key data len) = some (t,true) → (∀ c ∈ later, ¬ c.Changes key) →
      run step (some t) later = some u → Holds u key data len

/-- The call does not overflow unnoticed. An allocation that wraps is noticed
if the wrapped sum is beyond the capacity; a longer value is noticed if its
increase is a positive `int64_t`. -/
def Store.Clear (s : Store) : Call → Prop
  | .allocate key size => s.store.lookup key = none →
      s.usedBytes.toNat+size.toNat < 2^64 ∨ s.capacityBytes < s.usedBytes+size
  | .write key _ len => ∀ v, s.store.lookup key = some v → len = v.size ∨
      Representable (int64 len-int64 v.size) ∧
      (int64 v.size < int64 len ∧ s.capacityBytes < s.usedBytes+(len-v.size) ∨
        Representable (int64 s.usedBytes+(int64 len-int64 v.size)) ∧
        s.usedBytes.toNat+len.toNat ≤ s.capacityBytes.toNat+v.size.toNat)
  | .read _ | .free _ => True

def Clear (s : Option Store) (c : Call) : Prop := ∀ t, s = some t → t.Clear c

/-! ## Signed and unsigned 64 bits -/

lemma toNat_ofInt (x : ℤ) : ((ofInt x).toNat : ℤ) = x % 2^64 := by
  have h0 : 0 ≤ x % 2^64 := Int.emod_nonneg x (by decide)
  have h1 : x % 2^64 < 2^64 := Int.emod_lt_of_pos x (by decide)
  rw [ofInt, toNat_ofNat', Nat.mod_eq_of_lt (by omega), Int.toNat_of_nonneg h0]

lemma int64_emod (x : UInt64) : int64 x % 2^64 = x.toNat := by
  have := x.toNat_lt
  unfold int64
  split_ifs <;> omega

lemma ofInt_add_sub (a b c : UInt64) : UInt64.ofInt (int64 a+(int64 b-int64 c)) = a+(b-c) := by
  apply UInt64.toNat_inj.mp
  have h := toNat_ofInt (int64 a+(int64 b-int64 c))
  have ha := int64_emod a
  have hb := int64_emod b
  have hc := int64_emod c
  have := c.toNat_lt
  rw [UInt64.toNat_add, UInt64.toNat_sub]
  omega

lemma ofInt_sub (b c : UInt64) : ofInt (int64 b-int64 c) = b-c := by
  have h := ofInt_add_sub 0 b c
  simpa [int64] using h

/-! ## Single calls -/

lemma exact_iff {s : Store} (h : s.usedBytes.toNat = s.total % 2^64) :
    Exact s ↔ s.total ≤ s.capacityBytes.toNat := by
  have hc := s.capacityBytes.toNat_lt
  constructor
  · intro he
    rw [← he.used]
    exact le_iff_toNat_le.mp he.capacity
  · intro hle
    have hu : s.usedBytes.toNat = s.total := by
      rw [h, Nat.mod_eq_of_lt (by omega)]
    refine ⟨hu,le_iff_toNat_le.mpr ?_⟩
    rw [hu]
    exact hle

lemma counted_some {s : Store} : Counted (some s) ↔ Exact s := by
  constructor
  · rintro ⟨t,ht,he⟩
    rwa [Option.some.inj ht]
  · exact fun he => ⟨s,rfl,he⟩

lemma not_counted_none : ¬ Counted none := by
  rintro ⟨t,ht,-⟩
  cases ht

section
variable {s : Store} {key : UInt64} (h : Exact s)
include h

lemma insert_new_exact_iff (hk : s.store.lookup key = none) (v : Value) : Exact { s with
      store := Finmap.insert key v s.store, usedBytes := s.usedBytes+v.size } ↔
    s.usedBytes.toNat+v.size.toNat ≤ s.capacityBytes.toNat := by
  have htotal : Store.total { s with
      store := Finmap.insert key v s.store, usedBytes := s.usedBytes+v.size } =
      v.size.toNat+s.total := Table.total_insert_new _ hk v
  rw [exact_iff, htotal, h.used, Nat.add_comm]
  rw [htotal, UInt64.toNat_add, h.used, Nat.add_comm]

lemma insert_old_exact_iff {u : Value} (hk : s.store.lookup key = some u) (v : Value) :
    Exact { s with
      usedBytes := s.usedBytes+(v.size-u.size), store := insert key v s.store } ↔
    s.usedBytes.toNat+v.size.toNat ≤ s.capacityBytes.toNat+u.size.toNat := by
  have htotal : Store.total { s with
      usedBytes := s.usedBytes+(v.size-u.size), store := insert key v s.store }+
      u.size.toNat = s.total+v.size.toNat := Table.total_insert_old _ hk v
  have hused := h.used
  have := u.size.toNat_lt
  rw [exact_iff]
  · show _ ≤ s.capacityBytes.toNat ↔ _
    omega
  · show (s.usedBytes+(v.size-u.size)).toNat = _
    rw [UInt64.toNat_add, UInt64.toNat_sub]
    omega

lemma allocate_exact_iff (size : UInt64) :
    Exact (s.allocate key size).1 ↔ s.Clear (.allocate key size) := by
  unfold Store.allocate Store.Clear
  by_cases hk : s.store.lookup key = none
  · rw [if_neg (not_not.mpr hk)]
    by_cases hcap : s.usedBytes+size > s.capacityBytes
    · rw [if_pos hcap]
      exact iff_of_true h fun _ => .inr hcap
    · rw [if_neg hcap]
      apply (insert_new_exact_iff h hk (Value.resize ⟨0,fun _ => 0⟩ size)).trans
      show s.usedBytes.toNat+size.toNat ≤ s.capacityBytes.toNat ↔ _
      have hc := s.capacityBytes.toNat_lt
      have hwrapped := UInt64.le_iff_toNat_le.mp (UInt64.not_lt.mp hcap)
      rw [UInt64.toNat_add] at hwrapped
      constructor
      · intro hle _
        left
        omega
      · intro hor
        have hlt := (hor hk).resolve_right hcap
        rwa [Nat.mod_eq_of_lt hlt] at hwrapped
  · rw [if_pos hk]
    exact iff_of_true h fun hn => absurd hn hk

lemma write_counted_iff (data : Memory) (len : UInt64) :
    Counted ((s.write key data len).map Prod.fst) ↔ s.Clear (.write key data len) := by
  unfold Store.write Store.Clear
  cases hk : s.store.lookup key with
  | none => exact iff_of_true (counted_some.mpr h) fun v hv => by simp [hk] at hv
  | some v =>
    simp only [hk, Option.some.injEq, forall_eq', ofInt_sub, ofInt_add_sub, ne_eq, ite_not]
    by_cases hlen : len = v.size
    · rw [if_pos hlen]
      subst hlen
      have hle := UInt64.le_iff_toNat_le.mp h.capacity
      have hsame := (insert_old_exact_iff h hk (v.copy data v.size)).mpr
        (Nat.add_le_add_right hle _)
      rw [show (v.copy data v.size).size = v.size from rfl, UInt64.sub_self,
        UInt64.add_zero] at hsame
      exact iff_of_true (counted_some.mpr hsame) (.inl rfl)
    rw [if_neg hlen, or_iff_right hlen]
    by_cases hd : Representable (int64 len-int64 v.size)
    · rw [if_pos hd, and_iff_right hd]
      by_cases hcap : 0 < int64 len-int64 v.size ∧ s.usedBytes+(len-v.size) > s.capacityBytes
      · rw [if_pos hcap]
        exact iff_of_true (counted_some.mpr h) (.inl ⟨Int.sub_pos.mp hcap.1,hcap.2⟩)
      · rw [if_neg hcap, or_iff_right fun hc => hcap ⟨Int.sub_pos.mpr hc.1,hc.2⟩]
        by_cases hsum : Representable (int64 s.usedBytes+(int64 len-int64 v.size))
        · rw [if_pos hsum, and_iff_right hsum]
          exact counted_some.trans (insert_old_exact_iff h hk ((v.resize len).copy data len))
        · rw [if_neg hsum]
          exact iff_of_false not_counted_none fun hc => hsum hc.1
    · rw [if_neg hd]
      exact iff_of_false not_counted_none fun hc => hd hc.1

lemma free_exact : Exact (s.free key) := by
  unfold Store.free
  cases hk : s.store.lookup key with
  | none => exact h
  | some v =>
    have htotal : v.size.toNat+Store.total { s with
        usedBytes := s.usedBytes-v.size, store := s.store.erase key } = s.total :=
      Table.total_erase (fun v : Value => v.size.toNat) hk
    have hused := h.used
    have hsub : (s.usedBytes-v.size).toNat = s.usedBytes.toNat-v.size.toNat :=
      UInt64.toNat_sub_of_le _ _ (UInt64.le_iff_toNat_le.mpr (by omega))
    have hcap := le_iff_toNat_le.mp h.capacity
    dsimp only
    refine ⟨?_,le_iff_toNat_le.mpr ?_⟩
    · show (s.usedBytes-v.size).toNat = _
      omega
    · show (s.usedBytes-v.size).toNat ≤ s.capacityBytes.toNat
      omega

lemma step_counted_iff (c : Call) : Counted (step (some s) c) ↔ s.Clear c := by
  cases c with
  | allocate key size => exact counted_some.trans (allocate_exact_iff h size)
  | read => exact iff_of_true (counted_some.mpr h) trivial
  | write key data len => exact write_counted_iff h data len
  | free => exact iff_of_true (counted_some.mpr (free_exact h)) trivial

end

/-- What a call can do to the table; the counter aside. -/
inductive Performed (s : Store) : Call → Store × Bool → Prop where
  | refused (c : Call) : Performed s c (s,false)
  | unchanged (key : UInt64) (c : Call) (hc : c = .read key ∨ c = .free key) :
      Performed s c (s,true)
  | allocated (key size used : UInt64) (v : Value) (h : s.store.lookup key = none) :
      Performed s (.allocate key size)
        ({ s with usedBytes := used, store := insert key v s.store },true)
  | written (key len used : UInt64) (data : Memory) (v : Value) (hsize : v.size = len)
      (hbytes : Agree len.toNat v.bytes data) : Performed s (.write key data len)
        ({ s with usedBytes := used, store := insert key v s.store },true)
  | freed (key used : UInt64) : Performed s (.free key)
      ({ s with usedBytes := used, store := s.store.erase key },true)

lemma perform_spec {s : Store} {c : Call} {x : Store × Bool} (h : s.perform c = some x) :
    Performed s c x := by
  cases c with
  | allocate key size =>
    simp only [Store.perform, Store.allocate, Option.some.injEq] at h
    split_ifs at h with hk hcap
    · exact h ▸ .refused _
    · exact h ▸ .refused _
    · exact h ▸ .allocated key size _ _ (not_not.mp hk)
  | read key =>
    cases h
    exact .unchanged key _ (.inl rfl)
  | write key data len =>
    have hcopy : ∀ v : Value, Agree len.toNat (v.copy data len).bytes data :=
      fun v i hi => if_pos hi
    simp only [Store.perform, Store.write] at h
    split at h
    · cases h
      exact .refused _
    rename_i v hk
    by_cases hlen : len = v.size
    · rw [if_neg (not_not.mpr hlen)] at h
      cases h
      exact .written key len _ data _ hlen.symm (hcopy v)
    · rw [if_pos hlen] at h
      split_ifs at h <;> cases h
      · exact .refused _
      · exact .written key len _ data _ rfl (hcopy _)
  | free key =>
    simp only [Store.perform, Store.free, Option.some.injEq] at h
    split at h
    · exact h ▸ .unchanged key _ (.inr rfl)
    · exact h ▸ .freed key _

lemma perform_refused {s t : Store} {c : Call} (h : s.perform c = some (t,false)) : t = s := by
  cases perform_spec h
  rfl

lemma write_holds {s t : Store} {key len : UInt64} {data : Memory}
    (h : s.perform (.write key data len) = some (t,true)) : Holds t key data len := by
  cases perform_spec h with
  | unchanged k c hc => simp at hc
  | written _ _ used _ v hsize hbytes => exact ⟨v,lookup_insert _,hsize,hbytes⟩

lemma perform_frame {s t : Store} {key : UInt64} {v : Value} {c : Call} {b : Bool}
    (hc : ¬ c.Changes key) (hv : s.read key = some v) (h : s.perform c = some (t,b)) :
    t.read key = some v := by
  cases perform_spec h with
  | refused | unchanged => exact hv
  | allocated k size used w hk =>
    have hne : key ≠ k := by
      rintro rfl
      simp [Store.read, hk] at hv
    exact (lookup_insert_of_ne _ hne).trans hv
  | written =>
    exact (lookup_insert_of_ne _ fun he => hc he.symm).trans hv
  | freed => exact (lookup_erase_ne fun he => hc he.symm).trans hv

lemma run_none (calls : List Call) : run step none calls = none := by
  induction calls with
  | nil => rfl
  | cons c calls ih => exact ih

lemma run_holds {key len : UInt64} {data : Memory} {calls : List Call}
    (hcalls : ∀ c ∈ calls, ¬ c.Changes key) {s u : Store} (h : Holds s key data len)
    (hu : run step (some s) calls = some u) : Holds u key data len := by
  induction calls generalizing s with
  | nil =>
    cases hu
    exact h
  | cons c calls ih =>
    rw [run_cons] at hu
    cases hp : s.perform c with
    | none =>
      rw [show step (some s) c = none by simp [step, hp], run_none] at hu
      cases hu
    | some x =>
      rw [show step (some s) c = some x.1 by simp [step, hp]] at hu
      obtain ⟨v,hv,hsize,hbytes⟩ := h
      have hnext := perform_frame (hcalls c List.mem_cons_self) hv hp
      exact ih (fun d hd => hcalls d (List.mem_cons_of_mem c hd)) ⟨v,hnext,hsize,hbytes⟩ hu

/-! ## Whole runs -/

lemma start_counted (capacityBytes : UInt64) : Counted (start capacityBytes) :=
  counted_some.mpr ⟨rfl,UInt64.zero_le⟩

theorem accounted_iff (capacityBytes : UInt64) (calls : List Call) :
    Accounted capacityBytes calls ↔ Along step Clear (start capacityBytes) calls := by
  have hstep : ∀ s c, Counted s → (Counted (step s c) ↔ Clear s c) := by
    rintro s c ⟨t,rfl,he⟩
    rw [step_counted_iff he]
    constructor
    · intro hc u hu
      rwa [← Option.some.inj hu]
    · exact fun hc => hc t rfl
  have halways : (∀ earlier later, calls = earlier++later →
      Counted (run step (start capacityBytes) earlier)) ↔
      Along step Clear (start capacityBytes) calls :=
    always_iff_along (I := fun _ => True) (fun _ _ _ _ => trivial)
      (fun s c _ _ => hstep s c) trivial (start_counted capacityBytes) calls fun _ _ => trivial
  rw [← halways]
  constructor
  · exact fun h => h.counted
  · intro h
    refine ⟨h,fun _ c _ _ s t _ ht => perform_refused ht,?_⟩
    rintro earlier key data len later rest - s t u - ht hlater hu
    exact run_holds hlater (write_holds ht) hu

/-- Two allocations wrap the counter; a length above 2^63 makes the increase
negative. -/
theorem capacity_evaded : ¬ Accounted 10 [.allocate 1 5,.allocate 2 0xfffffffffffffffb] ∧
    ¬ Accounted 0xffffffffffffffff
      [.allocate 1 0x7fffffffffffffff,.allocate 2 0x7fffffffffffffff,.allocate 3 2] ∧
    ¬ Accounted 16 [.allocate 1 8,.write 1 (fun _ => 0) 0x8000000000000008] := by
  have hend : ∀ {capacityBytes calls}, ¬ Counted (run step (start capacityBytes) calls) →
      ¬ Accounted capacityBytes calls :=
    fun hn h => hn (h.counted _ [] (List.append_nil _).symm)
  exact ⟨hend (by decide +kernel),hend (by decide +kernel),hend (by decide +kernel)⟩

end SimBricks.DramStore
