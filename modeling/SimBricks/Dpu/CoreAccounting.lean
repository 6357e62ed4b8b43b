import SimBricks.Dpu.DpuDevice

/-!
# Cores and counters of the DPU

A processing event holds its core from the arrival of its frame until it
fires. Events fire in any order.
-/

set_option autoImplicit false

namespace SimBricks.CoreAccounting
open Library Library.Run DpuDevice List

inductive Event
  | ethRx (port : UInt8) (data : List UInt8)
  | timed (k : ℕ) (beyond : Bytes.Memory)

def step (d : Device) : Event → Device
  | .ethRx port data => (d.ethRx port data).1
  | .timed k beyond =>
    match d.pending[k]? with
    | none => d
    | some ev => (Device.timed { d with pending := d.pending.eraseIdx k } ev beyond).1

inductive Fate
  | dropped
  | escalated
  | queued (ev : ProcessingEvent)
  | processed (ev : ProcessingEvent)
deriving DecidableEq

def fate (d : Device) : Event → List Fate
  | .ethRx port data =>
    match d.receive port data with
    | .dropped => [.dropped]
    | .escalated _ => [.escalated]
    | .queued _ ev => [.queued ev]
  | .timed k _ => (d.pending[k]?.map Fate.processed).toList

@[simp] def Fate.queued? : Fate → Option ProcessingEvent
  | .queued ev => some ev
  | _ => none

@[simp] def Fate.processed? : Fate → Option ProcessingEvent
  | .processed ev => some ev
  | _ => none

def cores (d : Device) : List UInt8 := d.pending.map ProcessingEvent.coreId

structure Busy (d : Device) : Prop where
  inUse : ∀ c < 64, Bitmap.has d.corePool.inUse c ↔ c ∈ cores d
  nodup : (cores d).Nodup
  below : ∀ c ∈ cores d, c.toNat < d.corePool.capacity.toNat
  active : d.corePool.active.toNat = d.pending.length
  queued : d.pktsQueued.toNat = d.pending.length

/-- `fates` is what became of the frames so far. -/
structure Accounted (d : Device) (fates : List Fate) : Prop where
  busy : Busy d
  events : fates.filterMap Fate.queued? ~ fates.filterMap Fate.processed?++d.pending
  processed : d.pktsProcessed = UInt64.ofNat (fates.filterMap Fate.processed?).length
  dropped : d.pktsDropped = UInt64.ofNat (fates.count .dropped)

section
variable {d : Device} {out : List Fate}

lemma core_lt (pool : ArmCorePool) {n : ℕ} (h : n < pool.capacity.toNat) : n < 64 :=
  h.trans_le (UInt32.le_iff_toNat_le.mp pool.valid.2)

lemma tryAcquire_some {pool t : ArmCorePool} {c : UInt8} (h : pool.tryAcquire = some (c,t)) :
    pool.active < pool.capacity ∧ c.toNat < pool.capacity.toNat ∧ Bitmap.has pool.inUse c = false ∧
    t = { pool with inUse := Bitmap.add pool.inUse c, active := pool.active+1 } := by
  unfold ArmCorePool.tryAcquire at h
  split_ifs at h with hfull
  split at h
  · cases h
  · next i hi =>
    cases h
    obtain ⟨n,hn,rfl⟩ := mem_map.mp (mem_of_find?_eq_some hi)
    have hn := mem_range.mp hn
    have hto : (UInt8.ofNat n).toNat = n := Nat.mod_eq_of_lt ((core_lt pool hn).trans (by decide))
    exact ⟨UInt32.not_le.mp hfull,hto.symm ▸ hn,by simpa using find?_some hi,rfl⟩

lemma Busy.acquire (h : Busy d) {pool : ArmCorePool} {ev : ProcessingEvent}
    (hpool : d.corePool.tryAcquire = some (ev.coreId,pool)) :
    Busy { d with corePool := pool, pktsQueued := d.pktsQueued+1, pending := d.pending++[ev] } := by
  obtain ⟨hlt,hcap,hfree,rfl⟩ := tryAcquire_some hpool
  have h64 : ev.coreId < 64 := UInt8.lt_iff_toNat_lt.mpr (core_lt d.corePool hcap)
  have hlen := h.active ▸ core_lt d.corePool (UInt32.lt_iff_toNat_lt.mp hlt)
  have hnew : ev.coreId ∉ cores d := by
    rw [← h.inUse _ h64, hfree]
    exact Bool.false_ne_true
  have hcores : ∀ d' : Device, d'.pending = d.pending++[ev] → cores d' = cores d++[ev.coreId] := by
    intro d' hp
    rw [cores, hp, map_append]
    rfl
  constructor
  · intro c hc
    rw [hcores _ rfl, Bitmap.has_add _ h64 hc, h.inUse c hc, mem_append, mem_singleton, or_comm]
  · rw [hcores _ rfl]
    exact h.nodup.append (nodup_singleton _) (disjoint_singleton.mpr hnew)
  · rw [hcores _ rfl]
    exact forall_mem_append.mpr ⟨h.below,forall_mem_singleton.mpr hcap⟩
  · have := h.active
    simp [UInt32.toNat_add]
    omega
  · have := h.queued
    simp [UInt64.toNat_add]
    omega

lemma Busy.release (h : Busy d) {ev : ProcessingEvent} {rest : List ProcessingEvent}
    (hev : d.pending ~ ev::rest) :
    Busy { d with
      corePool := d.corePool.release ev.coreId
      pktsQueued := if 0 < d.pktsQueued then d.pktsQueued-1 else d.pktsQueued
      pending := rest } := by
  have hcores : cores d ~ ev.coreId::rest.map ProcessingEvent.coreId := hev.map _
  have hnodup := nodup_cons.mp (hcores.nodup h.nodup)
  have hmem : ev.coreId ∈ cores d := hcores.mem_iff.mpr mem_cons_self
  have h64 : ev.coreId < 64 :=
    UInt8.lt_iff_toNat_lt.mpr (core_lt d.corePool (h.below _ hmem))
  have hlen := hev.length_eq
  rw [length_cons] at hlen
  constructor
  · intro c hc
    change Bitmap.has (Bitmap.remove _ _) c ↔ c ∈ rest.map ProcessingEvent.coreId
    rw [Bitmap.has_remove _ h64 hc, h.inUse c hc, hcores.mem_iff, mem_cons]
    constructor
    · exact fun ⟨hne,hin⟩ => hin.resolve_left hne
    · exact fun hin => ⟨fun he => hnodup.1 (he ▸ hin),.inr hin⟩
  · exact hnodup.2
  · exact fun c hc => h.below c (hcores.mem_iff.mpr (mem_cons_of_mem _ hc))
  · have := h.active
    change (d.corePool.active-1).toNat = rest.length
    rw [UInt32.toNat_sub_of_le _ _ (UInt32.le_iff_toNat_le.mpr (by simp; omega))]
    simp
    omega
  · have := h.queued
    have hpos : 0 < d.pktsQueued := UInt64.lt_iff_toNat_lt.mpr (by simp; omega)
    change (if 0 < d.pktsQueued then d.pktsQueued-1 else d.pktsQueued).toNat = rest.length
    rw [if_pos hpos, UInt64.toNat_sub_of_le _ _ (UInt64.le_iff_toNat_le.mpr (by simp; omega))]
    simp
    omega

lemma receive_queued {port : UInt8} {data : List UInt8} {pool : ArmCorePool}
    {ev : ProcessingEvent} (h : d.receive port data = .queued pool ev) :
    d.corePool.tryAcquire = some (ev.coreId,pool) := by
  unfold Device.receive at h
  split at h
  · cases h
  · split at h
    · cases h
    · split at h
      · cases h
      · next hpool =>
        cases h
        exact hpool

lemma handlePacket_same (d : Device) (ev : ProcessingEvent) (beyond : Bytes.Memory) :
    ∃ paxos locks barriers, (d.handlePacket ev beyond).1 =
      { d with paxos := paxos, locks := locks, barriers := barriers } := by
  unfold Device.handlePacket
  cases ev.primitive with
  | paxos | lock | barrier => exact ⟨_,_,_,rfl⟩

lemma Accounted.step (h : Accounted d out) (e : Event) :
    Accounted (step d e) (out++fate d e) := by
  have hb := h.busy
  cases e with
  | ethRx port data =>
    simp only [CoreAccounting.step, Device.ethRx, fate]
    cases hr : d.receive port data with
    | dropped =>
      exact ⟨⟨hb.inUse,hb.nodup,hb.below,hb.active,hb.queued⟩,
        by simpa [filterMap_cons] using h.events,
        by simpa [filterMap_cons] using h.processed,by simp [h.dropped]⟩
    | escalated =>
      exact ⟨⟨hb.inUse,hb.nodup,hb.below,hb.active,hb.queued⟩,
        by simpa [filterMap_cons] using h.events,
        by simpa [filterMap_cons] using h.processed,by simpa using h.dropped⟩
    | queued pool ev =>
      exact ⟨hb.acquire (receive_queued hr),
        by simpa [filterMap_cons] using h.events.append_right [ev],
        by simpa [filterMap_cons] using h.processed,by simpa using h.dropped⟩
  | timed k beyond =>
    simp only [CoreAccounting.step, fate]
    cases hk : d.pending[k]? with
    | none => simpa using h
    | some ev =>
      obtain ⟨hlt,rfl⟩ := List.getElem?_eq_some_iff.mp hk
      have hperm : d.pending ~ d.pending[k]::d.pending.eraseIdx k :=
        (getElem_cons_eraseIdx_perm hlt).symm
      obtain ⟨paxos,locks,barriers,hp⟩ :=
        handlePacket_same { d with pending := d.pending.eraseIdx k } d.pending[k] beyond
      have hb := hb.release hperm
      simp only [Device.timed, hp]
      exact ⟨⟨hb.inUse,hb.nodup,hb.below,hb.active,hb.queued⟩,
        by simpa [filterMap_cons] using h.events.trans (hperm.append_left _),by simp [h.processed],
        by simpa using h.dropped⟩

end

end SimBricks.CoreAccounting
