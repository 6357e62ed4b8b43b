import SimBricks.Library.Bitmap
import SimBricks.Library.Bytes
import SimBricks.Library.Ring
import SimBricks.Library.Run

/-!
# The AXI-Stream manager of `axi_s.hpp`

Packets wait in a ring of buffers; each clock cycle drives the next beat of
the first one. A beat goes over when `tvalid` and `tready` are both set as a
cycle begins. The manager counts a beat as sent when it drives it, and after
the last one it lowers `tvalid` in the next cycle without looking at
`tready`.
-/

set_option autoImplicit false

namespace SimBricks.AxiStream
open Library Library.Run Library.Bytes Library.Bitmap Nat Function

/-- The template parameters. `isPowerOfTwo` accepts every positive number,
since it complements the whole word `n & (n-1)`. -/
structure Config where
  dataWidthBytes : ℕ
  amountSlots : ℕ
  bufferSize : ℕ
  width_pos : 1 ≤ dataWidthBytes
  width_le : dataWidthBytes ≤ 128
  slots_pos : 0 < amountSlots
  size_ge : 2048 ≤ bufferSize

structure ManagerBuffer where
  packetBuf : Memory
  packetLen : ℕ
  readOffset : ℕ

namespace ManagerBuffer

def reset (b : ManagerBuffer) (data : List UInt8) : ManagerBuffer :=
  ⟨store b.packetBuf 0 data,data.length,0⟩

def done (b : ManagerBuffer) : Bool := b.packetLen ≤ b.readOffset

def empty (b : ManagerBuffer) : Bool := b.packetLen = 0

/-- `none` is `std::terminate`, here and below. -/
def read (b : ManagerBuffer) : Option (UInt8 × ManagerBuffer) :=
  if b.done then none
  else some (b.packetBuf b.readOffset,{ b with readOffset := b.readOffset+1 })

end ManagerBuffer

structure AXISManager where
  tvalid : Bool
  tlast : Bool
  tdata : Memory
  tkeep : Memory
  bufferRing : ℕ → ManagerBuffer
  writeIndex : ℕ
  readIndex : ℕ
  curSize : ℕ

namespace AXISManager

variable (c : Config)

def head (s : AXISManager) : ManagerBuffer := s.bufferRing s.readIndex

def moveReadHead (s : AXISManager) : Option AXISManager :=
  if s.head.done then
    some { s with readIndex := (s.readIndex+1) % c.amountSlots, curSize := s.curSize-1 }
  else none

def full (s : AXISManager) : Bool := c.amountSlots ≤ s.curSize

def read (s : AXISManager) (data : List UInt8) : Option AXISManager :=
  if data.length = 0 then none
  else if s.full c then none
  else some { s with
    bufferRing := Function.update s.bufferRing s.writeIndex
      ((s.bufferRing s.writeIndex).reset data)
    curSize := s.curSize+1
    writeIndex := (s.writeIndex+1) % c.amountSlots }

def putOut : ℕ → ℕ → ManagerBuffer → Memory → Memory → Option (ManagerBuffer × Memory × Memory)
  | 0, _, b, tdata, tkeep => some (b,tdata,tkeep)
  | n+1, index, b, tdata, tkeep =>
    if b.done then some (b,tdata,tkeep)
    else match b.read with
      | none => none
      | some (v,b) => putOut n (index+1) b (Function.update tdata index v) (setBit tkeep index)

def step (s : AXISManager) (tready : Bool) : Option AXISManager :=
  if s.curSize = 0 ∨ s.head.empty then some { s with tvalid := false, tlast := false }
  else if !s.head.done ∧ !tready then some s
  else if s.head.done then moveReadHead c { s with tvalid := false, tlast := false }
  else
    match putOut c.dataWidthBytes 0 s.head s.tdata (clear s.tkeep (c.dataWidthBytes/8)) with
    | none => none
    | some (b,tdata,tkeep) =>
      some { s with
        bufferRing := Function.update s.bufferRing s.readIndex b
        tdata := tdata, tkeep := tkeep, tvalid := true, tlast := b.done }

end AXISManager

/-! ## Traffic -/

structure Beat where
  tdata : Memory
  tkeep : Memory
  tlast : Bool

def AXISManager.beat (s : AXISManager) : Beat := ⟨s.tdata,s.tkeep,s.tlast⟩

def Beat.kept (c : Config) (b : Beat) : List UInt8 :=
  ((List.range c.dataWidthBytes).filter (bit b.tkeep)).map b.tdata

def collect (c : Config) (r : List (List UInt8) × List UInt8) (b : Beat) :
    List (List UInt8) × List UInt8 :=
  if b.tlast then (r.1++[r.2++b.kept c],[]) else (r.1,r.2++b.kept c)

def reassemble (c : Config) (beats : List Beat) : List (List UInt8) × List UInt8 :=
  beats.foldl (collect c) ([],[])

structure World where
  mgr : AXISManager
  packets : List (List UInt8) := []
  beats : List Beat := []
  halted : Bool := false

inductive Event where
  | read (data : List UInt8)
  | step (tready : Bool)

def World.taken (w : World) (tready : Bool) : List Beat :=
  if w.mgr.tvalid && tready then w.beats++[w.mgr.beat] else w.beats

def World.step (c : Config) (w : World) (e : Event) : World :=
  if w.halted then w
  else match e with
    | .read data =>
      match w.mgr.read c data with
      | none => { w with halted := true }
      | some m => { w with mgr := m, packets := w.packets++[data] }
    | .step tready =>
      match w.mgr.step c tready with
      | none => { w with beats := w.taken tready, halted := true }
      | some m => { w with beats := w.taken tready, mgr := m }

/-- All buffers empty, `tvalid` low; the other signals are whatever they are. -/
def World.init (tlast : Bool) (tdata tkeep packetBuf : Memory) : World :=
  { mgr := ⟨false,tlast,tdata,tkeep,fun _ => ⟨packetBuf,0,0⟩,0,0,0⟩ }

/-- A raised `tvalid` stays with its beat until the beat has gone over. -/
def Stable (c : Config) (w : World) : Event → Prop
  | .step true => True
  | e => w.mgr.tvalid → (w.step c e).mgr.tvalid ∧ (w.step c e).mgr.beat = w.mgr.beat

/-- What went over are the packets in order, followed by a proper part of the
next one; once the ring is empty nothing is missing. -/
structure Delivered (c : Config) (w : World) : Prop where
  whole : (reassemble c w.beats).1 <+: w.packets
  part : (reassemble c w.beats).2 = [] ∨ ∃ p, w.packets[(reassemble c w.beats).1.length]? = some p ∧
    (reassemble c w.beats).2 <+: p ∧ (reassemble c w.beats).2 ≠ p
  all : w.mgr.curSize = 0 → reassemble c w.beats = (w.packets,[])

/-- The receiver is ready in the cycle after the last beat of a packet was driven. -/
def LastTaken (w : World) : Event → Prop
  | .step false => w.halted ∨ w.mgr.curSize = 0 ∨ w.mgr.head.done = false
  | _ => True

/-- Where a beat is driven, no bit of `tkeep` outside the bytes that are reset
is left over from a longer one. -/
def CleanKeep (c : Config) (w : World) : Event → Prop
  | .step true => 0 < w.mgr.curSize → w.mgr.head.done = false →
    ∀ j < c.dataWidthBytes, 8*(c.dataWidthBytes/8) ≤ j →
      w.mgr.head.packetLen-w.mgr.head.readOffset ≤ j → bit w.mgr.tkeep j = false
  | _ => True

def Fits (c : Config) : Event → Prop
  | .read data => 1 ≤ data.length ∧ data.length ≤ c.bufferSize
  | _ => True

/-! ## One cycle -/

variable {c : Config}

open AXISManager ManagerBuffer

lemma putOut_spec (n index : ℕ) (b : ManagerBuffer) (tdata tkeep : Memory)
    (h : b.readOffset ≤ b.packetLen) : ∃ tdata' tkeep', putOut n index b tdata tkeep = some ({ b
    with readOffset := b.readOffset+min n (b.packetLen-b.readOffset) },
          tdata',tkeep') ∧
      (∀ i < index, tdata' i = tdata i) ∧
      (∀ i < min n (b.packetLen-b.readOffset), tdata' (index+i) = b.packetBuf (b.readOffset+i)) ∧
      ∀ j, bit tkeep' j =
        (decide (index ≤ j ∧ j < index+min n (b.packetLen-b.readOffset)) || bit tkeep j) := by
  induction n generalizing index b tdata tkeep with
  | zero =>
    refine ⟨tdata,tkeep,by simp [putOut],fun _ _ => rfl,by simp,fun j => ?_⟩
    rw [decide_eq_false (by omega), Bool.false_or]
  | succ n ih =>
    unfold putOut ManagerBuffer.read ManagerBuffer.done
    by_cases hd : b.packetLen ≤ b.readOffset
    · refine ⟨tdata,tkeep,by simp [hd],fun _ _ => rfl,fun i hi => by omega,fun j => ?_⟩
      rw [decide_eq_false (by omega), Bool.false_or]
    · obtain ⟨tdata',tkeep',hr,hlow,hdata,hkeep⟩ :=
        ih (index+1) { b with readOffset := b.readOffset+1 }
          (Function.update tdata index (b.packetBuf b.readOffset)) (setBit tkeep index)
          (by dsimp only; omega)
      dsimp only at hr hdata hkeep
      have hm : min (n+1) (b.packetLen-b.readOffset) =
          min n (b.packetLen-(b.readOffset+1))+1 := by omega
      rw [hm]
      refine ⟨tdata',tkeep',?_,?_,?_,?_⟩
      · simp only [decide_eq_true_eq, if_neg hd, hr]
        rw [add_right_comm, add_assoc]
      · intro i hi
        rw [hlow i (by omega), update_of_ne (by omega)]
      · intro i hi
        cases i with
        | zero => rw [add_zero, hlow index (by omega), update_self, add_zero]
        | succ i =>
          have hi' := hdata i (by omega)
          rwa [add_right_comm, add_assoc, add_right_comm, add_assoc] at hi'
      · intro j
        rw [hkeep, bit_setBit, ← Bool.or_assoc]
        congr 1
        rw [← Bool.decide_or]
        exact decide_eq_decide.mpr (by omega)

inductive Cycle (c : Config) (s : AXISManager) (tready : Bool) (r : Option AXISManager) : Prop where
  | idle (h : s.curSize = 0) (hr : r = some { s with tvalid := false, tlast := false })
  | wait (h : 0 < s.curSize) (hd : s.head.done = false) (ht : tready = false) (hr : r = some s)
  | move (h : 0 < s.curSize) (hd : s.head.done)
      (hr : r = some { s with
        tvalid := false, tlast := false, curSize := s.curSize-1,
        readIndex := (s.readIndex+1) % c.amountSlots })
  | drive (h : 0 < s.curSize) (hd : s.head.done = false) (ht : tready) (m : ℕ)
      (hm : m = min c.dataWidthBytes (s.head.packetLen-s.head.readOffset)) (tdata tkeep : Memory)
      (hdata : ∀ i < m, tdata i = s.head.packetBuf (s.head.readOffset+i))
      (hkeep : ∀ j, bit tkeep j = (decide (j < m) || bit (clear s.tkeep (c.dataWidthBytes/8)) j))
      (hr : r = some { s with
        tvalid := true, tdata := tdata, tkeep := tkeep
        tlast := ManagerBuffer.done { s.head with readOffset := s.head.readOffset+m }
        bufferRing := Function.update s.bufferRing s.readIndex
          { s.head with readOffset := s.head.readOffset+m } })

lemma step_spec {s : AXISManager} (hne : 0 < s.curSize → s.head.empty = false)
    (tready : Bool) : Cycle c s tready (s.step c tready) := by
  unfold step
  by_cases h0 : s.curSize = 0
  · rw [if_pos (.inl h0)]
    exact .idle h0 rfl
  have hpos : 0 < s.curSize := pos_of_ne_zero h0
  rw [if_neg (by simp [h0, hne hpos])]
  cases hd : s.head.done with
  | true =>
    refine .move hpos hd ?_
    have hd' : head { s with tvalid := false, tlast := false } = s.head := rfl
    simp [moveReadHead, hd', hd]
  | false =>
    cases tready with
    | false => exact .wait hpos hd rfl (by simp)
    | true =>
      have hin : s.head.readOffset ≤ s.head.packetLen := by
        simp only [done, decide_eq_false_iff_not, not_le] at hd
        exact hd.le
      obtain ⟨tdata,tkeep,hr,-,hdata,hkeep⟩ := putOut_spec c.dataWidthBytes 0 s.head s.tdata
        (clear s.tkeep (c.dataWidthBytes/8)) hin
      refine .drive hpos hd rfl _ rfl tdata tkeep ?_ ?_ ?_
      · simpa using hdata
      · simpa using hkeep
      · simp [hr]

/-! ## What holds in every state -/

def World.sent (w : World) : ℕ := w.packets.length-w.mgr.curSize

def Loaded (p : List UInt8) (b : ManagerBuffer) : Prop :=
  b.packetLen = p.length ∧ load b.packetBuf 0 p.length = p

structure Inv (c : Config) (w : World) : Prop where
  size_le : w.mgr.curSize ≤ w.packets.length
  slots : w.mgr.curSize ≤ c.amountSlots
  readAt : w.mgr.readIndex = w.sent % c.amountSlots
  writeAt : w.mgr.writeIndex = w.packets.length % c.amountSlots
  loaded : ∀ k p, w.sent ≤ k → w.packets[k]? = some p →
    Loaded p (w.mgr.bufferRing (k % c.amountSlots))
  fresh : ∀ k, w.sent < k → k < w.packets.length →
    (w.mgr.bufferRing (k % c.amountSlots)).readOffset = 0
  valid : w.mgr.tvalid ↔ 0 < w.mgr.curSize ∧ 0 < w.mgr.head.readOffset
  last : w.mgr.tvalid → w.mgr.tlast = w.mgr.head.done
  inside : 0 < w.mgr.curSize → w.mgr.head.readOffset ≤ w.mgr.head.packetLen
  fits : ∀ p ∈ w.packets, 1 ≤ p.length ∧ p.length ≤ c.bufferSize

open World

lemma Inv.init (c : Config) (tlast : Bool) (tdata tkeep packetBuf : Memory) :
    Inv c (.init tlast tdata tkeep packetBuf) where
  size_le := le_rfl
  slots := zero_le _
  readAt := (zero_mod _).symm
  writeAt := (zero_mod _).symm
  loaded k p _ hp := by simp [World.init] at hp
  fresh k _ hk := by simp [World.init] at hk
  valid := by simp [World.init]
  last h := by simp [World.init] at h
  inside h := by simp [World.init] at h
  fits p hp := by simp [World.init] at hp

variable {w : World}

lemma Inv.current (h : Inv c w) (hpos : 0 < w.mgr.curSize) :
    ∃ p, w.packets[w.sent]? = some p ∧ Loaded p w.mgr.head ∧ 1 ≤ p.length ∧
    p.length ≤ c.bufferSize := by
  have hlt : w.sent < w.packets.length := by
    have := h.size_le
    unfold sent
    omega
  refine ⟨w.packets[w.sent],List.getElem?_eq_getElem hlt,?_,h.fits _ (List.getElem_mem hlt)⟩
  rw [head, h.readAt]
  exact h.loaded _ _ le_rfl (List.getElem?_eq_getElem hlt)

lemma Inv.head_nonempty (h : Inv c w) (hpos : 0 < w.mgr.curSize) : w.mgr.head.empty = false := by
  obtain ⟨p,-,hl,_,-⟩ := h.current hpos
  simp only [empty, hl.1, decide_eq_false_iff_not]
  omega

lemma Inv.cycle (h : Inv c w) (tready : Bool) : Cycle c w.mgr tready (w.mgr.step c tready) :=
  step_spec h.head_nonempty tready

lemma Inv.valid_of_done (h : Inv c w) (hpos : 0 < w.mgr.curSize) (hd : w.mgr.head.done) :
    w.mgr.tvalid := by
  obtain ⟨p,-,hl,_,-⟩ := h.current hpos
  simp only [done, decide_eq_true_eq, hl.1] at hd
  exact h.valid.mpr ⟨hpos,by omega⟩

lemma Inv.invalid (h : Inv c w) (h0 : w.mgr.curSize = 0) : w.mgr.tvalid = false := by
  rw [← Bool.not_eq_true, h.valid]
  omega

variable {m : AXISManager}

lemma step_cycle (hh : w.halted = false) {tready : Bool} (hm : w.mgr.step c tready = some m) :
    w.step c (.step tready) = { w with mgr := m, beats := w.taken tready } := by
  simp [World.step, hh, hm]

lemma Inv.step_idle (h : Inv c w) (h0 : w.mgr.curSize = 0) (beats : List Beat) :
    Inv c { w with mgr := { w.mgr with tvalid := false, tlast := false }, beats := beats } :=
  { h with
    valid := iff_of_false Bool.false_ne_true fun hp => absurd h0 hp.1.ne'
    last := fun hv => absurd hv Bool.false_ne_true }

lemma Inv.step_move (h : Inv c w) (hpos : 0 < w.mgr.curSize) (beats : List Beat) : Inv c { w with
      beats := beats
      mgr := { w.mgr with
        tvalid := false, tlast := false, curSize := w.mgr.curSize-1,
        readIndex := (w.mgr.readIndex+1) % c.amountSlots } } := by
  have hle := h.size_le
  have hsent : w.packets.length-(w.mgr.curSize-1) = w.sent+1 := by
    unfold sent
    omega
  have hread : (w.mgr.readIndex+1) % c.amountSlots = (w.sent+1) % c.amountSlots := by
    rw [h.readAt, mod_add_mod]
  -- the next packet, if there is one, has not been touched
  have hnext : 0 < w.mgr.curSize-1 →
      (w.mgr.bufferRing ((w.sent+1) % c.amountSlots)).readOffset = 0 := by
    intro hp
    refine h.fresh _ (lt_succ_self _) ?_
    omega
  constructor
  case size_le => exact (sub_le _ _).trans hle
  case slots => exact (sub_le _ _).trans h.slots
  case readAt =>
    simp only [sent, hsent]
    exact hread
  case writeAt => exact h.writeAt
  case loaded =>
    simp only [sent, hsent]
    exact fun k p hk hp => h.loaded k p (le_of_succ_le hk) hp
  case fresh =>
    simp only [sent, hsent]
    exact fun k hk hlt => h.fresh k (lt_of_succ_lt hk) hlt
  case valid =>
    refine iff_of_false Bool.false_ne_true fun hp => ?_
    simp only [head, hread] at hp
    omega
  case last => exact fun hv => absurd hv Bool.false_ne_true
  case inside =>
    intro hp
    simp only [head, hread]
    rw [hnext hp]
    exact zero_le _
  case fits => exact h.fits

def AXISManager.driven (s : AXISManager) (m : ℕ) (tdata tkeep : Memory) : AXISManager := { s with
    tvalid := true, tdata := tdata, tkeep := tkeep
    tlast := done { s.head with readOffset := s.head.readOffset+m }
    bufferRing := Function.update s.bufferRing s.readIndex
      { s.head with readOffset := s.head.readOffset+m } }

lemma Inv.step_drive (h : Inv c w) (hpos : 0 < w.mgr.curSize) {m : ℕ} (hm0 : 0 < m)
    (hm : w.mgr.head.readOffset+m ≤ w.mgr.head.packetLen) (tdata tkeep : Memory)
    (beats : List Beat) : Inv c { w with beats := beats, mgr := w.mgr.driven m tdata tkeep } := by
  have hslots := h.slots
  have hring : ∀ k, w.sent ≤ k → k < w.packets.length →
      (w.mgr.driven m tdata tkeep).bufferRing (k % c.amountSlots) =
      if k = w.sent then { w.mgr.head with readOffset := w.mgr.head.readOffset+m }
      else w.mgr.bufferRing (k % c.amountSlots) := by
    intro k hk hlt
    unfold sent at hk
    simp only [driven]
    rw [h.readAt, Ring.update_mod _ _ (by unfold sent; omega) (by unfold sent; omega)]
  obtain ⟨p,hp,hl,-⟩ := h.current hpos
  exact
  { h with
    loaded := by
      intro k q hk hq
      have hlt : k < w.packets.length := (List.getElem?_eq_some_iff.mp hq).1
      rw [hring k hk hlt]
      split_ifs with he
      · rw [he] at hq
        cases hp.symm.trans hq
        exact hl
      · exact h.loaded k q hk hq
    fresh := by
      intro k hk hlt
      change w.sent < k at hk
      rw [hring k hk.le hlt, if_neg hk.ne']
      exact h.fresh k hk hlt
    valid := by
      simp only [head, driven, update_self, true_iff]
      exact ⟨hpos,Nat.add_pos_right _ hm0⟩
    last := by simp [head, driven]
    inside := by
      intro _
      simpa [head, driven] using hm }

lemma Inv.head_written (h : Inv c w) (hroom : w.mgr.curSize < c.amountSlots) (b : ManagerBuffer) :
    Function.update w.mgr.bufferRing w.mgr.writeIndex b w.mgr.readIndex = if w.mgr.curSize = 0 then
    b else w.mgr.head := by
  have hle := h.size_le
  rw [head, h.readAt, h.writeAt, Ring.update_mod _ _ (by unfold sent; omega)
    (by unfold sent; omega)]
  refine if_congr ?_ rfl rfl
  unfold sent
  omega

lemma Inv.sent_read (h : Inv c w) (data : List UInt8) :
    (w.packets++[data]).length-(w.mgr.curSize+1) = w.sent := by
  have := h.size_le
  rw [List.length_append, List.length_singleton]
  unfold sent
  omega

lemma Inv.read (h : Inv c w) {data : List UInt8} (hfit : Fits c (.read data))
    (hm : w.mgr.read c data = some m) : Inv c
    { w with mgr := m, packets := w.packets++[data] } := by
  have hle := h.size_le
  have hsent := h.sent_read data
  unfold AXISManager.read AXISManager.full at hm
  rw [if_neg (by have := hfit.1; omega)] at hm
  simp only [decide_eq_true_eq] at hm
  split_ifs at hm with hfull
  cases hm
  have hring : ∀ k, w.sent ≤ k → k ≤ w.packets.length →
      Function.update w.mgr.bufferRing w.mgr.writeIndex
        ((w.mgr.bufferRing w.mgr.writeIndex).reset data) (k % c.amountSlots) =
      if k = w.packets.length then (w.mgr.bufferRing w.mgr.writeIndex).reset data
      else w.mgr.bufferRing (k % c.amountSlots) := by
    intro k hk hlt
    unfold sent at hk
    rw [h.writeAt, Ring.update_mod _ _ (by omega) (by omega)]
  have hhead := h.head_written (not_le.mp hfull) ((w.mgr.bufferRing w.mgr.writeIndex).reset data)
  constructor
  case size_le =>
    rw [List.length_append]
    exact Nat.add_le_add_right hle 1
  case slots => exact Nat.lt_of_not_le hfull
  case readAt =>
    simp only [sent, hsent]
    exact h.readAt
  case writeAt => rw [List.length_append, List.length_singleton, h.writeAt, mod_add_mod]
  case loaded =>
    simp only [sent, hsent]
    intro k p hk hp
    have hlt : k < (w.packets++[data]).length := (List.getElem?_eq_some_iff.mp hp).1
    rw [List.length_append, List.length_singleton] at hlt
    rw [hring k hk (by omega)]
    split_ifs with he
    · rw [he, List.getElem?_concat_length] at hp
      cases hp
      exact ⟨rfl,load_store_self (w.mgr.bufferRing w.mgr.writeIndex).packetBuf 0 data⟩
    · rw [List.getElem?_append_left (by omega)] at hp
      exact h.loaded k p hk hp
  case fresh =>
    simp only [sent, hsent]
    intro k hk hlt
    rw [List.length_append, List.length_singleton] at hlt
    rw [hring k hk.le (by omega)]
    split_ifs with he
    · rfl
    · exact h.fresh k hk (by omega)
  case valid =>
    rw [h.valid]
    simp only [AXISManager.head, hhead]
    split_ifs with h0
    · simp [h0, reset]
    · exact and_congr_left' (iff_of_true (pos_of_ne_zero h0) (succ_pos _))
  case last =>
    intro hv
    have hpos := (h.valid.mp hv).1
    simp only [AXISManager.head, hhead, if_neg hpos.ne']
    exact h.last hv
  case inside =>
    intro _
    simp only [AXISManager.head, hhead]
    split_ifs with h0
    · exact zero_le _
    · exact h.inside (pos_of_ne_zero h0)
  case fits =>
    intro p hp
    rcases List.mem_append.mp hp with hp | hp
    · exact h.fits p hp
    · exact List.mem_singleton.mp hp ▸ hfit

lemma drive_bounds {b : ManagerBuffer} (hd : b.done = false) {m : ℕ}
    (hm : m = min c.dataWidthBytes (b.packetLen-b.readOffset)) :
    0 < m ∧ b.readOffset+m ≤ b.packetLen := by
  have := c.width_pos
  simp only [done, decide_eq_false_iff_not, not_le] at hd
  omega

lemma step_halted (hh : w.halted) (e : Event) : w.step c e = w := by
  simp [World.step, hh]

lemma step_read (hh : w.halted = false) (data : List UInt8) :
    w.step c (.read data) = { w with halted := true } ∨
    ∃ m, w.mgr.read c data = some m ∧
      w.step c (.read data) = { w with mgr := m, packets := w.packets++[data] } := by
  cases hm : w.mgr.read c data with
  | none => exact .inl (by simp [World.step, hh, hm])
  | some m => exact .inr ⟨m,rfl,by simp [World.step, hh, hm]⟩

lemma Inv.step (h : Inv c w) {e : Event} (he : Fits c e) : Inv c (w.step c e) := by
  cases hh : w.halted with
  | true =>
    rw [step_halted hh]
    exact h
  | false =>
    cases e with
    | read data =>
      rcases step_read hh data with hr | ⟨m,hm,hr⟩
      · rw [hr]
        exact { h with }
      · rw [hr]
        exact h.read he hm
    | step tready =>
      cases h.cycle tready with
      | idle h0 hr =>
        rw [step_cycle hh hr]
        exact h.step_idle h0 _
      | wait hpos hd ht hr =>
        rw [step_cycle hh hr]
        exact { h with }
      | move hpos hd hr =>
        rw [step_cycle hh hr]
        exact h.step_move hpos _
      | drive hpos hd ht m hm tdata tkeep hdata hkeep hr =>
        obtain ⟨hm0,hle⟩ := drive_bounds hd hm
        rw [step_cycle hh hr]
        exact h.step_drive hpos hm0 hle tdata tkeep _

/-! ## What has gone over -/

lemma reassemble_snoc (beats : List Beat) (b : Beat) :
    reassemble c (beats++[b]) = collect c (reassemble c beats) b := by
  simp [reassemble]

lemma kept_of_bits {b : Beat} {m : ℕ} (hm : m ≤ c.dataWidthBytes)
    (h : ∀ j < c.dataWidthBytes, bit b.tkeep j = decide (j < m)) :
    b.kept c = (List.range m).map b.tdata := by
  unfold Beat.kept
  congr 1
  rw [List.filter_congr fun j hj => h j (List.mem_range.mp hj)]
  obtain ⟨r,hr⟩ := Nat.exists_eq_add_of_le hm
  rw [hr, List.range_add, List.filter_append,
    List.filter_eq_self.mpr fun j hj => decide_eq_true (List.mem_range.mp hj),
    List.filter_eq_nil_iff.mpr, List.append_nil]
  intro j hj
  obtain ⟨i,-,rfl⟩ := List.mem_map.mp hj
  simp

lemma Loaded.take {p : List UInt8} {b : ManagerBuffer} (h : Loaded p b) {off m : ℕ}
    (hm : off+m ≤ b.packetLen) : p.take (off+m) = p.take off++load b.packetBuf off m := by
  have hfront : ∀ n ≤ p.length, p.take n = load b.packetBuf 0 n := by
    intro n hn
    conv_lhs => rw [← h.2]
    rw [take_load, min_eq_left hn]
  rw [h.1] at hm
  rw [hfront _ hm, hfront off (le_of_add_right_le hm), load_add, zero_add]

/-- The whole packets that went over have left the ring; of the current one
went over what was driven, except for the beat on the wires. -/
structure Carried (c : Config) (w : World) : Prop where
  whole : (reassemble c w.beats).1 = w.packets.take w.sent
  idle : w.mgr.tvalid = false → (reassemble c w.beats).2 = []
  busy : w.mgr.tvalid → ∀ p, w.packets[w.sent]? = some p →
    p.take w.mgr.head.readOffset = (reassemble c w.beats).2++w.mgr.beat.kept c ∧
    (reassemble c w.beats).2.length < w.mgr.head.readOffset

lemma Carried.init (c : Config) (tlast : Bool) (tdata tkeep packetBuf : Memory) :
    Carried c (.init tlast tdata tkeep packetBuf) :=
  ⟨by simp [World.init, reassemble],fun _ => rfl,fun h => by simp [World.init] at h⟩

lemma Carried.taken_part (h : Carried c w) (hi : Inv c w) (hd : w.mgr.head.done = false)
    {p : List UInt8} (hp : w.packets[w.sent]? = some p) (hpos : 0 < w.mgr.curSize) :
    reassemble c (w.taken true) = (w.packets.take w.sent,p.take w.mgr.head.readOffset) := by
  unfold taken
  rw [Bool.and_true]
  cases hv : w.mgr.tvalid with
  | true =>
    have hl : w.mgr.beat.tlast = false := (hi.last hv).trans hd
    rw [if_pos rfl, reassemble_snoc, collect, hl, (h.busy hv p hp).1, h.whole]
    rfl
  | false =>
    have h0 : w.mgr.head.readOffset = 0 := by
      by_contra hne
      have := hi.valid.mpr ⟨hpos,pos_of_ne_zero hne⟩
      rw [hv] at this
      cases this
    rw [if_neg Bool.false_ne_true, h0, List.take_zero, ← h.whole, ← h.idle hv]

lemma Carried.taken_last (h : Carried c w) (hi : Inv c w) (hpos : 0 < w.mgr.curSize)
    (hd : w.mgr.head.done) : reassemble c (w.taken true) = (w.packets.take (w.sent+1),[]) := by
  have hv := hi.valid_of_done hpos hd
  obtain ⟨p,hp,hl,-⟩ := hi.current hpos
  have hlast : w.mgr.beat.tlast := (hi.last hv).trans hd
  have hall : p.take w.mgr.head.readOffset = p := by
    simp only [done, decide_eq_true_eq, hl.1] at hd
    exact List.take_of_length_le hd
  unfold taken
  rw [hv, Bool.and_true, if_pos rfl, reassemble_snoc, collect, if_pos hlast, h.whole,
    ← (h.busy hv p hp).1, hall, List.take_add_one, hp]
  rfl

lemma Carried.step_drive (h : Carried c w) (hi : Inv c w) (hpos : 0 < w.mgr.curSize)
    (hd : w.mgr.head.done = false) (hclean : CleanKeep c w (.step true)) {m : ℕ}
    (hm : m = min c.dataWidthBytes (w.mgr.head.packetLen-w.mgr.head.readOffset))
    {tdata tkeep : Memory}
    (hdata : ∀ i < m, tdata i = w.mgr.head.packetBuf (w.mgr.head.readOffset+i))
    (hkeep : ∀ j, bit tkeep j =
      (decide (j < m) || bit (clear w.mgr.tkeep (c.dataWidthBytes/8)) j)) :
    Carried c { w with beats := w.taken true, mgr := w.mgr.driven m tdata tkeep } := by
  obtain ⟨p,hp,hl,-⟩ := hi.current hpos
  obtain ⟨hm0,hle⟩ := drive_bounds hd hm
  have htaken := h.taken_part hi hd hp hpos
  have hbits : ∀ j < c.dataWidthBytes, bit tkeep j = decide (j < m) := by
    intro j hj
    rw [hkeep, bit_clear]
    by_cases hjm : j < m
    · simp [hjm]
    · split_ifs with h8
      · rw [Bool.or_false]
      · rw [hclean hpos hd j hj (by omega) (by omega), Bool.or_false]
  refine ⟨congrArg Prod.fst htaken,fun hv => absurd hv.symm Bool.false_ne_true,?_⟩
  intro _ q hq
  cases hp.symm.trans hq
  have hkept : Beat.kept c ⟨tdata,tkeep,
      done { w.mgr.head with readOffset := w.mgr.head.readOffset+m }⟩ =
      load w.mgr.head.packetBuf w.mgr.head.readOffset m := by
    rw [kept_of_bits (by omega) hbits]
    exact List.map_congr_left fun i hi => hdata i (List.mem_range.mp hi)
  simp only [head, beat, driven, update_self] at hkept ⊢
  rw [hkept, htaken]
  refine ⟨hl.take hle,lt_of_le_of_lt (List.length_take_le _ _) (Nat.lt_add_of_pos_right hm0)⟩

lemma Carried.read (h : Carried c w) (hi : Inv c w) {data : List UInt8}
    (hm : w.mgr.read c data = some m) : Carried c
    { w with mgr := m, packets := w.packets++[data] } := by
  have hle := hi.size_le
  have hsent := hi.sent_read data
  unfold AXISManager.read AXISManager.full at hm
  simp only [decide_eq_true_eq] at hm
  split_ifs at hm with _ hfull
  cases hm
  have hin : w.sent ≤ w.packets.length := sub_le _ _
  refine ⟨?_,h.idle,?_⟩
  · change _ = (w.packets++[data]).take ((w.packets++[data]).length-(w.mgr.curSize+1))
    rw [hsent, List.take_append_of_le_length hin]
    exact h.whole
  · intro hv p hp
    have hpos := (hi.valid.mp hv).1
    change (w.packets++[data])[(w.packets++[data]).length-(w.mgr.curSize+1)]? = some p at hp
    rw [hsent, List.getElem?_append_left (by unfold sent; omega)] at hp
    simp only [AXISManager.head, hi.head_written (not_le.mp hfull), if_neg hpos.ne']
    exact h.busy hv p hp

lemma taken_false (w : World) : w.taken false = w.beats := by
  simp [taken]

lemma Carried.step (h : Carried c w) (hi : Inv c w) {e : Event} (hlast : LastTaken w e)
    (hclean : CleanKeep c w e) : Carried c (w.step c e) := by
  cases hh : w.halted with
  | true =>
    rw [step_halted hh]
    exact h
  | false =>
    cases e with
    | read data =>
      rcases step_read hh data with hr | ⟨m,hm,hr⟩
      · rw [hr]
        exact { h with }
      · rw [hr]
        exact h.read hi hm
    | step tready =>
      cases hi.cycle tready with
      | idle h0 hr =>
        have hv := hi.invalid h0
        have htaken : w.taken tready = w.beats := by simp [taken, hv]
        rw [step_cycle hh hr, htaken]
        exact ⟨h.whole,fun _ => h.idle hv,fun hv' => absurd hv' Bool.false_ne_true⟩
      | wait hpos hd ht hr =>
        rw [step_cycle hh hr, ht, taken_false]
        exact h
      | move hpos hd hr =>
        obtain rfl : tready := by
          cases tready with
          | true => rfl
          | false => simp [LastTaken, hh, hd, hpos.ne'] at hlast
        have htaken := h.taken_last hi hpos hd
        have hsent : w.packets.length-(w.mgr.curSize-1) = w.sent+1 := by
          have := hi.size_le
          unfold sent
          omega
        rw [step_cycle hh hr]
        refine ⟨?_,fun _ => congrArg Prod.snd htaken,fun hv' => absurd hv' Bool.false_ne_true⟩
        simp only [sent, hsent]
        exact congrArg Prod.fst htaken
      | drive hpos hd ht m hm tdata tkeep hdata hkeep hr =>
        subst ht
        rw [step_cycle hh hr]
        exact h.step_drive hi hpos hd hclean hm hdata hkeep

lemma Carried.delivered (h : Carried c w) (hi : Inv c w) : Delivered c w := by
  have hwhole : (reassemble c w.beats).1 <+: w.packets := by
    rw [h.whole]
    exact List.take_prefix _ _
  refine ⟨hwhole,?_,?_⟩
  · cases hv : w.mgr.tvalid with
    | false => exact .inl (h.idle hv)
    | true =>
      have hpos := (hi.valid.mp hv).1
      obtain ⟨p,hp,hl,-⟩ := hi.current hpos
      obtain ⟨htake,_⟩ := h.busy hv p hp
      have hlen : (reassemble c w.beats).1.length = w.sent := by
        have hin : w.sent ≤ w.packets.length := sub_le _ _
        rw [h.whole, List.length_take, min_eq_left hin]
      refine .inr ⟨p,hlen ▸ hp,?_,?_⟩
      · exact (htake ▸ List.prefix_append _ _).trans (List.take_prefix _ _)
      · intro he
        have hin := hi.inside hpos
        rw [hl.1, ← he] at hin
        omega
  · intro h0
    have hsent : w.sent = w.packets.length := by simp [sent, h0]
    exact Prod.ext (by rw [h.whole, hsent, List.take_length]) (h.idle (hi.invalid h0))

/-! ## Stability and progress -/

lemma stable_iff (hi : Inv c w) (e : Event) : Stable c w e ↔ LastTaken w e := by
  cases hh : w.halted with
  | true =>
    cases e with
    | read => simp [Stable, LastTaken, step_halted hh]
    | step tready => cases tready <;> simp [Stable, LastTaken, step_halted hh, hh]
  | false =>
    cases e with
    | read data =>
      refine iff_of_true ?_ trivial
      intro hv
      rcases step_read hh data with hr | ⟨m,hm,hr⟩
      · rw [hr]
        exact ⟨hv,rfl⟩
      · rw [hr]
        unfold AXISManager.read at hm
        split_ifs at hm
        cases hm
        exact ⟨hv,rfl⟩
    | step tready =>
      cases tready with
      | true => exact Iff.rfl
      | false =>
        simp only [Stable, LastTaken, hh, Bool.false_eq_true, false_or]
        cases hi.cycle false with
        | idle h0 =>
          refine iff_of_true (fun hv => ?_) (.inl h0)
          exact absurd h0 (hi.valid.mp hv).1.ne'
        | wait hpos hd ht hr =>
          refine iff_of_true (fun hv => ?_) (.inr hd)
          rw [step_cycle hh hr]
          exact ⟨hv,rfl⟩
        | move hpos hd hr =>
          rw [step_cycle hh hr]
          refine iff_of_false (fun h => ?_) ?_
          · exact absurd (h (hi.valid_of_done hpos hd)).1 Bool.false_ne_true
          · simp [hpos.ne', hd]
        | drive _ _ ht => exact absurd ht Bool.false_ne_true

lemma ready_decreases (hi : Inv c w) (hh : w.halted = false) (hpos : 0 < w.mgr.curSize) :
    (w.step c (.step true)).halted = false ∧ (w.step c (.step true)).mgr.curSize*(c.bufferSize+1)-
    (w.step c (.step true)).mgr.head.readOffset <
    w.mgr.curSize*(c.bufferSize+1)-w.mgr.head.readOffset := by
  obtain ⟨p,-,hl,-,_⟩ := hi.current hpos
  have hin := hi.inside hpos
  rw [hl.1] at hin
  have hmul : w.mgr.curSize*(c.bufferSize+1) =
      (w.mgr.curSize-1)*(c.bufferSize+1)+(c.bufferSize+1) := by
    rw [← Nat.succ_mul, Nat.succ_eq_add_one, Nat.sub_add_cancel hpos]
  cases hi.cycle true with
  | idle => omega
  | wait _ _ ht => exact absurd ht.symm Bool.false_ne_true
  | move _ hd hr =>
    rw [step_cycle hh hr]
    refine ⟨hh,?_⟩
    dsimp only
    omega
  | drive _ hd ht m hm tdata tkeep hdata hkeep hr =>
    obtain ⟨_,hle⟩ := drive_bounds hd hm
    rw [step_cycle hh hr]
    refine ⟨hh,?_⟩
    simp only [head, update_self]
    simp only [head] at hin hle
    omega

lemma ready_drains (hi : Inv c w) (hh : w.halted = false) :
    ∃ n, (run (step c) w (List.replicate n (.step true))).mgr.curSize = 0 := by
  refine exists_replicate_of_decreasing (I := fun w => Inv c w ∧ w.halted = false)
    (G := fun w => w.mgr.curSize = 0) (Event.step true)
    (fun w => w.mgr.curSize*(c.bufferSize+1)-w.mgr.head.readOffset) ?_ ⟨hi,hh⟩
  intro w h
  rcases Nat.eq_zero_or_pos w.mgr.curSize with h0 | hpos
  · exact .inl h0
  · obtain ⟨hh',hlt⟩ := ready_decreases h.1 h.2 hpos
    exact .inr ⟨⟨h.1.step trivial,hh'⟩,hlt⟩

lemma cleanKeep_of_dvd (h : 8 ∣ c.dataWidthBytes) (w : World) (e : Event) : CleanKeep c w e := by
  match e with
  | .read _ | .step false => trivial
  | .step true =>
    intro _ _ j hj hle
    omega

/-- In every run `tvalid` and its beat are stable exactly if the receiver is
ready right after each last beat was driven; if it is, and no `tkeep` bit is
left over, the packets go over as they are, and ready cycles empty the ring. -/
theorem stream_transmits (c : Config) (tlast : Bool) (tdata tkeep packetBuf : Memory)
    (es : List Event) (hes : ∀ e ∈ es, Fits c e) :
    (Along (World.step c) (Stable c) (.init tlast tdata tkeep packetBuf) es ↔
      Along (World.step c) LastTaken (.init tlast tdata tkeep packetBuf) es) ∧
    (Along (World.step c) (fun w e => LastTaken w e ∧ CleanKeep c w e)
        (.init tlast tdata tkeep packetBuf) es →
      Delivered c (run (World.step c) (.init tlast tdata tkeep packetBuf) es)) ∧
    ((run (World.step c) (.init tlast tdata tkeep packetBuf) es).halted = false →
      ∃ n, (run (World.step c) (.init tlast tdata tkeep packetBuf)
        (es++List.replicate n (.step true))).mgr.curSize = 0) := by
  have h0 := Inv.init c tlast tdata tkeep packetBuf
  have hinv : ∀ {es : List Event}, (∀ e ∈ es, Fits c e) →
      Inv c (run (World.step c) (.init tlast tdata tkeep packetBuf) es) := fun h =>
    run_invariant (fun w e hw he => hw.step he) h0 (along_of_forall (World.step c) h _)
  refine ⟨?_,?_,?_⟩
  · simp only [along_iff]
    refine forall₄_congr fun earlier e later hs => ?_
    exact stable_iff (hinv fun f hf => hes f (by simp [hs, hf])) e
  · intro ha
    have hboth := run_invariant (I := fun w => Inv c w ∧ Carried c w)
      (fun w e hw he => ⟨hw.1.step he.1,hw.2.step hw.1 he.2.1 he.2.2⟩)
      ⟨h0,Carried.init c tlast tdata tkeep packetBuf⟩
      ((along_and (World.step c)).mpr ⟨along_of_forall (World.step c) hes _,ha⟩)
    exact hboth.2.delivered hboth.1
  · intro hh
    obtain ⟨n,hn⟩ := ready_drains (hinv hes) hh
    exact ⟨n,by rw [run_append, hn]⟩

def lanes8 : Config := ⟨8,32,2048,by decide,by decide,by decide,by decide⟩

def lanes12 : Config := ⟨12,32,2048,by decide,by decide,by decide,by decide⟩

def World.zero : World := .init false (fun _ => 0) (fun _ => 0) (fun _ => 0)

/-- A packet of two beats, whose first one has to wait, and a short one behind it. -/
def backPressed : List Event :=
  [.read [1,2,3,4,5,6,7,8,9,10],.step true,.step false,.read [11,12],.step true,.step true,
    .step true,.step true]

theorem stream_transmits_both : (∀ e ∈ backPressed, Fits lanes8 e) ∧
    Delivered lanes8 (run (World.step lanes8) World.zero backPressed) ∧
    reassemble lanes8 (run (World.step lanes8) World.zero backPressed).beats =
      ([[1,2,3,4,5,6,7,8,9,10],[11,12]],[]) := by
  have hes : ∀ e ∈ backPressed, Fits lanes8 e := by simp [backPressed, Fits, lanes8]
  have hclean : ∀ w e, CleanKeep lanes8 w e := cleanKeep_of_dvd ⟨1,rfl⟩
  refine ⟨hes,(stream_transmits lanes8 _ _ _ _ _ hes).2.1 ((along_and _).mpr ⟨?_,?_⟩),
    by decide +kernel⟩
  · exact ⟨trivial,trivial,.inr (.inr (by decide +kernel)),trivial,trivial,trivial,trivial,trivial,
      trivial⟩
  · exact along_always (I := fun _ => True) (fun _ _ _ => trivial) (fun w e _ => hclean w e)
      trivial _

/-- The only beat of a packet is withdrawn when `tready` is low in the cycle
after it was driven, and the packet is gone. On twelve lanes the short last
beat of a packet still marks the four lanes the beat before it filled. -/
theorem last_beat_lost :
    (run (World.step lanes8) World.zero [.read [1,2,3],.step true]).mgr.tvalid ∧
    (run (World.step lanes8) World.zero [.read [1,2,3],.step true,.step false]).mgr.tvalid = false ∧
    (run (World.step lanes8) World.zero
      [.read [1,2,3],.step true,.step false,.step true]).beats.length = 0 ∧
    ¬ Delivered lanes8 (run (World.step lanes8) World.zero [.read [1,2,3],.step true,.step false]) ∧
    reassemble lanes12 (run (World.step lanes12) World.zero
        [.read [1,2,3,4,5,6,7,8,9,10,11,12,13],.step true,.step true,.step true]).beats =
      ([[1,2,3,4,5,6,7,8,9,10,11,12,13,9,10,11,12]],[]) := by
  refine ⟨by decide +kernel,by decide +kernel,by decide +kernel,?_,by decide +kernel⟩
  intro h
  have hall := h.all (by decide +kernel)
  exact absurd hall (by decide +kernel)

end SimBricks.AxiStream
