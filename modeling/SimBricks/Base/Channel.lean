import SimBricks.Base.BaseIf
import SimBricks.Library.Ring
import SimBricks.Library.Run

/-!
# One direction of a channel in shared memory

A producer and a consumer share a ring of slots and nothing else. Every
access to `own_type` is a step of its own; the accesses to the rest of a
slot go with the load before them. Whoever is not at the point of its code
that an event names does nothing. The three logs are not part of the code.
-/

set_option autoImplicit false

namespace SimBricks.SpscChannel
open Library Library.Run BaseIf List Nat Prod

variable {α : Type*}

structure Slot (α : Type*) where
  payload : α
  timestamp : UInt64
  ownType : UInt8

structure Msg (α : Type*) where
  type : UInt8
  payload : α
  timestamp : UInt64

def Slot.msg (c : Slot α) : Msg α := ⟨inType c.ownType,c.payload,c.timestamp⟩

inductive ProducerPc where
  | idle
  | filling (slot : ℕ)
  deriving DecidableEq, Repr

/-- `found` is inside `InPoll` after a successful peek, `freeing` inside
`InDone` after its load. -/
inductive ConsumerPc where
  | idle
  | found (slot : ℕ)
  | holding (slot : ℕ)
  | freeing (slot : ℕ) (ownType : UInt8)
  deriving DecidableEq, Repr

structure Channel (α : Type*) where
  queue : ℕ → Slot α
  producer : Handle
  consumer : Handle
  ppc : ProducerPc := .idle
  cpc : ConsumerPc := .idle
  sent : List (ℕ × Msg α) := []
  received : List (ℕ × Msg α) := []
  returned : List ℕ := []

inductive Event (α : Type*) where
  | outAlloc (timestamp : UInt64)
  | fill (payload : α)
  | outSend (type : MsgType)
  | inPeek (timestamp : UInt64)
  | inTake
  | doneLoad
  | doneStore

namespace Channel

def alloc (s : Channel α) (timestamp : UInt64) : Option (Handle × UInt64) :=
  s.producer.outAlloc (proOwned (s.queue s.producer.outPos).ownType) timestamp

def ready (s : Channel α) : Option UInt64 :=
  let c := s.queue s.consumer.inPos
  if conOwned c.ownType then some c.timestamp else none

def write (s : Channel α) (i : ℕ) (c : Slot α) : Channel α :=
  { s with queue := Function.update s.queue i c }

end Channel

def step (s : Channel α) : Event α → Channel α
  | .outAlloc timestamp =>
    match s.ppc, s.alloc timestamp with
    | .idle, some (b,t) =>
      let i := s.producer.outPos
      { s.write i { s.queue i with timestamp := t } with producer := b, ppc := .filling i }
    | _, _ => s
  | .fill payload =>
    match s.ppc with
    | .filling i => s.write i { s.queue i with payload }
    | .idle => s
  | .outSend type =>
    match s.ppc with
    | .filling i =>
      let c := s.queue i
      { s.write i { c with ownType := sendType type } with
        ppc := .idle
        sent := s.sent++[(i,⟨type.val,c.payload,c.timestamp⟩)] }
    | .idle => s
  | .inPeek timestamp =>
    match s.cpc, s.consumer.inPeek s.ready timestamp with
    | .idle, (b,true) => { s with consumer := b, cpc := .found s.consumer.inPos }
    | .idle, (b,false) => { s with consumer := b }
    | _, _ => s
  | .inTake =>
    match s.cpc with
    | .found i =>
      { s with
        consumer := s.consumer.inTake (s.queue i).msg.type
        cpc := .holding i
        received := s.received++[(i,(s.queue i).msg)] }
    | _ => s
  | .doneLoad =>
    match s.cpc with
    | .holding i => { s with cpc := .freeing i (s.queue i).ownType }
    | _ => s
  | .doneStore =>
    match s.cpc with
    | .freeing i ownType =>
      { s.write i { s.queue i with ownType := doneType ownType } with
        cpc := .idle, returned := s.returned++[i] }
    | _ => s

/-- Fresh shared memory is zero; nothing is assumed of the other direction. -/
def start (n : ℕ) (cells : ℕ → α × UInt64) (p c : Handle) : Channel α where
  queue i := ⟨(cells i).1,(cells i).2,0⟩
  producer := { p with outPos := 0, outEnum := n }
  consumer := { c with inPos := 0, inEnum := n }

def writes (s : Channel α) : Event α → Option ℕ
  | .outAlloc timestamp =>
    match s.ppc, s.alloc timestamp with
    | .idle, some _ => some s.producer.outPos
    | _, _ => none
  | .fill _ | .outSend _ =>
    match s.ppc with
    | .filling i => some i
    | .idle => none
  | _ => none

def Channel.Held (s : Channel α) (i : ℕ) : Prop := i ∈ (s.sent.drop s.returned.length).map fst

def ProducerPc.taken : ProducerPc → ℕ
  | .idle => 0
  | .filling _ => 1

def ConsumerPc.At (n : ℕ) (s : Channel α) : ConsumerPc → Prop
  | .idle => s.received.length = s.returned.length
  | .found i => s.received.length = s.returned.length ∧ s.received.length < s.sent.length ∧
      i = s.returned.length % n
  | .holding i => s.received.length = s.returned.length+1 ∧ i = s.returned.length % n
  | .freeing i _ => s.received.length = s.returned.length+1 ∧ i = s.returned.length % n

def Carries (m : ℕ × Msg α) (c : Slot α) : Prop := m.2 = c.msg ∧ conOwned c.ownType

def Spare (c : Slot α) : Prop := proOwned c.ownType

/-- Both cyclic positions and every ownership bit follow from the lengths of
the three logs. -/
structure Inv (n : ℕ) (s : Channel α) : Prop where
  outEnum : s.producer.outEnum = n
  inEnum : s.consumer.inEnum = n
  outPos : s.producer.outPos = (s.sent.length+s.ppc.taken) % n
  inPos : s.consumer.inPos = s.received.length % n
  filling : ∀ i, s.ppc = .filling i → i = s.sent.length % n
  polled : s.received.length ≤ s.sent.length
  room : s.sent.length+s.ppc.taken ≤ s.returned.length+n
  cells : Ring.Holds n Carries Spare s.returned.length s.sent s.queue
  slots : ∀ k m, s.sent[k]? = some m → m.1 = k % n
  inOrder : s.received <+: s.sent
  handed : s.returned <+: s.sent.map fst
  stands : s.cpc.At n s

lemma inTake_pos (b : Handle) (type : UInt8) :
    (b.inTake type).inEnum = b.inEnum ∧ (b.inTake type).inPos = (b.inPos+1) % b.inEnum := by
  unfold Handle.inTake
  dsimp only
  split_ifs <;> exact ⟨rfl,rfl⟩

lemma inPeek_pos (b : Handle) (ready : Option UInt64) (timestamp : UInt64) :
    (b.inPeek ready timestamp).1.inEnum = b.inEnum ∧
    (b.inPeek ready timestamp).1.inPos = b.inPos := by
  unfold Handle.inPeek
  cases ready with
  | none => exact ⟨rfl,rfl⟩
  | some => dsimp only; split_ifs <;> exact ⟨rfl,rfl⟩

lemma inPeek_ready {b : Handle} {ready : Option UInt64} {timestamp : UInt64}
    (h : (b.inPeek ready timestamp).2) : ready ≠ none := by
  rintro rfl
  simp [Handle.inPeek] at h

lemma start_inv (n : ℕ) (cells : ℕ → α × UInt64) (p c : Handle) : Inv n (start n cells p c) where
  outEnum := rfl
  inEnum := rfl
  outPos := (zero_mod n).symm
  inPos := (zero_mod n).symm
  filling i h := by cases h
  polled := le_rfl
  room := zero_le _
  cells := .empty fun _ => (by decide : proOwned 0)
  slots k m h := by simp [start] at h
  inOrder := prefix_rfl
  handed := prefix_rfl
  stands := rfl

namespace Inv

variable {n : ℕ} {s : Channel α}

variable (h : Inv n s)
include h

lemma returned_le : s.returned.length ≤ s.received.length := by
  have hat := h.stands
  cases hc : s.cpc <;> simp only [hc, ConsumerPc.At] at hat <;> omega

lemma free_iff (hn : 1 ≤ n) (hp : s.ppc = .idle) :
    proOwned (s.queue s.producer.outPos).ownType ↔ s.sent.length < s.returned.length+n := by
  have hroom := h.room
  have hpos := h.outPos
  simp only [hp, ProducerPc.taken, add_zero] at hroom hpos
  rw [hpos]
  constructor
  · intro hfree
    by_contra hfull
    have hlen : s.sent.length = s.returned.length+n := by omega
    have hin : s.returned.length < s.sent.length := by omega
    have hcon := (h.cells.full _ _ le_rfl (getElem?_eq_getElem hin)).2
    rw [hlen, add_mod_right, proOwned_eq_not, hcon] at hfree
    cases hfree
  · exact fun hlt => h.cells.free _ le_rfl hlt

lemma sent_of_ready (hn : 1 ≤ n) (hd : s.received.length = s.returned.length)
    (hr : s.ready ≠ none) : s.received.length < s.sent.length := by
  by_contra hlt
  have hpolled := h.polled
  have hpro := h.cells.free s.received.length (by omega) (by omega)
  rw [Spare, proOwned_eq_not, Bool.not_eq_true'] at hpro
  exact hr (by simp [Channel.ready, h.inPos, hpro])

lemma outAlloc (hn : 1 ≤ n) (timestamp : UInt64) : Inv n (step s (.outAlloc timestamp)) := by
  simp only [step, Channel.alloc, Handle.outAlloc]
  cases hp : s.ppc with
  | filling => exact h
  | idle =>
    have hpos := h.outPos
    simp only [hp, ProducerPc.taken, add_zero] at hpos
    by_cases hfree : proOwned (s.queue s.producer.outPos).ownType
    · have hlt := (h.free_iff hn hp).mp hfree
      have hle := h.returned_le.trans h.polled
      simp only [hfree, if_true]
      refine { h with outPos := ?_, filling := ?_, room := hlt, cells := ?_ }
      · simp only [ProducerPc.taken, h.outEnum, hpos, mod_add_mod]
        rfl
      · rintro i ⟨⟩
        exact hpos
      · simp only [Channel.write, hpos]
        exact h.cells.touch hle hlt (hpos ▸ hfree)
    · simpa only [if_neg hfree] using h

lemma fill (payload : α) : Inv n (step s (.fill payload)) := by
  simp only [step]
  cases hp : s.ppc with
  | idle => exact h
  | filling i =>
    have hroom := h.room
    simp only [hp, ProducerPc.taken] at hroom
    obtain rfl := h.filling i hp
    refine { h with cells := ?_ }
    apply h.cells.touch (h.returned_le.trans h.polled) hroom
    exact h.cells.free _ le_rfl hroom

lemma outSend (type : MsgType) : Inv n (step s (.outSend type)) := by
  simp only [step, Channel.write]
  cases hp : s.ppc with
  | idle => exact h
  | filling i =>
    have hroom := h.room
    have hpos := h.outPos
    have hat := h.stands
    simp only [hp, ProducerPc.taken] at hroom hpos
    obtain rfl := h.filling i hp
    refine { h with
      outPos := by simpa [ProducerPc.taken] using hpos
      filling := by rintro i ⟨⟩
      polled := by simpa using le_succ_of_le h.polled
      room := by simpa [ProducerPc.taken] using hroom
      cells := ?_, slots := ?_
      inOrder := h.inOrder.trans (prefix_append _ _)
      handed := by simpa using h.handed.trans (prefix_append _ _)
      stands := ?_ }
    · apply h.cells.push (h.returned_le.trans h.polled) hroom
      exact ⟨by simp [Slot.msg],conOwned_sendType type⟩
    · intro k m hm
      rcases lt_trichotomy k s.sent.length with hk | rfl | hk
      · exact h.slots k m (by simpa [getElem?_append_left hk] using hm)
      · rw [getElem?_concat_length] at hm
        exact Option.some.inj hm ▸ rfl
      · rw [getElem?_eq_none (by simpa using hk)] at hm
        cases hm
    · cases hc : s.cpc with
      | found =>
        simp only [hc, ConsumerPc.At] at hat
        exact ⟨hat.1,by simpa using lt_succ_of_lt hat.2.1,hat.2.2⟩
      | _ => simpa only [hc, ConsumerPc.At] using hat

lemma inPeek (hn : 1 ≤ n) (timestamp : UInt64) : Inv n (step s (.inPeek timestamp)) := by
  have hat := h.stands
  have hpos := inPeek_pos s.consumer s.ready timestamp
  simp only [step]
  cases hc : s.cpc with
  | idle =>
    simp only [hc, ConsumerPc.At] at hat
    cases hb : s.consumer.inPeek s.ready timestamp with
    | mk b found =>
      rw [hb] at hpos
      have hin : b.inEnum = n := hpos.1.trans h.inEnum
      have hip : b.inPos = s.received.length % n := hpos.2.trans h.inPos
      cases found with
      | false => exact { h with inEnum := hin, inPos := hip, stands := hat }
      | true =>
        have hready : s.ready ≠ none := inPeek_ready (by rw [hb])
        have hlt := h.sent_of_ready hn hat hready
        exact { h with
          inEnum := hin, inPos := hip
          stands := ⟨hat,hlt,by rw [h.inPos, hat]⟩ }
  | found i | holding i | freeing i o => exact h

lemma next_sent {k : ℕ} (hk : s.returned.length ≤ k) (hlt : k < s.sent.length) :
    s.sent[k]? = some (k % n,(s.queue (k % n)).msg) := by
  have hm := getElem?_eq_getElem hlt
  rw [hm]
  congr 1
  exact Prod.ext (h.slots k _ hm) (h.cells.full k _ hk hm).1

lemma inTake : Inv n (step s .inTake) := by
  have hat := h.stands
  simp only [step]
  cases hc : s.cpc with
  | found =>
    simp only [hc, ConsumerPc.At] at hat
    obtain ⟨hd,hlt,rfl⟩ := hat
    obtain ⟨hin,hip⟩ := inTake_pos s.consumer (s.queue (s.returned.length % n)).msg.type
    exact { h with
      inEnum := hin.trans h.inEnum
      inPos := by simp [hip, h.inEnum, h.inPos]
      polled := by simpa using hlt
      inOrder := Ring.prefix_snoc h.inOrder (by rw [hd]; exact h.next_sent le_rfl (hd ▸ hlt))
      stands := ⟨by simp [hd],rfl⟩ }
  | idle | holding i | freeing i o => exact h

lemma doneLoad : Inv n (step s .doneLoad) := by
  have hat := h.stands
  simp only [step]
  cases hc : s.cpc with
  | holding =>
    simp only [hc, ConsumerPc.At] at hat
    exact { h with stands := hat }
  | idle | found i | freeing i o => exact h

lemma doneStore : Inv n (step s .doneStore) := by
  have hat := h.stands
  simp only [step, Channel.write]
  cases hc : s.cpc with
  | freeing i o =>
    simp only [hc, ConsumerPc.At] at hat
    obtain ⟨hd,rfl⟩ := hat
    have hpolled := h.polled
    have hroom := h.room
    have hlt : s.returned.length < s.sent.length := by omega
    refine { h with room := ?_, cells := ?_, handed := ?_, stands := ?_ }
    · simp only [length_append, length_singleton]
      omega
    · simp only [length_append, length_singleton]
      exact h.cells.pop hlt (by omega) (proOwned_doneType o)
    · apply Ring.prefix_snoc h.handed
      simp [h.next_sent le_rfl hlt]
    · simpa [ConsumerPc.At] using hd
  | idle | found i | holding i => exact h

lemma step (hn : 1 ≤ n) (e : Event α) : Inv n (step s e) := by
  cases e with
  | outAlloc timestamp => exact h.outAlloc hn timestamp
  | fill payload => exact h.fill payload
  | outSend type => exact h.outSend type
  | inPeek timestamp => exact h.inPeek hn timestamp
  | inTake => exact h.inTake
  | doneLoad => exact h.doneLoad
  | doneStore => exact h.doneStore

lemma held_iff (i : ℕ) : s.Held i ↔ ∃ k, s.returned.length ≤ k ∧ k < s.sent.length ∧ i = k % n := by
  constructor
  · intro hh
    obtain ⟨m,hm,rfl⟩ := mem_map.mp hh
    obtain ⟨k,hk⟩ := mem_iff_getElem?.mp hm
    rw [getElem?_drop] at hk
    exact ⟨_,Nat.le_add_right _ _,(List.getElem?_eq_some_iff.mp hk).1,h.slots _ m hk⟩
  · rintro ⟨k,hd,hk,rfl⟩
    refine mem_map.mpr ⟨(k % n,(s.queue (k % n)).msg),
      mem_iff_getElem?.mpr ⟨k-s.returned.length,?_⟩,rfl⟩
    rw [List.getElem?_drop, Nat.add_sub_cancel' hd]
    exact h.next_sent hd hk

lemma writes_eq (hn : 1 ≤ n) {e : Event α} {i : ℕ} (hw : writes s e = some i) :
    i = s.sent.length % n ∧ s.sent.length < s.returned.length+n := by
  have hroom := h.room
  have hpos := h.outPos
  cases hp : s.ppc with
  | idle =>
    simp only [hp, ProducerPc.taken, add_zero] at hpos
    cases e with
    | outAlloc =>
      simp only [writes, hp, Channel.alloc, Handle.outAlloc] at hw
      split_ifs at hw with hfree
      exact ⟨by simpa [hpos] using hw.symm,(h.free_iff hn hp).mp hfree⟩
    | _ => simp [writes, hp] at hw
  | filling j =>
    simp only [hp, ProducerPc.taken] at hroom
    cases e with
    | fill _ | outSend _ =>
      obtain rfl : j = i := by simpa [writes, hp] using hw
      exact ⟨h.filling j hp,hroom⟩
    | _ => simp [writes, hp] at hw

lemma writes_spare (hn : 1 ≤ n) {e : Event α} {i : ℕ} (hw : writes s e = some i) : ¬ s.Held i := by
  obtain ⟨rfl,_⟩ := h.writes_eq hn hw
  rw [h.held_iff]
  rintro ⟨k,_,_,he⟩
  have := (Ring.mod_eq_iff (by omega) (by omega)).mp he
  omega

lemma all_held_iff (hn : 1 ≤ n) : (∀ i < n, s.Held i) ↔ ¬ s.sent.length < s.returned.length+n := by
  constructor
  · intro hall hlt
    obtain ⟨k,hd,hk,he⟩ := (h.held_iff _).mp (hall (s.sent.length % n) (mod_lt _ hn))
    have := (Ring.mod_eq_iff (by omega) (by omega)).mp he
    omega
  · intro hfull i hi
    obtain ⟨k,hd,hk,rfl⟩ := Ring.exists_in_round s.returned.length hi
    exact (h.held_iff _).mpr ⟨k,hd,by omega,rfl⟩

omit h

end Inv

lemma step_frame (s : Channel α) (e : Event α) (i : ℕ) (hw : writes s e ≠ some i)
    (hd : e ≠ .doneStore) : (step s e).queue i = s.queue i := by
  have hne : ∀ j c, some j ≠ some i → (s.write j c).queue i = s.queue i := by
    intro j c hj
    exact Function.update_of_ne (fun h => hj (congrArg some h.symm)) _ _
  cases e with
  | outAlloc =>
    simp only [step, writes] at hw ⊢
    split
    · next b t hp ha =>
      simp only [hp, ha] at hw
      exact hne _ _ hw
    · rfl
  | fill payload | outSend type =>
    simp only [step, writes] at hw ⊢
    cases hp : s.ppc with
    | idle => rfl
    | filling j => exact hne j _ (by simpa only [hp] using hw)
  | inPeek timestamp | inTake | doneLoad => simp only [step]; split <;> rfl
  | doneStore => exact absurd rfl hd

lemma run_inv (n : ℕ) (hn : 1 ≤ n) (cells : ℕ → α × UInt64) (p c : Handle)
    (es : List (Event α)) : Inv n (run step (start n cells p c) es) :=
  run_always (fun _ e h => h.step hn e) (start_inv n cells p c) es

/-- In every interleaving the consumer polls what was sent, in order; slots
come back in the order they were sent; the producer writes no slot between
its `OutSend` and the matching `InDone`, so the message stays; and `OutAlloc` fails exactly on a
ring of messages that were not handed back. -/
theorem channel_exact (n : ℕ) (hn : 1 ≤ n) (cells : ℕ → α × UInt64) (p c : Handle)
    (es : List (Event α)) :
    let s := run step (start n cells p c) es
    s.received.map snd <+: s.sent.map snd ∧ s.returned <+: s.sent.map fst ∧
    (∀ e i, s.Held i → writes s e ≠ some i ∧ (e ≠ .doneStore → (step s e).queue i = s.queue i)) ∧
    (∀ timestamp, s.ppc = .idle → (s.alloc timestamp = none ↔ ∀ i < n, s.Held i)) := by
  intro s
  have h : Inv n s := run_inv n hn cells p c es
  refine ⟨h.inOrder.map snd,h.handed,?_,?_⟩
  · intro e i hi
    have hw : writes s e ≠ some i := fun hw => h.writes_spare hn hw hi
    exact ⟨hw,step_frame s e i hw⟩
  intro timestamp hp
  rw [h.all_held_iff hn, ← h.free_iff hn hp]
  simp [Channel.alloc, Handle.outAlloc]

def sampleHandle : Handle := ⟨0,1,0,0,1,0,false,true,500,500⟩

def sampleRun : List (Event ℕ) := [.outAlloc 5,.fill 7,.outSend .sync,.inPeek 505,.inTake]

/-- One slot: while the consumer holds the message the producer gets none. -/
theorem channel_exact_held :
    let s := run step (start 1 (fun _ => (0,0)) sampleHandle sampleHandle) sampleRun
    s.received.length = 1 ∧ s.alloc 6 = none ∧ ∀ i < 1, s.Held i := by
  intro s
  have hnull : s.alloc 6 = none := by decide +kernel
  have hidle : s.ppc = .idle := by decide +kernel
  have h := channel_exact 1 le_rfl (fun _ => (0,0)) sampleHandle sampleHandle sampleRun
  exact ⟨by decide +kernel,hnull,(h.2.2.2 6 hidle).mp hnull⟩

end SimBricks.SpscChannel
