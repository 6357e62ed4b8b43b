import SimBricks.Library.Run

/-!
# DMA operations of `nicbm.cc`

`IssueDma` may be called from any callback, also from `DmaComplete`, which
runs inside the handler of a completion before `dma_pending_` is decremented;
a handler is therefore two steps with calls in between. An operation that does
not fit a message aborts the process. `issued`, `sent` and `completed` are logs.
-/

set_option autoImplicit false

namespace SimBricks.NicDma
open Library.Run List Option

def kDmaMaxPending : ℕ := 64

def kMsgHeader : UInt64 := 64

structure DMAOp where
  ptr : UInt64
  write : Bool
  dmaAddr : UInt64
  len : UInt64
  deriving DecidableEq, Repr

structure D2HMsg where
  write : Bool
  reqId : UInt64
  offset : UInt64
  len : UInt16
  deriving DecidableEq, Repr

def DMAOp.msg (op : DMAOp) : D2HMsg := ⟨op.write,op.ptr,op.dmaAddr,op.len.toUInt16⟩

structure Dma where
  /-- Length of an outgoing message, header included. -/
  maxlen : UInt64
  inTerminated : Bool := false
  dmaPending : ℕ := 0
  dmaQueue : List DMAOp := []
  wire : List D2HMsg := []
  /-- The operation whose `DmaComplete` is running. -/
  handling : Option DMAOp := none
  issued : List DMAOp := []
  sent : List DMAOp := []
  completed : List DMAOp := []
  deriving DecidableEq, Repr

namespace Dma

variable (s : Dma)

def dmaDo (op : DMAOp) : Option Dma :=
  if s.inTerminated then some s
  else if s.maxlen < kMsgHeader+op.len then none
  else some { s with
    dmaPending := s.dmaPending+1, wire := s.wire++[op.msg], sent := s.sent++[op] }

def issueDma (op : DMAOp) : Option Dma :=
  let s := { s with issued := s.issued++[op] }
  if s.dmaPending < kDmaMaxPending then s.dmaDo op
  else some { s with dmaQueue := s.dmaQueue++[op] }

def dmaTrigger : Option Dma :=
  match s.dmaQueue with
  | [] => some s
  | op::rest =>
    if s.dmaPending = kDmaMaxPending then some s
    else { s with dmaQueue := rest }.dmaDo op

def Outstanding (op : DMAOp) : Prop := s.completed.count op < s.sent.count op
  deriving Decidable

def h2dComp (op : DMAOp) : Dma := { s with handling := some op, completed := s.completed++[op] }

def h2dReadcomp (op : DMAOp) : Dma := s.h2dComp op

def h2dWritecomp (op : DMAOp) : Dma := s.h2dComp op

def h2dCompEnd : Option Dma := { s with handling := none, dmaPending := s.dmaPending-1 }.dmaTrigger

end Dma

inductive Event where
  | issue (op : DMAOp)
  | comp (op : DMAOp)
  | compEnd
  deriving DecidableEq, Repr

/-- The host answers reads and writes that are outstanding, each by its kind
of completion, and the runner handles one message at a time. -/
def step : Option Dma → Event → Option Dma
  | none, _ => none
  | some s, .issue op => s.issueDma op
  | some s, .comp op =>
    if s.handling = none ∧ s.Outstanding op then
      some (if op.write then s.h2dWritecomp op else s.h2dReadcomp op)
    else some s
  | some s, .compEnd => if s.handling = none then some s else s.h2dCompEnd

def start (maxlen : UInt64) : Option Dma := some { maxlen }

def Dma.busy (s : Dma) : ℕ := s.handling.toList.length

structure Inv (s : Dma) : Prop where
  alive : s.inTerminated = false
  pending : s.dmaPending+s.completed.length = s.sent.length+s.busy
  bound : s.dmaPending ≤ kDmaMaxPending
  full : s.dmaQueue ≠ [] → s.dmaPending = kDmaMaxPending
  order : s.sent++s.dmaQueue = s.issued
  onWire : s.wire = s.sent.map DMAOp.msg
  answered : s.completed.Subperm s.sent

namespace Inv

variable {s t : Dma} {op : DMAOp}

lemma dmaDo (ha : s.inTerminated = false)
    (hp : s.dmaPending+s.completed.length = s.sent.length+s.busy)
    (hb : s.dmaPending < kDmaMaxPending) (hq : s.dmaQueue ≠ [] → s.dmaPending+1 = kDmaMaxPending)
    (ho : s.sent++op::s.dmaQueue = s.issued) (hw : s.wire = s.sent.map DMAOp.msg)
    (hs : s.completed.Subperm s.sent) (h : s.dmaDo op = some t) : Inv t := by
  unfold Dma.dmaDo at h
  rw [if_neg (by simp [ha])] at h
  split_ifs at h
  cases h
  refine ⟨ha,?_,hb,hq,by simpa using ho,by simp [hw], hs.trans (sublist_append_left _ _).subperm⟩
  simp only [Dma.busy, length_append, length_singleton] at hp ⊢
  omega

lemma issue (h : Inv s) (hd : s.issueDma op = some t) : Inv t := by
  simp only [Dma.issueDma] at hd
  split_ifs at hd with hlt
  · have hnil : s.dmaQueue = [] := by
      by_contra hne
      exact absurd (h.full hne) (Nat.ne_of_lt hlt)
    refine dmaDo (s := { s with issued := s.issued++[op] }) h.alive h.pending hlt ?_ ?_ h.onWire
      h.answered hd
    · exact fun hne => absurd hnil hne
    · simp [hnil, ← h.order]
  · cases hd
    have hmax := le_antisymm h.bound (Nat.not_lt.mp hlt)
    exact { h with full := fun _ => hmax, order := by simp [← h.order] }

lemma comp (h : Inv s) (hn : s.handling = none) (ho : s.Outstanding op) : Inv (s.h2dComp op) := by
  refine { h with pending := ?_, answered := ?_ }
  · have hp := h.pending
    simp only [Dma.busy, hn, toList_none, length_nil] at hp
    simp only [Dma.busy, Dma.h2dComp, toList_some, length_append, length_singleton]
    omega
  · rw [subperm_ext_iff]
    intro x hx
    have hle : s.completed.count x ≤ s.sent.count x := by
      exact h.answered.count_le x
    by_cases he : x = op
    · subst he
      simpa [Dma.h2dComp] using Nat.succ_le_of_lt ho
    · simpa [Dma.h2dComp, count_singleton, Ne.symm he] using hle

lemma compEnd (h : Inv s) {x : DMAOp} (hx : s.handling = some x) (hd : s.h2dCompEnd = some t) :
    Inv t := by
  have hp := h.pending
  have hlen := h.answered.length_le
  simp only [Dma.busy, hx, toList_some, length_singleton] at hp
  have hb := h.bound
  simp only [Dma.h2dCompEnd, Dma.dmaTrigger] at hd
  split at hd
  · next hq =>
    cases hd
    refine { h with pending := ?_, bound := ?_, full := fun hne => absurd hq hne }
    · simp only [Dma.busy, toList_none, length_nil]
      omega
    · exact (Nat.sub_le _ _).trans hb
  · next op rest hq =>
    have hq : s.dmaQueue = op::rest := hq
    have hmax := h.full (by simp [hq])
    have hk : kDmaMaxPending = 64 := rfl
    rw [if_neg (by omega)] at hd
    refine dmaDo (s := ⟨s.maxlen,s.inTerminated,s.dmaPending-1,rest,s.wire,none,s.issued,s.sent,
      s.completed⟩) h.alive ?_ ?_ ?_ ?_ h.onWire h.answered hd
    · simp only [Dma.busy, toList_none, length_nil]
      omega
    · dsimp only
      omega
    · intro _
      dsimp only
      omega
    · rw [← h.order, hq]

end Inv

lemma start_inv (maxlen : UInt64) : Inv { maxlen } :=
  ⟨rfl,rfl,Nat.zero_le _,fun h => absurd rfl h,rfl,rfl,List.Subperm.refl _⟩

lemma step_inv {x : Option Dma} (e : Event) (h : ∀ s ∈ x, Inv s) : ∀ t ∈ step x e, Inv t := by
  intro t ht
  cases x with
  | none => cases ht
  | some s =>
    have hs := h s rfl
    cases e with
    | issue => exact hs.issue ht
    | comp =>
      simp only [step] at ht
      split_ifs at ht with hc hw
      · exact some.inj ht ▸ hs.comp hc.1 hc.2
      · exact some.inj ht ▸ hs.comp hc.1 hc.2
      · exact some.inj ht ▸ hs
    | compEnd =>
      simp only [step] at ht
      split_ifs at ht with hn
      · exact some.inj ht ▸ hs
      · obtain ⟨op,hop⟩ := ne_none_iff_exists'.mp hn
        exact hs.compEnd hop ht

/-- At every point of every run that has not aborted: the count and the limit,
an empty queue below the limit, and the order on the wire. -/
theorem dma_flow_control (maxlen : UInt64) (es : List Event) (s : Dma)
    (h : run step (start maxlen) es = some s) :
    (s.handling = none → s.dmaPending = s.sent.length-s.completed.length) ∧
    s.completed.Subperm s.sent ∧ s.dmaPending ≤ kDmaMaxPending ∧
    (s.dmaQueue ≠ [] → s.dmaPending = kDmaMaxPending) ∧
    s.sent++s.dmaQueue = s.issued ∧ s.wire = s.sent.map DMAOp.msg := by
  have hinv : Inv s := by
    apply run_always (I := fun x => ∀ s ∈ x, Inv s) (fun _ e hx => step_inv e hx) ?_ es s h
    intro t ht
    exact some.inj ht ▸ start_inv maxlen
  refine ⟨?_,hinv.answered,hinv.bound,hinv.full,hinv.order,hinv.onWire⟩
  intro hn
  have hp := hinv.pending
  simp only [Dma.busy, hn, toList_none, length_nil] at hp
  omega

def sampleOp (ptr : UInt64) : DMAOp := ⟨ptr,ptr = 7,0x1000,64⟩

/-- 65 operations, one of which waits; the first completes and is issued again
from its `DmaComplete`. -/
def sampleRun : List Event := (range 65).map (fun i => .issue (sampleOp (UInt64.ofNat i)))++
    [.comp (sampleOp 0),.issue (sampleOp 0),.compEnd]

theorem dma_flow_control_reissue : ∃ s, run step (start 9088) sampleRun = some s ∧
    s.dmaQueue = [sampleOp 0] ∧ s.dmaPending = kDmaMaxPending ∧ s.sent++s.dmaQueue = s.issued := by
  obtain ⟨s,hs⟩ : ∃ s, run step (start 9088) sampleRun = some s ∧ s.dmaQueue = [sampleOp 0] := by
    refine ⟨(run step (start 9088) sampleRun).get (by decide +kernel),by simp,by decide +kernel⟩
  have h := dma_flow_control 9088 sampleRun s hs.1
  exact ⟨s,hs.1,hs.2,h.2.2.2.1 (by simp [hs.2]),h.2.2.2.2.1⟩

end SimBricks.NicDma
