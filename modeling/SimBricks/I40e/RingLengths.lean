import Mathlib.Order.Bounds.Basic
import SimBricks.I40e.DescQueue
import SimBricks.Library.Run

/-!
# Ring lengths and other divisors of the queues

The length of a ring comes from a queue context in guest memory, or from a
register for the admin queue, and is not checked. The indices of a ring are
taken modulo its length, the distance to the tail after a 32-bit subtraction.
-/

set_option autoImplicit false

namespace SimBricks.I40eQueue

namespace Queue

def fresh (len idx tail : ℕ) : Queue :=
  ⟨len,fun _ => ⟨.empty,0⟩,0,idx,0,idx,tail,[],[],[],[]⟩

/-! ## Posted descriptors -/

def descAvail (q : Queue) : ℕ := (q.regTail+2^32-q.nextIdx) % 2^32 % q.len

def Posted (q : Queue) (k : ℕ) : Prop := IsLeast {k | (q.nextIdx+k) % q.len = q.regTail} k

lemma wrapped_mod {l n t w : ℕ} (ht : t < n) (hn : n < l) (hw : l ≤ w) :
    (t+w-n) % l = l+t-n ↔ l ∣ w := by
  have hlt : l+t-n < l := by omega
  rw [Nat.dvd_iff_mod_eq_zero]
  constructor
  · intro h
    have hsum : (t+w-n+(n-t)) % l = (l+t-n+(n-t)) % l := by rw [← Nat.mod_add_mod, h]
    rwa [show t+w-n+(n-t) = w by omega, show l+t-n+(n-t) = l by omega, Nat.mod_self] at hsum
  · intro h
    rw [show t+w-n = l+t-n+(w-l) by omega, Nat.add_mod, ← Nat.mod_eq_sub_mod hw, h]
    simp [Nat.mod_eq_of_lt hlt]

lemma fetchCnt_le {q : Queue} (hn : q.nextIdx < q.len) :
    q.fetchCnt ≤ q.descAvail ∧ q.fetchCnt ≤ q.len-q.nextIdx := by
  unfold fetchCnt
  generalize h : (q.regTail+2^32-q.nextIdx) % 2^32 % q.len = avail
  generalize maxActiveCapacity = active
  generalize maxFetchCapacity = fetch
  rw [descAvail, h]
  dsimp only
  split_ifs <;> omega

section
variable {q : Queue} (hl : 0 < q.len) (ht : q.regTail < q.len)
include hl ht

lemma posted_iff (k : ℕ) :
    q.Posted k ↔ k = if q.nextIdx ≤ q.regTail then q.regTail-q.nextIdx
      else q.len+q.regTail-q.nextIdx := by
  have hn : q.nextIdx < q.len := Nat.mod_lt _ hl
  have hd : q.Posted (if q.nextIdx ≤ q.regTail then q.regTail-q.nextIdx
      else q.len+q.regTail-q.nextIdx) := by
    split_ifs with hw
    · refine ⟨?_,fun j hj => ?_⟩
      · rw [Set.mem_ofPred_eq, Nat.add_sub_cancel' hw, Nat.mod_eq_of_lt ht]
      · have := Nat.mod_le (q.nextIdx+j) q.len
        rw [hj] at this
        omega
    · refine ⟨?_,fun j hj => ?_⟩
      · rw [Set.mem_ofPred_eq, Nat.add_sub_cancel' (by omega), Nat.add_mod_left,
          Nat.mod_eq_of_lt ht]
      · by_contra! hlt
        rw [Set.mem_ofPred_eq] at hj
        by_cases hj' : q.nextIdx+j < q.len
        · rw [Nat.mod_eq_of_lt hj'] at hj
          omega
        · rw [Nat.mod_eq_sub_mod (by omega), Nat.mod_eq_of_lt (by omega)] at hj
          omega
  exact ⟨fun h => h.unique hd,fun h => h ▸ hd⟩

/-- The subtraction is right in a ring whose length divides the range of the
register, or where it does not wrap. Where it wraps, the fetch ends with the ring. -/
theorem descAvail_posted_iff (hm : q.len ≤ 8191) :
    (q.Posted q.descAvail ↔ q.nextIdx ≤ q.regTail ∨ q.len ∣ 2^32) ∧
    ∀ k, q.Posted k → q.fetchCnt ≤ k := by
  have hn : q.nextIdx < q.len := Nat.mod_lt _ hl
  have havail : q.nextIdx ≤ q.regTail → q.descAvail = q.regTail-q.nextIdx := by
    intro hw
    have h : (q.regTail+2^32-q.nextIdx) % 2^32 = q.regTail-q.nextIdx := by omega
    rw [descAvail, h, Nat.mod_eq_of_lt (by omega)]
  obtain ⟨hle,hend⟩ := fetchCnt_le hn
  constructor
  · rw [posted_iff hl ht]
    split_ifs with hw
    · exact iff_of_true (havail hw) (.inl hw)
    · have h : (q.regTail+2^32-q.nextIdx) % 2^32 = q.regTail+2^32-q.nextIdx := by omega
      rw [descAvail, h, wrapped_mod (by omega) hn (by omega), or_iff_right hw]
  · intro k hk
    rw [posted_iff hl ht] at hk
    split_ifs at hk with hw
    · have := havail hw
      omega
    · omega

end

theorem descAvail_posted_wrapped : (fresh 512 500 3).Posted (fresh 512 500 3).descAvail :=
  (descAvail_posted_iff (by decide) (by decide) (by decide)).1.mpr (.inr ⟨2^23,by decide⟩)

/-- Two descriptors are posted in a ring of three, and none is fetched. -/
theorem posted_not_fetched :
    (fresh 3 1 0).Posted 2 ∧ (fresh 3 1 0).descAvail = 0 ∧ (fresh 3 1 0).fetchCnt = 0 :=
  ⟨(posted_iff (by decide) (by decide) 2).mpr (by decide),by decide,by decide⟩

end Queue
end SimBricks.I40eQueue

/-! ## Divisors -/

namespace SimBricks.QueueDivisors
open Library.Run Function

inductive QueueId
  | rx (i : ℕ)
  | tx (i : ℕ)
  | atq
deriving DecidableEq

def QueueId.lan (rx : Bool) (i : ℕ) : QueueId := if rx then .rx i else .tx i

/-- What enabling and the divisors of a queue depend on. `ctxFetches` counts
the context fetches that are under way. -/
structure Ring where
  enabled : Bool
  enabling : Bool
  hwb : Bool
  len : ℕ
  dbuffSize : ℕ
  ctxFetches : ℕ

/-- A write to a packet queue's tail runs `trigger`, as does every transfer
when it completes. `wb` says that a write-back is issued there. -/
inductive Input
  | qena (rx : Bool) (i : ℕ) (req valid : Bool)
  | ctxFetched (rx : Bool) (i : ℕ) (ctx : ℕ → UInt8) (wb : Bool)
  | trigger (id : QueueId) (wb : Bool)
  | writebackDone (id : QueueId) (wb : Bool)
  | packet (hash : Option ℕ)
  | atqLen (val : ℕ) (wb : Bool)
  | atqOther (wb : Bool)
  | ctl0 (val : ℕ)
  | hlut (i val : ℕ)
  | reset

namespace Ring

def modLen (r : Ring) : List ℕ := if r.enabled then [r.len] else []

def trigger (r : Ring) (wb : Bool) : List ℕ := r.modLen++if wb && r.hwb then r.modLen else []

def qenaUpdated (r : Ring) (req valid : Bool) : Ring :=
  if req && !r.enabled then
    -- a fetch from a segment that is not valid never completes
    if r.enabling then r
    else { r with enabling := true, ctxFetches := r.ctxFetches+valid.toNat }
  else if !req && r.enabled then { r with enabled := false }
  else r

def uint16At (ctx : ℕ → UInt8) (i : ℕ) : ℕ := (ctx i).toNat+256*(ctx (i+1)).toNat

def ctxLen (rx : Bool) (ctx : ℕ → UInt8) : ℕ :=
  (uint16At ctx (if rx then 11 else 20) >>> 1) &&& (1 <<< 13-1)

def ctxFetched (rx : Bool) (r : Ring) (ctx : ℕ → UInt8) : Ring where
  enabled := true
  enabling := false
  hwb := if rx then r.hwb else uint16At ctx 20 &&& 1 ≠ 0
  len := ctxLen rx ctx
  dbuffSize := if rx then ((uint16At ctx 12 >>> 6) &&& (1 <<< 7-1))*128 else r.dbuffSize
  ctxFetches := r.ctxFetches-1

end Ring

structure Device where
  rings : QueueId → Ring
  atqLen : ℕ
  ctl0 : ℕ
  hlut : ℕ → ℕ
  aborted : Bool

namespace Device

-- the constructor does not initialise dbuff_size
def new (dbuffSize : QueueId → ℕ) : Device :=
  ⟨fun id => ⟨false,false,false,0,dbuffSize id,0⟩,0,0,fun _ => 0,false⟩

def put (d : Device) (id : QueueId) (r : Ring) : Device := { d with rings := update d.rings id r }

def rssQueue (d : Device) : Option ℕ → ℕ
  | none => 0
  | some hash =>
    let idx := hash % if d.ctl0.testBit 16 then 512 else 128
    (d.hlut (idx/4) >>> (8*(idx % 4))) &&& 0x3f

def atqUpdated (d : Device) (wb : Bool) : List ℕ × Device :=
  let r := { d.rings .atq with len := d.atqLen &&& 0x3ff, enabled := d.atqLen.testBit 31 }
  (r.trigger wb,d.put .atq r)

/-- The divisors of the divisions that an event leads to, and the device after it. -/
def react (d : Device) : Input → List ℕ × Device
  | .qena rx i req valid => ([],d.put (.lan rx i) ((d.rings (.lan rx i)).qenaUpdated req valid))
  | .ctxFetched rx i ctx wb =>
    let r := d.rings (.lan rx i)
    if r.ctxFetches = 0 then ([],d)
    else if rx ∧ (Ring.uint16At ctx 13 >>> 10) &&& 3 ≠ 0 then ([],{ d with aborted := true })
    else ((r.ctxFetched rx ctx).trigger wb,d.put (.lan rx i) (r.ctxFetched rx ctx))
  | .trigger id wb => ((d.rings id).trigger wb,d)
  | .writebackDone id wb => ((d.rings id).modLen++(d.rings id).trigger wb,d)
  | .packet hash => ([(d.rings (.rx (d.rssQueue hash))).dbuffSize],d)
  | .atqLen val wb => { d with atqLen := val }.atqUpdated wb
  | .atqOther wb => d.atqUpdated wb
  | .ctl0 val => ([],{ d with ctl0 := val })
  | .hlut i val => ([],{ d with hlut := update d.hlut i val })
  -- `enabling` is not reset, no packet queue runs `lan_queue_base::reset`
  | .reset => ([],{ d with
      rings := fun id => { d.rings id with enabled := false }
      atqLen := 0
      ctl0 := 0
      hlut := fun _ => 0 })

def divisors (d : Device) (e : Input) : List ℕ := if d.aborted then [] else (d.react e).1

def step (d : Device) (e : Input) : Device := if d.aborted then d else (d.react e).2

end Device

lemma Ring.zero_mem_trigger {r : Ring} {wb : Bool} : 0 ∈ r.trigger wb ↔ r.enabled ∧ r.len = 0 := by
  have hmod : 0 ∈ r.modLen ↔ r.enabled ∧ r.len = 0 := by
    unfold modLen
    split_ifs with h <;> simp [h, @eq_comm ℕ 0]
  unfold trigger
  split_ifs <;> simp [hmod]

namespace Device
variable {d : Device} {e : Input}

structure Sized (d : Device) : Prop where
  rings : ∀ id, (d.rings id).enabled → (d.rings id).len ≠ 0
  reg : d.atqLen.testBit 31 → d.atqLen &&& 0x3ff ≠ 0

lemma Sized.put (h : d.Sized) {r : Ring} (hr : r.enabled → r.len ≠ 0) (id : QueueId) :
    (d.put id r).Sized := by
  refine ⟨fun id' => ?_,h.reg⟩
  simp only [Device.put, update_apply]
  split_ifs
  · exact hr
  · exact h.rings id'

/-- What an event must bring: a context with a length, a length with the
enable bit, a packet for a queue with a buffer size. -/
def Safe (d : Device) : Input → Prop
  | .ctxFetched rx i ctx _ =>
    (d.rings (.lan rx i)).ctxFetches ≠ 0 →
    ¬ (rx ∧ (Ring.uint16At ctx 13 >>> 10) &&& 3 ≠ 0) → Ring.ctxLen rx ctx ≠ 0
  | .packet hash => (d.rings (.rx (d.rssQueue hash))).dbuffSize ≠ 0
  | .atqLen val _ => val.testBit 31 → val &&& 0x3ff ≠ 0
  | _ => True

lemma zero_notMem_react (h : d.Sized) : 0 ∉ (d.react e).1 ↔ d.Safe e := by
  have hring : ∀ id wb, 0 ∉ (d.rings id).trigger wb := by
    intro id wb hz
    rw [Ring.zero_mem_trigger] at hz
    exact h.rings id hz.1 hz.2
  cases e with
  | qena | ctl0 | hlut | reset => exact iff_of_true nofun trivial
  | ctxFetched rx i ctx wb =>
    simp only [react, Safe]
    split_ifs with hc hd
    · exact iff_of_true nofun fun hn => absurd hc hn
    · exact iff_of_true nofun fun _ hn => absurd hd hn
    · rw [Ring.zero_mem_trigger]
      exact ⟨fun hz _ _ hl => hz ⟨rfl,hl⟩,fun hs hz => hs hc hd hz.2⟩
  | trigger id wb => exact iff_of_true (hring id wb) trivial
  | writebackDone id wb =>
    refine iff_of_true ?_ trivial
    have hmod : 0 ∉ (d.rings id).modLen := fun hz => hring id wb (List.mem_append_left _ hz)
    simp [react, hmod, hring]
  | packet hash => simp [react, Safe, eq_comm]
  | atqLen val wb =>
    simp only [react, atqUpdated, Ring.zero_mem_trigger, Safe]
    exact not_and
  | atqOther wb =>
    refine iff_of_true ?_ trivial
    simp only [react, atqUpdated, Ring.zero_mem_trigger]
    exact not_and.mpr h.reg

lemma Sized.step (h : d.Sized) (hs : d.Safe e) : (d.react e).2.Sized := by
  have hatq : ∀ {d : Device}, (∀ id, (d.rings id).enabled → (d.rings id).len ≠ 0) →
      (d.atqLen.testBit 31 → d.atqLen &&& 0x3ff ≠ 0) → ∀ wb, (d.atqUpdated wb).2.Sized :=
    fun hr hl wb => Sized.put ⟨hr,hl⟩ hl .atq
  cases e with
  | qena rx i req valid =>
    refine h.put ?_ _
    unfold Ring.qenaUpdated
    split_ifs
    · exact h.rings _
    · exact h.rings _
    · exact nofun
    · exact h.rings _
  | ctxFetched rx i ctx wb =>
    simp only [react]
    split_ifs with hc hd
    · exact h
    · exact ⟨h.rings,h.reg⟩
    · exact h.put (fun _ => hs hc hd) _
  | trigger | writebackDone | packet => exact h
  | atqLen val wb => exact hatq (d := { d with atqLen := val }) h.rings hs wb
  | atqOther wb => exact hatq h.rings h.reg wb
  | ctl0 | hlut => exact ⟨h.rings,h.reg⟩
  | reset => exact ⟨fun _ => nofun,by simp [react]⟩

/-- No event of a run divides by zero exactly if each brings what it must. -/
theorem divisors_nonzero_iff (dbuffSize : QueueId → ℕ) (es : List Input) :
    0 ∉ trace step divisors (new dbuffSize) es ↔
    Along step (fun d e => d.aborted ∨ d.Safe e) (new dbuffSize) es := by
  have h : (new dbuffSize).Sized := ⟨fun _ => nofun,by simp [new]⟩
  generalize new dbuffSize = d at h
  induction es generalizing d with
  | nil => exact iff_of_true nofun trivial
  | cons e es ih =>
    rw [trace, List.mem_append, not_or, Along]
    by_cases ha : d.aborted
    · simpa [divisors, Device.step, ha] using ih d h
    · rw [divisors, if_neg ha, zero_notMem_react h, or_iff_right ha]
      refine and_congr_right fun hs => ?_
      rw [Device.step, if_neg ha]
      exact ih _ (h.step hs)

/-- A packet for a queue whose memory held zero, a context and a register without
a length. -/
theorem divisors_zero :
    0 ∈ trace step divisors (new fun _ => 0) [.packet none] ∧
    0 ∈ trace step divisors (new fun _ => 1)
      [.qena false 0 true true,.ctxFetched false 0 (fun _ => 0) false] ∧
    0 ∈ trace step divisors (new fun _ => 1) [.atqLen (2^31) false] := by
  decide

end Device
end SimBricks.QueueDivisors
