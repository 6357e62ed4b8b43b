import SimBricks.Library.Tickets
import SimBricks.Mem.NetProto

/-!
# The memory interconnect

`interconnect.cc` between any hosts and any devices. A request that a host
issues gets a ticket, which travels with the messages and which no simulator
looks at; it tells requests with equal ids apart. The addresses of the
`Pending` records come from an allocator that returns any address not in use.
-/

set_option autoImplicit false

namespace SimBricks.Interconnect
open Library Library.Run Library.Tickets Function NetProto UInt64

variable {H D : Type}

structure TableEntry (D : Type) where
  vaddrStart : UInt64
  vaddrEnd : UInt64
  physStart : UInt64
  dev : D
  deriving DecidableEq, Repr

def TableEntry.contains (te : TableEntry D) (addr : UInt64) : Bool :=
  te.vaddrStart ≤ addr && te.vaddrEnd > addr

/-- The end of the range is not in the window of its start, or no device matches. -/
inductive LookupError where
  | unsupported | noDevice
  deriving DecidableEq, Repr

def lookup (table : List (TableEntry D)) (addr len : UInt64) : Except LookupError (D × UInt64) :=
  match table.find? (·.contains addr) with
  | none => .error .noDevice
  | some te =>
    if addr+len > te.vaddrEnd then .error .unsupported
    else .ok (te.dev,te.physStart+(addr-te.vaddrStart))

structure Pending (H : Type) where
  host : H
  write : Bool
  reqId : UInt64
  addr : UInt64
  len : ℕ
  deriving DecidableEq, Repr

def deviceRead (p : UInt64) (pending : Pending H) : H2M :=
  .read p 0 pending.addr (UInt16.ofNat pending.len)

def deviceWrite (p : UInt64) (pending : Pending H) (data : List UInt8) (posted : Bool) : H2M :=
  if posted then .writePosted 0 0 pending.addr (data.take pending.len)
  else .write p 0 pending.addr (data.take pending.len)

def completePendingR (pending : Pending H) (data : List UInt8) : M2H :=
  .readcomp pending.reqId (data.take pending.len)

def completePendingW (pending : Pending H) : M2H := .writecomp pending.reqId

/-- `issued`, `served` and `hostOut` are logs: the requests by ticket, what
each device has taken up and its data, and the completions sent to each host. -/
structure State (H D : Type) where
  issued : List (H × H2M) := []
  hostIn : H → List (ℕ × H2M) := fun _ => []
  toDev : D → List (ℕ × H2M) := fun _ => []
  served : D → List (ℕ × H2M × List UInt8) := fun _ => []
  fromDev : D → List (ℕ × M2H) := fun _ => []
  hostOut : H → List (ℕ × M2H) := fun _ => []
  heap : Table UInt64 (Pending H) := ∅

inductive Event (H D : Type) where
  | issue (h : H) (r : H2M)
  | hostPoll (h : H) (p : UInt64)
  | answer (d : D) (i : ℕ) (data : List UInt8)
  | devicePoll (d : D)

def Event.isIssue : Event H D → Bool
  | .issue _ _ => true
  | _ => false

variable [DecidableEq H] [DecidableEq D]

namespace State

def issue (s : State H D) (h : H) (r : H2M) : State H D := { s with
    issued := s.issued++[(h,r)]
    hostIn := update s.hostIn h (s.hostIn h++[(s.issued.length,r)]) }

def hostPoll (table : List (TableEntry D)) (s : State H D) (h : H) (p : UInt64) :
    Option (State H D) :=
  match s.hostIn h with
  | [] => some s
  | (t,r)::rest =>
    match lookup table r.addr (ofNat r.len) with
    | .error _ => none
    | .ok (dev,addr) =>
      let pending : Pending H := ⟨h,false,r.reqId,addr,r.len⟩
      let heap := Finmap.insert p pending s.heap
      let (msg,heap) := match r with
        | .read _ _ _ _ => (deviceRead p pending,heap)
        | .write _ _ _ data => (deviceWrite p pending data false,heap)
        | .writePosted _ _ _ data => (deviceWrite p pending data true,heap.erase p)
      some { s with
        hostIn := update s.hostIn h rest
        toDev := update s.toDev dev (s.toDev dev++[(t,msg)])
        heap := heap }

def devicePoll (s : State H D) (d : D) : Option (State H D) :=
  match s.fromDev d with
  | [] => some s
  | (t,c)::rest =>
    match s.heap.lookup c.reqId with
    | none => none
    | some pending =>
      let out := match c with
        | .readcomp _ data => completePendingR pending data
        | .writecomp _ => completePendingW pending
      some { s with
        fromDev := update s.fromDev d rest
        hostOut := update s.hostOut pending.host (s.hostOut pending.host++[(t,out)])
        heap := s.heap.erase c.reqId }

end State

def reply : H2M → List UInt8 → Option M2H
  | .read p _ _ _, data => some (.readcomp p data)
  | .write p _ _ _, _ => some (.writecomp p)
  | .writePosted _ _ _ _, _ => none

def State.answer (s : State H D) (d : D) (i : ℕ) (data : List UInt8) : State H D :=
  match (s.toDev d)[i]? with
  | none => s
  | some (t,msg) =>
    { s with
      toDev := update s.toDev d ((s.toDev d).eraseIdx i)
      served := update s.served d (s.served d++[(t,msg,data)])
      fromDev := update s.fromDev d (s.fromDev d++((reply msg data).map (t,·)).toList) }

def step (table : List (TableEntry D)) : Option (State H D) → Event H D → Option (State H D)
  | none, _ => none
  | some s, .issue h r => some (s.issue h r)
  | some s, .hostPoll h p => s.hostPoll table h p
  | some s, .answer d i data => some (s.answer d i data)
  | some s, .devicePoll d => s.devicePoll d

/-! ## What the interconnect is for -/

/-- The first window that contains the start of the request contains all of it. -/
def Mapped (table : List (TableEntry D)) (r : H2M) : Prop :=
  match table.find? (·.contains r.addr) with
  | some te => r.addr.toNat+r.len ≤ te.vaddrEnd.toNat
  | none => False

instance (table : List (TableEntry D)) (r : H2M) : Decidable (Mapped table r) :=
  match hf : table.find? (·.contains r.addr) with
  | some te => decidable_of_iff (r.addr.toNat+r.len ≤ te.vaddrEnd.toNat) (by simp [Mapped, hf])
  | none => .isFalse (by simp [Mapped, hf])

/-- A read is answered with the bytes asked for. -/
def Sized (data : List UInt8) : H2M → Prop
  | .read _ _ _ len => data.length = len.toNat
  | _ => True

instance (data : List UInt8) : ∀ m, Decidable (Sized data m)
  | .read _ _ _ _ => inferInstanceAs (Decidable (_ = _))
  | .write _ _ _ _ | .writePosted _ _ _ _ => .isTrue trivial

/-- Requests are mapped, records get addresses that are not in use, and a
device answers a read with as many bytes as it asks for. -/
def Legal (table : List (TableEntry D)) : Option (State H D) → Event H D → Prop
  | some _, .issue _ r => Mapped table r
  | some s, .hostPoll _ p => s.heap.lookup p = none
  | some s, .answer d i data => ∀ x ∈ (s.toDev d)[i]?, Sized data x.2
  | _, _ => True

instance (table : List (TableEntry D)) :
    ∀ (s : Option (State H D)) (e : Event H D), Decidable (Legal table s e)
  | some _, .issue _ r => inferInstanceAs (Decidable (Mapped table r))
  | some s, .hostPoll _ p => inferInstanceAs (Decidable (s.heap.lookup p = none))
  | some s, .answer d i data =>
    inferInstanceAs (Decidable (∀ x ∈ (s.toDev d)[i]?, Sized data x.2))
  | some _, .devicePoll _ => inferInstanceAs (Decidable True)
  | none, e => .isTrue (by cases e <;> trivial)

def target (table : List (TableEntry D)) (r : H2M) : Except LookupError (D × UInt64) :=
  lookup table r.addr (ofNat r.len)

def deviceMsg (p addr : UInt64) : H2M → H2M
  | .read _ _ _ len => .read p 0 addr len
  | .write _ _ _ data => .write p 0 addr data
  | .writePosted _ _ _ data => .writePosted 0 0 addr data

def completion (data : List UInt8) : H2M → M2H
  | .read reqId _ _ _ => .readcomp reqId data
  | .write reqId _ _ _ | .writePosted reqId _ _ _ => .writecomp reqId

def pendingOf (h : H) (addr : UInt64) (r : H2M) : Pending H := ⟨h,false,r.reqId,addr,r.len⟩

namespace State

/-- A request without completion that a device has got under the id `p`. -/
def Outstanding (s : State H D) (t : ℕ) (p : UInt64) : Prop :=
  (∃ d m, (t,m) ∈ s.toDev d ∧ m.posted = false ∧ m.reqId = p) ∨
  ∃ d c, (t,c) ∈ s.fromDev d ∧ c.reqId = p

def reached (s : State H D) (d : D) : List (ℕ × H2M) :=
  s.toDev d++(s.served d).map fun x => (x.1,x.2.1)

def Quiet (s : State H D) : Prop := (∀ h, s.hostIn h = []) ∧ ∀ d, s.toDev d = [] ∧ s.fromDev d = []

end State

structure Transparent (table : List (TableEntry D)) (s : State H D) : Prop where
  completed : ∀ h t c, (t,c) ∈ s.hostOut h → ∃ r d addr p data,
    s.issued[t]? = some (h,r) ∧ r.posted = false ∧ target table r = .ok (d,addr) ∧
    (t,deviceMsg p addr r,data) ∈ s.served d ∧ c = completion data r
  once : ∀ h, ((s.hostOut h).map Prod.fst).Nodup
  answered : ∀ t h r, s.issued[t]? = some (h,r) → r.posted = false →
    ((∃ c, (t,c) ∈ s.hostOut h) ↔ (t,r) ∉ s.hostIn h ∧ ∀ p, ¬ s.Outstanding t p)
  posted : ∀ t h r, s.issued[t]? = some (h,r) → r.posted → ∀ h' c, (t,c) ∉ s.hostOut h'
  reached : ∀ t h r, s.issued[t]? = some (h,r) → (t,r) ∉ s.hostIn h →
    ∃ d addr p, target table r = .ok (d,addr) ∧ (t,deviceMsg p addr r) ∈ s.reached d ∧
      ∀ d' m, (t,m) ∈ s.reached d' → d' = d
  reachedOnce : ∀ d, ((s.reached d).map Prod.fst).Nodup
  records : ∀ p, s.heap.lookup p ≠ none ↔ ∃ t, s.Outstanding t p
  record : ∀ t p, s.Outstanding t p → ∃ h r d addr, s.issued[t]? = some (h,r) ∧
    r.posted = false ∧ target table r = .ok (d,addr) ∧
    s.heap.lookup p = some (pendingOf h addr r)
  owner : ∀ t u p, s.Outstanding t p → s.Outstanding u p → t = u
  recordOnce : ∀ t p q, s.Outstanding t p → s.Outstanding t q → p = q

/-! ## Single functions -/

omit [DecidableEq H] [DecidableEq D] in
lemma target_of_mapped {table : List (TableEntry D)} {r : H2M} (h : Mapped table r) :
    ∃ d addr, target table r = .ok (d,addr) := by
  unfold Mapped at h
  split at h
  case h_2 => exact h.elim
  case h_1 te hfind =>
  have hle := h
  have hfit : r.addr.toNat+r.len < 2^64 := Nat.lt_of_le_of_lt hle te.vaddrEnd.toNat_lt
  have hsum : (r.addr+ofNat r.len).toNat = r.addr.toNat+r.len := by
    rw [UInt64.toNat_add, UInt64.toNat_ofNat']
    omega
  have hnot : ¬ r.addr+ofNat r.len > te.vaddrEnd := by
    rw [gt_iff_lt, lt_iff_toNat_lt, hsum]
    omega
  exact ⟨_,_,by rw [target, lookup, hfind]; exact if_neg hnot⟩

section
variable {table : List (TableEntry D)} {s : State H D} {h : H} {d : D} {t : ℕ} {r : H2M}
  {p addr : UInt64}

lemma hostPoll_eq {rest : List (ℕ × H2M)} (hq : s.hostIn h = (t,r)::rest)
    (ht : target table r = .ok (d,addr)) (hp : s.heap.lookup p = none) :
    s.hostPoll table h p = some { s with
      hostIn := update s.hostIn h rest
      toDev := update s.toDev d (s.toDev d++[(t,deviceMsg p addr r)])
      heap := if r.posted then s.heap else Finmap.insert p (pendingOf h addr r) s.heap } := by
  unfold State.hostPoll
  rw [hq]
  dsimp only
  rw [← target, ht]
  cases r with
  | read => simp [deviceRead, deviceMsg, pendingOf, H2M.len, H2M.posted]
  | write => simp [deviceWrite, deviceMsg, pendingOf, H2M.len, H2M.posted]
  | writePosted =>
    simp [deviceWrite, deviceMsg, H2M.len, H2M.posted, Table.erase_insert_untracked hp]

lemma devicePoll_eq {rest : List (ℕ × M2H)} {c : M2H} {data : List UInt8}
    (hq : s.fromDev d = (t,c)::rest) (hp : s.heap.lookup p = some (pendingOf h addr r))
    (hc : reply (deviceMsg p addr r) data = some c)
    (hlen : Sized data r) :
    s.devicePoll d = some { s with
      fromDev := update s.fromDev d rest
      hostOut := update s.hostOut h (s.hostOut h++[(t,completion data r)])
      heap := s.heap.erase p } := by
  unfold State.devicePoll
  rw [hq]
  cases r with
  | read reqId asId a len =>
    cases hc
    have htake : data.take len.toNat = data := List.take_of_length_le hlen.le
    simp [M2H.reqId, hp, completePendingR, completion, pendingOf, H2M.reqId, H2M.len, htake]
  | write =>
    cases hc
    simp [M2H.reqId, hp, completePendingW, completion, pendingOf, H2M.reqId]
  | writePosted => cases hc

end

end SimBricks.Interconnect
