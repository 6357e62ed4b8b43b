import Mathlib.Tactic

/-!
# The base interface of `base/if.h`

A handle keeps its own positions and timestamps; what it reads from shared
memory is passed in as an argument. `ready` is the slot at `in_pos` if the
load of `own_type` found it consumer-owned, `free` whether the load at
`out_pos` found the slot producer-owned. Connection setup is left out.
-/

set_option autoImplicit false

namespace SimBricks.BaseIf

def kOwnMask : UInt8 := 0x80
def kOwnPro : UInt8 := 0x00
def kOwnCon : UInt8 := 0x80
def kTypeSync : UInt8 := 0x00
def kTypeTerminate : UInt8 := 0x01
def kTimestampMax : UInt64 := 0xffffffffffffffff

abbrev MsgType := { t : UInt8 // t &&& kOwnMask = 0 }

def MsgType.sync : MsgType := ⟨kTypeSync,by decide⟩

structure Handle where
  inPos : ℕ := 0
  inEnum : ℕ
  inTimestamp : UInt64 := 0
  outPos : ℕ := 0
  outEnum : ℕ
  outTimestamp : UInt64 := 0
  inTerminated : Bool := false
  sync : Bool
  linkLatency : UInt64
  syncInterval : UInt64
  deriving DecidableEq, Repr

def inType (ownType : UInt8) : UInt8 := ownType &&& ~~~kOwnMask

def conOwned (ownType : UInt8) : Bool := ownType &&& kOwnMask = kOwnCon

def proOwned (ownType : UInt8) : Bool := ownType &&& kOwnMask = kOwnPro

def sendType (t : MsgType) : UInt8 := t.val ||| kOwnCon

def doneType (ownType : UInt8) : UInt8 := (ownType &&& ~~~kOwnMask) ||| kOwnPro

@[simp] lemma inType_sendType (t : MsgType) : inType (sendType t) = t.val := by
  obtain ⟨⟨x⟩,h⟩ := t
  revert x
  decide

@[simp] lemma conOwned_sendType (t : MsgType) : conOwned (sendType t) := by
  obtain ⟨⟨x⟩,h⟩ := t
  revert x
  decide

@[simp] lemma proOwned_doneType (o : UInt8) : proOwned (doneType o) := by
  obtain ⟨x⟩ := o
  revert x
  decide

lemma proOwned_eq_not (o : UInt8) : proOwned o = !conOwned o := by
  obtain ⟨x⟩ := o
  revert x
  decide

namespace Handle

def inPeek (b : Handle) (ready : Option UInt64) (timestamp : UInt64) : Handle × Bool :=
  match ready with
  | none => (b,false)
  | some t =>
    let b := { b with inTimestamp := t }
    if b.sync ∧ timestamp < b.inTimestamp then (b,false) else (b,true)

def inTake (b : Handle) (type : UInt8) : Handle :=
  let b := { b with inPos := (b.inPos+1) % b.inEnum }
  if type = kTypeTerminate then
    { b with
      inTerminated := true, sync := false
      inTimestamp := kTimestampMax, outTimestamp := kTimestampMax }
  else b

def inPoll (b : Handle) (ready : Option (UInt64 × UInt8)) (timestamp : UInt64) : Handle × Bool :=
  match b.inPeek (ready.map Prod.fst) timestamp, ready with
  | (b,true), some (_,type) => (b.inTake type,true)
  | (b,_), _ => (b,false)

def outAlloc (b : Handle) (free : Bool) (timestamp : UInt64) : Option (Handle × UInt64) :=
  if free then
    some ({ b with outTimestamp := timestamp, outPos := (b.outPos+1) % b.outEnum },
      timestamp+b.linkLatency)
  else none

def upToDate (b : Handle) (timestamp : UInt64) : Bool :=
  !b.sync || (0 < b.outTimestamp && timestamp-b.outTimestamp < b.syncInterval)

/-- `SimbricksBaseIfOutSync`: the handle after it, the header timestamp of the
message if one was sent, and whether 0 is returned. -/
def outSync (b : Handle) (free : Bool) (timestamp : UInt64) : Handle × Option UInt64 × Bool :=
  if b.upToDate timestamp then (b,none,true)
  else match b.outAlloc free timestamp with
  | none => (b,none,false)
  | some (b,t) => (b,some t,true)

def outNextSync (b : Handle) : UInt64 :=
  if b.outTimestamp = kTimestampMax then kTimestampMax else b.outTimestamp+b.syncInterval

def nextTimestamp (b : Handle) : UInt64 :=
  if b.inTimestamp ≤ b.outNextSync then b.inTimestamp else b.outNextSync

/-- What one poll does to a handle whose peer sends no termination. -/
inductive Polled (b : Handle) (ready : Option (UInt64 × UInt8)) (timestamp : UInt64) :
    Handle × Bool → Prop where
  | empty (h : ready = none) : Polled b ready timestamp (b,false)
  | early (t : UInt64) (type : UInt8) (h : ready = some (t,type)) (hs : b.sync)
      (ht : timestamp < t) : Polled b ready timestamp ({ b with inTimestamp := t },false)
  | taken (t : UInt64) (type : UInt8) (h : ready = some (t,type))
      (ht : b.sync → t ≤ timestamp) : Polled b ready timestamp
        ({ b with inTimestamp := t, inPos := (b.inPos+1) % b.inEnum },true)

lemma inPoll_spec (b : Handle) (ready : Option (UInt64 × UInt8)) (timestamp : UInt64)
    (hlive : ∀ x, ready = some x → x.2 ≠ kTypeTerminate) :
    Polled b ready timestamp (b.inPoll ready timestamp) := by
  cases ready with
  | none => exact .empty rfl
  | some x =>
    obtain ⟨t,type⟩ := x
    have hlive : type ≠ kTypeTerminate := hlive _ rfl
    unfold inPoll
    simp only [Option.map_some, inPeek]
    by_cases h : b.sync ∧ timestamp < t
    · simp only [if_pos h]
      exact .early t type rfl h.1 h.2
    · simp only [if_neg h, inTake, if_neg hlive]
      exact .taken t type rfl fun hs => UInt64.not_lt.mp fun ht => h ⟨hs,ht⟩

lemma outSync_cases (b : Handle) (free : Bool) (timestamp : UInt64) :
    (b.upToDate timestamp ∧ b.outSync free timestamp = (b,none,true)) ∨ (b.upToDate
    timestamp = false ∧ b.outSync free timestamp =
    ({ b with outTimestamp := timestamp, outPos := (b.outPos+1) % b.outEnum },
        some (timestamp+b.linkLatency),true)) ∨
    (free = false ∧ b.outSync free timestamp = (b,none,false)) := by
  cases h : b.upToDate timestamp with
  | true => exact .inl ⟨rfl,by simp [outSync, h]⟩
  | false =>
    cases free with
    | true => exact .inr (.inl ⟨rfl,by simp [outSync, outAlloc, h]⟩)
    | false => exact .inr (.inr ⟨rfl,by simp [outSync, outAlloc, h]⟩)

/-- A synchronized handle that keeps quiet has sent less than an interval ago. -/
lemma upToDate_iff {b : Handle} (hs : b.sync) (timestamp : UInt64)
    (hp : b.outTimestamp ≤ timestamp) :
    b.upToDate timestamp ↔ 0 < b.outTimestamp.toNat ∧
    timestamp.toNat < b.outTimestamp.toNat+b.syncInterval.toNat := by
  have hle := UInt64.le_iff_toNat_le.mp hp
  simp only [upToDate, hs, Bool.not_true, Bool.false_or, Bool.and_eq_true, decide_eq_true_eq,
    UInt64.lt_iff_toNat_lt, UInt64.toNat_sub_of_le _ _ hp, UInt64.toNat_zero]
  omega

lemma outNextSync_toNat {b : Handle}
    (h : b.outTimestamp.toNat+b.syncInterval.toNat < 2^64) (hpos : 0 < b.syncInterval.toNat) :
    b.outNextSync.toNat = b.outTimestamp.toNat+b.syncInterval.toNat := by
  have hne : b.outTimestamp ≠ kTimestampMax := by
    intro he
    rw [he] at h
    have : kTimestampMax.toNat = 2^64-1 := by decide
    omega
  rw [outNextSync, if_neg hne, UInt64.toNat_add, Nat.mod_eq_of_lt h]

end Handle

end SimBricks.BaseIf
