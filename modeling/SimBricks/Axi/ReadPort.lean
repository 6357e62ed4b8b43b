import SimBricks.Axi.Subordinate
import SimBricks.Library.Table

/-!
# The read port of the AXI subordinate

Accepted bursts wait in a deque, are fetched in any order and answered from
the front. References into the deque are kept as positions counted from the
first operation ever accepted.
-/

set_option autoImplicit false

namespace SimBricks.AxiReadPort
open Library Library.Run Library.Bytes AxiSubordinate List Function Option Nat Bool

/-- An INCR burst of a conformant manager, aligned to its transfer size. -/
structure Request (bus : Bus) where
  addr : ℕ
  id : UInt32
  len : UInt8
  size : ℕ
  size_le : 2^size ≤ bus.bytesData
  aligned : 2^size ∣ addr

structure ReadBeat where
  rId : UInt32
  rData : Memory
  rLast : Bool

structure AXISubordinateRead where
  arReady : Bool := false
  rValid : Bool := false
  beat : ReadBeat := ⟨0,fun _ => 0,false⟩
  arReadyTmp : Bool := false
  rValidTmp : Bool := false
  beatTmp : ReadBeat := ⟨0,fun _ => 0,false⟩
  pending : List AXIOperation := []
  popped : ℕ := 0
  idOpMap : Table UInt64 ℕ := ∅
  curOp : Option ℕ := none
  curOff : ℕ := 0
  rollingId : UInt32 := 0

variable {bus : Bus}

namespace AXISubordinateRead

def deref (s : AXISubordinateRead) (q : ℕ) : Option AXIOperation :=
  if s.popped ≤ q then s.pending[q-s.popped]? else none

/-- `none` is an access through a null or dangling pointer, an exception or a
failed assertion, here and below. -/
def sendNextDataSegment (bus : Bus) (s : AXISubordinateRead) : Option AXISubordinateRead := do
  let op ← s.deref (← s.curOp)
  let off := s.curOff+numBytes bus op s.curOff
  return { s with
    curOff := off
    beatTmp := { s.beatTmp with
      rData := store (fun _ => 0) (align bus op s.curOff)
        (load op.buf s.curOff (numBytes bus op s.curOff))
      rLast := off = op.len } }

def dataPort (bus : Bus) (s : AXISubordinateRead) (rReady : Bool) : Option AXISubordinateRead :=
  if s.beat.rLast && s.rValid && rReady then do
    let op ← s.deref (← s.curOp)
    return { s with
      idOpMap := s.idOpMap.erase op.id, curOp := none, pending := s.pending.tail
      popped := s.popped+1, curOff := 0, rValidTmp := false, beatTmp := ⟨0,fun _ => 0,false⟩ }
  else if rReady && s.rValid then s.sendNextDataSegment bus
  else some s

def simbricksId (id rollingId : UInt32) : UInt64 := id.toUInt64 <<< 32 ||| rollingId.toUInt64

def addressPort (s : AXISubordinateRead) (ar : Option (Request bus)) :
    Option (AXISubordinateRead × Option AXIOperation) :=
  match ar, s.arReady with
  | some ar, true =>
    let id := simbricksId ar.id s.rollingId
    let op := AXIOperation.new ar.addr (pow2 ar.size*(ar.len.toNat+1)) id (pow2 ar.size)
    if (s.idOpMap.lookup id).isSome then none
    else some ({ s with
      rollingId := s.rollingId+1, pending := s.pending++[op]
      idOpMap := s.idOpMap.insert id (s.popped+s.pending.length) },some op)
  | _, _ => some (s,none)

def startStream (bus : Bus) (s : AXISubordinateRead) : Option AXISubordinateRead :=
  match s.curOp, s.pending with
  | none, op::_ =>
    if op.completed then
      sendNextDataSegment bus { s with
        curOp := some s.popped, rValidTmp := true
        beatTmp := { s.beatTmp with rId := (op.id >>> 32).toUInt32 } }
    else some s
  | _, _ => some s

def step (s : AXISubordinateRead) (ar : Option (Request bus)) (rReady : Bool) :
    Option (AXISubordinateRead × Option AXIOperation) := do
  let s ← s.dataPort bus rReady
  let (s,out) ← s.addressPort ar
  let s ← startStream bus { s with arReadyTmp := s.pending.length < bus.maxInFlight }
  return (s,out)

def stepApply (s : AXISubordinateRead) : AXISubordinateRead :=
  { s with arReady := s.arReadyTmp, rValid := s.rValidTmp, beat := s.beatTmp }

def readDone (s : AXISubordinateRead) (id : UInt64) (data : Memory) :
    Option AXISubordinateRead := do
  let q ← s.idOpMap.lookup id
  let op ← s.deref q
  return { s with
    pending := s.pending.set (q-s.popped)
      { op with buf := store op.buf 0 (load data 0 op.len), completed := true } }

end AXISubordinateRead

/-! ## The manager and the memory behind the port -/

/-- What the manager has still to ask for, what was accepted, the ids passed
to `do_read`, the data each of these calls was answered with, and the beats
that went over. -/
structure World (bus : Bus) where
  sub : AXISubordinateRead := {}
  ar : List (Request bus)
  accepted : List (Request bus) := []
  asked : List UInt64 := []
  fetched : ℕ → Option Memory := fun _ => none
  beats : List ReadBeat := []
  halted : Bool := false

inductive Event where
  | cycle (arValid rReady : Bool)
  | readDone (q : ℕ) (data : Memory)

def World.handshake (w : World bus) (arValid : Bool) : Option (Request bus) :=
  if arValid && w.sub.arReady then w.ar.head? else none

/-- `readDone q` answers the `q`-th `do_read`, if it has not been answered. -/
def World.step (w : World bus) (e : Event) : World bus :=
  if w.halted then w
  else match e with
    | .cycle arValid rReady =>
      match w.sub.step (if arValid then w.ar.head? else none) rReady with
      | none => { w with halted := true }
      | some (sub,out) => { w with
        sub := sub.stepApply
        ar := if arValid && w.sub.arReady then w.ar.tail else w.ar
        accepted := w.accepted++(w.handshake arValid).toList
        asked := w.asked++(out.map AXIOperation.id).toList
        beats := if w.sub.rValid && rReady then w.beats++[w.sub.beat] else w.beats }
    | .readDone q data =>
      match w.asked[q]?, w.fetched q with
      | some id, none =>
        match w.sub.readDone id data with
        | none => { w with halted := true }
        | some sub => { w with sub := sub, fetched := update w.fetched q (some data) }
      | _, _ => w

def beatOf (r : Request bus) (data : Memory) (i : ℕ) : ReadBeat :=
  ⟨r.id,store (fun _ => 0) ((r.addr+i*2^r.size) % bus.bytesData)
  (load data (i*2^r.size) (2^r.size)),
    i = r.len.toNat⟩

def burstOf (r : Request bus) (data : Memory) : List ReadBeat :=
  (range (r.len.toNat+1)).map (beatOf r data)

def due (acc : List (Request bus)) (fet : ℕ → Option Memory) (q : ℕ) : List ReadBeat :=
  match acc[q]?, fet q with
  | some r, some data => burstOf r data
  | _, _ => []

/-! ## One operation -/

def idOf (r : Request bus) (q : ℕ) : UInt64 := AXISubordinateRead.simbricksId r.id (UInt32.ofNat q)

def opFor (r : Request bus) (q : ℕ) (f : Option Memory) : AXIOperation where
  addr := r.addr
  len := 2^r.size*(r.len.toNat+1)
  id := idOf r q
  buf := match f with
    | none => fun _ => 0
    | some data => store (fun _ => 0) 0 (load data 0 (2^r.size*(r.len.toNat+1)))
  stepSize := 2^r.size
  completed := f.isSome

open AXISubordinateRead

lemma simbricksId_toNat (id x : UInt32) : (simbricksId id x).toNat = 2^32*id.toNat+x.toNat := by
  have hid : id.toNat < 2^32 := id.toNat_lt
  have hx : x.toNat < 2^32 := x.toNat_lt
  have hfit : id.toNat*2^32 < 2^64 := by omega
  have h32 : UInt64.toNat 32 % 64 = 32 := rfl
  rw [simbricksId, UInt64.toNat_or, UInt64.toNat_shiftLeft,
    UInt32.toNat_toUInt64, UInt32.toNat_toUInt64, two_pow_add_eq_or_of_lt hx, h32,
    shiftLeft_eq, mod_eq_of_lt hfit, mul_comm]

lemma simbricksId_shift (id x : UInt32) : (simbricksId id x >>> 32).toUInt32 = id := by
  have hid : id.toNat < 2^32 := id.toNat_lt
  have hx : x.toNat < 2^32 := x.toNat_lt
  have h32 : UInt64.toNat 32 % 64 = 32 := rfl
  apply UInt32.toNat_inj.mp
  rw [UInt64.toNat_toUInt32, UInt64.toNat_shiftRight, simbricksId_toNat, h32,
    shiftRight_eq_div_pow]
  omega

variable {acc : List (Request bus)} {fet : ℕ → Option Memory} {s : AXISubordinateRead}

structure Core (s : AXISubordinateRead) (acc : List (Request bus)) (fet : ℕ → Option Memory) :
    Prop where
  count : s.popped+s.pending.length = acc.length
  pending : ∀ i, s.pending[i]? =
    acc[s.popped+i]?.map fun r => opFor r (s.popped+i) (fet (s.popped+i))
  rolling : s.rollingId = UInt32.ofNat acc.length
  map : ∀ id q, s.idOpMap.lookup id = some q ↔ s.popped ≤ q ∧ ∃ r, acc[q]? = some r ∧ idOf r q = id
  answered : ∀ q < s.popped, (fet q).isSome
  unasked : ∀ q, acc.length ≤ q → fet q = none

/-- The data channel as it will be driven: nothing, or beat `k` of the front burst. -/
inductive Stream (s : AXISubordinateRead) (acc : List (Request bus)) (fet : ℕ → Option Memory)
    (beats : List ReadBeat) : Prop where
  | idle (hop : s.curOp = none) (hv : s.rValidTmp = false) (hoff : s.curOff = 0)
      (hbeats : beats = (range s.popped).flatMap (due acc fet))
  | busy (r : Request bus) (data : Memory) (k : ℕ) (hop : s.curOp = some s.popped)
      (hv : s.rValidTmp) (hr : acc[s.popped]? = some r) (hd : fet s.popped = some data)
      (hk : k ≤ r.len.toNat) (hoff : s.curOff = (k+1)*2^r.size)
      (hbeat : s.beatTmp = beatOf r data k)
      (hbeats : beats = (range s.popped).flatMap (due acc fet)++(burstOf r data).take k)

variable {k : ℕ} {r : Request bus} {t : AXISubordinateRead} {q : ℕ} {beats : List ReadBeat}

lemma load_store_load (m d : Memory) {a n : ℕ} (h : a+k ≤ n) :
    load (store m 0 (load d 0 n)) a k = load d a k := by
  refine map_congr_left fun i hi => ?_
  have hlt : a+i < n := by
    have := mem_range.mp hi
    omega
  simp [store, load, hlt]

section
variable (hc : Core s acc fet)
include hc

lemma Core.front (hr : acc[s.popped]? = some r) :
    s.deref s.popped = some (opFor r s.popped (fet s.popped)) ∧
    s.pending = opFor r s.popped (fet s.popped)::s.pending.tail := by
  have h0 := hc.pending 0
  rw [add_zero, hr, map_some] at h0
  refine ⟨by simpa [deref] using h0,?_⟩
  cases hp : s.pending with
  | nil => simp [hp] at h0
  | cons =>
    rw [hp, getElem?_cons_zero] at h0
    rw [some.inj h0, tail_cons]

lemma send_ok {data : Memory} (hr : acc[s.popped]? = some r)
    (hd : fet s.popped = some data) (hop : s.curOp = some s.popped) (hoff : s.curOff = k*2^r.size)
    (hk : k ≤ r.len.toNat) (hid : s.beatTmp.rId = r.id) : s.sendNextDataSegment bus = some { s with
    curOff := (k+1)*2^r.size, beatTmp := beatOf r data k } := by
  have hfront := (hc.front hr).1
  rw [hd] at hfront
  have hpos : 0 < 2^r.size := Nat.two_pow_pos _
  have hnum : numBytes bus (opFor r s.popped (some data)) (k*2^r.size) = 2^r.size :=
    @numBytes_aligned bus (opFor r s.popped (some data)) _ _ (bus.dvd r.size_le) r.aligned hpos rfl
      (lt_succ_of_le hk)
  have hend : k*2^r.size+2^r.size ≤ 2^r.size*(r.len.toNat+1) := by
    rw [← succ_mul, mul_comm]
    exact Nat.mul_le_mul_left _ (Nat.succ_le_succ hk)
  have hlast : ((k+1)*2^r.size = 2^r.size*(r.len.toNat+1)) ↔ k = r.len.toNat := by
    rw [Nat.mul_comm, Nat.mul_right_inj hpos.ne']
    omega
  have hbuf : load (opFor r s.popped (some data)).buf (k*2^r.size) (2^r.size) =
      load data (k*2^r.size) (2^r.size) := load_store_load _ _ hend
  simp only [sendNextDataSegment, hop, hoff, hfront, bind_eq_bind,
    Option.bind_some, hnum, hbuf, ← Nat.succ_mul, Option.pure_def]
  congr 2
  congr 1
  exact decide_eq_decide.mpr hlast

lemma Core.congr (hp : t.pending = s.pending) (hq : t.popped = s.popped)
    (hm : t.idOpMap = s.idOpMap) (hr : t.rollingId = s.rollingId) : Core t acc fet := by
  obtain ⟨h1,h2,h3,h4,h5,h6⟩ := hc
  rw [← hp, ← hq] at *
  exact ⟨h1,h2,hr ▸ h3,fun id q => by rw [hm]; exact h4 id q,h5,h6⟩

lemma Core.pop (hr : acc[s.popped]? = some r)
    (hd : (fet s.popped).isSome) (hp : t.pending = s.pending.tail)
    (hq : t.popped = s.popped+1) (hm : t.idOpMap = s.idOpMap.erase (idOf r s.popped))
    (hro : t.rollingId = s.rollingId) : Core t acc fet := by
  obtain ⟨-,hfront⟩ := hc.front hr
  constructor
  case count =>
    have := hc.count
    rw [hfront, length_cons] at this
    rw [hp, hq]
    omega
  case pending =>
    intro i
    have := hc.pending (i+1)
    rw [hfront, getElem?_cons_succ] at this
    rw [hp, hq, this, add_right_comm, add_assoc]
  case rolling => rw [hro, hc.rolling]
  case map =>
    intro id q
    rw [hm, hq]
    by_cases hid : id = idOf r s.popped
    · subst hid
      refine iff_of_false (by simp) ?_
      rintro ⟨hle,r',hr',hid⟩
      -- a later operation with the same id would be the one the map leads to
      have h1 := (hc.map (idOf r s.popped) q).mpr ⟨by omega,r',hr',hid⟩
      have h2 := (hc.map (idOf r s.popped) s.popped).mpr ⟨le_rfl,r,hr,rfl⟩
      have := Option.some.inj (h1.symm.trans h2)
      omega
    · rw [Finmap.lookup_erase_ne hid, hc.map]
      constructor
      · rintro ⟨hle,r',hr',rfl⟩
        refine ⟨?_,r',hr',rfl⟩
        rcases lt_or_eq_of_le hle with hlt | rfl
        · exact hlt
        · cases hr.symm.trans hr'
          exact absurd rfl hid
      · rintro ⟨hle,r',hr',rfl⟩
        exact ⟨Nat.le_of_succ_le hle,r',hr',rfl⟩
  case answered =>
    intro q hlt
    rw [hq] at hlt
    rcases Nat.lt_succ_iff_lt_or_eq.mp hlt with h | rfl
    · exact hc.answered q h
    · exact hd
  case unasked => exact hc.unasked

omit hc in
lemma burstOf_take_succ (r : Request bus) (data : Memory) (hk : k ≤ r.len.toNat) :
    (burstOf r data).take (k+1) = (burstOf r data).take k++[beatOf r data k] := by
  rw [take_add_one, burstOf, getElem?_map, getElem?_range (lt_succ_of_le hk)]
  rfl

omit hc in
lemma due_eq {data : Memory} (hr : acc[q]? = some r) (hd : fet q = some data) :
    due acc fet q = burstOf r data := by
  simp [due, hr, hd]

lemma dataPort_ok (hs : Stream s acc fet beats) (hv : s.rValid = s.rValidTmp)
    (hb : s.beat = s.beatTmp) (rReady : Bool) :
    ∃ t, s.dataPort bus rReady = some t ∧ Core t acc fet ∧
    Stream t acc fet (if s.rValid && rReady then beats++[s.beat] else beats) ∧
    t.arReady = s.arReady ∧ t.pending.length ≤ s.pending.length ∧
    (s.rValid = false → t.pending = s.pending) := by
  cases hs with
  | idle hop hvt hoff hbeats =>
    have hval : s.rValid = false := hv.trans hvt
    refine ⟨s,by simp [dataPort, hval],hc,?_,rfl,le_rfl,fun _ => rfl⟩
    rw [hval]
    exact .idle hop hvt hoff hbeats
  | busy r data k hop hvt hr hd hk hoff hbeat hbeats =>
    have hval : s.rValid := hv.trans hvt
    have hlast : s.beat.rLast = decide (k = r.len.toNat) := by rw [hb, hbeat, beatOf]
    have hnot : s.rValid ≠ false := by simp [hval]
    cases rReady with
    | false =>
      refine ⟨s,by simp [dataPort],hc,?_,rfl,le_rfl,fun _ => rfl⟩
      rw [Bool.and_false]
      exact .busy r data k hop hvt hr hd hk hoff hbeat hbeats
    | true =>
      have hnew : beats++[s.beat] =
          (List.range s.popped).flatMap (due acc fet)++(burstOf r data).take (k+1) := by
        rw [burstOf_take_succ r data hk, hbeats, hb, hbeat, List.append_assoc]
      rw [hval] at hnot ⊢
      unfold dataPort
      rw [hlast, hval]
      by_cases he : k = r.len.toNat
      · obtain ⟨hderef,_⟩ := hc.front hr
        have hsome : (fet s.popped).isSome := by rw [hd]; rfl
        simp only [he, decide_true, Bool.and_self, if_true, hop, hderef, Option.bind_eq_bind,
          Option.bind_some, Option.pure_def]
        refine ⟨_,rfl,hc.pop hr hsome rfl rfl rfl rfl,?_,rfl,by simp,fun h => absurd h hnot⟩
        refine .idle rfl rfl rfl ?_
        have hfull : (burstOf r data).take (k+1) = burstOf r data :=
          List.take_of_length_le (by simp [burstOf, he])
        rw [hnew, hfull, List.range_succ, List.flatMap_append, List.flatMap_singleton, due_eq hr hd]
      · simp only [he, decide_false, Bool.false_and, Bool.false_eq_true, if_false, Bool.and_self,
          if_true]
        have hid : s.beatTmp.rId = r.id := by rw [hbeat, beatOf]
        rw [send_ok hc hr hd hop hoff (by omega : k+1 ≤ r.len.toNat) hid]
        refine ⟨_,rfl,hc.congr rfl rfl rfl rfl,?_,rfl,le_rfl,fun h => absurd h hnot⟩
        exact .busy r data (k+1) hop hvt hr hd (by omega) rfl rfl hnew

lemma due_append (more : List (Request bus)) :
    (range s.popped).flatMap (due (acc++more) fet) = (range s.popped).flatMap (due acc fet) := by
  refine flatMap_congr fun q hq => ?_
  have hlt : q < acc.length := by
    have := hc.count
    have := mem_range.mp hq
    omega
  rw [due, due, getElem?_append_left hlt]

lemma Stream.append (hs : Stream s acc fet beats)
    (more : List (Request bus)) (hp : t.popped = s.popped) (ho : t.curOp = s.curOp)
    (hv : t.rValidTmp = s.rValidTmp) (hf : t.curOff = s.curOff) (hb : t.beatTmp = s.beatTmp) :
    Stream t (acc++more) fet beats := by
  have hdue := due_append hc more
  rw [← hp] at hdue
  cases hs with
  | idle hop hvt hoff hbeats =>
    refine .idle (ho.trans hop) (hv.trans hvt) (hf.trans hoff) ?_
    rw [hdue, hbeats, hp]
  | busy r data k hop hvt hr hd hk hoff hbeat hbeats =>
    refine .busy r data k (ho.trans (hp ▸ hop)) (hv.trans hvt) ?_ (hp ▸ hd) hk (hf.trans hoff)
      (hb.trans hbeat) ?_
    · rw [hp]
      exact (List.getElem?_append_left (List.getElem?_eq_some_iff.mp hr).1).trans hr
    · rw [hdue, hbeats, hp]

lemma Core.push (r : Request bus) (hnew : s.idOpMap.lookup (idOf r acc.length) = none)
    (hp : t.pending = s.pending++[opFor r acc.length none]) (hq : t.popped = s.popped)
    (hm : t.idOpMap = s.idOpMap.insert (idOf r acc.length) acc.length)
    (hro : t.rollingId = s.rollingId+1) : Core t (acc++[r]) fet := by
  have hcount := hc.count
  constructor
  case count =>
    rw [hp, hq, length_append, length_append, length_singleton, length_singleton]
    omega
  case pending =>
    intro i
    rw [hp, hq]
    rcases lt_trichotomy i s.pending.length with h | h | h
    · rw [getElem?_append_left h, hc.pending i, getElem?_append_left (by omega)]
    · subst h
      rw [hcount, getElem?_concat_length, getElem?_concat_length, map_some, hc.unasked _ le_rfl]
    · rw [getElem?_eq_none (by simp; omega), getElem?_eq_none (by simp; omega)]
      rfl
  case rolling =>
    rw [hro, hc.rolling, length_append, length_singleton, UInt32.ofNat_add]
    rfl
  case map =>
    intro id q
    rw [hm, hq, Table.lookup_insert_ite]
    split_ifs with hid
    · subst hid
      constructor
      · intro h
        cases h
        exact ⟨by omega,r,getElem?_concat_length,rfl⟩
      · rintro ⟨hle,r',hr',hid'⟩
        rcases lt_or_ge q acc.length with hlt | hge
        · rw [getElem?_append_left hlt] at hr'
          have := (hc.map _ q).mpr ⟨hle,r',hr',hid'⟩
          rw [hnew] at this
          cases this
        · have := (List.getElem?_eq_some_iff.mp hr').1
          rw [length_append, length_singleton] at this
          exact congrArg some (by omega)
    · rw [hc.map]
      refine and_congr_right fun hle => ?_
      rcases lt_trichotomy q acc.length with h | h | h
      · rw [getElem?_append_left h]
      · subst h
        rw [getElem?_concat_length, getElem?_eq_none le_rfl]
        refine iff_of_false (by simp) ?_
        rintro ⟨r',hr',hid'⟩
        cases hr'
        exact hid hid'.symm
      · rw [getElem?_eq_none h.le, getElem?_eq_none]
        rw [length_append, length_singleton]
        omega
  case answered =>
    rw [hq]
    exact hc.answered
  case unasked =>
    intro q hle
    rw [length_append] at hle
    exact hc.unasked q (le_of_add_right_le hle)

def taken (s : AXISubordinateRead) (ar : Option (Request bus)) : Option (Request bus) :=
  if s.arReady then ar else none

lemma addressPort_some (hready : s.arReady) (r : Request bus) :
    s.addressPort (some r) =
      if (s.idOpMap.lookup (idOf r acc.length)).isSome then none
      else some ({ s with
        rollingId := s.rollingId+1, pending := s.pending++[opFor r acc.length none]
        idOpMap := s.idOpMap.insert (idOf r acc.length) acc.length },
        some (opFor r acc.length none)) := by
  have hid : simbricksId r.id s.rollingId = idOf r acc.length := by
    rw [idOf, hc.rolling]
  have hop : AXIOperation.new r.addr (pow2 r.size*(r.len.toNat+1)) (idOf r acc.length)
      (pow2 r.size) = opFor r acc.length none := by
    simp [AXIOperation.new, opFor, pow2_eq]
  unfold addressPort
  rw [hready]
  dsimp only
  rw [hid, hop, hc.count]

lemma addressPort_ok (hs : Stream s acc fet beats) (ar : Option (Request bus)) :
    (s.addressPort ar = none ∧ s.arReady ∧ ar.isSome ∧
      ∃ (q : ℕ) (r r' : Request bus), acc[q]? = some r' ∧ s.popped ≤ q ∧
        idOf r' q = idOf r acc.length) ∨
    ∃ t out, s.addressPort ar = some (t,out) ∧ Core t (acc++(taken s ar).toList) fet ∧
      Stream t (acc++(taken s ar).toList) fet beats ∧
      out.map AXIOperation.id = (taken s ar).map (idOf · acc.length) ∧
      t.pending.length ≤ s.pending.length+1 ∧ s.pending.length ≤ t.pending.length ∧
      (s.arReady = false → t.pending.length = s.pending.length) := by
  cases hready : s.arReady with
  | false =>
    have hnone : s.addressPort ar = some (s,none) := by
      unfold addressPort
      rw [hready]
      cases ar <;> rfl
    have htaken : taken s ar = none := by simp [taken, hready]
    rw [htaken]
    exact .inr ⟨s,none,hnone,by simpa using hc,by simpa using hs,rfl,le_succ _,le_rfl,fun _ => rfl⟩
  | true =>
    have htaken : taken s ar = ar := by simp [taken, hready]
    rw [htaken]
    cases ar with
    | none =>
      exact .inr ⟨s,none,rfl,by simpa using hc,by simpa using hs,rfl,le_succ _,le_rfl,fun _ => rfl⟩
    | some r =>
      rw [addressPort_some hc hready]
      cases hl : s.idOpMap.lookup (idOf r acc.length) with
      | some q =>
        obtain ⟨hle,r',hr',he⟩ := (hc.map _ q).mp hl
        exact .inl ⟨rfl,rfl,rfl,q,r,r',hr',hle,he⟩
      | none =>
        refine .inr ⟨_,_,rfl,hc.push r hl rfl rfl rfl rfl,hs.append hc [r] rfl rfl rfl rfl rfl,rfl,
          ?_,?_,fun h => absurd h.symm false_ne_true⟩
        · rw [length_append, length_singleton]
        · rw [length_append]
          exact le_add_right _ _

lemma startStream_ok (hs : Stream s acc fet beats) :
    ∃ t, s.startStream bus = some t ∧ Core t acc fet ∧ Stream t acc fet beats ∧
    t.pending = s.pending ∧ t.arReadyTmp = s.arReadyTmp ∧
    ((fet s.popped).isSome → s.pending ≠ [] → t.rValidTmp) := by
  unfold startStream
  cases hs with
  | busy r data k hop hvt hr hd hk hoff hbeat hbeats =>
    rw [hop]
    exact ⟨s,by cases s.pending <;> rfl,hc,.busy r data k hop hvt hr hd hk hoff hbeat
      hbeats,rfl,rfl,
      fun _ _ => hvt⟩
  | idle hop hvt hoff hbeats =>
    rw [hop]
    cases hp : s.pending with
    | nil => exact ⟨s,rfl,hc,.idle hop hvt hoff hbeats,hp,rfl,fun _ h => absurd rfl h⟩
    | cons =>
      have h0 := hc.pending 0
      rw [hp, getElem?_cons_zero, add_zero] at h0
      obtain ⟨r,hr,rfl⟩ := map_eq_some_iff.mp h0.symm
      cases hd : fet s.popped with
      | none =>
        exact ⟨s,by simp [opFor],hc,.idle hop hvt hoff hbeats,by rw [hp, hd],rfl,
          fun h => absurd h (by decide)⟩
      | some data =>
        have hsend := send_ok (s := { s with
            curOp := some s.popped, rValidTmp := true
            beatTmp := { s.beatTmp with rId := r.id } })
          (hc.congr rfl rfl rfl rfl) hr hd rfl (by simpa using hoff) (zero_le _) rfl
        have hid : ((opFor r s.popped (some data)).id >>> 32).toUInt32 = r.id :=
          simbricksId_shift r.id _
        rw [hd] at hp
        simp only [hp] at hsend
        simp only [hid, show (opFor r s.popped (some data)).completed = true from rfl, if_true,
          hsend]
        refine ⟨_,rfl,hc.congr hp.symm rfl rfl rfl,?_,rfl,rfl,fun _ _ => rfl⟩
        exact .busy r data 0 rfl rfl hr hd (zero_le _) rfl rfl (by simpa using hbeats)

lemma readDone_ok (hs : Stream s acc fet beats) (hr : acc[q]? = some r)
    (hq : fet q = none) (data : Memory) :
    ∃ pending, s.readDone (idOf r q) data = some { s with pending := pending } ∧
    pending.length = s.pending.length ∧
    Core { s with pending := pending } acc (update fet q (some data)) ∧
    Stream { s with pending := pending } acc (update fet q (some data)) beats := by
  have hle : s.popped ≤ q := by
    by_contra hlt
    have := hc.answered q (not_le.mp hlt)
    rw [hq] at this
    cases this
  have hidx : s.popped+(q-s.popped) = q := Nat.add_sub_cancel' hle
  have hderef : s.deref q = some (opFor r q none) := by
    have := hc.pending (q-s.popped)
    rw [hidx, hr, hq, map_some] at this
    rw [deref, if_pos hle, this]
  have hlook : s.idOpMap.lookup (idOf r q) = some q := (hc.map _ _).mpr ⟨hle,r,hr,rfl⟩
  have hop : ({ opFor r q none with
      buf := store (opFor r q none).buf 0 (load data 0 (opFor r q none).len), completed := true } :
      AXIOperation) = opFor r q (some data) := rfl
  have hother : ∀ k, k ≠ q → update fet q (some data) k = fet k := fun k hk => update_of_ne hk _ _
  have hdue : (range s.popped).flatMap (due acc (update fet q (some data))) =
      (range s.popped).flatMap (due acc fet) := by
    refine flatMap_congr fun k hk => ?_
    have := mem_range.mp hk
    rw [due, due, hother k (by omega)]
  simp only [readDone, hlook, hderef, bind_eq_bind, bind_some, Option.pure_def, hop]
  refine ⟨_,rfl,length_set,?_,?_⟩
  · constructor
    case count => simpa using hc.count
    case pending =>
      intro i
      dsimp only
      rw [getElem?_set]
      by_cases hi : q-s.popped = i
      · subst hi
        have hlt : q-s.popped < s.pending.length := by
          have := (List.getElem?_eq_some_iff.mp hr).1
          have := hc.count
          omega
        rw [if_pos rfl, if_pos hlt, hidx, hr, update_self]
        rfl
      · rw [if_neg hi, hc.pending i, hother _ (by omega)]
    case rolling => exact hc.rolling
    case map => exact hc.map
    case answered =>
      intro k hk
      by_cases he : k = q
      · rw [he, update_self]
        rfl
      · rw [hother k he]
        exact hc.answered k hk
    case unasked =>
      intro k hk
      have := (List.getElem?_eq_some_iff.mp hr).1
      rw [hother k (by omega)]
      exact hc.unasked k hk
  · cases hs with
    | idle hop hvt hoff hbeats => exact .idle hop hvt hoff (hdue ▸ hbeats)
    | busy r' data' k hop hvt hr' hd hk hoff hbeat hbeats =>
      have hne : s.popped ≠ q := by
        rintro rfl
        rw [hq] at hd
        cases hd
      exact .busy r' data' k hop hvt hr' ((hother _ hne).trans hd) hk hoff hbeat (hdue ▸ hbeats)

end

/-! ## Runs -/

structure Inv (w : World bus) : Prop where
  core : Core w.sub w.accepted w.fetched
  stream : Stream w.sub w.accepted w.fetched w.beats
  valid : w.sub.rValid = w.sub.rValidTmp
  beat : w.sub.beat = w.sub.beatTmp
  asked : w.asked = w.accepted.mapIdx fun q r => idOf r q
  bound : w.sub.pending.length ≤ bus.maxInFlight
  room : w.sub.arReady → w.sub.pending.length < bus.maxInFlight

lemma Inv.init (ar : List (Request bus)) : Inv ({ ar := ar } : World bus) where
  core := {
    count := rfl
    pending := fun i => by simp
    rolling := rfl
    map := fun id q => by simp
    answered := fun q hq => absurd hq (not_lt_zero q)
    unasked := fun _ _ => rfl }
  stream := .idle rfl rfl rfl rfl
  valid := rfl
  beat := rfl
  asked := rfl
  bound := zero_le _
  room h := absurd h false_ne_true

variable {w : World bus}

lemma Inv.cycle (h : Inv w) (arValid rReady : Bool) :
    (w.sub.step (if arValid then w.ar.head? else none) rReady = none ∧
      w.sub.arReady ∧ arValid ∧ ∃ (q : ℕ) (r r' : Request bus),
      w.accepted[q]? = some r' ∧
        w.sub.popped ≤ q ∧ idOf r' q = idOf r w.accepted.length) ∨
    ∃ t out, w.sub.step (if arValid then w.ar.head? else none) rReady = some (t,out) ∧
      Core t (w.accepted++(w.handshake arValid).toList) w.fetched ∧
      Stream t (w.accepted++(w.handshake arValid).toList) w.fetched
        (if w.sub.rValid && rReady then w.beats++[w.sub.beat] else w.beats) ∧
      out.map AXIOperation.id = (w.handshake arValid).map (idOf · w.accepted.length) ∧
      t.pending.length ≤ bus.maxInFlight ∧
      (t.arReadyTmp ↔ t.pending.length < bus.maxInFlight) ∧
      ((∀ q < w.accepted.length+(w.handshake arValid).toList.length, (w.fetched q).isSome) →
        w.sub.rValid = false → w.sub.pending ≠ [] → t.rValidTmp) := by
  obtain ⟨s1,hs1,hc1,hst1,har1,_,hsame1⟩ := dataPort_ok h.core h.stream h.valid h.beat rReady
  have htaken : taken s1 (if arValid then w.ar.head? else none) = w.handshake arValid := by
    rw [taken, World.handshake, har1]
    cases arValid <;> cases w.sub.arReady <;> rfl
  have hpop : w.sub.popped ≤ s1.popped := by
    have h1 := h.core.count
    have h2 := hc1.count
    omega
  rcases addressPort_ok hc1 hst1 (if arValid then w.ar.head? else none) with
    ⟨hnone,hr,hsome,q,r,r',hq,hle,hid⟩ | ⟨s2,out,hs2,hc2,hst2,hout,hlen2,hgrow,hkeep⟩
  · have hav : arValid := by
      cases arValid with
      | true => rfl
      | false => exact absurd hsome false_ne_true
    refine .inl ⟨?_,har1 ▸ hr,hav,q,r,r',hq,hpop.trans hle,hid⟩
    simp [step, hs1, hnone]
  · rw [htaken] at hc2 hst2 hout
    have hst2' := hst2.append hc2 [] (t := { s2 with
      arReadyTmp := s2.pending.length < bus.maxInFlight }) rfl rfl rfl rfl rfl
    rw [append_nil] at hst2'
    have hc2' : Core { s2 with arReadyTmp := s2.pending.length < bus.maxInFlight } _ _ :=
      hc2.congr rfl rfl rfl rfl
    obtain ⟨s3,hs3,hc3,hst3,hp3,ha3,hgo⟩ := startStream_ok hc2' hst2'
    dsimp only at hp3 ha3 hgo
    refine .inr ⟨s3,out,?_,hc3,hst3,hout,?_,?_,?_⟩
    · simp [step, hs1, hs2, hs3]
    · rw [hp3]
      have hb := h.bound
      cases hr : s1.arReady with
      | false =>
        have := hkeep hr
        omega
      | true =>
        have := h.room (har1 ▸ hr)
        omega
    · rw [ha3, hp3]
      exact decide_eq_true_iff
    · intro hall hv hne
      have hpos := length_pos_iff.mpr hne
      rw [← hsame1 hv] at hpos
      have hcount := hc2.count
      rw [length_append] at hcount
      exact hgo (hall _ (by omega)) (length_pos_iff.mp (hpos.trans_le hgrow))

lemma Inv.readDone (h : Inv w) (q : ℕ) (data : Memory) :
    ∃ pending fetched, w.step (.readDone q data) =
      { w with sub := { w.sub with pending := pending }, fetched := fetched } ∧
      Inv (w.step (.readDone q data)) := by
  unfold World.step
  split_ifs
  · exact ⟨_,_,rfl,h⟩
  · dsimp only
    cases ha : w.asked[q]? with
    | none => exact ⟨_,_,rfl,h⟩
    | some =>
      cases hf : w.fetched q with
      | some => exact ⟨_,_,rfl,h⟩
      | none =>
        rw [h.asked, getElem?_mapIdx, map_eq_some_iff] at ha
        obtain ⟨r,hr,rfl⟩ := ha
        obtain ⟨pending,ht,hlen,hc,hst⟩ := readDone_ok h.core h.stream hr hf data
        dsimp only
        rw [ht]
        exact ⟨_,_,rfl,hc,hst,h.valid,h.beat,h.asked,hlen ▸ h.bound,fun hr => hlen ▸ h.room hr⟩

lemma Inv.step (h : Inv w) (e : Event) : Inv (w.step e) := by
  cases e with
  | cycle arValid rReady =>
    unfold World.step
    split_ifs
    · exact h
    dsimp only
    rcases h.cycle arValid rReady with ⟨hnone,-⟩ | ⟨t,_,ht,hc,hst,hout,hlen,hroom,-⟩
    · rw [hnone]
      exact { h with }
    · rw [ht]
      have hst' := hst.append hc [] (t := t.stepApply) rfl rfl rfl rfl rfl
      rw [append_nil] at hst'
      refine ⟨hc.congr rfl rfl rfl rfl,hst',rfl,rfl,?_,hlen,hroom.mp⟩
      dsimp only
      rw [hout, h.asked]
      cases w.handshake arValid with
      | none => simp
      | some => simp [mapIdx_append]
  | readDone q data =>
    obtain ⟨_,_,-,h'⟩ := h.readDone q data
    exact h'

lemma flatMap_range_front {α : Type*} (f : ℕ → List α) {m n : ℕ} (h : m ≤ n) :
    (List.range m).flatMap f <+: (List.range n).flatMap f := by
  obtain ⟨d,rfl⟩ := Nat.exists_eq_add_of_le h
  rw [List.range_add, List.flatMap_append]
  exact prefix_append _ _

def World.expected (w : World bus) : List ReadBeat :=
  (range w.accepted.length).flatMap (due w.accepted w.fetched)

lemma Inv.in_order (h : Inv w) : w.beats <+: w.expected := by
  have hcount := h.core.count
  cases h.stream with
  | idle hop hv hoff hbeats =>
    rw [hbeats]
    exact flatMap_range_front _ (by omega)
  | busy r data k hop hv hr hd hk hoff hbeat hbeats =>
    have hlt : w.sub.popped < w.accepted.length := (List.getElem?_eq_some_iff.mp hr).1
    refine List.IsPrefix.trans ?_ (flatMap_range_front _ (succ_le_of_lt hlt))
    rw [hbeats, range_succ, flatMap_append, flatMap_singleton, due_eq hr hd]
    exact (prefix_append_right_inj _).mpr <| take_prefix _ _

lemma step_held (hop : s.curOp = some q) {ar : Option (Request bus)} {out : Option AXIOperation}
    (h : s.step ar false = some (t,out)) : t.rValidTmp = s.rValidTmp ∧ t.beatTmp = s.beatTmp := by
  have hdata : s.dataPort bus false = some s := by simp [dataPort]
  have hstart : ∀ u : AXISubordinateRead, u.curOp = some q → u.startStream bus = some u := by
    intro u hu
    unfold startStream
    rw [hu]
  unfold step at h
  rw [hdata] at h
  simp only [bind_eq_bind, bind_some] at h
  cases ha : s.addressPort ar with
  | none => simp [ha] at h
  | some x =>
    obtain ⟨u,o⟩ := x
    have hu : u.curOp = s.curOp ∧ u.rValidTmp = s.rValidTmp ∧ u.beatTmp = s.beatTmp := by
      unfold addressPort at ha
      split at ha
      · dsimp only at ha
        split_ifs at ha
        obtain ⟨rfl,-⟩ := Prod.mk.inj (some.inj ha)
        exact ⟨rfl,rfl,rfl⟩
      · obtain ⟨rfl,-⟩ := Prod.mk.inj (some.inj ha)
        exact ⟨rfl,rfl,rfl⟩
    rw [ha] at h
    simp only [Option.bind_some, Option.pure_def] at h
    have hs := hstart { u with arReadyTmp := u.pending.length < bus.maxInFlight } (hu.1.trans hop)
    rw [hs] at h
    obtain ⟨rfl,-⟩ := Prod.mk.inj (some.inj h)
    exact hu.2

/-- `r_valid` and the beat stay while `r_ready` is low. -/
def Held (w : World bus) : Event → Prop
  | .cycle _ true => True
  | e => w.sub.rValid → (w.step e).sub.rValid ∧ (w.step e).sub.beat = w.sub.beat

lemma Inv.held (h : Inv w) (e : Event) : Held w e := by
  cases e with
  | readDone q data =>
    intro hv
    obtain ⟨_,_,hw,-⟩ := h.readDone q data
    rw [hw]
    exact ⟨hv,rfl⟩
  | cycle arValid rReady =>
    cases rReady with
    | true => trivial
    | false =>
      intro hv
      have hbusy : ∃ q, w.sub.curOp = some q := by
        cases h.stream with
        | idle hop hvt => exact absurd (hv.symm.trans (h.valid.trans hvt)) (by decide)
        | busy r data k hop => exact ⟨_,hop⟩
      obtain ⟨q,hop⟩ := hbusy
      unfold World.step
      split_ifs
      · exact ⟨hv,rfl⟩
      cases hst : w.sub.step (if arValid then w.ar.head? else none) false with
      | none => simpa [hst] using hv
      | some x =>
        obtain ⟨htv,htb⟩ := step_held hop hst
        simp only [hst]
        exact ⟨htv.trans (h.valid.symm.trans hv),htb.trans h.beat.symm⟩

def World.weight (w : World bus) : ℕ :=
  2*(w.expected.length-w.beats.length)+if w.sub.rValid then 0 else 1

def World.AllFetched (w : World bus) : Prop := ∀ q < w.accepted.length, (w.fetched q).isSome

lemma Inv.ready_decreases (h : Inv w) (hh : w.halted = false) (hall : w.AllFetched)
    (hne : w.sub.pending ≠ []) :
    (w.step (.cycle false true)).halted = false ∧ (w.step (.cycle false true)).AllFetched ∧
    (w.step (.cycle false true)).weight < w.weight := by
  have hle := (h.step (.cycle false true)).in_order.length_le
  rcases h.cycle false true with ⟨-,-,hav,-⟩ | ⟨t,out,ht,-,-,-,-,-,hgo⟩
  · cases hav
  have hw : w.step (.cycle false true) = { w with
        sub := t.stepApply, asked := w.asked++(out.map AXIOperation.id).toList
        beats := if w.sub.rValid then w.beats++[w.sub.beat] else w.beats } := by
    have hhs : w.handshake false = none := rfl
    unfold World.step
    rw [hh]
    simp only [false_eq_true, if_false] at ht
    simp [ht, hhs]
  have hexp : (w.step (.cycle false true)).expected = w.expected := by
    rw [hw]
    rfl
  rw [hexp] at hle
  refine ⟨by rw [hw]; exact hh,by rw [hw]; exact hall,?_⟩
  rw [World.weight, World.weight, hexp]
  rw [hw] at hle ⊢
  dsimp only at hle ⊢
  cases hv : w.sub.rValid with
  | true =>
    rw [hv, if_pos rfl, length_append, length_singleton] at hle
    rw [if_pos rfl, if_pos rfl, length_append, length_singleton]
    split_ifs <;> omega
  | false =>
    have hgo' : t.stepApply.rValid := hgo hall hv hne
    rw [if_neg Bool.false_ne_true, if_neg Bool.false_ne_true, hgo', if_pos rfl]
    omega

lemma Inv.drains (h : Inv w) (hh : w.halted = false) (hall : w.AllFetched) :
    ∃ n, (run World.step w (replicate n (.cycle false true))).sub.pending = [] := by
  refine exists_replicate_of_decreasing
    (I := fun w => Inv w ∧ w.halted = false ∧ w.AllFetched)
    (G := fun w => w.sub.pending = []) (Event.cycle false true) World.weight ?_ ⟨h,hh,hall⟩
  rintro w ⟨h,hh,hall⟩
  by_cases h0 : w.sub.pending = []
  · exact .inl h0
  · obtain ⟨hh',hall',hlt⟩ := h.ready_decreases hh hall h0
    exact .inr ⟨⟨h.step _,hh',hall'⟩,hlt⟩

end SimBricks.AxiReadPort
