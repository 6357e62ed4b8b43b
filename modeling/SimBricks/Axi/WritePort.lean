import SimBricks.Axi.Subordinate

/-!
# The write port of the AXI subordinate

The beats of a burst are gathered in the buffer of one operation, which is
handed on with the last beat. The port looks at neither the strobes nor the
shortened first transfer of an unaligned burst.
-/

set_option autoImplicit false

namespace SimBricks.AxiWritePort
open Library Library.Run Library.Bytes AxiSubordinate List Option Nat

/-! ## Bursts as the bus defines them -/

structure WriteBeat where
  wData : Memory
  wStrb : ℕ → Bool

structure AwPayload where
  addr : ℕ
  id : UInt32
  len : UInt8
  size : ℕ

namespace AwPayload

def bytes (aw : AwPayload) : ℕ := 2^aw.size

def alignedAddr (aw : AwPayload) : ℕ := aw.addr/aw.bytes*aw.bytes

/-- The first transfer starts at the address itself, the others on multiples
of the transfer size. -/
def beatAddr (aw : AwPayload) (i : ℕ) : ℕ :=
  if i = 0 then aw.addr else aw.alignedAddr+i*aw.bytes

def beatEnd (aw : AwPayload) (i : ℕ) : ℕ := aw.alignedAddr+(i+1)*aw.bytes

end AwPayload

/-- An INCR burst of a conformant manager: strobes are set on the lanes of
the transfer only. -/
structure Burst (bus : Bus) extends AwPayload where
  beats : List WriteBeat
  size_le : 2^size ≤ bus.bytesData
  count : beats.length = len.toNat+1
  strobes : ∀ i beat, beats[i]? = some beat → ∀ l, beat.wStrb l →
    ∃ a, toAwPayload.beatAddr i ≤ a ∧ a < toAwPayload.beatEnd i ∧ a % bus.bytesData = l

variable {bus : Bus}

def applyBeats (bus : Bus) (aw : AwPayload) : ℕ → List WriteBeat → Memory → Memory
  | _, [], m => m
  | i, beat::rest, m => applyBeats bus aw (i+1) rest fun a =>
    if aw.beatAddr i ≤ a ∧ a < aw.beatEnd i ∧ beat.wStrb (a % bus.bytesData) then
      beat.wData (a % bus.bytesData)
    else m a

def Burst.apply (b : Burst bus) (m : Memory) : Memory := applyBeats bus b.toAwPayload 0 b.beats m

/-! ## The port -/

structure AXISubordinateWrite where
  awReady : Bool := false
  wReady : Bool := false
  bValid : Bool := false
  bId : UInt64 := 0
  awReadyTmp : Bool := false
  wReadyTmp : Bool := false
  bValidTmp : Bool := false
  bIdTmp : UInt64 := 0
  curOff : ℕ := 0
  numPending : UInt64 := 0
  curOp : Option AXIOperation := none

structure Inputs where
  aw : Option AwPayload
  w : Option (WriteBeat × Bool)
  bReady : Bool

def segment (bus : Bus) (g : AXIOperation × ℕ) (beat : WriteBeat) : AXIOperation × ℕ := ({ g.1 with
      buf := store g.1.buf g.2 (load beat.wData (align bus g.1 g.2) (numBytes bus g.1 g.2)) },
    g.2+numBytes bus g.1 g.2)

def newOp (aw : AwPayload) : AXIOperation :=
  .new aw.addr (pow2 aw.size*(aw.len.toNat+1)) aw.id.toUInt64 (pow2 aw.size)

namespace AXISubordinateWrite

def responseDone (s : AXISubordinateWrite) (bReady : Bool) : AXISubordinateWrite :=
  if s.bValid && bReady then { s with bValidTmp := false, bIdTmp := 0, curOp := none } else s

def addressPort (s : AXISubordinateWrite) (aw : Option AwPayload) : AXISubordinateWrite :=
  match aw, s.awReady with
  | some aw, true => { s with curOp := some (newOp aw), wReadyTmp := true }
  | _, _ => s

/-- With the operation passed to `do_write`. A data handshake without an
operation reads an empty `std::optional`; it is left out here and shown not
to happen. -/
def dataPort (bus : Bus) (s : AXISubordinateWrite) (w : Option (WriteBeat × Bool)) :
    AXISubordinateWrite × Option AXIOperation :=
  match w, s.wReady, s.curOp with
  | some (beat,wLast), true, some op =>
    let (op,off) := segment bus (op,s.curOff) beat
    if wLast then
      ({ s with
          curOp := some op, curOff := 0, numPending := s.numPending+1, wReadyTmp := false
          bIdTmp := op.id, bValidTmp := true },some op)
    else ({ s with curOp := some op, curOff := off },none)
  | _, _, _ => (s,none)

def step (bus : Bus) (s : AXISubordinateWrite) (i : Inputs) :
    AXISubordinateWrite × Option AXIOperation :=
  let (s,out) := dataPort bus ((s.responseDone i.bReady).addressPort i.aw) i.w
  ({ s with awReadyTmp := s.curOp.isNone && s.numPending.toNat < bus.maxInFlight },out)

def stepApply (s : AXISubordinateWrite) : AXISubordinateWrite := { s with
    bValid := s.bValidTmp, bId := s.bIdTmp, awReady := s.awReadyTmp, wReady := s.wReadyTmp }

def writeDone (s : AXISubordinateWrite) : AXISubordinateWrite :=
  { s with numPending := s.numPending-1 }

end AXISubordinateWrite

/-! ## The manager -/

def flagged : List WriteBeat → List (WriteBeat × Bool)
  | [] => []
  | beat::rest => (beat,rest.isEmpty)::flagged rest

/-- What the manager has still to hand over on its two channels, and the
operations passed to `do_write`. -/
structure World (bus : Bus) where
  sub : AXISubordinateWrite
  aw : List (Burst bus)
  w : List (WriteBeat × Bool)
  ops : List AXIOperation

def queue (bs : List (Burst bus)) : List (WriteBeat × Bool) := bs.flatMap fun b => flagged b.beats

def World.init (bs : List (Burst bus)) : World bus := ⟨{},bs,queue bs,[]⟩

inductive Event where
  | cycle (awValid wValid bReady : Bool)
  | writeDone

def World.step (w : World bus) : Event → World bus
  | .cycle awValid wValid bReady =>
    let i : Inputs := ⟨if awValid then w.aw.head?.map Burst.toAwPayload else none,
        if wValid then w.w.head? else none,bReady⟩
    let (sub,out) := w.sub.step bus i
    { sub := sub.stepApply
      aw := if awValid && w.sub.awReady then w.aw.tail else w.aw
      w := if wValid && w.sub.wReady then w.w.tail else w.w
      ops := w.ops++out.toList }
  | .writeDone => { w with sub := w.sub.writeDone }

def gathered (b : Burst bus) (k : ℕ) : AXIOperation × ℕ :=
  (b.beats.take k).foldl (segment bus) (newOp b.toAwPayload,0)

def opOf (b : Burst bus) : AXIOperation := (gathered b b.beats.length).1

/-- Applied to memory, the operation does what the beats do. -/
def Writes (b : Burst bus) (op : AXIOperation) : Prop :=
  ∀ m, store m op.addr (load op.buf 0 op.len) = b.apply m

/-- The burst is aligned to its transfer size and all its strobes are set. -/
def Whole (b : Burst bus) : Prop :=
  2^b.size ∣ b.addr ∧ ∀ i beat, b.beats[i]? = some beat → ∀ a, b.beatAddr i ≤ a →
    a < b.beatEnd i → beat.wStrb (a % bus.bytesData)

/-! ## What a burst does to memory -/

lemma AwPayload.bytes_pos (aw : AwPayload) : 0 < aw.bytes := Nat.two_pow_pos _

lemma inBeat_iff (aw : AwPayload) (i a : ℕ) :
    aw.beatAddr i ≤ a ∧ a < aw.beatEnd i ↔ aw.addr ≤ a ∧ a/aw.bytes = aw.addr/aw.bytes+i := by
  have hpos := aw.bytes_pos
  have haddr : aw.alignedAddr ≤ aw.addr := div_mul_le_self _ _
  have hnext : aw.addr < aw.alignedAddr+aw.bytes := by
    have := lt_div_mul_add (a := aw.addr) hpos
    simpa [AwPayload.alignedAddr] using this
  have hdiv : a/aw.bytes = aw.addr/aw.bytes+i ↔
      aw.alignedAddr+i*aw.bytes ≤ a ∧ a < aw.alignedAddr+(i+1)*aw.bytes := by
    rw [Nat.div_eq_iff hpos, AwPayload.alignedAddr, ← Nat.add_mul, ← Nat.add_mul, ← Nat.add_assoc,
      succ_mul]
    omega
  rw [hdiv, AwPayload.beatEnd, AwPayload.beatAddr]
  split_ifs with h0
  · subst h0
    omega
  · have hi : aw.bytes ≤ i*aw.bytes := Nat.le_mul_of_pos_left _ (Nat.pos_of_ne_zero h0)
    omega

/-- The only beat that can touch an address is the one of its transfer. -/
lemma applyBeats_at (aw : AwPayload) (beats : List WriteBeat) (i : ℕ) (m : Memory) (a : ℕ) :
    applyBeats bus aw i beats m a =
      if aw.addr ≤ a ∧ aw.addr/aw.bytes+i ≤ a/aw.bytes then
        match beats[a/aw.bytes-(aw.addr/aw.bytes+i)]? with
        | some beat =>
          if beat.wStrb (a % bus.bytesData) then beat.wData (a % bus.bytesData) else m a
        | none => m a
      else m a := by
  induction beats generalizing i m with
  | nil => simp [applyBeats]
  | cons beat rest ih =>
    rw [applyBeats, ih]
    simp only [← and_assoc, inBeat_iff]
    rcases lt_trichotomy (a/aw.bytes) (aw.addr/aw.bytes+i) with h | h | h
    · rw [if_neg (by omega), if_neg (by omega), if_neg (by omega)]
    · rw [if_neg (by omega), h, Nat.sub_self, List.getElem?_cons_zero]
      by_cases ha : aw.addr ≤ a <;> simp [ha]
    · have hidx : a/aw.bytes-(aw.addr/aw.bytes+i) = a/aw.bytes-(aw.addr/aw.bytes+(i+1))+1 := by
        omega
      rw [hidx, getElem?_cons_succ, if_neg (by omega : ¬ ((aw.addr ≤ a ∧ _) ∧ _))]
      by_cases ha : aw.addr ≤ a
      · rw [if_pos ⟨ha,by omega⟩, if_pos ⟨ha,by omega⟩]
      · rw [if_neg (by omega), if_neg (by omega)]

lemma Burst.apply_at (b : Burst bus) (m : Memory) (a : ℕ) : b.apply m a =
      if b.addr ≤ a then
        match b.beats[a/b.bytes-b.addr/b.bytes]? with
        | some beat =>
          if beat.wStrb (a % bus.bytesData) then beat.wData (a % bus.bytesData) else m a
        | none => m a
      else m a := by
  rw [Burst.apply, applyBeats_at]
  refine if_congr ?_ rfl rfl
  exact and_iff_left_of_imp fun h => Nat.div_le_div_right h

/-- The buffer is a range of whole transfers. -/
lemma gathered_shape (b : Burst bus) (k : ℕ) :
    (gathered b k).1.addr = b.addr ∧ (gathered b k).1.len = b.bytes*(b.len.toNat+1) ∧
    (gathered b k).1.stepSize = b.bytes := by
  have hfold : ∀ (beats : List WriteBeat) (g : AXIOperation × ℕ),
      (beats.foldl (segment bus) g).1.addr = g.1.addr ∧
      (beats.foldl (segment bus) g).1.len = g.1.len ∧
      (beats.foldl (segment bus) g).1.stepSize = g.1.stepSize := by
    intro beats
    induction beats with
    | nil => exact fun _ => ⟨rfl,rfl,rfl⟩
    | cons beat rest ih => exact fun g => ih (segment bus g beat)
  obtain ⟨ha,hl,hs⟩ := hfold (b.beats.take k) (newOp b.toAwPayload,0)
  refine ⟨ha,hl.trans ?_,hs.trans ?_⟩
  all_goals simp [newOp, AXIOperation.new, pow2_eq, AwPayload.bytes]

variable {k : ℕ} {b : Burst bus} {n : ℕ}

lemma gathered_succ (b : Burst bus) {beat : WriteBeat} (h : b.beats[k]? = some beat) :
    gathered b (k+1) = segment bus (gathered b k) beat := by
  unfold gathered
  rw [take_add_one, h, foldl_append]
  rfl

lemma gathered_aligned (b : Burst bus) (ha : b.bytes ∣ b.addr) (hk : k ≤ b.beats.length) :
    (gathered b k).2 = k*b.bytes ∧ ∀ i < k, ∀ beat, b.beats[i]? = some beat → ∀ j < b.bytes,
    (gathered b k).1.buf (i*b.bytes+j) = beat.wData ((b.addr+i*b.bytes+j) % bus.bytesData) := by
  have hW : b.bytes ∣ bus.bytesData := bus.dvd b.size_le
  induction k with
  | zero => exact ⟨by simp [gathered],fun i hi => absurd hi (not_lt_zero i)⟩
  | succ k ih =>
    obtain ⟨hoff,hbuf⟩ := ih (le_of_succ_le hk)
    obtain ⟨haddr,hlen,hstep⟩ := gathered_shape b k
    have hkb : b.beats[k]? = some b.beats[k] := getElem?_eq_getElem hk
    have hcount := b.count
    have hnum : numBytes bus (gathered b k).1 (gathered b k).2 = b.bytes := by
      rw [hoff, ← hstep]
      apply numBytes_aligned
      · rw [hstep]
        exact hW
      · rw [hstep, haddr]
        exact ha
      · rw [hstep]
        exact b.bytes_pos
      · rw [hstep, hlen]
      · omega
    rw [gathered_succ b hkb]
    refine ⟨?_,?_⟩
    · rw [segment, hnum, hoff, succ_mul]
    · intro i hi beat hbeat j hj
      simp only [segment, hnum]
      rcases Nat.lt_succ_iff_lt_or_eq.mp hi with hlt | rfl
      · -- a transfer gathered before
        have hle := Nat.mul_le_mul_right b.bytes (Nat.succ_le_of_lt hlt)
        rw [succ_mul] at hle
        rw [store, if_neg (by omega)]
        exact hbuf i hlt beat hbeat j hj
      · cases hkb.symm.trans hbeat
        have hlane : align bus (gathered b i).1
            (gathered b i).2 = (b.addr+i*b.bytes) % bus.bytesData := by
          rw [align, haddr, hoff]
        rw [store, if_pos (by omega), hlane, hoff, Nat.add_sub_cancel_left,
          lane_add hW (dvd_add ha (dvd_mul_left _ _)) hj bus.pos]
        simp [load, hj]

lemma store_load_at (m buf : Memory) (addr n a : ℕ) :
    store m addr (load buf 0 n) a = if addr ≤ a ∧ a < addr+n then buf (a-addr) else m a := by
  unfold store
  by_cases ha : addr ≤ a
  · by_cases hn : a < addr+n
    · simp [ha, hn, load, show a-addr < n by omega]
    · simp [ha, hn, load, show n ≤ a-addr by omega]
  · simp [ha]

/-- The operation writes its whole range, whatever the memory holds there. -/
lemma Writes.determined (h : Writes b (opOf b)) {a : ℕ} (ha : b.addr ≤ a)
    (hlt : a < b.addr+b.bytes*(b.len.toNat+1)) (m m' : Memory) : b.apply m a = b.apply m' a := by
  obtain ⟨haddr,hlen,-⟩ := gathered_shape b b.beats.length
  rw [← h m, ← h m', opOf, haddr, hlen, store_load_at, store_load_at, if_pos ⟨ha,hlt⟩,
    if_pos ⟨ha,hlt⟩]

lemma Writes.strobed (h : Writes b (opOf b)) {a : ℕ} (ha : b.addr ≤ a)
    (hlt : a < b.addr+b.bytes*(b.len.toNat+1)) :
    ∃ beat, b.beats[a/b.bytes-b.addr/b.bytes]? = some beat ∧ beat.wStrb (a % bus.bytesData) := by
  have hdet := h.determined ha hlt (fun _ => 0) (fun _ => 1)
  rw [Burst.apply_at, Burst.apply_at, if_pos ha, if_pos ha] at hdet
  cases hb : b.beats[a/b.bytes-b.addr/b.bytes]? with
  | none => simp [hb] at hdet
  | some beat =>
    refine ⟨beat,rfl,?_⟩
    by_contra hs
    simp [hb, hs] at hdet

lemma Writes.aligned (h : Writes b (opOf b)) : 2^b.size ∣ b.addr := by
  by_contra hnot
  have hpos := b.bytes_pos
  have hmod : b.addr % b.bytes ≠ 0 := fun h0 => hnot (dvd_of_mod_eq_zero h0)
  have hlt := mod_lt b.addr hpos
  have hsplit := div_add_mod b.addr b.bytes
  have hn : b.bytes ≤ b.bytes*(b.len.toNat+1) := Nat.le_mul_of_pos_right _ (Nat.succ_pos _)
  -- the first byte behind the last transfer
  obtain ⟨beat,hb,-⟩ := h.strobed (a := b.bytes*(b.addr/b.bytes)+b.bytes*(b.len.toNat+1))
    (by omega) (by omega)
  rw [← Nat.mul_add, Nat.mul_div_cancel_left _ hpos, Nat.add_sub_cancel_left, ← b.count,
    getElem?_eq_none le_rfl] at hb
  exact absurd hb.symm (some_ne_none beat)

lemma writes_iff (b : Burst bus) : Writes b (opOf b) ↔ Whole b := by
  have hpos := b.bytes_pos
  constructor
  · intro h
    have hal : b.bytes ∣ b.addr := h.aligned
    refine ⟨hal,?_⟩
    intro i beat hb a hlo hhi
    obtain ⟨ha,hdiv⟩ := (inBeat_iff b.toAwPayload i a).mp ⟨hlo,hhi⟩
    have hi : i < b.beats.length := (List.getElem?_eq_some_iff.mp hb).1
    have hcount := b.count
    have hlt : a < b.addr+b.bytes*(b.len.toNat+1) := by
      have hend : b.beatEnd i ≤ b.addr+b.bytes*(b.len.toNat+1) := by
        rw [AwPayload.beatEnd, AwPayload.alignedAddr, Nat.div_mul_cancel hal, Nat.mul_comm]
        exact Nat.add_le_add_left (Nat.mul_le_mul_left _ (by omega)) _
      omega
    obtain ⟨_,hb',hs⟩ := h.strobed ha hlt
    rw [hdiv, Nat.add_sub_cancel_left] at hb'
    cases hb.symm.trans hb'
    exact hs
  · rintro ⟨hal,hs⟩ m
    change b.bytes ∣ b.addr at hal
    obtain ⟨haddr,hlen,-⟩ := gathered_shape b b.beats.length
    obtain ⟨-,hbuf⟩ := gathered_aligned b hal le_rfl
    have hcount := b.count
    funext a
    rw [opOf, haddr, hlen, store_load_at, Burst.apply_at]
    by_cases ha : b.addr ≤ a
    · -- the transfer and the byte of the address
      obtain ⟨i,hi⟩ := Nat.exists_eq_add_of_le (Nat.div_le_div_right ha)
      have hmod := Nat.mod_lt a hpos
      have hloc : a = b.addr+i*b.bytes+a % b.bytes := by
        have hsplit := div_add_mod a b.bytes
        rw [hi, Nat.mul_add, Nat.mul_div_cancel' hal, Nat.mul_comm b.bytes i] at hsplit
        exact hsplit.symm
      rw [if_pos ha, hi, Nat.add_sub_cancel_left]
      by_cases hlt : i < b.beats.length
      · have hend : (i+1)*b.bytes ≤ b.bytes*(b.len.toNat+1) := by
          rw [mul_comm b.bytes, ← hcount]
          exact mul_le_mul_right _ hlt
        rw [succ_mul] at hend
        have hbeat : b.beats[i]? = some b.beats[i] := getElem?_eq_getElem hlt
        obtain ⟨hlo,hhi⟩ := (inBeat_iff b.toAwPayload i a).mpr ⟨ha,hi⟩
        have hstrb := hs i _ hbeat a hlo hhi
        have hval := hbuf i hlt _ hbeat _ hmod
        rw [← hloc] at hval
        rw [if_pos ⟨ha,by omega⟩, hbeat]
        simp only [hstrb, if_true]
        rw [← hval]
        congr 1
        omega
      · have hend : b.bytes*(b.len.toNat+1) ≤ i*b.bytes := by
          rw [mul_comm b.bytes, ← hcount]
          exact mul_le_mul_right _ (not_lt.mp hlt)
        rw [if_neg (by omega), getElem?_eq_none (not_lt.mp hlt)]
    · rw [if_neg (fun h => ha h.1), if_neg ha]

/-! ## Runs -/

structure Settled (s : AXISubordinateWrite) (awReady wReady bValid : Bool) : Prop where
  aw : s.awReady = awReady
  w : s.wReady = wReady
  wTmp : s.wReadyTmp = wReady
  b : s.bValid = bValid
  bTmp : s.bValidTmp = bValid

/-- Where the port stands: between bursts, in the beats of one, or waiting
for its response to be taken. -/
inductive Phase (bs : List (Burst bus)) (w : World bus) : Prop where
  | idle (n : ℕ) (ready : Bool) (hs : Settled w.sub ready false false) (hop : w.sub.curOp = none)
      (hoff : w.sub.curOff = 0) (haw : w.aw = bs.drop n) (hw : w.w = queue (bs.drop n))
      (hops : w.ops = (bs.take n).map opOf)
  | data (n : ℕ) (b : Burst bus) (hb : bs[n]? = some b) (k : ℕ) (hk : k < b.beats.length)
      (hs : Settled w.sub false true false) (hop : w.sub.curOp = some (gathered b k).1)
      (hoff : w.sub.curOff = (gathered b k).2) (haw : w.aw = bs.drop (n+1))
      (hw : w.w = flagged (b.beats.drop k)++queue (bs.drop (n+1)))
      (hops : w.ops = (bs.take n).map opOf)
  | response (n : ℕ) (hs : Settled w.sub false false true) (hop : w.sub.curOp.isSome)
      (hoff : w.sub.curOff = 0) (haw : w.aw = bs.drop (n+1)) (hw : w.w = queue (bs.drop (n+1)))
      (hops : w.ops = (bs.take (n+1)).map opOf)

variable {bs : List (Burst bus)} {w : World bus}

lemma Phase.init (bs : List (Burst bus)) : Phase bs (.init bs) :=
  .idle 0 false ⟨rfl,rfl,rfl,rfl,rfl⟩ rfl rfl rfl rfl rfl

lemma Phase.writeDone (h : Phase bs w) : Phase bs (w.step .writeDone) := by
  cases h with
  | idle n ready hs hop hoff haw hw hops =>
    exact .idle n ready { hs with } hop hoff haw hw hops
  | data n b hb k hk hs hop hoff haw hw hops =>
    exact .data n b hb k hk { hs with } hop hoff haw hw hops
  | response n hs hop hoff haw hw hops => exact .response n { hs with } hop hoff haw hw hops

lemma drop_of_getElem? {α : Type*} {l : List α} {x : α} (h : l[n]? = some x) :
    l.drop n = x::l.drop (n+1) := by
  obtain ⟨hn,rfl⟩ := List.getElem?_eq_some_iff.mp h
  exact List.drop_eq_getElem_cons hn

lemma Burst.beats_pos (b : Burst bus) : 0 < b.beats.length := b.count ▸ succ_pos _

namespace AXISubordinateWrite
variable {s : AXISubordinateWrite}

lemma addressPort_closed (h : s.awReady = false) (i : Option AwPayload) : s.addressPort i = s := by
  unfold addressPort
  rw [h]
  cases i <;> rfl

lemma dataPort_closed (h : s.wReady = false) (i : Option (WriteBeat × Bool)) :
    s.dataPort bus i = (s,none) := by
  unfold dataPort
  rw [h]
  cases i <;> rfl

end AXISubordinateWrite

open AXISubordinateWrite

lemma idle_cycle {ready : Bool} (hs : Settled w.sub ready false false) (hop : w.sub.curOp = none)
    (hoff : w.sub.curOff = 0) (haw : w.aw = bs.drop n) (hw : w.w = queue (bs.drop n))
    (hops : w.ops = (bs.take n).map opOf) (awValid wValid bReady : Bool) :
    Phase bs (w.step (.cycle awValid wValid bReady)) := by
  have hresp : w.sub.responseDone bReady = w.sub := by
    simp [responseDone, hs.b]
  have haddr : ∀ i, (w.sub.addressPort i).wReady = false := by
    intro i
    unfold addressPort
    cases i with
    | none => exact hs.w
    | some => cases w.sub.awReady <;> exact hs.w
  simp only [World.step, step, hresp, dataPort_closed (haddr _), hs.aw, hs.w,
    Bool.and_false, Bool.false_eq_true, if_false, toList_none, append_nil]
  by_cases htake : awValid ∧ ready ∧ n < bs.length
  · obtain ⟨hv,hr,hn⟩ := htake
    have hbn : bs[n]? = some bs[n] := getElem?_eq_getElem hn
    have hdrop := drop_of_getElem? hbn
    have hone : w.sub.addressPort (w.aw.head?.map Burst.toAwPayload) =
        { w.sub with curOp := some (newOp bs[n].toAwPayload), wReadyTmp := true } := by
      rw [haw, hdrop, head?_cons, map_some]
      simp [addressPort, hs.aw, hr]
    simp only [hv, hr, if_true, Bool.and_true, hone]
    refine .data n bs[n] hbn 0 bs[n].beats_pos ⟨rfl,rfl,rfl,hs.bTmp,hs.bTmp⟩ rfl hoff ?_ ?_ hops
    · rw [haw, hdrop, tail_cons]
    · rw [hw, hdrop, drop_zero, queue, flatMap_cons, queue]
  · -- no address, or none taken
    have hsame : w.sub.addressPort (if awValid then w.aw.head?.map Burst.toAwPayload else none) =
        w.sub := by
      cases ready with
      | false => exact addressPort_closed hs.aw _
      | true =>
        cases awValid with
        | false => rfl
        | true =>
          have hn : bs.length ≤ n := by simpa using htake
          simp [haw, drop_eq_nil_of_le hn, addressPort]
    have hq : (if (awValid && ready) then w.aw.tail else w.aw) = w.aw := by
      split_ifs with hv
      · rw [Bool.and_eq_true] at hv
        have hn : bs.length ≤ n := by simpa [hv.1, hv.2] using htake
        rw [haw, drop_eq_nil_of_le hn, tail_nil]
      · rfl
    rw [hsame, hq]
    exact .idle n _ ⟨rfl,hs.wTmp,hs.wTmp,hs.bTmp,hs.bTmp⟩ hop hoff haw hw hops

lemma flagged_drop {beats : List WriteBeat} (hk : k < beats.length) :
    flagged (beats.drop k) = (beats[k],(beats.drop (k+1)).isEmpty)::flagged (beats.drop (k+1)) := by
  rw [drop_eq_getElem_cons hk, flagged]

lemma data_cycle (hb : bs[n]? = some b) (hk : k < b.beats.length)
    (hs : Settled w.sub false true false) (hop : w.sub.curOp = some (gathered b k).1)
    (hoff : w.sub.curOff = (gathered b k).2) (haw : w.aw = bs.drop (n+1))
    (hw : w.w = flagged (b.beats.drop k)++queue (bs.drop (n+1)))
    (hops : w.ops = (bs.take n).map opOf) (awValid wValid bReady : Bool) :
    Phase bs (w.step (.cycle awValid wValid bReady)) := by
  have hresp : w.sub.responseDone bReady = w.sub := by
    simp [responseDone, hs.b]
  have hseg : segment bus ((gathered b k).1,(gathered b k).2) b.beats[k] = gathered b (k+1) :=
    (gathered_succ b (getElem?_eq_getElem hk)).symm
  simp only [World.step, step, hresp, addressPort_closed hs.aw, hs.aw, hs.w, Bool.and_false,
    Bool.and_true, Bool.false_eq_true, if_false]
  cases wValid with
  | false =>
    have hnone : w.sub.dataPort bus none = (w.sub,none) := rfl
    simp only [Bool.false_eq_true, if_false, hnone, toList_none, append_nil]
    refine .data n b hb k hk ⟨?_,hs.wTmp,hs.wTmp,hs.bTmp,hs.bTmp⟩ hop hoff haw hw hops
    simp [stepApply, hop]
  | true =>
    rw [hw, flagged_drop hk, cons_append, head?_cons, tail_cons]
    unfold dataPort
    rw [hs.w, hop, hoff]
    simp only [hseg, if_true]
    by_cases hlast : (b.beats.drop (k+1)).isEmpty
    · have hlen : b.beats.length = k+1 := by
        simp only [List.isEmpty_iff, List.drop_eq_nil_iff] at hlast
        omega
      have hnil : flagged (b.beats.drop (k+1)) = [] := by
        rw [List.isEmpty_iff.mp hlast]
        rfl
      simp only [hlast, if_true, hnil, nil_append, toList_some]
      refine .response n ⟨rfl,rfl,rfl,rfl,rfl⟩ rfl rfl haw rfl ?_
      rw [hops, take_add_one, hb, toList_some, map_append, map_singleton,
        opOf, hlen]
    · simp only [hlast, Bool.false_eq_true, if_false, Option.toList_none, List.append_nil]
      have hk' : k+1 < b.beats.length := by
        simp only [List.isEmpty_iff, List.drop_eq_nil_iff] at hlast
        omega
      exact .data n b hb (k+1) hk' ⟨rfl,hs.wTmp,hs.wTmp,hs.bTmp,hs.bTmp⟩ rfl rfl haw rfl hops

lemma response_cycle (hs : Settled w.sub false false true) (hop : w.sub.curOp.isSome)
    (hoff : w.sub.curOff = 0) (haw : w.aw = bs.drop (n+1)) (hw : w.w = queue (bs.drop (n+1)))
    (hops : w.ops = (bs.take (n+1)).map opOf) (awValid wValid bReady : Bool) :
    Phase bs (w.step (.cycle awValid wValid bReady)) := by
  simp only [World.step, step, responseDone, hs.b,
    Bool.true_and, hs.aw, hs.w, Bool.and_false, Bool.false_eq_true, if_false]
  cases bReady with
  | false =>
    simp only [Bool.false_eq_true, if_false, addressPort_closed hs.aw, dataPort_closed hs.w,
      toList_none, append_nil]
    refine .response n ⟨?_,hs.wTmp,hs.wTmp,hs.bTmp,hs.bTmp⟩ hop hoff haw hw hops
    simp [stepApply, isNone_eq_false_iff.mpr hop]
  | true =>
    rw [if_pos rfl, addressPort_closed rfl, dataPort_closed rfl]
    simp only [toList_none, append_nil]
    exact .idle (n+1) _ ⟨rfl,hs.wTmp,hs.wTmp,rfl,rfl⟩ rfl hoff haw hw hops

lemma Phase.step (h : Phase bs w) (e : Event) : Phase bs (w.step e) := by
  cases e with
  | writeDone => exact h.writeDone
  | cycle awValid wValid bReady =>
    cases h with
    | idle n ready hs hop hoff haw hw hops =>
      exact idle_cycle hs hop hoff haw hw hops awValid wValid bReady
    | data n b hb k hk hs hop hoff haw hw hops =>
      exact data_cycle hb hk hs hop hoff haw hw hops awValid wValid bReady
    | response n hs hop hoff haw hw hops =>
      exact response_cycle hs hop hoff haw hw hops awValid wValid bReady

/-- The operations passed on are those of the first bursts; once all beats are
taken, of all of them. -/
lemma Phase.operations (h : Phase bs w) :
    ∃ n, w.ops = (bs.take n).map opOf ∧ (w.w = [] → bs.length ≤ n) := by
  have hempty : ∀ n, queue (bs.drop n) = [] → bs.length ≤ n := by
    intro n hq
    by_contra hle
    have hlt : n < bs.length := not_le.mp hle
    rw [drop_eq_getElem_cons hlt, queue, flatMap_cons, append_eq_nil_iff] at hq
    have hf := flagged_drop bs[n].beats_pos
    rw [drop_zero, hq.1] at hf
    exact absurd hf.symm (cons_ne_nil _ _)
  cases h with
  | idle n ready hs hop hoff haw hw hops => exact ⟨n,hops,fun h0 => hempty n (hw ▸ h0)⟩
  | response n hs hop hoff haw hw hops => exact ⟨n+1,hops,fun h0 => hempty (n+1) (hw ▸ h0)⟩
  | data n b hb k hk hs hop hoff haw hw hops =>
    refine ⟨n,hops,fun h0 => ?_⟩
    rw [hw, flagged_drop hk] at h0
    exact absurd h0 (cons_ne_nil _ _)

/-- The operations passed on are those of the first bursts, of all of them
once all beats are taken; and each does what its burst does exactly if each
of these bursts is whole. -/
theorem write_port_iff (bus : Bus) (bs : List (Burst bus)) (es : List Event) :
    (run World.step (.init bs) es).ops.length ≤ bs.length ∧
    ((run World.step (.init bs) es).w = [] →
      (run World.step (.init bs) es).ops.length = bs.length) ∧
    ((∀ (i : ℕ) (b : Burst bus) (op : AXIOperation), bs[i]? = some b →
        (run World.step (.init bs) es).ops[i]? = some op → Writes b op) ↔
      ∀ b ∈ bs.take (run World.step (.init bs) es).ops.length, Whole b) := by
  obtain ⟨n,hops,hall⟩ := (run_always (fun _ e h => h.step e)
    (Phase.init bs) es).operations
  generalize run World.step (.init bs) es = w at hops hall
  have hlen : w.ops.length = min n bs.length := by rw [hops, length_map, length_take]
  have hmap : w.ops = (bs.take w.ops.length).map opOf := by
    rw [hlen, ← take_eq_take_min]
    exact hops
  have hfront : ∀ (i : ℕ) b, (bs.take w.ops.length)[i]? = some b → bs[i]? = some b := by
    intro i b hb
    rw [getElem?_take] at hb
    split_ifs at hb
    exact hb
  refine ⟨by omega,fun h => by have := hall h; omega,?_⟩
  constructor
  · intro h b hb
    obtain ⟨i,hi⟩ := mem_iff_getElem?.mp hb
    refine (writes_iff b).mp (h i b (opOf b) (hfront i b hi) ?_)
    rw [hmap, getElem?_map, hi, map_some]
  · intro h i b op hb hop
    rw [hmap, getElem?_map, map_eq_some_iff] at hop
    obtain ⟨b',hb',rfl⟩ := hop
    have hmem : b' ∈ bs.take w.ops.length := mem_of_getElem? hb'
    cases hb.symm.trans (hfront i b' hb')
    exact (writes_iff b).mpr (h b hmem)

def bus4 : Bus := ⟨4,16,2,by decide,rfl⟩

def oneStrobe : Burst bus4 where
  addr := 0
  id := 0
  len := 0
  size := 2
  beats := [⟨fun l => if l = 0 then 7 else 9,fun l => l = 0⟩]
  size_le := by decide
  count := rfl
  strobes := by
    intro i beat hi l hl
    cases i with
    | zero =>
      cases hi
      exact ⟨0,by decide,by decide,(of_decide_eq_true hl).symm⟩
    | succ i => simp at hi

/-- Two transfers of two bytes from address 1 on: the first one has the byte
at address 1, the second one those at 2 and 3. -/
def unaligned : Burst bus4 where
  addr := 1
  id := 0
  len := 1
  size := 1
  beats := [⟨fun l => if l = 1 then 7 else 9,fun l => l = 1⟩,
    ⟨fun l => if l = 2 then 5 else 6,fun l => l = 2 ∨ l = 3⟩]
  size_le := by decide
  count := rfl
  strobes := by
    intro i beat hi l hl
    match i with
    | 0 =>
      cases hi
      exact ⟨1,by decide,by decide,(of_decide_eq_true hl).symm⟩
    | 1 =>
      cases hi
      rcases of_decide_eq_true hl with rfl | rfl
      · exact ⟨2,by decide,by decide,rfl⟩
      · exact ⟨3,by decide,by decide,rfl⟩
    | i+2 => simp at hi

def written (b : Burst bus4) (a : ℕ) : List UInt8 := (run World.step (.init [b])
      [.cycle false false false,.cycle true false false,.cycle false true false,
        .cycle false true false]).ops.map
    fun op => store (fun _ => 0xEE) op.addr (load op.buf 0 op.len) a

/-- The byte next to a single strobed one is overwritten. In the unaligned
burst the byte at address 2 is taken from the first beat, and the byte at
address 4, behind the last transfer, is cleared. -/
theorem strobes_ignored : (written oneStrobe 1 = [9] ∧ oneStrobe.apply (fun _ => 0xEE) 1 = 0xEE) ∧
    (written unaligned 2 = [9] ∧ unaligned.apply (fun _ => 0xEE) 2 = 5) ∧
    (written unaligned 4 = [0] ∧ unaligned.apply (fun _ => 0xEE) 4 = 0xEE) := by
  refine ⟨⟨?_,?_⟩,⟨?_,?_⟩,⟨?_,?_⟩⟩
  all_goals decide +kernel

end SimBricks.AxiWritePort
