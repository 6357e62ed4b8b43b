import SimBricks.Library.Run

/-!
# The AXI-Lite manager of `axil_manager.hh`

Reads and writes wait in one queue; only the port of the front operation is
stepped. A response ends the operation in the middle of its port's step:
the callback runs, and may issue more, before the next operation is given to
its port. References into the queue are kept as positions counted from the
first operation ever issued.
-/

set_option autoImplicit false

namespace SimBricks.AxiLite
open Library Library.Run List Option Bool

structure Config where
  bytesAddr : ℕ
  bytesData : ℕ
  addr_le : bytesAddr ≤ 8
  data_eq : bytesData = 4 ∨ bytesData = 8

inductive Request where
  | read (reqId addr : UInt64)
  | write (reqId addr data : UInt64) (posted : Bool)
  deriving DecidableEq, Repr

inductive Op where
  | read (addr reqId data : UInt64)
  | write (addr reqId data : UInt64) (posted : Bool)
  deriving DecidableEq, Repr

def Request.addr : Request → UInt64
  | .read _ addr => addr
  | .write _ addr _ _ => addr

def Request.op : Request → Op
  | .read reqId addr => .read addr reqId 0
  | .write reqId addr data posted => .write addr reqId data posted

def Op.request : Op → Request
  | .read addr reqId _ => .read reqId addr
  | .write addr reqId data posted => .write reqId addr data posted

def lowBytes (n : ℕ) (x : UInt64) : UInt64 := UInt64.ofNat (x.toNat % 256^n)

structure ReadPort where
  arValid : Bool := false
  arAddr : UInt64 := 0
  arValidTmp : Bool := false
  arAddrTmp : UInt64 := 0
  curOp : Option ℕ := none
  handlingOp : Bool := false
  deriving DecidableEq, Repr

structure WritePort where
  awValid : Bool := false
  awAddr : UInt64 := 0
  wValid : Bool := false
  wData : UInt64 := 0
  awValidTmp : Bool := false
  awAddrTmp : UInt64 := 0
  wValidTmp : Bool := false
  wDataTmp : UInt64 := 0
  curOp : Option ℕ := none
  handlingOp : Bool := false
  deriving DecidableEq, Repr

def ReadPort.stepApply (c : Config) (p : ReadPort) : ReadPort :=
  { p with arValid := p.arValidTmp, arAddr := lowBytes c.bytesAddr p.arAddrTmp }

def WritePort.stepApply (c : Config) (p : WritePort) : WritePort := { p with
    awValid := p.awValidTmp, awAddr := lowBytes c.bytesAddr p.awAddrTmp
    wValid := p.wValidTmp, wData := lowBytes c.bytesData p.wDataTmp }

inductive StepOn where
  | none | read | write
  deriving DecidableEq, Repr

structure AXILManager where
  readPort : ReadPort := {}
  writePort : WritePort := {}
  pending : List Op := []
  popped : ℕ := 0
  stepOn : StepOn := .none
  deriving DecidableEq, Repr

structure Inputs where
  arReady : Bool
  rValid : Bool
  rData : UInt64
  awReady : Bool
  wReady : Bool
  bValid : Bool

variable (c : Config)

namespace AXILManager

/-- `none` is a failed assertion or an exception, here and below. -/
def setOpRead (m : AXILManager) : Option AXILManager :=
  if m.readPort.curOp.isSome then none
  else some { m with readPort := { m.readPort with curOp := some m.popped } }

def setOpWrite (m : AXILManager) : Option AXILManager :=
  if m.writePort.curOp.isSome then none
  else some { m with writePort := { m.writePort with curOp := some m.popped } }

def portsSetOp (m : AXILManager) : Option AXILManager :=
  match m.pending with
  | [] => some m
  | .read .. ::_ => m.setOpRead
  | .write .. ::_ => m.setOpWrite

def issue (m : AXILManager) (r : Request) : Option AXILManager :=
  if r.addr.toNat % c.bytesData ≠ 0 then none
  else if m.pending.isEmpty then portsSetOp { m with pending := m.pending++[r.op] }
  else some { m with pending := m.pending++[r.op] }

def issueAll (m : AXILManager) (rs : List Request) : Option AXILManager := rs.foldlM (issue c) m

def opDone (m : AXILManager) (rs : List Request) : Option (AXILManager × List Op) :=
  match m.pending with
  | [] => none
  | op::_ => do
    let m ← m.issueAll c rs
    let m ← portsSetOp { m with pending := m.pending.tail, popped := m.popped+1 }
    return (m,[op])

def readAddrDone (m : AXILManager) (i : Inputs) : Option AXILManager :=
  if m.readPort.arValid && i.arReady then
    if m.readPort.curOp.isSome then
      some { m with readPort := { m.readPort with arValidTmp := false, arAddrTmp := 0 } }
    else none
  else some m

def readDataDone (m : AXILManager) (i : Inputs) (rs : List Request) :
    Option (AXILManager × List Op) :=
  if i.rValid then
    match m.readPort.curOp with
    | none => none
    | some q =>
      match m.pending[q-m.popped]? with
      | some (.read addr reqId _) =>
        opDone c { m with
          pending := m.pending.set (q-m.popped) (.read addr reqId (lowBytes c.bytesData i.rData))
          readPort := { m.readPort with curOp := none, handlingOp := false } } rs
      | _ => none
  else some (m,[])

def readIssue (m : AXILManager) : Option AXILManager :=
  match m.readPort.handlingOp, m.readPort.curOp with
  | false, some q =>
    match m.pending[q-m.popped]? with
    | some (.read addr _ _) =>
      some { m with
        readPort := { m.readPort with handlingOp := true, arAddrTmp := addr, arValidTmp := true } }
    | _ => none
  | _, _ => some m

def readPortStep (m : AXILManager) (i : Inputs) (rs : List Request) :
    Option (AXILManager × List Op) := do
  let m ← m.readAddrDone i
  let (m,done) ← m.readDataDone c i rs
  let m ← m.readIssue
  return (m,done)

def writeAddrDone (m : AXILManager) (i : Inputs) : AXILManager :=
  if m.writePort.awValid && i.awReady then
    { m with writePort := { m.writePort with awValidTmp := false, awAddrTmp := 0 } }
  else m

def writeDataDone (m : AXILManager) (i : Inputs) : AXILManager :=
  if i.wReady && m.writePort.wValid then
    { m with writePort := { m.writePort with wValidTmp := false, wDataTmp := 0 } }
  else m

def writeRespDone (m : AXILManager) (i : Inputs) (rs : List Request) :
    Option (AXILManager × List Op) :=
  if i.bValid then
    opDone c { m with
      writePort := { m.writePort with curOp := none, handlingOp := false } } rs
  else some (m,[])

def writeIssue (m : AXILManager) : Option AXILManager :=
  match m.writePort.handlingOp, m.writePort.curOp with
  | false, some q =>
    match m.pending[q-m.popped]? with
    | some (.write addr _ data _) =>
      some { m with
        writePort := { m.writePort with
          handlingOp := true, awAddrTmp := addr, awValidTmp := true, wDataTmp := data
          wValidTmp := true } }
    | _ => none
  | _, _ => some m

def writePortStep (m : AXILManager) (i : Inputs) (rs : List Request) :
    Option (AXILManager × List Op) := do
  let (m,done) ← ((m.writeAddrDone i).writeDataDone i).writeRespDone c i rs
  let m ← m.writeIssue
  return (m,done)

def step (m : AXILManager) (i : Inputs) (rs : List Request) : Option (AXILManager × List Op) :=
  match m.pending with
  | [] => some (m,[])
  | .read .. ::_ => do
    let (m,done) ← m.readPortStep c i rs
    return ({ m with stepOn := .read },done)
  | .write .. ::_ => do
    let (m,done) ← m.writePortStep c i rs
    return ({ m with stepOn := .write },done)

def stepApply (m : AXILManager) : AXILManager :=
  match m.stepOn with
  | .none => m
  | .read => { m with readPort := m.readPort.stepApply c }
  | .write => { m with writePort := m.writePort.stepApply c }

end AXILManager

/-! ## The bus -/

inductive BusEvent where
  | ar (addr : UInt64)
  | r (data : UInt64)
  | aw (addr : UInt64)
  | w (data : UInt64)
  | b
  deriving DecidableEq, Repr

/-- The manager, the requests issued, the operations passed to callbacks and
the handshakes so far; and which handshakes still wait for their response. -/
structure World where
  mgr : AXILManager := {}
  issued : List Request := []
  done : List Op := []
  trace : List BusEvent := []
  arTaken : Bool := false
  awTaken : Bool := false
  wTaken : Bool := false
  halted : Bool := false

inductive Event where
  | issue (r : Request)
  | cycle (i : Inputs) (rs : List Request)

def World.arShake (w : World) (i : Inputs) : Bool := w.mgr.readPort.arValid && i.arReady
def World.awShake (w : World) (i : Inputs) : Bool := w.mgr.writePort.awValid && i.awReady
def World.wShake (w : World) (i : Inputs) : Bool := w.mgr.writePort.wValid && i.wReady

/-- A conformant subordinate responds at most once, and not before the
handshakes of the request; in the cycle of the last one at the earliest. -/
def World.response (w : World) (i : Inputs) : Inputs := { i with
    rValid := i.rValid && (w.arTaken || w.arShake i)
    bValid := i.bValid && ((w.awTaken || w.awShake i) && (w.wTaken || w.wShake i)) }

def World.shakes (w : World) (i : Inputs) : List BusEvent :=
  (if w.arShake i then [BusEvent.ar w.mgr.readPort.arAddr] else [])++
  (if w.awShake i then [BusEvent.aw w.mgr.writePort.awAddr] else [])++
  (if w.wShake i then [BusEvent.w w.mgr.writePort.wData] else [])++
  (if (w.response i).rValid then [BusEvent.r (lowBytes c.bytesData i.rData)] else [])++
  (if (w.response i).bValid then [BusEvent.b] else [])

def World.cycled (w : World) (i : Inputs) (rs : List Request) (m : AXILManager) (done : List Op) :
    World :=
  { w with
    mgr := m.stepApply c
    issued := if done.isEmpty then w.issued else w.issued++rs
    done := w.done++done
    trace := w.trace++w.shakes c i
    arTaken := (w.arTaken || w.arShake i) && !(w.response i).rValid
    awTaken := (w.awTaken || w.awShake i) && !(w.response i).bValid
    wTaken := (w.wTaken || w.wShake i) && !(w.response i).bValid }

def World.step (w : World) (e : Event) : World :=
  if w.halted then w
  else match e with
    | .issue r =>
      match w.mgr.issue c r with
      | none => { w with halted := true }
      | some m => { w with mgr := m, issued := w.issued++[r] }
    | .cycle i rs =>
      match w.mgr.step c (w.response i) rs with
      | none => { w with halted := true }
      | some (m,done) => w.cycled c i rs m done

def Aligned : Event → Prop
  | .issue r => r.addr.toNat % c.bytesData = 0
  | .cycle _ rs => ∀ r ∈ rs, r.addr.toNat % c.bytesData = 0

inductive Completes : Op → List BusEvent → Prop where
  | read (addr reqId data : UInt64) :
    Completes (.read addr reqId data) [.ar (lowBytes c.bytesAddr addr),.r data]
  | addrFirst (addr reqId data : UInt64) (posted : Bool) : Completes (.write addr reqId data posted)
      [.aw (lowBytes c.bytesAddr addr),.w (lowBytes c.bytesData data),.b]
  | dataFirst (addr reqId data : UInt64) (posted : Bool) : Completes (.write addr reqId data posted)
      [.w (lowBytes c.bytesData data),.aw (lowBytes c.bytesAddr addr),.b]

inductive Serves : List Op → List BusEvent → Prop where
  | nil : Serves [] []
  | snoc {ops : List Op} {tr g : List BusEvent} {op : Op} (h : Serves ops tr)
      (hg : Completes c op g) : Serves (ops++[op]) (tr++g)

def Begins (r : Request) (begun : List BusEvent) : Prop :=
  ∃ op g, op.request = r ∧ Completes c op (begun++g) ∧ g ≠ []

/-! ## The front operation -/

def busyRead (q : ℕ) (addr : UInt64) (taken : Bool) : ReadPort :=
  if taken then { curOp := some q, handlingOp := true }
  else
    { arValid := true, arAddr := lowBytes c.bytesAddr addr, arValidTmp := true, arAddrTmp := addr
      curOp := some q, handlingOp := true }

def busyWrite (q : ℕ) (addr data : UInt64) (aw w : Bool) : WritePort where
  awValid := !aw
  awAddr := if aw then 0 else lowBytes c.bytesAddr addr
  wValid := !w
  wData := if w then 0 else lowBytes c.bytesData data
  awValidTmp := !aw
  awAddrTmp := if aw then 0 else addr
  wValidTmp := !w
  wDataTmp := if w then 0 else data
  curOp := some q
  handlingOp := true

inductive WriteBegun (addr data : UInt64) : Bool → Bool → List BusEvent → Prop where
  | none : WriteBegun addr data false false []
  | addr : WriteBegun addr data true false [.aw (lowBytes c.bytesAddr addr)]
  | data : WriteBegun addr data false true [.w (lowBytes c.bytesData data)]
  | addrData : WriteBegun addr data true true
      [.aw (lowBytes c.bytesAddr addr),.w (lowBytes c.bytesData data)]
  | dataAddr : WriteBegun addr data true true
      [.w (lowBytes c.bytesData data),.aw (lowBytes c.bytesAddr addr)]

/-- The queue, the ports, the handshakes that wait for a response and those
of the front operation so far. -/
inductive Front : List Op → ℕ → ReadPort → WritePort → Bool → Bool → Bool → List BusEvent → Prop
  where
  | empty (q : ℕ) : Front [] q {} {} false false false []
  | readWaiting (addr reqId : UInt64) (rest : List Op) (q : ℕ) :
    Front (.read addr reqId 0::rest) q { curOp := some q } {} false false false []
  | readBusy (addr reqId : UInt64) (rest : List Op) (q : ℕ) (taken : Bool) :
    Front (.read addr reqId 0::rest) q (busyRead c q addr taken) {} taken false false
      (if taken then [.ar (lowBytes c.bytesAddr addr)] else [])
  | writeWaiting (addr reqId data : UInt64) (posted : Bool) (rest : List Op) (q : ℕ) :
    Front (.write addr reqId data posted::rest) q {} { curOp := some q } false false false []
  | writeBusy (addr reqId data : UInt64) (posted : Bool) (rest : List Op) (q : ℕ) (aw w : Bool)
      (begun : List BusEvent) (h : WriteBegun c addr data aw w begun) :
    Front (.write addr reqId data posted::rest) q {} (busyWrite c q addr data aw w) false aw w begun

def Fresh (ops : List Op) : Prop := ∀ op ∈ ops, op.request.op = op

structure Inv (w : World) : Prop where
  running : w.halted = false
  fresh : Fresh w.mgr.pending
  order : w.issued = w.done.map Op.request++w.mgr.pending.map Op.request
  bus : ∃ full begun, w.trace = full++begun ∧ Serves c w.done full ∧
    Front c w.mgr.pending w.mgr.popped w.mgr.readPort w.mgr.writePort w.arTaken w.awTaken w.wTaken
      begun

open AXILManager

variable {c}

lemma request_op (r : Request) : r.op.request = r := by
  cases r <;> rfl

@[simp] lemma lowBytes_zero (n : ℕ) : lowBytes n 0 = 0 := by
  simp [lowBytes]

variable {op : Op} {m : AXILManager} {P : List Op} {begun : List BusEvent} {e : Event} {k : ℕ}
variable {w' : World}

lemma Fresh.tail {ops : List Op} (h : Fresh (op::ops)) : Fresh ops :=
  fun x hx => h x (mem_cons_of_mem op hx)

lemma Fresh.append {ops : List Op} (h : Fresh ops) (rs : List Request) :
    Fresh (ops++rs.map Request.op) := by
  intro op hop
  rcases mem_append.mp hop with hop | hop
  · exact h op hop
  · obtain ⟨r,-,rfl⟩ := mem_map.mp hop
    rw [request_op]

lemma issueAll_busy (hne : m.pending ≠ []) {rs : List Request}
    (hrs : ∀ r ∈ rs, r.addr.toNat % c.bytesData = 0) :
    m.issueAll c rs = some { m with pending := m.pending++rs.map Request.op } := by
  induction rs generalizing m with
  | nil => simp [issueAll]
  | cons r rs ih =>
    have hone : m.issue c r = some { m with pending := m.pending++[r.op] } := by
      have hr := hrs r mem_cons_self
      simp [issue, hr, hne]
    have hrest := ih (m := { m with pending := m.pending++[r.op] }) (by simp)
      fun x hx => hrs x (mem_cons_of_mem r hx)
    unfold issueAll at hrest ⊢
    rw [foldlM_cons, hone]
    simpa using hrest

lemma opDone_eq {rest : List Op} (hp : m.pending = op::rest) {rs : List Request}
    (hrs : ∀ r ∈ rs, r.addr.toNat % c.bytesData = 0) :
    m.opDone c rs = (portsSetOp { m with
      pending := rest++rs.map Request.op, popped := m.popped+1 }).map (·,[op]) := by
  have hne : m.pending ≠ [] := by simp [hp]
  unfold opDone
  rw [issueAll_busy hne hrs, hp]
  rw [map_eq_bind]
  rfl

lemma Fresh.read_data {addr reqId data : UInt64} {rest : List Op}
    (h : Fresh (.read addr reqId data::rest)) : data = 0 := by
  have := h _ mem_cons_self
  simpa [Op.request, Request.op, eq_comm] using this

/-- The read port ends its operation, whatever it still shows on the bus. A
further read is on the bus at once, a write waits for its port's step. -/
lemma read_finish (v : Bool) (a : UInt64) (hP : Fresh P) (q : ℕ) (on : StepOn) :
    ∃ rp wp,
    (portsSetOp ⟨⟨v,a,false,0,none,false⟩,{},P,q,on⟩).bind readIssue = some ⟨rp,wp,P,q,on⟩ ∧
    Front c P q (rp.stepApply c) wp false false false [] := by
  match P, hP with
  | [], _ =>
    refine ⟨_,_,rfl,?_⟩
    simpa [ReadPort.stepApply] using Front.empty q
  | .read addr reqId data::rest, hP =>
    obtain rfl := hP.read_data
    refine ⟨⟨v,a,true,addr,some q,true⟩,{},?_,Front.readBusy addr reqId rest q false⟩
    simp [portsSetOp, setOpRead, readIssue]
  | .write addr reqId data posted::rest, _ =>
    refine ⟨_,_,rfl,?_⟩
    simpa [ReadPort.stepApply] using Front.writeWaiting addr reqId data posted rest q

lemma write_finish (av wv : Bool) (a d : UInt64) (hP : Fresh P) (q : ℕ) (on : StepOn) :
    ∃ rp wp, (portsSetOp ⟨{},⟨av,a,wv,d,false,0,false,0,none,false⟩,P,q,on⟩).bind writeIssue = some
    ⟨rp,wp,P,q,on⟩ ∧ Front c P q rp (wp.stepApply c) false false false [] := by
  match P, hP with
  | [], _ =>
    refine ⟨_,_,rfl,?_⟩
    simpa [WritePort.stepApply] using Front.empty q
  | .read addr reqId data::rest, hP =>
    obtain rfl := hP.read_data
    refine ⟨_,_,rfl,?_⟩
    simpa [WritePort.stepApply] using Front.readWaiting addr reqId rest q
  | .write addr reqId data posted::rest, _ =>
    refine ⟨{},⟨av,a,wv,d,true,addr,true,data,some q,true⟩,?_,
      Front.writeBusy addr reqId data posted rest q false false [] .none⟩
    simp [portsSetOp, setOpWrite, writeIssue]

variable {w : World}

lemma Inv.init : Inv c {} := ⟨rfl,fun _ h => absurd h not_mem_nil,rfl,[],[],rfl,.nil,.empty 0⟩

lemma Front.more {q : ℕ} {rp : ReadPort} {wp : WritePort} {ar aw wd : Bool}
    (h : Front c P q rp wp ar aw wd begun) (hne : P ≠ []) (ops : List Op) :
    Front c (P++ops) q rp wp ar aw wd begun := by
  cases h with
  | empty => exact absurd rfl hne
  | readWaiting addr reqId rest => exact .readWaiting addr reqId (rest++ops) q
  | readBusy addr reqId rest => exact .readBusy addr reqId (rest++ops) q ar
  | writeWaiting addr reqId data posted rest =>
    exact .writeWaiting addr reqId data posted (rest++ops) q
  | writeBusy addr reqId data posted rest _ _ _ _ hb =>
    exact .writeBusy addr reqId data posted (rest++ops) q aw wd begun hb

lemma issue_empty (q : ℕ) (on : StepOn) {r : Request} (hr : r.addr.toNat % c.bytesData = 0) :
    ∃ rp wp, issue c ⟨{},{},[],q,on⟩ r = some ⟨rp,wp,[r.op],q,on⟩ ∧
    Front c [r.op] q rp wp false false false [] := by
  cases r with
  | read reqId addr =>
    refine ⟨{ curOp := some q },{},?_,.readWaiting addr reqId [] q⟩
    simp [issue, hr, portsSetOp, setOpRead, Request.op]
  | write reqId addr data posted =>
    refine ⟨{},{ curOp := some q },?_,.writeWaiting addr reqId data posted [] q⟩
    simp [issue, hr, portsSetOp, setOpWrite, Request.op]

lemma Inv.issue (h : Inv c w) {r : Request} (hr : r.addr.toNat % c.bytesData = 0) :
    Inv c (w.step c (.issue r)) := by
  obtain ⟨hrun,hfresh,horder,full,begun,htrace,hserves,hfront⟩ := h
  have hfresh' : Fresh (w.mgr.pending++[r.op]) := hfresh.append [r]
  have horder' : w.issued++[r] = w.done.map Op.request++(w.mgr.pending++[r.op]).map Op.request := by
    rw [horder, map_append, append_assoc, map_singleton, request_op]
  unfold World.step
  rw [hrun]
  by_cases h0 : w.mgr.pending = []
  · obtain ⟨⟨rp,wp,pending,popped,on⟩,_,_,_,_,_,_,_⟩ := w
    subst h0
    cases hfront with
    | empty =>
      obtain ⟨rp,wp,hissue,hfront⟩ := issue_empty popped on hr
      simp only [false_eq_true, if_false, hissue]
      exact ⟨rfl,hfresh',horder',full,[],htrace,hserves,hfront⟩
  · have hissue : w.mgr.issue c r = some { w.mgr with pending := w.mgr.pending++[r.op] } := by
      simp [AXILManager.issue, hr, h0]
    simp only [false_eq_true, if_false, hissue]
    exact ⟨rfl,hfresh',horder',full,begun,htrace,hserves,hfront.more h0 [r.op]⟩

/-! ## A cycle -/

lemma bind_pair {α β : Type*} (o : Option α) (f : α → Option α) (d : β) :
    ((o.map (·,d)).bind fun x => (f x.1).bind fun m => some (m,x.2)) = (o.bind f).map (·,d) := by
  cases o with
  | none => rfl
  | some m =>
    cases h : f m with
    | none | some n => simp [h]

def AXILManager.handling (m : AXILManager) : Bool := m.readPort.handlingOp || m.writePort.handlingOp

/-- What is on the bus and not taken stays there, what is taken is withdrawn;
an operation is put on the bus when its port is stepped, and the response of
one on the bus ends it. -/
structure Kept (w : World) (i : Inputs) (m : AXILManager) (done : List Op) : Prop where
  ar : w.mgr.readPort.arValid → i.arReady = false →
    m.readPort.arValid ∧ m.readPort.arAddr = w.mgr.readPort.arAddr
  aw : w.mgr.writePort.awValid → i.awReady = false →
    m.writePort.awValid ∧ m.writePort.awAddr = w.mgr.writePort.awAddr
  wd : w.mgr.writePort.wValid → i.wReady = false →
    m.writePort.wValid ∧ m.writePort.wData = w.mgr.writePort.wData
  waiting : w.mgr.handling = false → w.mgr.pending ≠ [] → m.handling ∧
    (m.readPort.arValid = false ∨ m.writePort.awValid = false ∧ m.writePort.wValid = false)
  shown : w.mgr.handling → done = [] → m.handling ∧
    m.readPort.arValid = (w.mgr.readPort.arValid && !i.arReady) ∧
    m.writePort.awValid = (w.mgr.writePort.awValid && !i.awReady) ∧
    m.writePort.wValid = (w.mgr.writePort.wValid && !i.wReady)
  read : w.arTaken → i.rValid → done ≠ []
  written : w.awTaken → w.wTaken → i.bValid → done ≠ []

def Cycled (c : Config) (w : World) (i : Inputs) (rs : List Request) (begun : List BusEvent) :
    Prop :=
  ∃ m done begun', w.mgr.step c (w.response i) rs = some (m,done) ∧
    Front c (m.stepApply c).pending (m.stepApply c).popped (m.stepApply c).readPort
      (m.stepApply c).writePort ((w.arTaken || w.arShake i) && !(w.response i).rValid)
      ((w.awTaken || w.awShake i) && !(w.response i).bValid)
      ((w.wTaken || w.wShake i) && !(w.response i).bValid) begun' ∧
    ((done = [] ∧ (m.stepApply c).pending = w.mgr.pending ∧ begun++w.shakes c i = begun') ∨
      ∃ op rest op', done = [op] ∧ w.mgr.pending = op'::rest ∧ op'.request = op.request ∧
        (m.stepApply c).pending = rest++rs.map Request.op ∧ begun' = [] ∧
        Completes c op (begun++w.shakes c i)) ∧
    Kept w i (m.stepApply c) done

section
variable (on : StepOn) (issued : List Request) (done : List Op) (trace : List BusEvent)
variable (i : Inputs) {rs : List Request}

lemma cycled_empty (q : ℕ) :
    Cycled c ⟨⟨{},{},[],q,on⟩,issued,done,trace,false,false,false,false⟩ i rs [] := by
  refine ⟨_,_,[],rfl,?_,.inl ⟨rfl,?_,?_⟩,?_⟩
  · cases on <;> simpa [stepApply, ReadPort.stepApply, WritePort.stepApply,
      World.arShake, World.awShake, World.wShake] using Front.empty q
  · cases on <;> rfl
  · simp [World.shakes, World.response, World.arShake, World.awShake, World.wShake]
  · constructor <;> simp [handling]

lemma cycled_readWaiting (addr reqId : UInt64) (rest : List Op) (q : ℕ) :
    Cycled c ⟨⟨{ curOp := some q },{},.read addr reqId 0::rest,q,on⟩,issued,done,trace,
      false,false,false,false⟩ i rs [] := by
  refine ⟨⟨⟨false,0,true,addr,some q,true⟩,{},.read addr reqId 0::rest,q,.read⟩,[],[],?_,?_,
    .inl ⟨rfl,rfl,?_⟩,?_⟩
  · simp [step, readPortStep, readAddrDone, readDataDone, readIssue, World.response, World.arShake]
  · exact Front.readBusy addr reqId rest q false
  · simp [World.shakes, World.response, World.arShake, World.awShake, World.wShake]
  · constructor <;> simp [handling, stepApply, ReadPort.stepApply]

omit on issued done trace i in
lemma step_read {m' : AXILManager} {addr reqId data : UInt64} {rest : List Op} {i : Inputs}
    (hp : m.pending = .read addr reqId data::rest) (haddr : m.readAddrDone i = some m') : m.step c i
    rs = ((m'.readDataDone c i rs).bind fun x => x.1.readIssue.bind fun m => some (m,x.2)).map fun x
    => ({ x.1 with stepOn := .read },x.2) := by
  unfold step readPortStep
  rw [hp, haddr]
  simp [map_eq_bind, bind_assoc]

section
variable {on i} {addr reqId : UInt64} {rest : List Op} {q : ℕ} {taken : Bool} {w : World}

structure ReadTaken (c : Config) (w : World) (addr reqId : UInt64) (rest : List Op) (q : ℕ)
    (taken : Bool) (on : StepOn) (i : Inputs) : Prop where
  mgr : w.mgr = ⟨busyRead c q addr taken,{},.read addr reqId 0::rest,q,on⟩
  ar : w.arTaken = taken
  idle : w.awTaken = false ∧ w.wTaken = false
  ready : taken = false → i.arReady

namespace ReadTaken
variable (h : ReadTaken c w addr reqId rest q taken on i)
include h

lemma shake : (w.arTaken || w.arShake i) := by
  rw [World.arShake, h.mgr, h.ar]
  cases taken with
  | true => rfl
  | false => simp [busyRead, h.ready rfl]

lemma rValid : (w.response i).rValid = i.rValid := by
  rw [World.response, h.shake, Bool.and_true]

lemma no_write : (w.response i).bValid = false ∧ w.awShake i = false ∧ w.wShake i = false := by
  simp [World.response, World.awShake, World.wShake, h.mgr, h.idle]

lemma addrDone :
    ∃ v a, w.mgr.readAddrDone (w.response i) = some
    ⟨⟨v,a,false,0,some q,true⟩,{},.read addr reqId 0::rest,q,on⟩ := by
  rw [h.mgr]
  cases taken with
  | true => exact ⟨false,0,rfl⟩
  | false =>
    refine ⟨true,lowBytes c.bytesAddr addr,?_⟩
    simp [readAddrDone, World.response, busyRead, h.ready rfl]

lemma shakes :
    (if taken then [.ar (lowBytes c.bytesAddr addr)] else [])++w.shakes c i =
    [.ar (lowBytes c.bytesAddr addr)]++
    (if i.rValid then [.r (lowBytes c.bytesData i.rData)] else []) := by
  unfold World.shakes
  rw [h.rValid, h.no_write.1, h.no_write.2.1, h.no_write.2.2, World.arShake, h.mgr]
  cases taken with
  | true => simp [busyRead]
  | false => simp [busyRead, h.ready rfl]

lemma kept {done : List Op}
    (hnone : done = [] → m.handling ∧ m.readPort.arValid = false ∧
      m.writePort.awValid = false ∧ m.writePort.wValid = false)
    (hread : i.rValid → done ≠ []) : Kept w i m done := by
  constructor
  case shown =>
    intro _ hd
    rw [(hnone hd).1, (hnone hd).2.1, (hnone hd).2.2.1, (hnone hd).2.2.2, h.mgr]
    cases taken with
    | false => simp [busyRead, h.ready rfl]
    | true => simp [busyRead]
  case read => exact fun _ => hread
  case ar =>
    -- what is still shown is being taken
    intro hv hr
    rw [h.mgr] at hv
    cases taken with
    | false => exact absurd ((h.ready rfl).symm.trans hr) (by decide)
    | true => exact absurd hv false_ne_true
  case written =>
    intro ha
    rw [h.idle.1] at ha
    cases ha
  all_goals simp [h.mgr, handling, apply_ite, busyRead]

end ReadTaken

lemma ReadTaken.cycled (h : ReadTaken c w addr reqId rest q taken on i) (hrest : Fresh rest)
    (hrs : ∀ r ∈ rs, r.addr.toNat % c.bytesData = 0) :
    Cycled c w i rs (if taken then [.ar (lowBytes c.bytesAddr addr)] else []) := by
  have hp : w.mgr.pending = .read addr reqId 0::rest := by rw [h.mgr]
  obtain ⟨v,a,haddr⟩ := h.addrDone
  unfold Cycled
  rw [step_read hp haddr, h.shake, h.rValid, h.shakes, h.no_write.1, h.no_write.2.1,
    h.no_write.2.2, h.idle.1, h.idle.2, hp]
  cases hi : i.rValid with
  | false =>
    refine ⟨⟨⟨v,a,false,0,some q,true⟩,{},.read addr reqId 0::rest,q,.read⟩,[],_,?_,?_,
      .inl ⟨rfl,rfl,rfl⟩,h.kept (fun _ => ⟨rfl,rfl,rfl,rfl⟩)
        fun hr => absurd (hi.symm.trans hr) (by decide)⟩
    · simp [readDataDone, h.rValid, hi, readIssue]
    · simpa [stepApply, ReadPort.stepApply, busyRead] using
        Front.readBusy addr reqId rest q true
  | true =>
    obtain ⟨_,_,hfin,hfront⟩ := read_finish v a (hrest.append rs) (q+1) on
    simp only [readDataDone, h.rValid, hi, if_true, Nat.sub_self, getElem?_cons_zero, set_cons_zero]
    rw [opDone_eq rfl hrs, bind_pair, hfin]
    exact ⟨_,_,[],rfl,hfront,.inr ⟨_,rest,.read addr reqId 0,rfl,rfl,rfl,rfl,rfl,
      .read addr reqId _⟩,h.kept (fun hd => absurd hd (cons_ne_nil _ _))
        fun _ => cons_ne_nil _ _⟩

end

lemma cycled_readBusy (addr reqId : UInt64) {rest : List Op} (hrest : Fresh rest) (q : ℕ)
    (taken : Bool) (hrs : ∀ r ∈ rs, r.addr.toNat % c.bytesData = 0) :
    Cycled c ⟨⟨busyRead c q addr taken,{},.read addr reqId 0::rest,q,on⟩,issued,done,trace,
      taken,false,false,false⟩ i rs (if taken then [.ar (lowBytes c.bytesAddr addr)] else []) := by
  by_cases hwait : taken = false ∧ i.arReady = false
  · obtain ⟨rfl,har⟩ := hwait
    refine ⟨⟨busyRead c q addr false,{},.read addr reqId 0::rest,q,.read⟩,[],[],?_,?_,
      .inl ⟨rfl,rfl,?_⟩,?_⟩
    · simp [step, readPortStep, readAddrDone,
        readDataDone, readIssue, World.response, World.arShake, har, busyRead]
    · simpa [World.arShake, World.awShake, World.wShake, har, stepApply,
        ReadPort.stepApply, busyRead] using Front.readBusy addr reqId rest q false
    · simp [World.shakes, World.response, World.arShake, World.awShake, World.wShake, har, busyRead]
    · constructor <;>
        simp [handling, stepApply, ReadPort.stepApply, busyRead, har]
  · refine ReadTaken.cycled ⟨rfl,rfl,⟨rfl,rfl⟩,fun ht => ?_⟩ hrest hrs
    by_contra har
    exact hwait ⟨ht,not_eq_true _ ▸ har⟩

lemma cycled_writeWaiting (addr reqId data : UInt64) (posted : Bool) (rest : List Op) (q : ℕ) :
    Cycled c ⟨⟨{},{ curOp := some q },.write addr reqId data posted::rest,q,on⟩,issued,done,trace,
      false,false,false,false⟩ i rs [] := by
  refine ⟨⟨{},⟨false,0,false,0,true,addr,true,data,some q,true⟩,
    .write addr reqId data posted::rest,q,.write⟩,[],[],?_,?_,.inl ⟨rfl,rfl,?_⟩,?_⟩
  · simp [step, writePortStep, writeAddrDone,
      writeDataDone, writeRespDone, writeIssue, World.response,
      World.awShake, World.wShake]
  · exact Front.writeBusy addr reqId data posted rest q false false [] .none
  · simp [World.shakes, World.response, World.arShake, World.awShake, World.wShake]
  · constructor <;> simp [handling, stepApply, WritePort.stepApply]

omit on issued done trace in
lemma WriteBegun.next {addr data : UInt64} {aw w : Bool} (h : WriteBegun c addr data aw w begun) :
    WriteBegun c addr data (aw || i.awReady) (w || i.wReady)
      (begun++((if !aw && i.awReady then [BusEvent.aw (lowBytes c.bytesAddr addr)] else [])++
        (if !w && i.wReady then [BusEvent.w (lowBytes c.bytesData data)] else []))) := by
  cases h <;> cases i.awReady <;> cases i.wReady <;> constructor

omit i on issued done trace in
lemma WriteBegun.completes {addr data : UInt64} (h : WriteBegun c addr data true true begun)
    (reqId : UInt64) (posted : Bool) :
    Completes c (.write addr reqId data posted) (begun++[.b]) := by
  cases h with
  | addrData => exact .addrFirst addr reqId data posted
  | dataAddr => exact .dataFirst addr reqId data posted

/-- The write port in the middle of a step: it shows the request as before
(`aw`, `w`) and has computed what it shows next (`aw'`, `w'`). -/
def shownWrite (c : Config) (q : ℕ) (addr data : UInt64) (aw w aw' w' : Bool) : WritePort :=
  { busyWrite c q addr data aw' w' with
    awValid := !aw, awAddr := if aw then 0 else lowBytes c.bytesAddr addr
    wValid := !w, wData := if w then 0 else lowBytes c.bytesData data }

omit i on issued done trace in
lemma shownWrite_apply (q : ℕ) (addr data : UInt64) (aw w aw' w' : Bool) :
    (shownWrite c q addr data aw w aw' w').stepApply c = busyWrite c q addr data aw' w' := by
  cases aw' <;> cases w' <;> simp [shownWrite, WritePort.stepApply, busyWrite]

omit on issued done trace i in
lemma step_write {addr reqId data : UInt64} {posted : Bool} {rest : List Op} {i : Inputs}
    (hp : m.pending = .write addr reqId data posted::rest) :
    m.step c i rs = ((((m.writeAddrDone i).writeDataDone i).writeRespDone c i rs).bind
      fun x => x.1.writeIssue.bind fun m => some (m,x.2)).map
        fun x => ({ x.1 with stepOn := .write },x.2) := by
  unfold step writePortStep
  rw [hp]
  simp [map_eq_bind, bind_assoc]

section
variable {on i} {addr reqId data : UInt64} {posted : Bool} {rest : List Op} {q : ℕ} {aw wd : Bool}
variable {w : World}

structure Writing (c : Config) (w : World) (addr reqId data : UInt64) (posted : Bool)
    (rest : List Op) (q : ℕ) (aw wd : Bool) (on : StepOn) : Prop where
  mgr : w.mgr = ⟨{},busyWrite c q addr data aw wd,.write addr reqId data posted::rest,q,on⟩
  idle : w.arTaken = false
  aw : w.awTaken = aw
  wd : w.wTaken = wd

namespace Writing
variable (h : Writing c w addr reqId data posted rest q aw wd on)
include h

lemma awShake : (w.awTaken || w.awShake i) = (aw || i.awReady) := by
  rw [World.awShake, h.mgr, h.aw]
  cases aw <;> simp [busyWrite]

lemma wShake : (w.wTaken || w.wShake i) = (wd || i.wReady) := by
  rw [World.wShake, h.mgr, h.wd]
  cases wd <;> simp [busyWrite]

lemma no_read : (w.response i).rValid = false ∧ w.arShake i = false := by
  simp [World.response, World.arShake, h.mgr, h.idle]

lemma bValid : (w.response i).bValid = (i.bValid && ((aw || i.awReady) && (wd || i.wReady))) := by
  rw [World.response, h.awShake, h.wShake]

lemma shakes :
    w.shakes c i = (if !aw && i.awReady then [.aw (lowBytes c.bytesAddr addr)] else [])++
    (if !wd && i.wReady then [.w (lowBytes c.bytesData data)] else [])++
    (if (w.response i).bValid then [.b] else []) := by
  unfold World.shakes
  rw [h.no_read.1, h.no_read.2, World.awShake, World.wShake, h.mgr]
  cases aw <;> cases wd <;> simp [busyWrite]

lemma requestsDone :
    (w.mgr.writeAddrDone (w.response i)).writeDataDone (w.response i) = ⟨{},shownWrite c q addr data
    aw wd (aw || i.awReady) (wd || i.wReady), .write addr reqId data posted::rest,q,on⟩ := by
  have hr : (w.response i).awReady = i.awReady ∧ (w.response i).wReady = i.wReady := ⟨rfl,rfl⟩
  unfold writeAddrDone writeDataDone
  rw [hr.1, hr.2, h.mgr]
  cases aw <;> cases wd <;> cases i.awReady <;> cases i.wReady <;> rfl

lemma kept (hb : (w.response i).bValid = false) {pending : List Op} {popped : ℕ} {on' : StepOn} :
    Kept w i ⟨{},busyWrite c q addr data (aw || i.awReady) (wd || i.wReady),pending,popped,on'⟩
    [] := by
  rw [h.bValid] at hb
  constructor
  case written =>
    intro ha hd hv
    rw [h.aw] at ha
    rw [h.wd] at hd
    rw [ha, hd, hv] at hb
    cases hb
  case read =>
    intro hr
    rw [h.idle] at hr
    cases hr
  all_goals simp +contextual [h.mgr, handling, busyWrite]

/-- The operation ends when both requests are taken; one still shown is being
taken. -/
lemma kept_done (ha : (aw || i.awReady)) (hd : (wd || i.wReady)) :
    Kept w i m [op] := by
  constructor
  case shown => exact fun _ h => absurd h (cons_ne_nil _ _)
  case written => exact fun _ _ _ => cons_ne_nil _ _
  case read => exact fun _ _ => cons_ne_nil _ _
  case waiting => simp [h.mgr, handling, busyWrite]
  case ar => simp [h.mgr]
  case aw =>
    intro hv hr
    simp [h.mgr, busyWrite, hr] at hv ha
    cases hv.symm.trans ha
  case wd =>
    intro hv hr
    simp [h.mgr, busyWrite, hr] at hv hd
    cases hv.symm.trans hd

end Writing

lemma Writing.cycled (h : Writing c w addr reqId data posted rest q aw wd on) (hrest : Fresh rest)
    (hb : WriteBegun c addr data aw wd begun) (hrs : ∀ r ∈ rs, r.addr.toNat % c.bytesData = 0) :
    Cycled c w i rs begun := by
  have hp : w.mgr.pending = .write addr reqId data posted::rest := by rw [h.mgr]
  have hnext := hb.next (i := i)
  unfold Cycled
  rw [step_write hp, h.requestsDone, h.awShake, h.wShake, h.shakes, h.no_read.1, h.no_read.2,
    h.idle, hp, ← List.append_assoc]
  cases hi : (w.response i).bValid with
  | false =>
    refine ⟨⟨{},shownWrite c q addr data aw wd (aw || i.awReady) (wd || i.wReady),
      .write addr reqId data posted::rest,q,.write⟩,[],_,?_,?_,.inl ⟨rfl,rfl,rfl⟩,?_⟩
    · simp [writeRespDone, hi, writeIssue, shownWrite, busyWrite]
    · simp only [stepApply, shownWrite_apply, Bool.not_false, Bool.and_true,
        Bool.false_or, Bool.false_eq_true, if_false, List.append_nil]
      exact .writeBusy addr reqId data posted rest q _ _ _ hnext
    · simp only [stepApply, shownWrite_apply]
      exact h.kept hi
  | true =>
    obtain ⟨-,ha,hd⟩ : i.bValid ∧ (aw || i.awReady) ∧ (wd || i.wReady) := by
      rw [h.bValid] at hi
      simpa using hi
    rw [ha, hd] at hnext ⊢
    obtain ⟨_,_,hfin,hfront⟩ := write_finish (!aw) (!wd)
      (if aw then 0 else lowBytes c.bytesAddr addr) (if wd then 0 else lowBytes c.bytesData data)
      (hrest.append rs) (q+1) on
    rw [writeRespDone, hi, if_pos rfl, opDone_eq rfl hrs, bind_pair]
    simp only [shownWrite, busyWrite, Bool.not_true, if_true, hfin]
    exact ⟨_,_,[],rfl,hfront,.inr ⟨_,rest,.write addr reqId data posted,rfl,rfl,rfl,rfl,rfl,
      hnext.completes reqId posted⟩,h.kept_done ha hd⟩

end

end

/-- Every state is in one of the cases above. -/
lemma Inv.cycled (h : Inv c w)
    (hfront : Front c w.mgr.pending w.mgr.popped w.mgr.readPort w.mgr.writePort w.arTaken w.awTaken
      w.wTaken begun) (i : Inputs) {rs : List Request}
    (hrs : ∀ r ∈ rs, r.addr.toNat % c.bytesData = 0) : Cycled c w i rs begun := by
  have hrun := h.running
  have hfresh := h.fresh
  obtain ⟨⟨_,_,_,popped,on⟩,issued,done,trace,ar,_,_,_⟩ := w
  dsimp only at hrun hfresh hfront
  subst hrun
  cases hfront with
  | empty => exact cycled_empty on issued done trace i popped
  | readWaiting addr reqId rest =>
    exact cycled_readWaiting on issued done trace i addr reqId rest popped
  | readBusy addr reqId =>
    exact cycled_readBusy on issued done trace i addr reqId hfresh.tail popped ar hrs
  | writeWaiting addr reqId data posted rest =>
    exact cycled_writeWaiting on issued done trace i addr reqId data posted rest popped
  | writeBusy addr reqId data posted rest _ _ _ _ hb =>
    exact Writing.cycled ⟨rfl,rfl,rfl,rfl⟩ hfresh.tail hb hrs

lemma Inv.cycle (h : Inv c w) (i : Inputs) {rs : List Request}
    (hrs : ∀ r ∈ rs, r.addr.toNat % c.bytesData = 0) :
    ∃ m done, w.step c (.cycle i rs) = w.cycled c i rs m done ∧ Inv c (w.cycled c i rs m done) ∧
    Kept w i (m.stepApply c) done := by
  obtain ⟨full,begun,htrace,hserves,hfront⟩ := h.bus
  obtain ⟨m,done,_,hstep,hfront',hcase,hkept⟩ := h.cycled hfront i hrs
  have hworld : w.step c (.cycle i rs) = w.cycled c i rs m done := by
    simp [World.step, h.running, hstep]
  refine ⟨m,done,hworld,?_,hkept⟩
  rcases hcase with ⟨rfl,hp,rfl⟩ | ⟨_,_,_,rfl,hp,hreq,hp',rfl,hcomp⟩
  · -- the front operation is where it was
    refine ⟨h.running,?_,?_,full,_,?_,?_,hfront'⟩
    · simpa [World.cycled, hp] using h.fresh
    · simpa [World.cycled, hp] using h.order
    · simp [World.cycled, htrace, append_assoc]
    · simpa [World.cycled] using hserves
  · have hfresh := h.fresh
    have horder := h.order
    rw [hp] at hfresh horder
    have hmap : (rs.map Request.op).map Op.request = rs := by
      simp [Function.comp_def, request_op]
    refine ⟨h.running,?_,?_,full++(begun++w.shakes c i),[],?_,hserves.snoc hcomp,hfront'⟩
    · simpa [World.cycled, hp'] using hfresh.tail.append rs
    · simp [World.cycled, hp', horder, hreq, hmap]
    · simp [World.cycled, htrace, append_assoc, append_nil]

lemma Inv.step (h : Inv c w) (he : Aligned c e) : Inv c (w.step c e) := by
  cases e with
  | issue => exact h.issue he
  | cycle i =>
    obtain ⟨m,_,hstep,_,-⟩ := h.cycle i he
    rwa [hstep]

/-! ## What the manager shows, and what it waits for -/

namespace Event

/-- An input line, as an event drives it. -/
def line (l : Inputs → Bool) : Event → Bool
  | .issue _ => false
  | .cycle i _ => l i

def isCycle : Event → Bool := line fun _ => true
def arReady : Event → Bool := line Inputs.arReady
def awReady : Event → Bool := line Inputs.awReady
def wReady : Event → Bool := line Inputs.wReady
def rValid : Event → Bool := line Inputs.rValid
def bValid : Event → Bool := line Inputs.bValid

end Event

/-- A channel that is valid and not taken stays valid with the same payload. -/
structure Held (c : Config) (w : World) (e : Event) : Prop where
  ar : w.mgr.readPort.arValid → e.arReady = false →
    (w.step c e).mgr.readPort.arValid ∧
    (w.step c e).mgr.readPort.arAddr = w.mgr.readPort.arAddr
  aw : w.mgr.writePort.awValid → e.awReady = false →
    (w.step c e).mgr.writePort.awValid ∧
    (w.step c e).mgr.writePort.awAddr = w.mgr.writePort.awAddr
  wd : w.mgr.writePort.wValid → e.wReady = false → (w.step c e).mgr.writePort.wValid ∧
    (w.step c e).mgr.writePort.wData = w.mgr.writePort.wData

inductive Awaited where
  | clock | arReady | awReady | wReady | rValid | bValid

def Awaited.Waits (w : World) : Awaited → Prop
  | .clock => w.mgr.pending ≠ [] ∧ w.mgr.handling = false
  | .arReady => w.mgr.readPort.arValid
  | .awReady => w.mgr.writePort.awValid
  | .wReady => w.mgr.writePort.wValid
  | .rValid => w.arTaken
  | .bValid => w.awTaken ∧ w.wTaken

def Awaited.Comes (e : Event) : Awaited → Prop
  | .clock => e.isCycle
  | .arReady => e.arReady
  | .awReady => e.awReady
  | .wReady => e.wReady
  | .rValid => e.rValid
  | .bValid => e.bValid

/-- The clock keeps running and the subordinate takes and answers everything
after some time. -/
def Fair (c : Config) (e : ℕ → Event) : Prop :=
  ∀ (x : Awaited) (n : ℕ), x.Waits (states (World.step c) {} e n) → ∃ m, n ≤ m ∧ x.Comes (e m)

lemma portsSetOp_shown {m' : AXILManager} (h : m.portsSetOp = some m') : ∃ qr qw, m' = { m with
      readPort := { m.readPort with curOp := qr }, writePort :=
      { m.writePort with curOp := qw } } := by
  unfold portsSetOp at h
  split at h
  · cases h
    exact ⟨m.readPort.curOp,m.writePort.curOp,rfl⟩
  · unfold setOpRead at h
    split at h
    · cases h
    · exact ⟨some m.popped,m.writePort.curOp,(some.inj h).symm⟩
  · unfold setOpWrite at h
    split at h
    · cases h
    · exact ⟨m.readPort.curOp,some m.popped,(some.inj h).symm⟩

lemma step_issue (c : Config) (w : World) (r : Request) : ∃ pending qr qw issued halted,
    w.step c (.issue r) = { w with
      mgr := { w.mgr with
        readPort := { w.mgr.readPort with curOp := qr }
        writePort := { w.mgr.writePort with curOp := qw }
        pending := w.mgr.pending++pending }
      issued := w.issued++issued, halted := halted } := by
  have hsame : ∀ halted, { w with halted := halted } = { w with
      mgr := { w.mgr with
        readPort := { w.mgr.readPort with curOp := w.mgr.readPort.curOp }
        writePort := { w.mgr.writePort with curOp := w.mgr.writePort.curOp }
        pending := w.mgr.pending++[] }
      issued := w.issued++[], halted := halted } := by
    intro halted
    rw [append_nil, append_nil]
  unfold World.step
  split
  · exact ⟨[],_,_,[],_,hsame w.halted⟩
  · dsimp only
    cases hm : w.mgr.issue c r with
    | none => exact ⟨[],_,_,[],_,hsame true⟩
    | some =>
      unfold issue at hm
      split at hm
      · cases hm
      · split at hm
        · obtain ⟨qr,qw,rfl⟩ := portsSetOp_shown hm
          exact ⟨[r.op],qr,qw,[r],w.halted,rfl⟩
        · cases hm
          exact ⟨[r.op],_,_,[r],w.halted,rfl⟩

lemma Inv.held (h : Inv c w) (he : Aligned c e) : Held c w e := by
  cases e with
  | issue r =>
    obtain ⟨_,_,_,_,_,hstep⟩ := step_issue c w r
    constructor <;> rw [hstep] <;> exact fun hv _ => ⟨hv,rfl⟩
  | cycle i =>
    obtain ⟨m,_,hstep,-,hkept⟩ := h.cycle i he
    constructor <;> rw [hstep]
    · exact hkept.ar
    · exact hkept.aw
    · exact hkept.wd

/-! ## Every operation is done -/

def AXILManager.left (m : AXILManager) : ℕ :=
  if m.handling then
    1+m.readPort.arValid.toNat+m.writePort.awValid.toNat+m.writePort.wValid.toNat
  else 4

def World.rank (k : ℕ) (w : World) : ℕ :=
  if k < w.done.length then 0 else 5*(k-w.done.length)+w.mgr.left

lemma left_pos (m : AXILManager) : 0 < m.left := by
  unfold left
  split <;> omega

lemma left_le (m : AXILManager) : m.left ≤ 4 := by
  have h1 := toNat_le m.readPort.arValid
  have h2 := toNat_le m.writePort.awValid
  have h3 := toNat_le m.writePort.wValid
  unfold left
  split <;> omega

lemma rank_eq_zero : w.rank k = 0 ↔ k < w.done.length := by
  have hpos := left_pos w.mgr
  unfold World.rank
  split <;> omega

lemma rank_lt_of_done (hk : 0 < w.rank k) (h : w.done.length < w'.done.length) :
    w'.rank k < w.rank k := by
  have hk' : ¬ k < w.done.length := fun hlt => hk.ne' (rank_eq_zero.mpr hlt)
  have hle := left_le w'.mgr
  have hpos := left_pos w.mgr
  unfold World.rank
  split <;> omega

lemma rank_lt_of_left (hk : 0 < w.rank k) (hd : w'.done.length = w.done.length)
    (h : w'.mgr.left < w.mgr.left) : w'.rank k < w.rank k := by
  have hk' : ¬ k < w.done.length := fun hlt => hk.ne' (rank_eq_zero.mpr hlt)
  unfold World.rank
  rw [hd]
  split <;> omega

lemma rank_of_left_le (hk : 0 < w.rank k) (hd : w'.done.length = w.done.length)
    (h : w'.mgr.left ≤ w.mgr.left) : w'.rank k < w.rank k ∨ w'.rank k = w.rank k := by
  rcases h.lt_or_eq with hlt | heq
  · exact .inl (rank_lt_of_left hk hd hlt)
  · exact .inr (by simp [World.rank, hd, heq])

lemma toNat_taken (valid ready : Bool) :
    (valid && !ready).toNat+(valid && ready).toNat = valid.toNat := by
  cases valid <;> cases ready <;> rfl

lemma Kept.left_shown {i : Inputs} {done : List Op} (h : Kept w i m done)
    (hbusy : w.mgr.handling) (hd : done = []) :
    m.left+(w.arShake i).toNat+(w.awShake i).toNat+(w.wShake i).toNat = w.mgr.left := by
  obtain ⟨hm,har,haw,hwd⟩ := h.shown hbusy hd
  have h1 := toNat_taken w.mgr.readPort.arValid i.arReady
  have h2 := toNat_taken w.mgr.writePort.awValid i.awReady
  have h3 := toNat_taken w.mgr.writePort.wValid i.wReady
  simp only [left, hm, hbusy, if_true, har, haw, hwd, World.arShake, World.awShake, World.wShake]
  omega

lemma Kept.left_waiting {i : Inputs} {done : List Op} (h : Kept w i m done)
    (hwait : w.mgr.handling = false) (hp : w.mgr.pending ≠ []) : m.left < w.mgr.left := by
  obtain ⟨hm,hone⟩ := h.waiting hwait hp
  have h1 := toNat_le m.readPort.arValid
  have h2 := toNat_le m.writePort.awValid
  have h3 := toNat_le m.writePort.wValid
  simp only [left, hm, hwait, if_true, false_eq_true, if_false]
  -- only one of the two ports is busy
  rcases hone with har | ⟨haw,hwd⟩
  · rw [har, toNat_false]
    omega
  · rw [haw, hwd, toNat_false]
    omega

variable {x : Awaited}

lemma Inv.busy (h : Inv c w) (hx : x.Waits w) : x = .clock ∨ w.mgr.handling := by
  obtain ⟨_,_,-,-,hfront⟩ := h.bus
  obtain ⟨⟨_,_,_,_,_⟩,_,_,_,ar,_,_,_⟩ := w
  dsimp only at hfront
  cases hfront with
  | empty => cases x <;> simp [Awaited.Waits] at hx
  | readWaiting | writeWaiting => cases x <;> simp [Awaited.Waits] at hx ⊢
  | readBusy => exact .inr (by cases ar <;> simp [handling, busyRead])
  | writeBusy => exact .inr (by simp [handling, busyWrite])

lemma Kept.left_lt {i : Inputs} {rs : List Request} {done : List Op} (h : Kept w i m done)
    (hbusy : w.mgr.handling) (hd : done = []) (hx : x.Waits w) (hc : x.Comes (.cycle i rs)) :
    m.left < w.mgr.left := by
  have hleft := h.left_shown hbusy hd
  have htaken : ∀ {valid ready : Bool}, valid → ready →
      (valid && ready).toNat = 1 := by
    rintro _ _ rfl rfl
    rfl
  cases x with
  | clock => exact absurd (hbusy.symm.trans hx.2) (by decide)
  | arReady =>
    have hone : (w.arShake i).toNat = 1 := htaken hx hc
    omega
  | awReady =>
    have hone : (w.awShake i).toNat = 1 := htaken hx hc
    omega
  | wReady =>
    have hone : (w.wShake i).toNat = 1 := htaken hx hc
    omega
  | rValid => exact absurd hd (h.read hx hc)
  | bValid => exact absurd hd (h.written hx.1 hx.2 hc)

lemma Kept.waits {i : Inputs} {rs : List Request} {done : List Op}
    (h : Kept w i (m.stepApply c) done) (hbusy : w.mgr.handling) (hx : x.Waits w)
    (hc : ¬ x.Comes (.cycle i rs)) : x.Waits (w.cycled c i rs m done) := by
  cases x with
  | clock => exact absurd (hbusy.symm.trans hx.2) (by decide)
  | arReady => exact (h.ar hx (eq_false_of_not_eq_true hc)).1
  | awReady => exact (h.aw hx (eq_false_of_not_eq_true hc)).1
  | wReady => exact (h.wd hx (eq_false_of_not_eq_true hc)).1
  | rValid =>
    have hr : i.rValid = false := eq_false_of_not_eq_true hc
    have ht : w.arTaken := hx
    simp [Awaited.Waits, World.cycled, World.response, hr, ht]
  | bValid =>
    have hb : i.bValid = false := eq_false_of_not_eq_true hc
    simp [Awaited.Waits, World.cycled, World.response, hb, hx.1, hx.2]

/-- What the operation waits for brings it nearer to its response, and it
waits as long as that does not come. -/
lemma Inv.rank_step (h : Inv c w) (he : Aligned c e) (hk : 0 < w.rank k) (hx : x.Waits w) :
    (x.Comes e → (w.step c e).rank k < w.rank k) ∧
    (¬ x.Comes e → (w.step c e).rank k < w.rank k ∨
      (x.Waits (w.step c e) ∧ (w.step c e).rank k = w.rank k)) := by
  cases e with
  | issue r =>
    obtain ⟨_,_,_,_,_,hstep⟩ := step_issue c w r
    rw [hstep]
    refine ⟨fun hc => ?_,fun _ => .inr ⟨?_,rfl⟩⟩
    · cases x <;> exact absurd hc false_ne_true
    · cases x with
      | clock => exact ⟨by simp [hx.1],hx.2⟩
      | _ => exact hx
  | cycle i rs =>
    obtain ⟨m,done,hstep,-,hkept⟩ := h.cycle i he
    rw [hstep]
    by_cases hd : done = []
    · have hlen : (w.cycled c i rs m done).done.length = w.done.length := by
        simp [World.cycled, hd]
      rcases h.busy hx with rfl | hbusy
      · have hlt := rank_lt_of_left hk hlen (hkept.left_waiting hx.2 hx.1)
        exact ⟨fun _ => hlt,fun _ => .inl hlt⟩
      · have hleft := hkept.left_shown hbusy hd
        have hle : (m.stepApply c).left ≤ w.mgr.left := by omega
        exact ⟨fun hc => rank_lt_of_left hk hlen (hkept.left_lt hbusy hd hx hc),
          fun hc => (rank_of_left_le hk hlen hle).imp_right fun heq =>
            ⟨hkept.waits hbusy hx hc,heq⟩⟩
    · have hlt : (w.cycled c i rs m done).rank k < w.rank k := by
        refine rank_lt_of_done hk ?_
        simp [World.cycled, length_pos_iff, hd]
      exact ⟨fun _ => hlt,fun _ => .inl hlt⟩

lemma Inv.waits (h : Inv c w) (hp : w.mgr.pending ≠ []) : ∃ x : Awaited, x.Waits w := by
  obtain ⟨_,_,-,-,hfront⟩ := h.bus
  obtain ⟨⟨_,_,_,_,_⟩,_,_,_,ar,aw,wd,_⟩ := w
  dsimp only at hfront hp
  cases hfront with
  | empty => exact absurd rfl hp
  | readWaiting | writeWaiting => exact ⟨.clock,hp,rfl⟩
  | readBusy =>
    cases ar with
    | false => exact ⟨.arReady,rfl⟩
    | true => exact ⟨.rValid,rfl⟩
  | writeBusy =>
    cases aw with
    | false => exact ⟨.awReady,rfl⟩
    | true =>
      cases wd with
      | false => exact ⟨.wReady,rfl⟩
      | true => exact ⟨.bValid,rfl,rfl⟩

lemma Inv.pending_ne (h : Inv c w) (hk : k < w.issued.length) (hd : w.done.length ≤ k) :
    w.mgr.pending ≠ [] := by
  have horder := congrArg length h.order
  simp only [length_append, length_map] at horder
  intro h0
  rw [h0, length_nil] at horder
  omega

lemma WriteBegun.begins {addr data : UInt64} {aw w : Bool} (h : WriteBegun c addr data aw w begun)
    (reqId : UInt64) (posted : Bool) : Begins c (.write reqId addr data posted) begun := by
  refine ⟨.write addr reqId data posted,?_⟩
  cases h with
  | none | addr | addrData => exact ⟨_,rfl,.addrFirst addr reqId data posted,cons_ne_nil _ _⟩
  | data | dataAddr => exact ⟨_,rfl,.dataFirst addr reqId data posted,cons_ne_nil _ _⟩

lemma Front.begins {q : ℕ} {rp : ReadPort} {wp : WritePort} {ar aw wd : Bool}
    (h : Front c P q rp wp ar aw wd begun) :
    begun = [] ∨ ∃ op rest, P = op::rest ∧ Begins c op.request begun := by
  cases h with
  | empty | readWaiting | writeWaiting => exact .inl rfl
  | readBusy addr reqId rest =>
    cases ar with
    | false => exact .inl rfl
    | true =>
      exact .inr ⟨_,rest,rfl,.read addr reqId 0,[.r 0],rfl,.read addr reqId 0,cons_ne_nil _ _⟩
  | writeBusy addr reqId data posted rest _ _ _ _ hb =>
    exact .inr ⟨_,rest,rfl,hb.begins reqId posted⟩

/-- No assertion or exception so far, one callback for each of the first
requests that were issued, and their handshakes on the bus one operation after
the other; what follows belongs to the next one. -/
structure Served (c : Config) (w : World) : Prop where
  running : w.halted = false
  order : w.done.map Op.request = w.issued.take w.done.length
  bus : ∃ full begun, w.trace = full++begun ∧ Serves c w.done full ∧
    (begun = [] ∨ ∃ r, w.issued[w.done.length]? = some r ∧ Begins c r begun)

lemma Inv.served (h : Inv c w) : Served c w := by
  refine ⟨h.running,by rw [h.order, take_left' (by simp)],?_⟩
  obtain ⟨full,begun,htrace,hserves,hfront⟩ := h.bus
  refine ⟨full,begun,htrace,hserves,hfront.begins.imp_right ?_⟩
  rintro ⟨op,_,hp,hb⟩
  refine ⟨op.request,?_,hb⟩
  rw [h.order, hp, getElem?_append_right (by simp)]
  simp

lemma issued_le (c : Config) (w : World) (e : Event) :
    w.issued.length ≤ (w.step c e).issued.length := by
  cases e with
  | issue r =>
    obtain ⟨_,_,_,_,_,hstep⟩ := step_issue c w r
    rw [hstep]
    simp
  | cycle i rs =>
    unfold World.step
    split
    · exact le_rfl
    · dsimp only
      cases w.mgr.step c (w.response i) rs with
      | none => exact le_rfl
      | some =>
        dsimp only [World.cycled]
        split
        · exact le_rfl
        · simp

lemma eventually_done {e : ℕ → Event} (he : ∀ n, Aligned c (e n)) (hfair : Fair c e) {n : ℕ}
    (hk : k < (states (World.step c) {} e n).issued.length) :
    ∃ m, k < (states (World.step c) {} e m).done.length := by
  have hinv := states_invariant Inv.init fun n h => Inv.step h (he n)
  have hissued : Monotone fun n => (states (World.step c) {} e n).issued.length :=
    monotone_nat_of_le_succ fun n => issued_le c _ (e n)
  have hdrop : ∀ d, 0 < (states (World.step c) {} e (n+d)).rank k →
      ∃ m, (states (World.step c) {} e (n+m)).rank k < (states (World.step c) {} e
      (n+d)).rank k := by
    -- as long as the operation is not done, the one at the front waits for something
    intro d hd
    have hpend := (hinv (n+d)).pending_ne (hk.trans_le (hissued (Nat.le_add_right n d)))
      (Nat.le_of_not_lt fun hlt => hd.ne' (rank_eq_zero.mpr hlt))
    obtain ⟨x,hx⟩ := (hinv (n+d)).waits hpend
    obtain ⟨m,hm,hc⟩ := hfair x (n+d) hx
    refine exists_lt_of_fair (P := fun d => x.Waits (states (World.step c) {} e (n+d)))
      (E := fun d => x.Comes (e (n+d))) (fun d hd hp hn => ?_) (fun d hd hp hc => ?_) hd hx
      ⟨m-n,by omega,?_⟩
    · exact ((hinv (n+d)).rank_step (he (n+d)) hd hp).2 hn
    · exact ((hinv (n+d)).rank_step (he (n+d)) hd hp).1 hc
    · rwa [Nat.add_sub_of_le (by omega)]
  obtain ⟨m,hm⟩ := exists_zero_of_lt hdrop
  exact ⟨n+m,rank_eq_zero.mp hm⟩

/-- One operation at a time, in the order of issue, each with its handshakes
and its callback, a read with the data of its own response; what is valid is
held, and every operation is done after some time. -/
theorem manager_serves (c : Config) (e : ℕ → Event) (he : ∀ n, Aligned c (e n)) :
    (∀ n, Served c (states (World.step c) {} e n)) ∧
    (∀ n, Held c (states (World.step c) {} e n) (e n)) ∧
    (Fair c e → ∀ n k, k < (states (World.step c) {} e n).issued.length →
      ∃ m, k < (states (World.step c) {} e m).done.length) := by
  have hinv := states_invariant Inv.init fun n h => Inv.step h (he n)
  exact ⟨fun n => (hinv n).served,fun n => (hinv n).held (he n),
    fun hfair _ _ hk => eventually_done he hfair hk⟩

def wide32 : Config := ⟨4,4,by decide,.inl rfl⟩

def answering : Inputs := ⟨true,true,7,true,true,true⟩

/-- A write, whose data waits for a cycle, and a read behind it. -/
def writeThenRead : ℕ → Event
  | 0 => .issue (.write 1 8 5 false)
  | 1 => .issue (.read 2 4)
  | 2 => .cycle { answering with wReady := false } []
  | _+3 => .cycle answering []

theorem manager_serves_both : (∀ n, Aligned wide32 (writeThenRead n)) ∧
    Fair wide32 writeThenRead ∧
    (states (World.step wide32) {} writeThenRead 9).done = [.write 8 1 5 false,.read 4 2 7] ∧
    ∃ m, 1 < (states (World.step wide32) {} writeThenRead m).done.length := by
  have he : ∀ n, Aligned wide32 (writeThenRead n) := by
    intro n
    match n with
    | 0 | 1 => rfl
    | 2 | _+3 => simp [writeThenRead, Aligned]
  have hfair : Fair wide32 writeThenRead := by
    intro x n _
    refine ⟨n+3,Nat.le_add_right n 3,?_⟩
    cases x <;> rfl
  exact ⟨he,hfair,by decide +kernel,(manager_serves wide32 writeThenRead he).2.2 hfair 2 1
    (by decide +kernel)⟩

end SimBricks.AxiLite
