import SimBricks.Base.BaseIf
import SimBricks.Library.Bytes
import SimBricks.Library.Run

/-!
# Two socket proxies

`dist/common/base.c` and the messages of `dist/sockets/net_sockets.c`. Two
proxies with the same peers are joined by a stream in each direction. Fields
are numbers; sums and products that the code computes in 32 bits are reduced
where they can leave them. A peer is split into the queue filled by its own
simulator (`local`) and the one filled from the stream (`cleanup`). Peers are
ready from the start; connection setup is left out. The logs and the counters
`forwarded`, `received` and `freed` are not part of the code.
-/

set_option autoImplicit false

namespace SimBricks.Proxy
open Library Library.Bytes Library.Run BaseIf Function

def kPollReportThreshold : ℕ := 128
def kCleanReportThreshold : ℕ := 128
def kPollMax : ℕ := 8
def kCleanupMax : ℕ := 16
def kMaxPeers : ℕ := 32
def kTxbufSize : ℕ := 128*1024

def sizeofMsg : ℕ := 64

def kOwnType : ℕ := 63

/-- A queue; its copy at the other proxy has the same sizes. -/
structure Queue where
  elen : ℕ
  enum : ℕ
  header : sizeofMsg ≤ elen
  elenFits : elen < 2^32
  two : 2 ≤ enum
  enumFits : enum < 2^32

namespace Queue

lemma smallest_fits : 64 < 2^32 := by decide

def offset (q : Queue) (pos : ℕ) : ℕ := pos*q.elen % 2^32

def length (q : Queue) (n : ℕ) : ℕ := n*q.elen % 2^32

def next (q : Queue) (pos : ℕ) : ℕ := if pos+1 ≥ q.enum then pos+1-q.enum else pos+1

def unreported (q : Queue) (pos reported : ℕ) : ℕ := (pos+2^32-reported) % 2^32 % q.enum

end Queue

def ownAt (m : Memory) (off : ℕ) : UInt8 := m (off+kOwnType)

def release (m : Memory) (off : ℕ) : Memory := store m (off+kOwnType) [doneType (ownAt m off)]

structure Local where
  mem : Memory := fun _ => 0
  pos : ℕ := 0
  posReported : ℕ := 0
  posCleaned : ℕ := 0
  lastSentPos : ℕ := 2^32-1
  outPos : ℕ := 0
  produced : List (List UInt8) := []
  forwarded : ℕ := 0

structure Cleanup where
  mem : Memory := fun _ => 0
  posNext : ℕ := 0
  posLast : ℕ := 0
  posReported : ℕ := 0
  inPos : ℕ := 0
  consumed : List (List UInt8) := []
  freed : ℕ := 0
  received : ℕ := 0

structure Peer where
  loc : Local := {}
  cleanup : Cleanup := {}

/-! ## The simulators -/

def Local.produce (q : Queue) (l : Local) (entry : List UInt8) : Local :=
  if entry.length = q.elen ∧ conOwned (entry.getD kOwnType 0) ∧
      proOwned (ownAt l.mem (l.outPos*q.elen)) then
    { l with
      mem := store l.mem (l.outPos*q.elen) entry
      outPos := (l.outPos+1) % q.enum
      produced := l.produced++[entry] }
  else l

def Cleanup.take (q : Queue) (c : Cleanup) : Cleanup :=
  if conOwned (ownAt c.mem (c.inPos*q.elen)) then
    { c with
      inPos := (c.inPos+1) % q.enum
      consumed := c.consumed++[load c.mem (c.inPos*q.elen) q.elen] }
  else c

def Cleanup.free (q : Queue) (c : Cleanup) : Cleanup :=
  if c.freed < c.consumed.length then
    { c with mem := release c.mem (c.freed % q.enum*q.elen), freed := c.freed+1 }
  else c

/-! ## Polling -/

def Local.scan (q : Queue) (l : Local) : ℕ → ℕ → ℕ
  | 0, n => n
  | left+1, n =>
    if l.pos+n < q.enum ∧ (l.pos+n+1) % q.enum ≠ l.posCleaned ∧
        conOwned (ownAt l.mem (q.offset (l.pos+n))) then l.scan q left (n+1)
    else n

def Local.passEntries (q : Queue) (l : Local) (pos n : ℕ) : Option (Local × List UInt8) :=
  if q.length n > kTxbufSize then none
  else if (l.lastSentPos+1) % 2^32 % q.enum ≠ pos then none
  else some ({ l with lastSentPos := pos+n-1, forwarded := l.forwarded+n },
    load l.mem (q.offset pos) (q.length n))

structure Entries where
  num : ℕ
  pos : ℕ
  data : List UInt8
  deriving DecidableEq

def Local.transfer (q : Queue) (l : Local) : Option (Local × Option Entries × Bool) :=
  let n := l.scan q kPollMax 0
  if n > 0 then
    match l.passEntries q l.pos n with
    | none => none
    | some (sent,data) =>
      let newpos := l.pos+n
      let pos := if newpos < q.enum then newpos else newpos-q.enum
      some ({ sent with pos },some ⟨n,l.pos,data⟩,
        q.unreported pos l.posReported ≥ kPollReportThreshold)
  else some (l,none,false)

def Cleanup.scan (q : Queue) (c : Cleanup) : ℕ → ℕ → ℕ → ℕ × ℕ
  | 0, pos, cnt => (pos,cnt)
  | left+1, pos, cnt =>
    if proOwned (ownAt c.mem (q.offset pos)) then
      if cnt+1 ≤ kCleanupMax ∧ q.next pos ≠ c.posLast then c.scan q left (q.next pos) (cnt+1)
      else (q.next pos,cnt+1)
    else (pos,cnt)

def Cleanup.poll (q : Queue) (c : Cleanup) : Cleanup × Bool :=
  if c.posNext = c.posLast then (c,false)
  else
    let (pos,cnt) := c.scan q (kCleanupMax+1) c.posNext 0
    ({ c with posNext := pos }, 0 < cnt ∧ q.unreported pos c.posReported ≥ kCleanReportThreshold)

/-! ## Receiving -/

/-- The loop of `BasePeerReport`; `none` if it does not end. -/
def clean (q : Queue) (cleanPos : ℕ) : ℕ → ℕ → Memory → Option Memory
  | 0, pos, m => if pos = cleanPos then some m else none
  | left+1, pos, m =>
    if pos = cleanPos then some m
    else clean q cleanPos left (q.next pos) (release m (q.offset pos))

def Peer.report (q : Queue) (p : Peer) (writtenPos cleanPos : ℕ) : Option Peer :=
  if writtenPos = p.cleanup.posLast ∧ cleanPos = p.loc.posCleaned then some p
  else
    (clean q cleanPos q.enum p.loc.posCleaned p.loc.mem).map fun mem =>
      ⟨{ p.loc with mem, posCleaned := cleanPos },{ p.cleanup with posLast := writtenPos }⟩

def Cleanup.entryReceived (q : Queue) (c : Cleanup) (pos : ℕ) (data : List UInt8) : Cleanup :=
  { c with mem := store c.mem (pos*q.elen) data, received := c.received+1 }

/-- The loop of `SockMsgRxEntries`; reading past the message has no meaning. -/
def Cleanup.rxLoop (q : Queue) (e : Entries) : ℕ → ℕ → Cleanup → Option Cleanup
  | 0, _, c => some c
  | left+1, i, c =>
    if q.length i+q.elen ≤ e.data.length then
      rxLoop q e left (i+1) (c.entryReceived q (e.pos+i) ((e.data.drop (q.length i)).take q.elen))
    else none

def Cleanup.rxEntries (q : Queue) (c : Cleanup) (e : Entries) : Option Cleanup :=
  if e.data.length ≠ q.length e.num then none else rxLoop q e e.num 0 c

/-! ## The two proxies -/

inductive Msg (n : ℕ) where
  | entries (id : Fin n) (e : Entries)
  | report (writtenPos cleanPos : Fin n → ℕ)

structure State (n : ℕ) where
  peers : Bool → Fin n → Peer := fun _ _ => {}
  stream : Bool → List (Msg n) := fun _ => []

abbrev Config (n : ℕ) := Bool → Fin n → Queue

variable {n : ℕ}

namespace State

def setPeer (s : State n) (b : Bool) (i : Fin n) (p : Peer) : State n :=
  { s with peers := update s.peers b (update (s.peers b) i p) }

def setLocal (s : State n) (b : Bool) (i : Fin n) (l : Local) : State n :=
  s.setPeer b i { s.peers b i with loc := l }

def setCleanup (s : State n) (b : Bool) (i : Fin n) (c : Cleanup) : State n :=
  s.setPeer b i { s.peers b i with cleanup := c }

def send (s : State n) (b : Bool) (msgs : List (Msg n)) : State n :=
  { s with stream := update s.stream b (s.stream b++msgs) }

def transfer (cfg : Config n) (s : State n) (b : Bool) (i : Fin n) : Option (State n × Bool) :=
  ((s.peers b i).loc.transfer (cfg b i)).map fun (l,msg,report) =>
    ((s.setLocal b i l).send b (msg.map (Msg.entries i)).toList,report)

def cleanup (cfg : Config n) (s : State n) (b : Bool) (i : Fin n) : State n × Bool :=
  let (c,report) := (s.peers b i).cleanup.poll (cfg (!b) i)
  (s.setCleanup b i c,report)

def passReport (s : State n) (b : Bool) : Option (State n) :=
  let peers := s.peers b
  let reported i : Peer := ⟨{ (peers i).loc with posReported := (peers i).loc.pos },
     { (peers i).cleanup with posReported := (peers i).cleanup.posNext }⟩
  let msg := Msg.report (fun i => (peers i).loc.pos) fun i => (peers i).cleanup.posNext
  if n > kMaxPeers then none
  else some (State.send { s with peers := update s.peers b reported } b [msg])

def receive (cfg : Config n) (s : State n) (b : Bool) : Msg n → Option (State n)
  | .entries i e =>
    ((s.peers b i).cleanup.rxEntries (cfg (!b) i) e).map (s.setCleanup b i)
  | .report writtenPos cleanPos =>
    let peer i := (s.peers b i).report (cfg b i) (writtenPos i) (cleanPos i)
    if h : ∀ i, (peer i).isSome then
      some { s with peers := update s.peers b fun i => (peer i).get (h i) }
    else none

def deliver (cfg : Config n) (s : State n) (b : Bool) : Option (State n) :=
  match s.stream b with
  | [] => some s
  | msg::rest => State.receive cfg { s with stream := update s.stream b rest } (!b) msg

end State

inductive Event (n : ℕ) where
  | produce (b : Bool) (i : Fin n) (entry : List UInt8)
  | take (b : Bool) (i : Fin n)
  | free (b : Bool) (i : Fin n)
  | transfer (b : Bool) (i : Fin n)
  | cleanup (b : Bool) (i : Fin n)
  | report (b : Bool)
  | deliver (b : Bool)

def step (cfg : Config n) : Option (State n) → Event n → Option (State n)
  | none, _ => none
  | some s, .produce b i entry =>
    some (s.setLocal b i ((s.peers b i).loc.produce (cfg b i) entry))
  | some s, .take b i => some (s.setCleanup b i ((s.peers b i).cleanup.take (cfg (!b) i)))
  | some s, .free b i => some (s.setCleanup b i ((s.peers b i).cleanup.free (cfg (!b) i)))
  | some s, .transfer b i => (s.transfer cfg b i).map Prod.fst
  | some s, .cleanup b i => some (s.cleanup cfg b i).1
  | some s, .report b => s.passReport b
  | some s, .deliver b => s.deliver cfg b

end SimBricks.Proxy
