import Mathlib.Algebra.BigOperators.Group.Finset.Basic
import SimBricks.Library.Ring

/-!
# Descriptor queues

A queue of the i40e model moves descriptors of a ring in host memory through
a window of contexts: they are fetched, prepared, processed and written back.
Contexts are taken from a ring of their own, of `MAX_ACTIVE_DESCS` = 128. The
functions below follow `i40e_queues.cc`; an assertion that fails is `none`.

What a subclass does in `prepare()` and `process()` is its own choice. It is
part of the events, in `Choices`.
-/

set_option autoImplicit false

namespace SimBricks.I40eQueue

open Library.Ring Function

inductive DescState
  | empty
  | fetching
  | preparing
  | prepared
  | processing
  | processed
  | writingBack
  | writtenBack
deriving DecidableEq, Repr

def DescState.code : DescState → ℕ
  | .empty => 0
  | .fetching => 1
  | .preparing => 2
  | .prepared => 3
  | .processing => 4
  | .processed => 5
  | .writingBack => 6
  | .writtenBack => 7

structure DescCtx where
  state : DescState
  index : ℕ
deriving DecidableEq, Repr

/-- A descriptor fetch or write-back that has been issued: the position of its
first context and the number of descriptors. -/
inductive Dma
  | fetch (pos cnt : ℕ)
  | wb (pos cnt : ℕ)
deriving DecidableEq, Repr

/-- The three logs hold ring indices: of descriptors read by a fetch, handed to
`process()`, and written by a write-back. -/
structure Queue where
  len : ℕ
  descCtxs : ℕ → DescCtx
  activeFirstPos : ℕ
  activeFirstIdx : ℕ
  activeCnt : ℕ
  regHead : ℕ
  regTail : ℕ
  dmas : List Dma
  fetched : List ℕ
  processed : List ℕ
  writtenBack : List ℕ

/-- What the subclass does within one event. `prepared p` says that `prepare()`
on the context at `p` calls `prepared()` at once and issues no data fetch;
`processed p` lists the contexts on which `process()` at `p` calls
`processed()` before it returns. -/
structure Choices where
  prepared : ℕ → Bool
  processed : ℕ → List ℕ

def uint32Max : ℕ := 2^32-1

-- no subclass overrides the three capacities
def maxFetchCapacity : ℕ := uint32Max
def maxActiveCapacity : ℕ := uint32Max
def maxWritebackCapacity : ℕ := uint32Max

def DescCtx.setState (s : DescState) (ctx : DescCtx) : DescCtx := { ctx with state := s }

def DescCtx.move (s t : DescState) (ctx : DescCtx) : Option DescCtx :=
  if ctx.state = s then some (ctx.setState t) else none

namespace Queue

def ctx (q : Queue) (i : ℕ) : DescCtx := q.descCtxs ((q.activeFirstPos+i) % 128)

def scan (q : Queue) (p : DescState → Bool) : ℕ :=
  ((List.range q.activeCnt).find? fun i => p (q.ctx i).state).getD q.activeCnt

def nextIdx (q : Queue) : ℕ := (q.activeFirstIdx+q.activeCnt) % q.len

def fetchCnt (q : Queue) : ℕ :=
  -- 32-bit subtraction
  let descAvail := (q.regTail+2^32-q.nextIdx) % 2^32 % q.len
  let cnt := min descAvail (128-q.activeCnt)
  let cnt := if maxActiveCapacity ≤ q.activeCnt then min cnt (maxActiveCapacity-q.activeCnt)
    else cnt
  let cnt := min cnt maxFetchCapacity
  if q.len < q.nextIdx+cnt then q.len-q.nextIdx else cnt

def startFetch (nextIdx len i : ℕ) (ctx : DescCtx) : Option DescCtx :=
  if ctx.state = .empty then some ⟨.fetching,(nextIdx+i) % len⟩ else none

def triggerFetch (q : Queue) : Option Queue :=
  let cnt := q.fetchCnt
  if cnt = 0 then some q
  else
    let firstPos := (q.activeFirstPos+q.activeCnt) % 128
    (sweep 128 (startFetch q.nextIdx q.len) firstPos cnt q.descCtxs).map fun ctxs =>
      { q with
        descCtxs := ctxs
        activeCnt := q.activeCnt+cnt
        dmas := q.dmas++[.fetch firstPos cnt]
        fetched := q.fetched++(List.range cnt).map (q.nextIdx+·) }

/-- `processed()` on a context. A subclass calls it on contexts that are being
processed, on others the assertion would fail. -/
def markProcessed (ctxs : ℕ → DescCtx) (p : ℕ) : ℕ → DescCtx :=
  if (ctxs (p % 128)).state = .processing then
    update ctxs (p % 128) ((ctxs (p % 128)).setState .processed)
  else ctxs

def process (q : Queue) (o : Choices) (pos : ℕ) : Queue :=
  let ctxs := update q.descCtxs (pos % 128)
    ((q.descCtxs (pos % 128)).setState .processing)
  { q with
    descCtxs := (o.processed (pos % 128)).foldl markProcessed ctxs
    processed := q.processed++[(q.descCtxs (pos % 128)).index] }

def processLoop (o : Choices) : ℕ → ℕ → Queue → Queue
  | 0, _, q => q
  | r+1, pos, q =>
    if (q.descCtxs (pos % 128)).state ≠ .prepared then q
    else processLoop o r (pos+1) (q.process o pos)

def triggerProcess (q : Queue) (o : Choices) : Queue :=
  let i := q.scan fun s => decide (s.code ≤ DescState.code .prepared)
  processLoop o (q.activeCnt-i) (q.activeFirstPos+i) q

def doWriteback (q : Queue) (firstIdx firstPos cnt : ℕ) : Option Queue :=
  (sweep 128 (fun _ => DescCtx.move .writingBack .writingBack) firstPos cnt q.descCtxs).map
    fun ctxs =>
      { q with
        descCtxs := ctxs
        dmas := q.dmas++[.wb firstPos cnt]
        writtenBack := q.writtenBack++(List.range cnt).map (firstIdx+·) }

def writebackCnt (q : Queue) : ℕ :=
  let cnt := min (q.scan fun s => decide (s ≠ .processed)) maxWritebackCapacity
  if q.len < q.activeFirstIdx+cnt then q.len-q.activeFirstIdx else cnt

def triggerWriteback (q : Queue) : Option Queue :=
  let cnt := q.writebackCnt
  if cnt = 0 then some q
  else do
    let ctxs ← sweep 128 (fun _ ctx => some (ctx.setState .writingBack)) q.activeFirstPos cnt
      q.descCtxs
    doWriteback { q with descCtxs := ctxs } q.activeFirstIdx q.activeFirstPos cnt

def trigger (q : Queue) (o : Choices) : Option Queue := do
  let q ← q.triggerFetch
  (q.triggerProcess o).triggerWriteback

/-- The freeing loop of `writeback_done`: the number of contexts freed, and the
contexts after it. -/
def bump : ℕ → ℕ → (ℕ → DescCtx) → ℕ × (ℕ → DescCtx)
  | 0, _, ctxs => (0,ctxs)
  | r+1, pos, ctxs =>
    if (ctxs (pos % 128)).state ≠ .writtenBack then (0,ctxs)
    else
      let rest := bump r (pos+1)
        (update ctxs (pos % 128) ((ctxs (pos % 128)).setState .empty))
      (rest.1+1,rest.2)

def writebackDone (q : Queue) (firstPos cnt : ℕ) : Option Queue :=
  (sweep 128 (fun _ => DescCtx.move .writingBack .writtenBack) firstPos cnt q.descCtxs).map
    fun ctxs =>
      let freed := bump q.activeCnt q.activeFirstPos ctxs
      let firstIdx := (q.activeFirstIdx+freed.1) % q.len
      { q with
        descCtxs := freed.2
        activeFirstPos := (q.activeFirstPos+freed.1) % 128
        activeFirstIdx := firstIdx
        activeCnt := q.activeCnt-freed.1
        regHead := firstIdx }

def prepare (o : Choices) (firstPos i : ℕ) (ctx : DescCtx) : Option DescCtx :=
  if o.prepared ((firstPos+i) % 128) then (ctx.setState .preparing).move .preparing .prepared
  else some (ctx.setState .preparing)

def fetchDone (q : Queue) (o : Choices) (firstPos cnt : ℕ) : Option Queue :=
  (sweep 128 (prepare o firstPos) firstPos cnt q.descCtxs).map fun ctxs =>
    { q with descCtxs := ctxs }

def advance (q : Queue) (p : ℕ) (s t : DescState) : Option Queue :=
  ((q.descCtxs (p % 128)).move s t).map fun ctx =>
    { q with descCtxs := update q.descCtxs (p % 128) ctx }

end Queue

inductive Event
  /-- The driver moves the tail by `n` descriptors. -/
  | tail (n : ℕ) (o : Choices)
  /-- The `k`-th outstanding fetch or write-back completes. -/
  | done (k : ℕ) (o : Choices)
  /-- The data fetch of the context at `p` completes. -/
  | dataFetched (p : ℕ) (o : Choices)
  /-- The data write of the context at `p` completes. -/
  | dataWritten (p : ℕ) (o : Choices)

def Event.choices : Event → Choices
  | .tail _ o | .done _ o | .dataFetched _ o | .dataWritten _ o => o

namespace Queue

def dmaDone (q : Queue) (o : Choices) : Dma → Option Queue
  | .fetch pos cnt => q.fetchDone o pos cnt
  | .wb pos cnt => q.writebackDone pos cnt

def receive (q : Queue) : Event → Option Queue
  | .tail n _ => some { q with regTail := (q.regTail+n) % q.len }
  | .done k o => q.dmas[k]? >>= { q with dmas := q.dmas.eraseIdx k }.dmaDone o
  | .dataFetched p _ => q.advance p .preparing .prepared
  | .dataWritten p _ => q.advance p .processing .processed

def act (q : Queue) (e : Event) : Option Queue := (q.receive e).bind fun q => q.trigger e.choices

/-- How far the tail may move without passing the last descriptor written back. -/
def room (q : Queue) : ℕ := (q.regHead+2*q.len-1-q.regTail) % q.len

def Pending (q : Queue) : Event → Prop
  | .tail _ _ => False
  | .done k _ => k < q.dmas.length
  | .dataFetched p _ => p < 128 ∧ (q.descCtxs p).state = .preparing
  | .dataWritten p _ => p < 128 ∧ (q.descCtxs p).state = .processing

/-- The driver keeps to the room the queue has, and only what is pending
completes. -/
def Legal (q : Queue) : Event → Prop
  | .tail n _ => n ≤ q.room
  | e => q.Pending e

end Queue

end SimBricks.I40eQueue
