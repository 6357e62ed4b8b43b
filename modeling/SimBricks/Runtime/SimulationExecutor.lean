import SimBricks.Orchestration.StartOrder

/-!
# The run of `simulation_executor.py`

`run` and the tasks it starts, between the awaits of each. What a task is
woken with, and when it is cancelled, is the event list; what an exception or
a `CancelledError` then does is the code's. Processes are numbered by the task
that starts them.
-/

set_option autoImplicit false

namespace SimBricks.Runtime
open Library Library.Run Orchestration

variable {Sim Comp Inf Proxy : Type}

inductive Failure where
  | raised | cancelled
  deriving DecidableEq, Repr

/-- Where a start task stands: not yet run, in the await that starts its
process, in a later one, or done. -/
inductive Phase where
  | created | launching | waiting
  | done (failure : Option Failure)
  deriving DecidableEq, Repr

def Phase.isDone : Phase → Bool
  | .done _ => true
  | _ => false

def isSim : Component Sim Proxy → Bool
  | .simulator _ => true
  | _ => false

structure StartTask (Sim Proxy : Type) where
  node : Node Sim Proxy
  phase : Phase
  cancelling : Bool
  deriving DecidableEq, Repr

/-- `terminate_collect_task`: before its first step, waiting for the processes
to end, and done. -/
inductive Collect where
  | created | signalled | done
  deriving DecidableEq, Repr

/-- The await of `run`. A `gather` knows if it was cancelled and how the first
of its tasks failed. -/
inductive Point where
  | started
  | gathering (cancelled : Bool) (first : Option Failure)
  | waitSims
  | exited
  | interrupted
  | failed
  | cleaning (k : ℕ)
  | terminating (collect : Collect)
  | ended
  deriving DecidableEq, Repr

structure Executor (Sim Proxy : Type) where
  point : Point
  graph : DepGraph Sim Proxy
  starting : List (StartTask Sim Proxy)
  runningSims : Dict Sim ℕ
  runningProxies : Dict Proxy ℕ
  /-- all processes that were ever put into one of the dictionaries -/
  recorded : List ℕ
  /-- the processes on which `int_term_kill` was called -/
  killed : List ℕ

inductive TaskEvent where
  | begins | launched | returns | fails | cancelled
  deriving DecidableEq, Repr

/-- The next step of the event loop: `run` is woken by a result or by an
exception of what it awaits, it is cancelled, or another task has its turn. -/
inductive Event where
  | resume | raises | cancel
  | task (k : ℕ) (e : TaskEvent)
  | collect
  deriving DecidableEq, Repr

namespace StartTask

def cancel (t : StartTask Sim Proxy) : StartTask Sim Proxy :=
  if t.phase.isDone then t else { t with cancelling := true }

def firstPhase (t : StartTask Sim Proxy) : Phase :=
  match t.node.component with
  | .externalProxy _ => .waiting
  | _ => .launching

/-- What a `CancelledError` does to the task: `_start_sim` swallows it if it
has begun. -/
def onCancelled (t : StartTask Sim Proxy) : Option Failure :=
  if isSim t.node.component ∧ t.phase ≠ .created then none else some .cancelled

end StartTask

def Point.note (p : Point) (failure : Option Failure) : Point :=
  match p with
  | .gathering c none => .gathering c failure
  | p => p

namespace Executor

def initial : Executor Sim Proxy := ⟨.started,.empty,[],.empty,.empty,[],[]⟩

def allDone (s : Executor Sim Proxy) : Bool := s.starting.all (·.phase.isDone)

def finish (s : Executor Sim Proxy) (k : ℕ) (t : StartTask Sim Proxy) (failure : Option Failure) :
    Executor Sim Proxy :=
  { s with
    starting := s.starting.set k { t with phase := .done failure }
    point := s.point.note failure }

def processes (s : Executor Sim Proxy) : List ℕ :=
  s.runningSims.entries.map Prod.snd++s.runningProxies.entries.map Prod.snd

/-- `terminate_collect_task` has its turn: it calls `int_term_kill` on all
processes, and is done when they have ended or one of them failed. -/
def collectStep (s : Executor Sim Proxy) : Executor Sim Proxy :=
  match s.point with
  | .terminating .created =>
    { s with killed := s.killed++s.processes, point := .terminating .signalled }
  | .terminating .signalled => { s with point := .terminating .done }
  | _ => s

def pendingFrom (s : Executor Sim Proxy) (k : ℕ) : Option ℕ :=
  (List.range s.starting.length).find? fun i =>
    k ≤ i && (s.starting[i]?).any fun t => !t.phase.isDone

def clean (s : Executor Sim Proxy) (k : ℕ) : Executor Sim Proxy :=
  match s.pendingFrom k with
  | some i => { s with starting := s.starting.modify i StartTask.cancel, point := .cleaning i }
  | none => { s with point := .terminating .created }

section
variable [DecidableEq Sim] [DecidableEq Proxy]

def record (s : Executor Sim Proxy) (k : ℕ) : Component Sim Proxy → Executor Sim Proxy
  | .simulator x =>
    { s with runningSims := s.runningSims.set x k, recorded := s.recorded++[k] }
  | .proxy p =>
    { s with runningProxies := s.runningProxies.set p k, recorded := s.recorded++[k] }
  | .externalProxy _ => s

def taskStep (s : Executor Sim Proxy) (k : ℕ) (t : StartTask Sim Proxy) :
    TaskEvent → Executor Sim Proxy
  | .begins =>
    if t.phase = .created then
      { s with starting := s.starting.set k { t with phase := t.firstPhase } }
    else s
  | .launched =>
    if t.phase = .launching then
      { s with starting := s.starting.set k { t with phase := .waiting } }.record k
        t.node.component
    else s
  | .returns => if t.phase = .waiting then s.finish k t none else s
  | .fails => if t.phase = .launching ∨ t.phase = .waiting then s.finish k t (some .raised) else s
  | .cancelled =>
    if t.phase.isDone = false ∧ t.cancelling then s.finish k t t.onCancelled else s

/-- The head of the loop over the sorter. All nodes that were handed out are
done here, so it is active exactly if some node is ready. -/
def nextRound (s : Executor Sim Proxy) : Executor Sim Proxy :=
  match TopoSort.ready s.graph.nodes s.graph.deps (s.starting.map (·.node)) with
  | [] => { s with point := .waitSims }
  | n::rest =>
    { s with
      starting := s.starting++(n::rest).map fun n => ⟨n,.created,false⟩
      point := .gathering false none }

variable [DecidableEq Inf] (I : Instantiation Sim Comp Inf Proxy)

def prepareGraph (s : Executor Sim Proxy) : Executor Sim Proxy :=
  match I.buildSimulationDependencyGraph with
  | .error _ => { s with point := .failed }
  | .ok (g,_) =>
    if ∀ n ∈ g.nodes, n ∈ TopoSort.order g.nodes g.deps then nextRound { s with graph := g }
    else { s with point := .failed }

/-- `run` is woken by what it awaits. From a `gather` it is woken after the
first failure, or when all tasks are done, and not before each has begun. -/
def resume (s : Executor Sim Proxy) : Executor Sim Proxy :=
  match s.point with
  | .started => s.prepareGraph I
  | .gathering cancelled first =>
    if ∃ t ∈ s.starting, t.phase = .created then s
    else match first with
      | some .raised => { s with point := .failed }
      | some .cancelled => { s with point := .interrupted }
      | none =>
        if s.allDone = false then s
        else if cancelled then { s with point := .interrupted }
        else s.nextRound
  | .waitSims => { s with point := .exited }
  | .exited => s.clean 0
  | .interrupted => s.clean 0
  | .failed => s.clean 0
  | .cleaning k =>
    match s.starting[k]? with
    | some ⟨_,.done none,_⟩ => s.clean (k+1)
    | some ⟨_,.done (some _),_⟩ => { s with point := .ended }
    | _ => s
  | .terminating .done => { s with point := .ended }
  | .terminating _ => s
  | .ended => s

def raises (s : Executor Sim Proxy) : Executor Sim Proxy :=
  match s.point with
  | .started => { s with point := .failed }
  | .waitSims => { s with point := .failed }
  | .exited => { s with point := .failed }
  | .interrupted => { s with point := .ended }
  | .failed => { s with point := .ended }
  | _ => s

/-- `run` is cancelled. The request goes to the future that it awaits: to all
tasks of a `gather`, to the task awaited in the clean-up loop, and not through
the `shield`. If that future is done, `run` gets the `CancelledError` itself. -/
def cancel (s : Executor Sim Proxy) : Executor Sim Proxy :=
  match s.point with
  | .started => { s with point := .interrupted }
  | .gathering cancelled first =>
    if first.isSome ∨ s.allDone then { s with point := .gathering cancelled (some .cancelled) }
    else { s with starting := s.starting.map StartTask.cancel, point := .gathering true none }
  | .waitSims => { s with point := .interrupted }
  | .exited => { s with point := .interrupted }
  | .interrupted => { s with point := .ended }
  | .failed => { s with point := .ended }
  | .cleaning k =>
    match s.starting[k]? with
    | some t => if t.phase.isDone then { s with point := .ended }
      else { s with starting := s.starting.modify k StartTask.cancel }
    | none => s
  | .terminating _ => s
  | .ended => s

def step (s : Executor Sim Proxy) : Event → Executor Sim Proxy
  | .resume => s.resume I
  | .raises => s.raises
  | .cancel => s.cancel
  | .task k e =>
    match s.starting[k]? with
    | some t => if s.point = .ended then s else s.taskStep k t e
    | none => s
  | .collect => s.collectStep

end
end Executor
end SimBricks.Runtime
