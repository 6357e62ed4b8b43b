import SimBricks.Library.Dict
import SimBricks.Library.TopoSort
import SimBricks.Orchestration.Sockets

/-!
# The start-up graph of `dependency_graph.py`

Simulators and proxies of the assigned fragment become nodes when a channel
is met that needs them, and a node depends on the nodes it connects to. Sets
are lists in the order in which they are walked, node objects have an identity
of their own.
-/

set_option autoImplicit false

namespace SimBricks.Orchestration
open Library Library.Run

variable {Sim Comp Inf Proxy : Type}

/-- What a node stands for: its type with its value. -/
inductive Component (Sim Proxy : Type) where
  | simulator (sim : Sim)
  | proxy (proxy : Proxy)
  | externalProxy (proxy : Proxy)
  deriving DecidableEq, Repr

structure Node (Sim Proxy : Type) where
  id : ℕ
  component : Component Sim Proxy
  deriving DecidableEq, Repr

instance [DecidableEq Sim] [DecidableEq Proxy] : LawfulBEq (Node Sim Proxy) := inferInstance

abbrev DepGraph (Sim Proxy : Type) := Dict (Node Sim Proxy) (List (Node Sim Proxy))

structure Instantiation (Sim Comp Inf Proxy : Type) where
  simulation : Simulation Sim Comp Inf
  fragments : Fragments Proxy
  simulators : List Sim
  proxies : List Proxy
  interfaces : Proxy → List Inf
  isDummy : Proxy → Bool
  infSocktype : Assignment Inf
  connectionMode : Proxy → Option SockType
  proxies_nodup : proxies.Nodup

def orRaise {α : Type} (x : Option α) (text : String) : Except String α :=
  match x with
  | none => .error text
  | some a => .ok a

structure Build (Sim Proxy : Type) where
  nextId : ℕ
  graph : DepGraph Sim Proxy
  nodesSim : Dict Sim (Node Sim Proxy)
  nodesProxy : Dict Proxy (Node Sim Proxy)

section
variable [DecidableEq Sim] [DecidableEq Inf] [DecidableEq Proxy]

namespace DepGraph

def deps (g : DepGraph Sim Proxy) (n : Node Sim Proxy) : List (Node Sim Proxy) := (g.get? n).getD []

def insertDependency (g : DepGraph Sim Proxy) (node dependsOn : Node Sim Proxy) :
    Except String (DepGraph Sim Proxy) :=
  if node ∈ deps g dependsOn then
    .error "detected cylic dependency, this is currently not supported"
  else .ok (g.set node ((deps g node).insert dependsOn))

end DepGraph

namespace Build

def simNode (b : Build Sim Proxy) (s : Sim) : Build Sim Proxy × Node Sim Proxy :=
  let new := ⟨b.nextId,.simulator s⟩
  match b.nodesSim.get? s with
  | some n => ({ b with nextId := b.nextId+1 },n)
  | none => ({ b with nextId := b.nextId+1, nodesSim := b.nodesSim.set s new },new)

def proxyNode (b : Build Sim Proxy) (p : Proxy) (component : Component Sim Proxy) :
    Build Sim Proxy × Node Sim Proxy :=
  let new := ⟨b.nextId,component⟩
  match b.nodesProxy.get? p with
  | some n => ({ b with nextId := b.nextId+1 },n)
  | none => ({ b with nextId := b.nextId+1, nodesProxy := b.nodesProxy.set p new },new)

end Build

namespace Instantiation
variable (I : Instantiation Sim Comp Inf Proxy)

def insertDepIfADependsOnB (g : DepGraph Sim Proxy) (infA : Inf) (nodeA : Node Sim Proxy)
    (infB : Inf) (nodeB : Node Sim Proxy) : Except String (DepGraph Sim Proxy) := do
  let socktypeA ← orRaise (I.infSocktype infA) "Interface does not have an assigned socket type."
  let socktypeB ← orRaise (I.infSocktype infB) "Interface does not have an assigned socket type."
  match socktypeA, socktypeB with
  | .listen, .connect => return g
  | .connect, .listen => g.insertDependency nodeA nodeB
  | _, _ => .error "Invalid socket type assignment for connection"

def insertBoth (b : Build Sim Proxy) (infA : Inf) (nodeA : Node Sim Proxy) (infB : Inf)
    (nodeB : Node Sim Proxy) : Except String (Build Sim Proxy) := do
  let g ← I.insertDepIfADependsOnB b.graph infA nodeA infB nodeB
  let g ← I.insertDepIfADependsOnB g infB nodeB infA nodeA
  return { b with graph := g }

def getOpposingInterface (i : Inf) : Except String Inf :=
  orRaise (I.simulation.opposing i) "interface is not connected to channel"

def findSimByInterface (i : Inf) : Except String Sim :=
  orRaise (I.simulation.findSim (I.simulation.component i)) "Simulator not found for component"

def opposingInterfaceWithinSameSim (i : Inf) : Except String Bool := do
  let j ← I.getOpposingInterface i
  if i = j then .error "AssertionError"
  else
    let s ← I.findSimByInterface i
    let t ← I.findSimByInterface j
    return s = t

def addSimSim (simA : Sim) (b : Build Sim Proxy) (infA : Inf) :
    Except String (Build Sim Proxy) := do
  if ← I.opposingInterfaceWithinSameSim infA then return b
  else
    let infB ← I.getOpposingInterface infA
    let simB ← I.findSimByInterface infB
    if simB ∉ I.simulators then return (b.simNode simA).1
    else
      let (b,nodeA) := b.simNode simA
      let (b,nodeB) := b.simNode simB
      I.insertBoth b infA nodeA infB nodeB

def dropProxy (new : List Proxy) (p : Proxy) : Except String (List Proxy) := do
  let new := if I.isDummy p then new.erase p else new
  let q ← orRaise (I.fragments.findOpposingProxy p) "Cannot find previously added proxy pair."
  if q ∈ I.proxies then
    if p ∈ new then return new.erase p else .error "KeyError"
  else return new

def removeUnnecessaryProxies : Except String (List Proxy) := I.proxies.foldlM I.dropProxy I.proxies

def addProxySim (p : Proxy) (b : Build Sim Proxy) (infA : Inf) :
    Except String (Build Sim Proxy) := do
  let infB ← I.getOpposingInterface infA
  let simA ← I.findSimByInterface infA
  let nodeA ← orRaise (b.nodesSim.get? simA) "KeyError"
  let (b,nodeB) := b.proxyNode p (.proxy p)
  I.insertBoth b infA nodeA infB nodeB

def addProxyProxy (remaining : List Proxy) (b : Build Sim Proxy) (p : Proxy) :
    Except String (Build Sim Proxy) := do
  let nodeA ← orRaise (b.nodesProxy.get? p) "KeyError"
  let q ← orRaise (I.fragments.findOpposingProxy p) "Cannot find previously added proxy pair."
  if q ∈ remaining then .error "AssertionError"
  else
    let (b,nodeB) := b.proxyNode q (.externalProxy q)
    if I.connectionMode p = some .connect then
      let g ← b.graph.insertDependency nodeA nodeB
      return { b with graph := g }
    else return b

def buildSimulationDependencyGraph : Except String (DepGraph Sim Proxy × List Proxy) := do
  let b ← I.simulators.foldlM (fun b simA =>
    (I.simulation.components simA).foldlM (fun b compA =>
      (I.simulation.interfaces compA).foldlM (I.addSimSim simA) b) b) ⟨0,.empty,.empty,.empty⟩
  let remaining ← I.removeUnnecessaryProxies
  let b ← remaining.foldlM (fun b p => (I.interfaces p).foldlM (I.addProxySim p) b) b
  let b ← remaining.foldlM (I.addProxyProxy remaining) b
  return (b.graph,remaining)

end Instantiation
end
end SimBricks.Orchestration
