import SimBricks.Library.Dict
import SimBricks.Library.Text
import SimBricks.Orchestration.Sockets

/-!
# Channels of `system/base.py` and `simulation/base.py`

A channel of the system carries the latency, its instance in the simulation
the synchronization period. Objects are known by their ids, the components of
a simulator are listed in the order in which the set is walked. A raised
exception is an error with its text.
-/

set_option autoImplicit false

namespace SimBricks.Orchestration
open Library Library.Run Library.Text

inductive ChannelType where
  | channel | eth | pcie | mem
  deriving DecidableEq, Repr

def checkType (obj expected : ChannelType) : Bool := expected = .channel || obj = expected

inductive Time where
  | picoseconds | nanoseconds | microseconds | milliseconds | seconds
  deriving DecidableEq, Repr

/-- The members of the `IntEnum` as numbers; the fraction is cut off. -/
def Time.value : Time → ℤ
  | .picoseconds => 0
  | .nanoseconds => 1
  | .microseconds => 10^3
  | .milliseconds => 10^6
  | .seconds => 10^9

structure Interface where
  component : ℕ
  channel : Option ℕ
  deriving DecidableEq, Repr

structure SysChannel where
  type : ChannelType
  latency : ℤ
  a : ℕ
  b : ℕ
  deriving DecidableEq, Repr

structure SimChannel where
  synchronized : Bool
  syncPeriod : ℤ
  sysChannel : ℕ
  deriving DecidableEq, Repr

structure World where
  nextId : ℕ
  interfaces : Dict ℕ Interface
  channels : Dict ℕ SysChannel
  simulators : List (List ℕ)
  chanMap : Dict ℕ SimChannel

def World.initial : World := ⟨0,.empty,.empty,[],.empty⟩

/-! ## The system -/

def connect (interfaces : Dict ℕ Interface) (inf chan : ℕ) : Except String (Dict ℕ Interface) :=
  match interfaces.get? inf with
  | none => .error ("system object does not store interface with id "++toString inf)
  | some i =>
    match i.channel with
    | some old => .error ("cannot connect interface "++toString inf++" to channel "++toString chan++
        ". interface is already connected to channel "++toString old)
    | none => .ok (interfaces.set inf { i with channel := some chan })

def addChannel (channels : Dict ℕ SysChannel) (id : ℕ) (c : SysChannel) :
    Except String (Dict ℕ SysChannel) :=
  if channels.contains id then .error "AssertionError" else .ok (channels.set id c)

namespace World

def addInterface (w : World) (component : ℕ) : World :=
  { w with nextId := w.nextId+1, interfaces := w.interfaces.set w.nextId ⟨component,none⟩ }

def newChannel (w : World) (type : ChannelType) (a b : ℕ) : Except String World := do
  let interfaces ← connect w.interfaces a w.nextId
  let interfaces ← connect interfaces b w.nextId
  let channels ← addChannel w.channels w.nextId ⟨type,500,a,b⟩
  return { w with nextId := w.nextId+1, interfaces := interfaces, channels := channels }

def getChan (w : World) (chan : ℕ) : Except String SysChannel :=
  match w.channels.get? chan with
  | none => .error ("system does not store channel with id "++toString chan)
  | some c => .ok c

def setLatency (w : World) (chan : ℕ) (amount : ℤ) (ratio : Time) : Except String World := do
  let c ← w.getChan chan
  return { w with channels := w.channels.set chan { c with latency := amount*ratio.value } }

/-- Without a type the loop runs over the keys of the dictionary. -/
def latencies (w : World) (amount : ℤ) (ratio : Time) (channelType : Option ChannelType) :
    Except String World :=
  match channelType with
  | some ty => (w.channels.entries.filter fun x => checkType x.2.type ty).foldlM
      (fun w x => w.setLatency x.1 amount ratio) w
  | none =>
    if w.channels.entries = [] then .ok w
    else .error "'int' object has no attribute 'set_latency'"

/-! ## The simulation -/

def addSimulator (w : World) (components : List ℕ) : Except String World :=
  if ¬ components.Nodup then .error "cannot add the same specification twice to a simulator"
  else if components.any fun k => w.simulators.any (k ∈ ·) then
    .error "system component is already mapped by simulator"
  else .ok { w with simulators := w.simulators++[components] }

def updateChannelMapping (chanMap : Dict ℕ SimChannel) (sysChan : ℕ) (simChan : SimChannel) :
    Except String (Dict ℕ SimChannel) :=
  if chanMap.contains sysChan then
    .error ("channel "++toString sysChan++" is already mapped.")
  else .ok (chanMap.set sysChan simChan)

def retrieveOrCreateChannel (w : World) (chan : ℕ) : Except String World :=
  if w.chanMap.contains chan then .ok w
  else do
    let c ← w.getChan chan
    if 500 ≤ c.latency then
      let chanMap ← updateChannelMapping w.chanMap chan ⟨false,500,chan⟩
      return { w with chanMap := chanMap }
    else .error "AssertionError"

def setSyncPeriod (w : World) (chan : ℕ) (amount : ℤ) (ratio : Time) : Except String World :=
  match w.chanMap.get? chan with
  | none => .error ("Channel "++toString chan++" is not instantiated")
  | some s => do
    let s := { s with syncPeriod := amount*ratio.value }
    let c ← w.getChan s.sysChannel
    if s.syncPeriod ≤ c.latency then return { w with chanMap := w.chanMap.set chan s }
    else .error "AssertionError"

def componentChannels (w : World) (component : ℕ) : List ℕ :=
  (w.interfaces.entries.filter fun x => x.2.component = component).filterMap fun x => x.2.channel

def endsIn (w : World) (components : List ℕ) (inf : ℕ) : Bool :=
  match w.interfaces.get? inf with
  | none => false
  | some i => i.component ∈ components

def chanNeedsInstance (w : World) (components : List ℕ) (c : SysChannel) : Bool :=
  !(w.endsIn components c.a && w.endsIn components c.b)

/-- `_get_channel` of a simulator with these components, and whether it has
returned an instance. -/
def getChannel (w : World) (components : List ℕ) (chan : ℕ) : Except String (World × Bool) := do
  let c ← w.getChan chan
  if w.chanNeedsInstance components c then
    let w ← w.retrieveOrCreateChannel chan
    return (w,true)
  else return (w,false)

def collect (components : List ℕ) (x : World × List ℕ) (chan : ℕ) :
    Except String (World × List ℕ) := do
  let (w,found) ← x.1.getChannel components chan
  return (w,if found then x.2++[chan] else x.2)

def getChannels (x : World × List ℕ) (components : List ℕ) : Except String (World × List ℕ) :=
  components.foldlM (fun x component =>
    (x.1.componentChannels component).foldlM (collect components) x) x

def getAllChannels (w : World) : Except String (World × List ℕ) :=
  w.simulators.foldlM getChannels (w,[])

/-- The body of the loop of `enable_synchronization`; an amount or a ratio of
zero leaves the period. -/
def synchronize (amount : Option ℤ) (ratio : Option Time) (w : World) (chan : ℕ) :
    Except String World :=
  match w.chanMap.get? chan with
  | none => .error ("Channel "++toString chan++" is not instantiated")
  | some s =>
    let w := { w with chanMap := w.chanMap.set chan { s with synchronized := true } }
    match amount, ratio with
    | some amount, some ratio =>
      if amount ≠ 0 ∧ ratio.value ≠ 0 then w.setSyncPeriod chan amount ratio else .ok w
    | _, _ => .ok w

def enableSynchronization (w : World) (amount : Option ℤ) (ratio : Option Time) :
    Except String World := do
  let (w,channels) ← w.getAllChannels
  channels.foldlM (synchronize amount ratio) w

end World

/-! ## JSON -/

structure InterfaceJson where
  id : ℕ
  component : ℕ
  channel : ℕ
  deriving DecidableEq, Repr

structure ChannelJson where
  id : ℕ
  type : ChannelType
  latency : ℤ
  interfaceA : ℕ
  interfaceB : ℕ
  deriving DecidableEq, Repr

structure SimChannelJson where
  synchronized : Bool
  syncPeriod : ℤ
  sysChannel : ℕ
  deriving DecidableEq, Repr

structure SystemJson where
  interfaces : List InterfaceJson
  channels : List ChannelJson
  deriving DecidableEq, Repr

structure SimulationJson where
  simList : List (List ℕ)
  chanMap : List (ℕ × SimChannelJson)
  deriving DecidableEq, Repr

def interfaceToJSON (x : ℕ × Interface) : Except String InterfaceJson :=
  match x.2.channel with
  | none => .error "'NoneType' object has no attribute 'id'"
  | some chan => .ok ⟨x.1,x.2.component,chan⟩

def channelToJSON (x : ℕ × SysChannel) : ChannelJson := ⟨x.1,x.2.type,x.2.latency,x.2.a,x.2.b⟩

def simChannelToJSON (s : SimChannel) : SimChannelJson := ⟨s.synchronized,s.syncPeriod,s.sysChannel⟩

namespace World

def systemToJSON (w : World) : Except String SystemJson := do
  let interfaces ← w.interfaces.entries.mapM interfaceToJSON
  return ⟨interfaces,w.channels.entries.map channelToJSON⟩

def simulationToJSON (w : World) : SimulationJson :=
  ⟨w.simulators,w.chanMap.entries.map fun x => (x.1,simChannelToJSON x.2)⟩

/-- An interface comes back unconnected and with the component that lists it. -/
def interfaceFromJSON (interfaces : Dict ℕ Interface) (json : InterfaceJson) :
    Except String (Dict ℕ Interface) :=
  if interfaces.contains json.id then .error "AssertionError"
  else .ok (interfaces.set json.id ⟨json.component,none⟩)

def channelFromJSON (x : Dict ℕ Interface × Dict ℕ SysChannel) (json : ChannelJson) :
    Except String (Dict ℕ Interface × Dict ℕ SysChannel) := do
  let interfaces ← connect x.1 json.interfaceA json.id
  let interfaces ← connect interfaces json.interfaceB json.id
  let channels ← addChannel x.2 json.id ⟨json.type,json.latency,json.interfaceA,json.interfaceB⟩
  return (interfaces,channels)

def systemFromJSON (json : SystemJson) : Except String (Dict ℕ Interface × Dict ℕ SysChannel) := do
  let interfaces ← json.interfaces.foldlM interfaceFromJSON .empty
  json.channels.foldlM channelFromJSON (interfaces,.empty)

def simChannelFromJSON (w : World) (x : ℕ × SimChannelJson) : Except String World := do
  let _ ← w.getChan x.2.sysChannel
  let _ ← w.getChan x.1
  let chanMap ← updateChannelMapping w.chanMap x.1
    ⟨x.2.synchronized,x.2.syncPeriod,x.2.sysChannel⟩
  return { w with chanMap := chanMap }

/-- Both are written and read back, the simulation with the new system. -/
def jsonRoundTrip (w : World) : Except String World := do
  let system ← w.systemToJSON
  let (interfaces,channels) ← systemFromJSON system
  let simulation := w.simulationToJSON
  simulation.chanMap.foldlM simChannelFromJSON
    { w with interfaces := interfaces, channels := channels, simulators := simulation.simList,
             chanMap := .empty }

end World

/-! ## Parameters for a simulator -/

structure Socket where
  type : SockType
  path : Bytes
  deriving DecidableEq, Repr

def urlText (socket : Socket) (shmPath : Bytes) (sync : Bool) (latency syncPeriod : ℤ) : Bytes :=
  let syncStr := ascii (if sync then "true" else "false")
  match socket.type with
  | .connect => ascii "connect:"++socket.path++ascii ":sync="++syncStr++
      ascii ":latency="++signed latency++ascii ":sync_interval="++signed syncPeriod
  | .listen => ascii "listen:"++socket.path++ascii ":"++shmPath++ascii ":sync="++syncStr++
      ascii ":latency="++signed latency++ascii ":sync_interval="++signed syncPeriod

/-- An argument that is missing or zero is taken from the channel. -/
def orElse (x : Option ℤ) (y : ℤ) : ℤ :=
  match x with
  | none => y
  | some x => if x = 0 then y else x

namespace World

def getParametersUrl (w : World) (shmPath : Bytes) (socket : Socket) (channel : Option SimChannel)
    (sync : Option Bool) (latency syncPeriod : Option ℤ) : Except String Bytes :=
  match channel with
  | some s => do
    let c ← w.getChan s.sysChannel
    return urlText socket shmPath (if sync = some true then true else s.synchronized)
      (orElse latency c.latency) (orElse syncPeriod s.syncPeriod)
  | none =>
    match sync, latency, syncPeriod with
    | some sync, some latency, some syncPeriod =>
      .ok (urlText socket shmPath sync latency syncPeriod)
    | _, _, _ => .error ("Cannot generate parameters url if channel and at least one of sync, "++
        "latency, sync_period are None")

def getInterfaceUrl (w : World) (shmPath : Bytes) (socket : Socket) (components : List ℕ)
    (intf : Interface) : Except String (Bytes × World) :=
  match intf.channel with
  | none => .error "'NoneType' object has no attribute 'a'"
  | some chan => do
    let c ← w.getChan chan
    let (w,found) ← w.getChannel components chan
    match found, w.chanMap.get? chan with
    | true, some s =>
      let url ← w.getParametersUrl shmPath socket none (some s.synchronized) (some c.latency)
        (some s.syncPeriod)
      return (url,w)
    | _, _ => .error "'NoneType' object has no attribute '_synchronized'"

def uniqueStep (w : World) (x : Option ℤ × Option ℤ × Bool) (s : SimChannel) :
    Except String (Option ℤ × Option ℤ × Bool) := do
  let c ← w.getChan s.sysChannel
  let syncPeriod := match x.2.1 with
    | some p => if p ≠ 0 then min p s.syncPeriod else s.syncPeriod
    | none => s.syncPeriod
  let latency := match x.1 with
    | some l => if l ≠ 0 then max l c.latency else c.latency
    | none => c.latency
  return (some latency,some syncPeriod,x.2.2 || s.synchronized)

def getUniqueLatencyPeriodSync (w : World) (channels : List SimChannel) :
    Except String (ℤ × ℤ × Bool) := do
  let x ← channels.foldlM w.uniqueStep (none,none,false)
  match x with
  | (some latency,some syncPeriod,runSync) => return (latency,syncPeriod,runSync)
  | _ => .error "could not determine eth_latency and sync_period"

end World
end SimBricks.Orchestration
