import SimBricks.Library.Bytes
import SimBricks.Mem.MemSwitch

/-!
# Memory behind the network

`memnic.c`, `memswitch.cc` and `netmem.c` composed, against `basicmem.c`.
The simulators hand each other messages through queues that are never full
and run in any order. A message that is longer than the slot it is written
to has no meaning in the model: the composed system is `none` from there on.
-/

set_option autoImplicit false

namespace SimBricks.NetworkMemory
open Library Library.Bytes Library.Run NetProto MemSwitch List Option UInt16

def kNetSlot : ℕ := 1536

def kMemSlot : ℕ := 8192

/-! ## Local memory -/

def basicPollH2M (m : Memory) : H2M → Memory × List M2H
  | .read reqId _ addr len => (m,[.readcomp reqId (load m addr.toNat len.toNat)])
  | .write reqId _ addr data => (store m addr.toNat data,[.writecomp reqId])
  | .writePosted _ _ addr data => (store m addr.toNat data,[])

def basicmem (m : Memory) : List H2M → Memory × List M2H
  | [] => (m,[])
  | r::rs =>
    let (m,out) := basicPollH2M m r
    let (m,outs) := basicmem m rs
    (m,out++outs)

/-! ## The network interface of the host -/

structure MemNic where
  mac : Mac
  ipAddr : UInt32
  srcPort : UInt16
  destPort : UInt16
  deriving DecidableEq, Repr

def kBroadcast : Mac := Vector.replicate 6 0xff
def kEthPIp : UInt16 := 0x0800

def MemNic.frame (nic : MemNic) (memop : MemOp) (data : List UInt8) : Frame where
  eth := ⟨kBroadcast,nic.mac,htons kEthPIp⟩
  ip := ⟨nic.ipAddr,0xffffffff, htons (ofNat (sizeofIp+sizeofUdp+sizeofMemOp+data.length))⟩
  udp := ⟨nic.srcPort,nic.destPort,ofNat (sizeofUdp+sizeofMemOp+data.length)⟩
  memop := memop
  data := data

def MemNic.forwardToETH (nic : MemNic) : H2M → Option Frame
  | .read reqId asId addr len => some (nic.frame ⟨kH2MRead,reqId,addr,len,asId⟩ [])
  | .write reqId asId addr data =>
    some (nic.frame ⟨kH2MWrite,reqId,addr,ofNat data.length,asId⟩ data)
  | .writePosted _ _ _ _ => none

def forwardToMEM (f : Frame) : List M2H :=
  if f.memop.opType = kM2HReadcomp then [.readcomp f.memop.reqId (f.data.take f.memop.len.toNat)]
  else if f.memop.opType = kM2HWritecomp then [.writecomp f.memop.reqId]
  else []

/-! ## The memory node -/

structure NetMem where
  mac : Mac
  ipAddr : UInt32
  deriving DecidableEq, Repr

def NetMem.reply (node : NetMem) (f : Frame) (opType : UInt8) (data : List UInt8) : Frame where
  eth := ⟨f.eth.source,node.mac,f.eth.proto⟩
  ip := ⟨node.ipAddr,f.ip.saddr, htons (ofNat (sizeofIp+sizeofUdp+sizeofMemOp+data.length))⟩
  udp := ⟨f.udp.dport,f.udp.sport,ofNat (sizeofUdp+sizeofMemOp+data.length)⟩
  memop := { f.memop with opType := opType }
  data := data

/-- `HandleRequest` of `netmem.c`; `stale` is the operation type left in the
slot by an earlier reply. -/
def NetMem.handleRequest (node : NetMem) (m : Memory) (f : Frame) (stale : UInt8) :
    Memory × Frame :=
  if f.memop.opType = kH2MRead then
    (m,node.reply f kM2HReadcomp (load m f.memop.addr.toNat f.memop.len.toNat))
  else if f.memop.opType = kH2MWrite then
    (store m f.memop.addr.toNat (f.data.take f.memop.len.toNat),node.reply f kM2HWritecomp [])
  else (m,node.reply f stale [])

/-! ## The composed system -/

def Unicast (mac : Mac) : Prop := mac[0] &&& 1 = 0

/-- The table maps every address of the node's memory to itself for one
address space. The switch may know the node's MAC from its command line. -/
structure Config where
  nic : MemNic
  node : NetMem
  asId : UInt64
  size : ℕ
  table : List TableEntry
  stale : UInt8
  known : Bool
  nicUnicast : Unicast nic.mac
  nodeUnicast : Unicast node.mac
  distinct : nic.mac ≠ node.mac
  identity : ∀ op : MemOp, op.asId = asId → op.addr.toNat < size →
    ∃ e, table.find? (·.contains op) = some e ∧ e.physStart = e.vaddrStart ∧ e.nodeMac = node.mac

/-- A request inside the memory that fits its slot. -/
structure Config.InRange (cfg : Config) (r : H2M) : Prop where
  asId : r.asId = cfg.asId
  addr : r.addr.toNat < cfg.size
  fits : r.addr.toNat+r.len ≤ cfg.size
  slot : r.len ≤ kMemSlot

structure System where
  host : List H2M
  toSwitch : List Frame := []
  toMem : List Frame := []
  fromMem : List Frame := []
  toNic : List Frame := []
  switch : Switch
  memory : Memory
  completions : List M2H := []

inductive Event where
  | nicH2M | switchNic | netmem | switchMem | nicN2M
  deriving DecidableEq, Repr

/-- Port 0 of the switch leads to the host, port 1 to the memory node. -/
def System.deliver (s : System) (x : ℕ × Frame) : System :=
  if x.1 = 0 then { s with toNic := s.toNic++[x.2] } else { s with toMem := s.toMem++[x.2] }

def System.switched (s : System) (iport : ℕ) (f : Frame) : System :=
  let (switch,out) := s.switch.switchPkt iport f
  out.foldl System.deliver { s with switch }

def fitsSlot (f : Frame) : Bool := f.length ≤ kNetSlot

def step (cfg : Config) : Option System → Event → Option System
  | none, _ => none
  | some s, .nicH2M =>
    match s.host with
    | [] => some s
    | r::rest =>
      match cfg.nic.forwardToETH r with
      | none => some { s with host := rest }
      | some f =>
        if fitsSlot f then some { s with host := rest, toSwitch := s.toSwitch++[f] } else none
  | some s, .switchNic =>
    match s.toSwitch with
    | [] => some s
    | f::rest => some ({ s with toSwitch := rest }.switched 0 f)
  | some s, .netmem =>
    match s.toMem with
    | [] => some s
    | f::rest =>
      let (memory,g) := cfg.node.handleRequest s.memory f cfg.stale
      if fitsSlot g then some { s with toMem := rest, memory, fromMem := s.fromMem++[g] } else none
  | some s, .switchMem =>
    match s.fromMem with
    | [] => some s
    | f::rest => some ({ s with fromMem := rest }.switched 1 f)
  | some s, .nicN2M =>
    match s.toNic with
    | [] => some s
    | f::rest => some { s with toNic := rest, completions := s.completions++forwardToMEM f }

def start (cfg : Config) (m : Memory) (reqs : List H2M) : Option System := some
       { host := reqs
         switch := ⟨2,cfg.table,if cfg.known then Finmap.insert cfg.node.mac 1 ∅ else ∅⟩
         memory := m }

def System.Quiet (s : System) : Prop :=
  s.host = [] ∧ s.toSwitch = [] ∧ s.toMem = [] ∧ s.fromMem = [] ∧ s.toNic = []

/-- The system can answer the requests, and whenever it has, completions and
memory are those of local memory. -/
def Refines (cfg : Config) (m : Memory) (reqs : List H2M) : Prop :=
  (∀ es, ∃ s, run (step cfg) (start cfg m reqs) es = some s ∧
    (s.Quiet → (s.memory,s.completions) = basicmem m reqs)) ∧
  ∃ es s, run (step cfg) (start cfg m reqs) es = some s ∧ s.Quiet

/-! ## What each simulator does to a request -/

lemma basicmem_append (m : Memory) (rs ts : List H2M) :
    basicmem m (rs++ts) =
    ((basicmem (basicmem m rs).1 ts).1, (basicmem m rs).2++(basicmem (basicmem m rs).1 ts).2) := by
  induction rs generalizing m with
  | nil => rfl
  | cons r rs ih => simp [basicmem, ih, append_assoc]

lemma Unicast.ne_bcast {mac : Mac} (h : Unicast mac) : mac ≠ bcastAddr := by
  rintro rfl
  unfold Unicast at h
  cases h

lemma Unicast.ne_broadcast {mac : Mac} (h : Unicast mac) : mac ≠ kBroadcast := by
  rintro rfl
  unfold Unicast at h
  cases h

section
variable {cfg : Config} {r : H2M} {f : Frame}

lemma forwardToETH_headers {nic : MemNic} (h : nic.forwardToETH r = some f) :
    f.eth.dest = kBroadcast ∧ f.eth.source = nic.mac ∧ f.memop.asId = r.asId ∧
    f.memop.addr = r.addr := by
  cases r with
  | read reqId asId addr len | write reqId asId addr data => cases h; exact ⟨rfl,rfl,rfl,rfl⟩
  | writePosted => cases h

def Config.toNode (cfg : Config) (f : Frame) : Frame :=
  { f with eth := { f.eth with dest := cfg.node.mac } }

def Config.Macs (cfg : Config) (t : Table Mac ℕ) : Prop :=
  ∀ mac p, t.lookup mac = some p → (mac = cfg.nic.mac ∧ p = 0) ∨ (mac = cfg.node.mac ∧ p = 1)

variable {t : Table Mac ℕ}

lemma Config.Macs.insert_nic (h : cfg.Macs t) : cfg.Macs (t.insert cfg.nic.mac 0) := by
  intro mac p hp
  rw [Table.lookup_insert_ite] at hp
  split_ifs at hp with he
  · exact .inl ⟨he,(some.inj hp).symm⟩
  · exact h mac p hp

lemma Config.Macs.insert_node (h : cfg.Macs t) : cfg.Macs (t.insert cfg.node.mac 1) := by
  intro mac p hp
  rw [Table.lookup_insert_ite] at hp
  split_ifs at hp with he
  · exact .inr ⟨he,(some.inj hp).symm⟩
  · exact h mac p hp

lemma Config.Macs.broadcast (h : cfg.Macs t) : t.lookup kBroadcast = none := by
  cases hl : t.lookup kBroadcast with
  | none => rfl
  | some p =>
    rcases h _ p hl with ⟨he,-⟩ | ⟨he,-⟩
    · exact absurd he.symm cfg.nicUnicast.ne_broadcast
    · exact absurd he.symm cfg.nodeUnicast.ne_broadcast

lemma forward_toNode (s : Switch) (hn : s.numPorts = 2) (hm : cfg.Macs s.macTable) (f : Frame) :
    s.forward 0 (cfg.toNode f) = [(1,cfg.toNode f)] := by
  unfold Switch.forward
  rw [show (cfg.toNode f).eth.dest = cfg.node.mac from rfl]
  cases hl : s.macTable.lookup cfg.node.mac with
  | none => simp [hn, range_succ]
  | some p =>
    obtain rfl : p = 1 := by
      rcases hm _ p hl with ⟨he,-⟩ | ⟨-,hp⟩
      · exact absurd he.symm cfg.distinct
      · exact hp
    simp

lemma switchPkt_request (s : Switch) (hn : s.numPorts = 2) (ht : s.mapTable = cfg.table)
    (hm : cfg.Macs s.macTable) (hr : cfg.InRange r) (hf : cfg.nic.forwardToETH r = some f) :
    s.switchPkt 0 f = ({ s with macTable := s.macTable.insert cfg.nic.mac 0 },[(1,cfg.toNode
    f)]) := by
  obtain ⟨hdest,hsrc,hid,haddr⟩ := forwardToETH_headers hf
  obtain ⟨e,hfind,hphys,hmac⟩ := cfg.identity f.memop (hid.trans hr.asId) (haddr ▸ hr.addr)
  have hm' := hm.insert_nic
  have htr : e.translate f = cfg.toNode f := by
    have hpa : e.physAddr f.memop.addr = f.memop.addr := by
      rw [TableEntry.physAddr, hphys, UInt64.add_comm, UInt64.sub_add_cancel]
    simp [TableEntry.translate, Config.toNode, hpa, hmac]
  have hlearn : s.learn f.eth.source 0 =
      { s with macTable := s.macTable.insert cfg.nic.mac 0 } := by
    rw [Switch.learn, hsrc, if_neg cfg.nicUnicast.ne_bcast]
  have hunknown : (s.learn f.eth.source 0).macTable.lookup f.eth.dest = none := by
    rw [hlearn, hdest]
    exact hm'.broadcast
  have htrans : s.translation 0 f = some e := by
    rw [Switch.translation_of_unknown hunknown, Switch.find, ht, hfind]
  apply Prod.ext
  · rw [Switch.switchPkt_state, hlearn]
  · rw [Switch.switchPkt_out, htrans]
    dsimp only
    rw [htr, hlearn]
    exact forward_toNode { s with macTable := s.macTable.insert cfg.nic.mac 0 } hn hm' f

lemma switchPkt_reply (s : Switch) (hl : s.macTable.lookup cfg.nic.mac = some 0)
    (hd : f.eth.dest = cfg.nic.mac) (hs : f.eth.source = cfg.node.mac) :
    s.switchPkt 1 f = ({ s with macTable := s.macTable.insert cfg.node.mac 1 },[(0,f)]) := by
  have hlearn : s.learn f.eth.source 1 =
      { s with macTable := s.macTable.insert cfg.node.mac 1 } := by
    rw [Switch.learn, hs, if_neg cfg.nodeUnicast.ne_bcast]
  have hlookup : (s.learn f.eth.source 1).macTable.lookup f.eth.dest = some 0 := by
    rw [hlearn, hd]
    rw [Table.lookup_insert_ite, if_neg cfg.distinct, hl]
  rw [Switch.switchPkt_known hlookup, hlearn]
  rfl

/-- The node does to its memory what local memory does, and answers alike. -/
lemma handleRequest_request (m : Memory) (stale : UInt8) (hr : cfg.InRange r)
    (hf : cfg.nic.forwardToETH r = some f) :
    let x := cfg.node.handleRequest m (cfg.toNode f) stale
    (x.1,forwardToMEM x.2) = basicPollH2M m r ∧ x.2.eth.dest = cfg.nic.mac ∧
    x.2.eth.source = cfg.node.mac := by
  have hslot := hr.slot
  cases r with
  | writePosted => cases hf
  | read =>
    cases hf
    refine ⟨?_,rfl,rfl⟩
    simp [NetMem.handleRequest, Config.toNode, MemNic.frame, NetMem.reply, forwardToMEM,
      basicPollH2M]
  | write reqId asId addr data =>
    cases hf
    refine ⟨?_,rfl,rfl⟩
    have hlen : data.length % 65536 = data.length := by
      apply Nat.mod_eq_of_lt
      exact Nat.lt_of_le_of_lt hslot (by decide)
    have hne : kH2MWrite ≠ kH2MRead := by decide
    have hne' : kM2HWritecomp ≠ kM2HReadcomp := by decide
    simp [NetMem.handleRequest, Config.toNode, MemNic.frame, NetMem.reply, forwardToMEM,
      basicPollH2M, hne, hne', hlen]

/-- The request and its reply fit the slots of the network. -/
def Slotted (r : H2M) : Prop := sizeofEth+sizeofIp+sizeofUdp+sizeofMemOp+r.len ≤ kNetSlot

lemma slotted_iff (m : Memory) (stale : UInt8) (hf : cfg.nic.forwardToETH r = some f) :
    Slotted r ↔ fitsSlot f ∧ fitsSlot (cfg.node.handleRequest m (cfg.toNode f) stale).2 := by
  have hsmall : sizeofEth+sizeofIp+sizeofUdp+sizeofMemOp ≤ kNetSlot := by decide
  cases r with
  | writePosted => cases hf
  | read =>
    cases hf
    simp [Slotted, H2M.len, fitsSlot, Frame.length, NetMem.handleRequest, Config.toNode,
      MemNic.frame, NetMem.reply, hsmall]
  | write =>
    cases hf
    have hne : kH2MWrite ≠ kH2MRead := by decide
    simp [Slotted, H2M.len, fitsSlot, Frame.length, NetMem.handleRequest, Config.toNode,
      MemNic.frame, NetMem.reply, hne, hsmall]

end

/-! ## Runs of the composed system -/

def kept (reqs : List H2M) : List H2M := reqs.filter fun r => !r.posted

/-- The requests kept are, in order, those served, those on their way to the
node, those on their way to the switch and those at the host; local memory on
the ones served gives the memory and the completions, also those in flight. -/
structure Inv (cfg : Config) (m : Memory) (reqs : List H2M) (s : System)
    (served inMem inSwitch : List H2M) : Prop where
  split : kept reqs = served++(inMem++(inSwitch++kept s.host))
  fits : ∀ r ∈ served, Slotted r
  result : basicmem m served = (s.memory,s.completions++(s.toNic++s.fromMem).flatMap forwardToMEM)
  toSwitch : List.Forall₂ (fun r f => cfg.nic.forwardToETH r = some f ∧ fitsSlot f)
    inSwitch s.toSwitch
  toMem : List.Forall₂ (fun r f => ∃ g, cfg.nic.forwardToETH r = some g ∧ fitsSlot g ∧
    f = cfg.toNode g) inMem s.toMem
  replies : ∀ f ∈ s.fromMem, f.eth.dest = cfg.nic.mac ∧ f.eth.source = cfg.node.mac
  numPorts : s.switch.numPorts = 2
  table : s.switch.mapTable = cfg.table
  macs : cfg.Macs s.switch.macTable
  learned : s.toMem ≠ [] ∨ s.fromMem ≠ [] → s.switch.macTable.lookup cfg.nic.mac = some 0

def Reached (cfg : Config) (m : Memory) (reqs : List H2M) (s : System) : Prop :=
  ∃ served inMem inSwitch, Inv cfg m reqs s served inMem inSwitch

def System.weight (s : System) : ℕ :=
  5*s.host.length+4*s.toSwitch.length+3*s.toMem.length+2*s.fromMem.length+s.toNic.length

/-- A step that moves a message succeeds, unless a slot is too small for it. -/
def Moved (cfg : Config) (m : Memory) (reqs : List H2M) (s : System) : Option System → Prop
  | none => ∃ r ∈ kept reqs, ¬ Slotted r
  | some t => Reached cfg m reqs t ∧ t.weight < s.weight

section
variable {cfg : Config} {m : Memory} {reqs : List H2M} {s : System}

lemma start_reached (cfg : Config) (m : Memory) (reqs : List H2M) :
    ∃ s, start cfg m reqs = some s ∧ Reached cfg m reqs s := by
  refine ⟨_,rfl,[],[],[],rfl,by simp,rfl,.nil,.nil,by simp,rfl,rfl,?_,by simp⟩
  intro mac p hp
  cases hk : cfg.known with
  | false => simp [hk] at hp
  | true =>
    simp only [hk, if_true] at hp
    rw [Table.lookup_insert_ite] at hp
    split_ifs at hp with he
    · exact .inr ⟨he,(some.inj hp).symm⟩
    · simp at hp

variable (hreqs : ∀ r ∈ reqs, cfg.InRange r) (h : Reached cfg m reqs s)
include h

lemma nicH2M_moved {r : H2M} {rest : List H2M} (hq : s.host = r::rest) :
    Moved cfg m reqs s (step cfg (some s) .nicH2M) := by
  obtain ⟨served,inMem,inSwitch,h⟩ := h
  simp only [step, hq]
  cases hf : cfg.nic.forwardToETH r with
  | none =>
    have hp : kept s.host = kept rest := by
      cases r with
      | writePosted => simp [hq, kept, H2M.posted]
      | read reqId asId addr len | write reqId asId addr data => cases hf
    refine ⟨⟨served,inMem,inSwitch,{ h with split := hp ▸ h.split }⟩,?_⟩
    simp only [System.weight, hq, length_cons]
    omega
  | some =>
    have hp : kept s.host = r::kept rest := by
      cases r with
      | writePosted => cases hf
      | read reqId asId addr len | write reqId asId addr data => simp [hq, kept, H2M.posted]
    have hsplit := h.split
    rw [hp] at hsplit
    dsimp only
    split_ifs with hfit
    · refine ⟨⟨served,inMem,inSwitch++[r],
        { h with split := by simpa using hsplit, toSwitch := ?_ }⟩,?_⟩
      · exact rel_append h.toSwitch (.cons ⟨hf,hfit⟩ .nil)
      · simp only [System.weight, hq, length_cons, length_append, length_nil]
        omega
    · refine ⟨r,by simp [hsplit],?_⟩
      rw [slotted_iff m cfg.stale hf]
      exact fun hs => hfit hs.1

variable {rest : List Frame}

lemma switchMem_moved {f : Frame} (hq : s.fromMem = f::rest) :
    Moved cfg m reqs s (step cfg (some s) .switchMem) := by
  obtain ⟨served,inMem,inSwitch,h⟩ := h
  obtain ⟨hdest,hsource⟩ := h.replies f (by simp [hq])
  have hlearned := h.learned (.inr (by simp [hq]))
  simp only [step, hq, System.switched, switchPkt_reply s.switch hlearned hdest hsource,
    foldl_cons, foldl_nil, System.deliver, if_true]
  refine ⟨⟨served,inMem,inSwitch, { h with
      result := ?_
      replies := ?_
      macs := h.macs.insert_node
      learned := ?_ }⟩,?_⟩
  · simp [h.result, hq]
  · exact fun q hq' => h.replies q (by simp [hq, hq'])
  · intro _
    rw [Table.lookup_insert_ite, if_neg cfg.distinct, hlearned]
  · simp only [System.weight, hq, length_cons, length_append, length_nil]
    omega

lemma nicN2M_moved {f : Frame} (hq : s.toNic = f::rest) :
    Moved cfg m reqs s (step cfg (some s) .nicN2M) := by
  obtain ⟨served,inMem,inSwitch,h⟩ := h
  simp only [step, hq]
  refine ⟨⟨served,inMem,inSwitch,{ h with result := by simp [h.result, hq] }⟩,?_⟩
  simp only [System.weight, hq, length_cons]
  omega

include hreqs

lemma switchNic_moved {f : Frame} (hq : s.toSwitch = f::rest) :
    Moved cfg m reqs s (step cfg (some s) .switchNic) := by
  obtain ⟨served,inMem,_,h⟩ := h
  have hsw := h.toSwitch
  rw [hq] at hsw
  obtain ⟨r,rs,⟨hf,hfit⟩,hrs,rfl⟩ := forall₂_cons_right_iff.mp hsw
  have hr : cfg.InRange r := by
    have hmem : r ∈ kept reqs := by simp [h.split]
    exact hreqs r (mem_of_mem_filter hmem)
  simp only [step, hq, System.switched, switchPkt_request s.switch h.numPorts h.table h.macs hr hf,
    foldl_cons, foldl_nil, System.deliver]
  refine ⟨⟨served,inMem++[r],rs, { h with
      split := by simp [h.split]
      toSwitch := hrs
      toMem := ?_
      macs := h.macs.insert_nic
      learned := ?_ }⟩,?_⟩
  · exact rel_append h.toMem (.cons ⟨f,hf,hfit,rfl⟩ .nil)
  · intro _
    exact Finmap.lookup_insert _
  · simp only [System.weight, hq, length_cons, length_append, length_nil, Nat.one_ne_zero, if_false]
    omega

lemma netmem_moved {f : Frame} (hq : s.toMem = f::rest) :
    Moved cfg m reqs s (step cfg (some s) .netmem) := by
  obtain ⟨served,_,inSwitch,h⟩ := h
  have hmem := h.toMem
  rw [hq] at hmem
  obtain ⟨r,rs,⟨g,hg,hgfit,rfl⟩,hrs,rfl⟩ := forall₂_cons_right_iff.mp hmem
  have hkept : r ∈ kept reqs := by simp [h.split]
  obtain ⟨hx,hdest,hsource⟩ := handleRequest_request s.memory cfg.stale
    (hreqs r (mem_of_mem_filter hkept)) hg
  have hslot := slotted_iff s.memory cfg.stale hg
  have hlearned := h.learned (.inl (by simp [hq]))
  simp only [step, hq]
  generalize cfg.node.handleRequest s.memory (cfg.toNode g) cfg.stale = x at hx hdest hsource hslot
  split_ifs with hfit
  · refine ⟨⟨served++[r],rs,inSwitch, { h with
        split := by simp [h.split]
        fits := ?_
        result := ?_
        toMem := hrs
        replies := ?_
        learned := fun _ => hlearned }⟩,?_⟩
    · intro q hq
      rcases mem_append.mp hq with hq | hq
      · exact h.fits q hq
      · obtain rfl := mem_singleton.mp hq
        exact hslot.mpr ⟨hgfit,hfit⟩
    · simp [basicmem_append, h.result, basicmem, ← hx, append_assoc]
    · intro q hq
      rcases mem_append.mp hq with hq | hq
      · exact h.replies q hq
      · obtain rfl := mem_singleton.mp hq
        exact ⟨hdest,hsource⟩
    · simp only [System.weight, hq, length_cons, length_append, length_nil]
      omega
  · exact ⟨r,hkept,fun hs => hfit (hslot.mp hs).2⟩

lemma step_moved (e : Event) :
    step cfg (some s) e = some s ∨ Moved cfg m reqs s (step cfg (some s) e) := by
  cases e with
  | nicH2M =>
    cases hq : s.host with
    | nil => exact .inl (by simp [step, hq])
    | cons => exact .inr (nicH2M_moved h hq)
  | switchNic =>
    cases hq : s.toSwitch with
    | nil => exact .inl (by simp [step, hq])
    | cons => exact .inr (switchNic_moved hreqs h hq)
  | netmem =>
    cases hq : s.toMem with
    | nil => exact .inl (by simp [step, hq])
    | cons => exact .inr (netmem_moved hreqs h hq)
  | switchMem =>
    cases hq : s.fromMem with
    | nil => exact .inl (by simp [step, hq])
    | cons => exact .inr (switchMem_moved h hq)
  | nicN2M =>
    cases hq : s.toNic with
    | nil => exact .inl (by simp [step, hq])
    | cons => exact .inr (nicN2M_moved h hq)

/-- Until everything is answered, some simulator has a message to move. -/
lemma quiet_or_moved : s.Quiet ∨ ∃ e, Moved cfg m reqs s (step cfg (some s) e) := by
  cases hq1 : s.host with
  | cons => exact .inr ⟨_,nicH2M_moved h hq1⟩
  | nil =>
  cases hq2 : s.toSwitch with
  | cons => exact .inr ⟨_,switchNic_moved hreqs h hq2⟩
  | nil =>
  cases hq3 : s.toMem with
  | cons => exact .inr ⟨_,netmem_moved hreqs h hq3⟩
  | nil =>
  cases hq4 : s.fromMem with
  | cons => exact .inr ⟨_,switchMem_moved h hq4⟩
  | nil =>
  cases hq5 : s.toNic with
  | cons => exact .inr ⟨_,nicN2M_moved h hq5⟩
  | nil => exact .inl ⟨hq1,hq2,hq3,hq4,hq5⟩

omit h hreqs

/-- What a run can come to: a message too long for its slot, or a state of the invariant. -/
def Sound (cfg : Config) (m : Memory) (reqs : List H2M) : Option System → Prop
  | none => ∃ r ∈ kept reqs, ¬ Slotted r
  | some s => Reached cfg m reqs s

lemma Moved.sound {x : Option System} (h : Moved cfg m reqs s x) : Sound cfg m reqs x := by
  cases x with
  | none => exact h
  | some => exact h.1

lemma run_sound (hreqs : ∀ r ∈ reqs, cfg.InRange r) (es : List Event) :
    Sound cfg m reqs (run (step cfg) (start cfg m reqs) es) := by
  have hstep : ∀ x e, Sound cfg m reqs x → True → Sound cfg m reqs (step cfg x e) := by
    intro x e hx _
    cases x with
    | none => exact hx
    | some =>
      rcases step_moved hreqs hx e with heq | hmoved
      · rw [heq]
        exact hx
      · exact hmoved.sound
  obtain ⟨s,hs,hr⟩ := start_reached cfg m reqs
  refine run_invariant hstep ?_ (along_always (I := fun _ => True) (by simp) (by simp) trivial es)
  rw [hs]
  exact hr

/-- Where everything is answered, all requests but the posted writes were served. -/
lemma Reached.quiet (h : Reached cfg m reqs s) (hq : s.Quiet) :
    (∀ r ∈ kept reqs, Slotted r) ∧ (s.memory,s.completions) = basicmem m (kept reqs) := by
  obtain ⟨served,_,_,h⟩ := h
  obtain ⟨hhost,hsw,hmem,hfrom,hnic⟩ := hq
  have hsw' := h.toSwitch
  have hmem' := h.toMem
  rw [hsw, forall₂_nil_right_iff] at hsw'
  rw [hmem, forall₂_nil_right_iff] at hmem'
  have hserved : kept reqs = served := by
    simpa [hsw', hmem', hhost, kept] using h.split
  rw [hserved, h.result, hfrom, hnic]
  exact ⟨h.fits,by simp⟩

lemma exists_quiet_run (hreqs : ∀ r ∈ reqs, cfg.InRange r) (hfits : ∀ r ∈ kept reqs, Slotted r) :
    ∃ es s, run (step cfg) (start cfg m reqs) es = some s ∧ s.Quiet := by
  have hnone : ¬ Sound cfg m reqs none := fun ⟨r,hr,hbad⟩ => hbad (hfits r hr)
  let weight (x : Option System) : ℕ := x.elim 0 System.weight
  have hdrain : ∀ x, Sound cfg m reqs x → (∃ s, x = some s ∧ s.Quiet) ∨
      ∃ e, Sound cfg m reqs (step cfg x e) ∧ weight (step cfg x e) < weight x := by
    intro x hx
    cases x with
    | none => exact absurd hx hnone
    | some s =>
      rcases quiet_or_moved hreqs hx with hq | ⟨e,he⟩
      · exact .inl ⟨s,rfl,hq⟩
      · refine .inr ⟨e,he.sound,?_⟩
        cases hstep : step cfg (some s) e with
        | none => exact absurd (hstep ▸ he).sound hnone
        | some =>
          rw [hstep] at he
          exact he.2
  obtain ⟨es,-,s,hs,hq⟩ := exists_run_of_decreasing weight hdrain (run_sound hreqs [])
  exact ⟨es,s,hs,hq⟩

/-- Network-attached memory refines local memory exactly on the sequences
whose requests fit the network's slots and whose posted writes make no
difference to local memory. -/
theorem refines_iff (cfg : Config) (m : Memory) (reqs : List H2M)
    (hreqs : ∀ r ∈ reqs, cfg.InRange r) :
    Refines cfg m reqs ↔
      (∀ r ∈ kept reqs, Slotted r) ∧ basicmem m (kept reqs) = basicmem m reqs := by
  constructor
  · rintro ⟨hall,es,s,hs,hquiet⟩
    have hreached := run_sound (m := m) hreqs es
    rw [hs] at hreached
    obtain ⟨hfits,hresult⟩ := hreached.quiet hquiet
    obtain ⟨t,ht,himp⟩ := hall es
    cases hs.symm.trans ht
    exact ⟨hfits,hresult ▸ himp hquiet⟩
  · rintro ⟨hfits,hsame⟩
    have hnone : ¬ Sound cfg m reqs none := fun ⟨r,hr,hbad⟩ => hbad (hfits r hr)
    refine ⟨fun es => ?_,?_⟩
    · have hsound := run_sound (m := m) hreqs es
      cases hrun : run (step cfg) (start cfg m reqs) es with
      | none => exact absurd (hrun ▸ hsound) hnone
      | some s =>
        rw [hrun] at hsound
        exact ⟨s,rfl,fun hq => (hsound.quiet hq).2.trans hsame⟩
    · exact exists_quiet_run hreqs hfits

end

def onePageMemory : Config where
  nic := ⟨⟨#[2,0,0,0,0,1],by decide⟩,0x0a000001,1,2⟩
  node := ⟨⟨#[2,0,0,0,0,2],by decide⟩,0x0a000002⟩
  asId := 1
  size := 0x1000
  table := [⟨1,0,0xfff,⟨#[2,0,0,0,0,2],by decide⟩,0⟩]
  stale := 0
  known := false
  nicUnicast := by unfold Unicast; decide
  nodeUnicast := by unfold Unicast; decide
  distinct := by decide
  identity := by
    intro op hid haddr
    have hle : op.addr ≤ 0xfff := UInt64.le_iff_toNat_le.mpr (Nat.le_of_lt_succ haddr)
    exact ⟨⟨1,0,0xfff,#v[2,0,0,0,0,2],0⟩,by simp [TableEntry.contains, hid, hle],rfl,rfl⟩

/-- A write and a read of the byte written refine local memory. -/
theorem refines_iff_write_read :
    Refines onePageMemory (fun _ => 0) [.write 3 1 8 [5],.read 7 1 8 1] :=
  (refines_iff onePageMemory _ _ (by
    simp only [mem_cons, not_mem_nil, or_false, forall_eq_or_imp, forall_eq]
    exact ⟨⟨rfl,by decide,by decide,by decide⟩,⟨rfl,by decide,by decide,by decide⟩⟩)).mpr
    ⟨by
      simp only [kept, H2M.posted, Bool.not_false, filter_cons_of_pos, filter_nil,
        mem_cons, not_mem_nil, or_false, forall_eq_or_imp, forall_eq, Slotted]
      decide,rfl⟩

/-- A posted write goes missing, so a read of the byte written returns what was
there before. A read of 1431 bytes has an answer longer than its slot. -/
theorem posted_write_lost :
    (∀ r ∈ [H2M.writePosted 0 1 8 [5],.read 7 1 8 1,.read 9 1 8 1431], onePageMemory.InRange r) ∧
    ¬ Refines onePageMemory (fun _ => 0) [.writePosted 0 1 8 [5],.read 7 1 8 1] ∧
    ¬ Refines onePageMemory (fun _ => 0) [.read 9 1 8 1431] := by
  refine ⟨?_,fun h => ?_,fun h => ?_⟩
  · simp only [mem_cons, not_mem_nil, or_false, forall_eq_or_imp, forall_eq]
    exact ⟨⟨rfl,by decide,by decide,by decide⟩,⟨rfl,by decide,by decide,by decide⟩,
      ⟨rfl,by decide,by decide,by decide⟩⟩
  · obtain ⟨s,hs,himp⟩ := h.1 [.nicH2M,.nicH2M,.switchNic,.netmem,.switchMem,.nicN2M]
    have hend : (s.host = [] ∧ s.toSwitch = [] ∧ s.toMem = [] ∧ s.fromMem = [] ∧ s.toNic = []) ∧
        s.completions = [.readcomp 7 [0]] := by
      have hrun : (run (step onePageMemory) (start onePageMemory (fun _ => 0)
          [.writePosted 0 1 8 [5],.read 7 1 8 1])
          [.nicH2M,.nicH2M,.switchNic,.netmem,.switchMem,.nicN2M]).all (fun s =>
            decide ((s.host = [] ∧ s.toSwitch = [] ∧ s.toMem = [] ∧ s.fromMem = [] ∧
              s.toNic = []) ∧ s.completions = [.readcomp 7 [0]])) := by decide +kernel
      rw [hs] at hrun
      exact of_decide_eq_true hrun
    have hcomp : s.completions = [.readcomp 7 [5]] := congrArg Prod.snd (himp hend.1)
    rw [hend.2] at hcomp
    cases hcomp
  · obtain ⟨s,hs,-⟩ := h.1 [.nicH2M,.switchNic,.netmem]
    have hrun : (run (step onePageMemory) (start onePageMemory (fun _ => 0)
      [.read 9 1 8 1431]) [.nicH2M,.switchNic,.netmem]).isNone := by decide +kernel
    rw [hs] at hrun
    cases hrun

end SimBricks.NetworkMemory
