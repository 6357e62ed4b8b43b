import SimBricks.Library.Table
import SimBricks.Mem.NetProto

/-!
# The memory switch of `memswitch.cc`

A frame whose destination the switch knows is forwarded as it is. Any other
frame is looked up in the mapping table by its address space and address, and
goes to the memory node of the first window that contains the address. Ends
of windows are inclusive, as the lookup compares them.
-/

set_option autoImplicit false

namespace SimBricks.MemSwitch
open Library NetProto List

structure TableEntry where
  asId : UInt64
  vaddrStart : UInt64
  vaddrEnd : UInt64
  nodeMac : Mac
  physStart : UInt64
  deriving DecidableEq, Repr

structure Switch where
  numPorts : ℕ
  mapTable : List TableEntry
  macTable : Table Mac ℕ

/-- The initializer gives the first octet only. -/
def bcastAddr : Mac := #v[0xFF,0,0,0,0,0]

def TableEntry.contains (e : TableEntry) (op : MemOp) : Bool :=
  op.asId = e.asId && e.vaddrStart ≤ op.addr && op.addr ≤ e.vaddrEnd

def TableEntry.physAddr (e : TableEntry) (addr : UInt64) : UInt64 := e.physStart+(addr-e.vaddrStart)

def TableEntry.translate (e : TableEntry) (f : Frame) : Frame := { f with
    memop := { f.memop with addr := e.physAddr f.memop.addr }
    eth := { f.eth with dest := e.nodeMac } }

namespace Switch

def learn (s : Switch) (src : Mac) (iport : ℕ) : Switch :=
  if src = bcastAddr then s else { s with macTable := s.macTable.insert src iport }

def find (s : Switch) (op : MemOp) : Option TableEntry := s.mapTable.find? (·.contains op)

def forward (s : Switch) (iport : ℕ) (f : Frame) : List (ℕ × Frame) :=
  match s.macTable.lookup f.eth.dest with
  | some eport => if eport = iport then [] else [(eport,f)]
  | none => ((range s.numPorts).filter (· ≠ iport)).map (·,f)

def switchPkt (s : Switch) (iport : ℕ) (f : Frame) : Switch × List (ℕ × Frame) :=
  let s := s.learn f.eth.source iport
  match s.macTable.lookup f.eth.dest with
  | some eport => (s,if eport = iport then [] else [(eport,f)])
  | none =>
    match s.find f.memop with
    | some e => (s,s.forward iport (e.translate f))
    | none => (s,[])

def translation (s : Switch) (iport : ℕ) (f : Frame) : Option TableEntry :=
  match (s.learn f.eth.source iport).macTable.lookup f.eth.dest with
  | some _ => none
  | none => s.find f.memop

end Switch

/-! Byte ranges, counted without a bound. -/

def TableEntry.Covers (e : TableEntry) (op : MemOp) : Prop :=
  ∀ k < op.len.toNat, e.vaddrStart.toNat ≤ op.addr.toNat+k ∧ op.addr.toNat+k ≤ e.vaddrEnd.toNat

def TableEntry.Holds (e : TableEntry) (byte : ℕ) : Prop := e.physStart.toNat ≤ byte ∧
  byte ≤ e.physStart.toNat+(e.vaddrEnd.toNat-e.vaddrStart.toNat)

/-- `nodes` says which memory node sits at a port; it serves whatever arrives
there. A translated request is covered by the window it was found in, arrives
at the node of that window only and stays in its physical bytes. A request that
arrives without translation touches physical bytes of its own address space. -/
def Isolated (nodes : ℕ → Option Mac) (s : Switch) (iport : ℕ) (f : Frame) : Prop :=
  ∀ x ∈ (s.switchPkt iport f).2, ∀ node ∈ nodes x.1,
    match s.translation iport f with
    | some e => e ∈ s.mapTable ∧ e.asId = f.memop.asId ∧ e.Covers f.memop ∧
        ∀ k < x.2.memop.len.toNat, e.nodeMac = node ∧ e.Holds (x.2.memop.addr.toNat+k)
    | none => ∀ k < x.2.memop.len.toNat, ∃ e ∈ s.mapTable, e.asId = f.memop.asId ∧
        e.nodeMac = node ∧ e.Holds (x.2.memop.addr.toNat+k)

/-- The request is empty, or it ends in the window and its start is not taken
round the end of the physical addresses. -/
def TableEntry.Fits (e : TableEntry) (op : MemOp) : Prop :=
  op.len = 0 ∨ (op.addr.toNat+op.len.toNat ≤ e.vaddrEnd.toNat+1 ∧
    e.physStart.toNat+(op.addr.toNat-e.vaddrStart.toNat) < 2^64)

/-- The ports by which a frame for `mac` leaves. -/
def Switch.egress (s : Switch) (iport : ℕ) (mac : Mac) : List ℕ :=
  match s.macTable.lookup mac with
  | some eport => if eport = iport then [] else [eport]
  | none => (range s.numPorts).filter (· ≠ iport)

/-- A request that is translated fits the window it is found in, and no other
memory node sits where it leaves; one that is not translated stays in its own
physical bytes of the node where it leaves. -/
def Safe (nodes : ℕ → Option Mac) (s : Switch) (iport : ℕ) (f : Frame) : Prop :=
  let learned := s.learn f.eth.source iport
  match s.translation iport f with
  | some e => ∀ eport ∈ learned.egress iport e.nodeMac, ∀ node ∈ nodes eport,
      e.Fits f.memop ∧ (f.memop.len = 0 ∨ e.nodeMac = node)
  | none => f.eth.dest ∈ learned.macTable →
      ∀ eport ∈ learned.egress iport f.eth.dest, ∀ node ∈ nodes eport,
        ∀ k < f.memop.len.toNat, ∃ e ∈ s.mapTable,
          e.asId = f.memop.asId ∧ e.nodeMac = node ∧ e.Holds (f.memop.addr.toNat+k)

namespace Switch

@[simp] lemma learn_mapTable (s : Switch) (src : Mac) (iport : ℕ) :
    (s.learn src iport).mapTable = s.mapTable := by
  unfold learn
  split_ifs <;> rfl

lemma forward_eq (s : Switch) (iport : ℕ) (f : Frame) :
    s.forward iport f = (s.egress iport f.eth.dest).map (·,f) := by
  unfold forward egress
  split
  · split_ifs <;> rfl
  · rfl

lemma switchPkt_out (s : Switch) (iport : ℕ) (f : Frame) : (s.switchPkt iport f).2 =
    match s.translation iport f with
    | some e => (s.learn f.eth.source iport).forward iport (e.translate f)
    | none => if f.eth.dest ∈ (s.learn f.eth.source iport).macTable then
        (s.learn f.eth.source iport).forward iport f else [] := by
  unfold switchPkt translation
  dsimp only
  have hfind : (s.learn f.eth.source iport).find f.memop = s.find f.memop := by
    simp [find]
  cases hl : (s.learn f.eth.source iport).macTable.lookup f.eth.dest with
  | some =>
    have hm := Finmap.mem_of_lookup_eq_some hl
    simp [forward, hl, hm]
  | none =>
    have hm := Finmap.lookup_eq_none.mp hl
    rw [hfind]
    cases s.find f.memop with
    | some => rfl
    | none => simp [hm]

lemma switchPkt_state (s : Switch) (iport : ℕ) (f : Frame) :
    (s.switchPkt iport f).1 = s.learn f.eth.source iport := by
  unfold switchPkt
  dsimp only
  split
  · rfl
  · split <;> rfl

lemma switchPkt_known {s : Switch} {iport eport : ℕ} {f : Frame}
    (h : (s.learn f.eth.source iport).macTable.lookup f.eth.dest = some eport) :
    s.switchPkt iport f =
    (s.learn f.eth.source iport,if eport = iport then [] else [(eport,f)]) := by
  unfold switchPkt
  simp only [h]

lemma translation_of_unknown {s : Switch} {iport : ℕ} {f : Frame}
    (h : (s.learn f.eth.source iport).macTable.lookup f.eth.dest = none) :
    s.translation iport f = s.find f.memop := by
  unfold translation
  rw [h]

end Switch

/-- For the entry a request is found in, staying inside both windows is
fitting. -/
lemma TableEntry.inside_iff (e : TableEntry) (op : MemOp) (h : e.contains op) :
    (e.Covers op ∧ ∀ k < op.len.toNat, e.Holds ((e.physAddr op.addr).toNat+k)) ↔ e.Fits op := by
  simp only [contains, Bool.and_eq_true, decide_eq_true_eq] at h
  obtain ⟨⟨-,hlow⟩,hhigh⟩ := h
  have hlow' := UInt64.le_iff_toNat_le.mp hlow
  have hhigh' := UInt64.le_iff_toNat_le.mp hhigh
  have hphys : (e.physAddr op.addr).toNat =
      (e.physStart.toNat+(op.addr.toNat-e.vaddrStart.toNat)) % 2^64 := by
    rw [physAddr, UInt64.toNat_add, UInt64.toNat_sub_of_le _ _ hlow]
  have ha := op.addr.toNat_lt
  have hp := e.physStart.toNat_lt
  have hzero : op.len = 0 ↔ op.len.toNat = 0 := by
    rw [← UInt16.toNat_inj]
    rfl
  rw [hphys, Fits, hzero]
  constructor
  · rintro ⟨hc,hh⟩
    by_cases hl : op.len.toNat = 0
    · exact .inl hl
    · have hfirst := (hh 0 (by omega)).1
      have hlast := (hc (op.len.toNat-1) (by omega)).2
      exact .inr ⟨by omega,by omega⟩
  · rintro (hl | ⟨_,hwrap⟩)
    · exact ⟨fun k hk => absurd hk (by omega),fun k hk => absurd hk (by omega)⟩
    · rw [Nat.mod_eq_of_lt hwrap]
      constructor
      · intro k hk
        omega
      · intro k hk
        constructor
        · omega
        · omega

lemma Switch.find_of_translation {s : Switch} {iport : ℕ} {f : Frame} {e : TableEntry}
    (h : s.translation iport f = some e) : s.find f.memop = some e := by
  unfold translation at h
  split at h
  · cases h
  · exact h

/-- For every table, every state of the switch, every frame and every placement
of the memory nodes. -/
theorem isolated_iff (nodes : ℕ → Option Mac) (s : Switch) (iport : ℕ) (f : Frame) :
    Isolated nodes s iport f ↔ Safe nodes s iport f := by
  unfold Isolated Safe
  rw [s.switchPkt_out]
  dsimp only
  cases ht : s.translation iport f with
  | some e =>
    have hfind := Switch.find_of_translation ht
    have hmem := mem_of_find?_eq_some hfind
    have hcon := find?_some hfind
    have hid : e.asId = f.memop.asId := by
      simp only [TableEntry.contains, Bool.and_eq_true, decide_eq_true_eq] at hcon
      exact hcon.1.1.symm
    have hone : ∀ node, (e ∈ s.mapTable ∧ e.asId = f.memop.asId ∧ e.Covers f.memop ∧
        ∀ k < f.memop.len.toNat, e.nodeMac = node ∧ e.Holds ((e.physAddr f.memop.addr).toNat+k)) ↔
        e.Fits f.memop ∧ (f.memop.len = 0 ∨ e.nodeMac = node) := by
      intro node
      rw [← e.inside_iff f.memop hcon, or_iff_not_imp_left]
      constructor
      · rintro ⟨-,-,hc,hk⟩
        refine ⟨⟨hc,fun k h => (hk k h).2⟩,fun h => (hk 0 ?_).1⟩
        exact Nat.pos_of_ne_zero fun h0 => h (UInt16.toNat_inj.mp h0)
      · rintro ⟨⟨hc,hk⟩,hnode⟩
        exact ⟨hmem,hid,hc,fun k h => ⟨hnode fun h0 => by simp [h0] at h,hk k h⟩⟩
    simp only [Switch.forward_eq, forall_mem_map]
    exact forall₂_congr fun eport _ => forall₂_congr fun node _ => hone node
  | none =>
    split_ifs with hm
    · simp only [Switch.forward_eq, forall_mem_map, hm, forall_const]
    · simp [hm]

def onePage : TableEntry := ⟨1,0x1000,0x1fff,#v[2,0,0,0,0,1],0⟩

def onePageSwitch : Switch := ⟨2,[onePage],Finmap.insert #v[2,0,0,0,0,1] 1 ∅⟩

/-- A read of 64 bytes that starts 8 bytes before the end of the page. -/
def crossing : Frame where
  eth := ⟨#v[0xff,0xff,0xff,0xff,0xff,0xff],#v[2,0,0,0,0,2],htons 0x0800⟩
  ip := ⟨0,0xffffffff,htons 92⟩
  udp := ⟨0,0,72⟩
  memop := ⟨kH2MRead,7,0x1ff8,64,1⟩
  data := []

/-- The page is on the node at port 1. -/
def nodeAtOne (port : ℕ) : Option Mac := if port = 1 then some onePage.nodeMac else none

/-- It is translated and forwarded with its length: the memory node reads 56
bytes behind the only window of the address space. -/
theorem request_leaves_window :
    (onePageSwitch.switchPkt 0 crossing).2 = [(1,onePage.translate crossing)] ∧
    (onePage.translate crossing).memop.addr = 0xff8 ∧
    ¬ Isolated nodeAtOne onePageSwitch 0 crossing := by
  have hout : (onePageSwitch.switchPkt 0 crossing).2 = [(1,onePage.translate crossing)] := by
    decide +kernel
  refine ⟨hout,by decide +kernel,fun h => ?_⟩
  have hx := h (1,onePage.translate crossing) (hout ▸ mem_singleton_self _) onePage.nodeMac rfl
  have hlast := (hx.2.2.1 8 (by decide)).2
  exact absurd hlast (by decide +kernel)

end SimBricks.MemSwitch
