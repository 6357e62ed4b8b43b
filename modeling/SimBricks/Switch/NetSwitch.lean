import SimBricks.Library.Run
import SimBricks.Mem.NetProto

/-!
# The learning switch of `net_switch.cc`

The keys of the address table are pointers into the receive rings of the
ports. A slot is used again for later frames, so what a key stands for can
change after it was inserted. The table keeps the hash of a key from its
insertion and compares it, then the bytes the key points to now.
-/

set_option autoImplicit false

namespace SimBricks.NetSwitch
open Library Library.Run NetProto List Function Option

structure Frame where
  dest : Mac
  source : Mac
  payload : List UInt8
  deriving DecidableEq, Repr

inductive Kind where
  | packet | sync
  deriving DecidableEq, Repr

structure Slot where
  kind : Kind
  frame : Frame
  deriving DecidableEq, Repr

/-- The receive ring of a port: slots written and slots handed back so far. -/
structure Ring where
  slots : ℕ → Slot
  tail : ℕ := 0
  head : ℕ := 0

/-- Ports, the sizes of their rings, and which entries a search in the table
meets: at least those inserted with the hash that is searched. -/
structure Config where
  ports : ℕ
  size : Fin ports → ℕ
  visits : UInt64 → UInt64 → Bool
  visits_self : ∀ h, visits h h

variable (c : Config)

structure Node where
  key : Fin c.ports × ℕ
  hash : UInt64
  value : Fin c.ports

/-- With the source addresses and ports of the frames received, latest first. -/
structure World where
  ring : Fin c.ports → Ring
  macTable : List (Node c) := []
  seen : List (Mac × Fin c.ports) := []

inductive Event where
  | packet (p : Fin c.ports) (f : Frame)
  | sync (p : Fin c.ports)
  | poll (p : Fin c.ports)

/-- The initializer gives the first octet only. -/
def bcastAddr : Mac := ⟨#[0xFF,0,0,0,0,0],by decide⟩

def hash (m : Mac) : UInt64 := m.toList.foldl (fun res b => (res <<< 4) ||| (res ^^^ b.toUInt64)) 0

variable {c}

namespace World

def read (w : World c) (key : Fin c.ports × ℕ) : Mac := ((w.ring key.1).slots key.2).frame.source

def found (w : World c) (m : Mac) (x : Node c) : Bool :=
  c.visits (hash m) x.hash && w.read x.key = m

def find (w : World c) (m : Mac) : Option (Fin c.ports) :=
  (w.macTable.find? (w.found m)).map Node.value

def assign (w : World c) (key : Fin c.ports × ℕ) (port : Fin c.ports) : World c :=
  { w with macTable :=
      match w.macTable.findIdx? (w.found (w.read key)) with
      | some i => w.macTable.modify i fun x => { x with value := port }
      | none => ⟨key,hash (w.read key),port⟩::w.macTable }

def learn (w : World c) (key : Fin c.ports × ℕ) (port : Fin c.ports) : World c :=
  if w.read key = bcastAddr then w else w.assign key port

end World

def flood (p : Fin c.ports) (f : Frame) : List (Fin c.ports × Frame) :=
  ((finRange c.ports).filter (· ≠ p)).map (·,f)

def forward (port : Option (Fin c.ports)) (p : Fin c.ports) (f : Frame) :
    List (Fin c.ports × Frame) :=
  match port with
  | some q => if q = p then [] else [(q,f)]
  | none => flood p f

namespace World

def rxPacket (w : World c) (p : Fin c.ports) : Option (ℕ × Slot) :=
  if (w.ring p).head = (w.ring p).tail then none
  else
    let i := (w.ring p).head % c.size p
    some (i,(w.ring p).slots i)

def rxDone (w : World c) (p : Fin c.ports) : World c :=
  { w with ring := update w.ring p { w.ring p with head := (w.ring p).head+1 } }

def switchPkt (w : World c) (p : Fin c.ports) : World c × List (Fin c.ports × Frame) :=
  match w.rxPacket p with
  | none => (w,[])
  | some (_,⟨.sync,_⟩) => (w.rxDone p,[])
  | some (i,⟨.packet,f⟩) =>
    let w := { w.learn (p,i) p with seen := (f.source,p)::w.seen }
    (w.rxDone p,forward (w.find f.dest) p f)

/-- A synchronisation message leaves the packet bytes of its slot. -/
def write (w : World c) (p : Fin c.ports) (f : Option Frame) : World c :=
  let r := w.ring p
  if r.tail < r.head+c.size p then
    let i := r.tail % c.size p
    let s := match f with
      | some f => ⟨.packet,f⟩
      | none => { r.slots i with kind := .sync }
    let r := { r with slots := update r.slots i s, tail := r.tail+1 }
    { w with ring := update w.ring p r }
  else w

def step (w : World c) : Event c → World c
  | .packet p f => w.write p (some f)
  | .sync p => w.write p none
  | .poll p => (w.switchPkt p).1

def incoming (w : World c) (p : Fin c.ports) : Option Frame :=
  match w.rxPacket p with
  | some (_,⟨.packet,f⟩) => some f
  | _ => none

end World

/-! ## Where a frame should go -/

/-- The group bit of the first octet is clear. -/
def unicast (m : Mac) : Bool := m.head &&& 1 = 0

def lastPort (seen : List (Mac × Fin c.ports)) (m : Mac) : Option (Fin c.ports) :=
  (seen.find? (·.1 = m)).map Prod.snd

/-- By the frames seen, this one included. -/
def expected (seen : List (Mac × Fin c.ports)) (p : Fin c.ports) (f : Frame) :
    List (Fin c.ports × Frame) :=
  forward (if unicast f.dest then lastPort seen f.dest else none) p f

def Forwards (w : World c) : Event c → Prop
  | .poll p => ∀ f ∈ w.incoming p, (w.switchPkt p).2 = expected ((f.source,p)::w.seen) p f
  | _ => True

/-- Sources are unicast addresses, and a slot that a key of the table points
to is written with the same source address again. -/
def Steady (w : World c) : Event c → Prop
  | .packet p f => ∀ x ∈ w.macTable, x.key = (p,(w.ring p).tail % c.size p) →
      f.source = w.read x.key
  | .sync _ => True
  | .poll p => ∀ f ∈ w.incoming p, unicast f.source

instance : ∀ (w : World c) (e : Event c), Decidable (Forwards w e)
  | _, .packet _ _ => .isTrue trivial
  | _, .sync _ => .isTrue trivial
  | w, .poll p => inferInstanceAs (Decidable (∀ f ∈ w.incoming p, _))

instance : ∀ (w : World c) (e : Event c), Decidable (Steady w e)
  | w, .packet _ _ => inferInstanceAs (Decidable (∀ x ∈ w.macTable, _))
  | _, .sync _ => .isTrue trivial
  | w, .poll p => inferInstanceAs (Decidable (∀ f ∈ w.incoming p, _))

/-! ## The table as the ports last seen -/

section
variable {α : Type*} {found other : α → Bool} {g : α → α} {l : List α} {i : ℕ}

lemma find?_modify (hg : ∀ x, found (g x) = found x) (h : l.findIdx? found = some i) :
    ∃ x, (l.modify i g).find? found = some (g x) := by
  induction l generalizing i with
  | nil => simp at h
  | cons x l ih =>
    rw [findIdx?_cons] at h
    cases hx : found x with
    | true =>
      obtain rfl : 0 = i := by simpa [hx] using h
      exact ⟨x,by simp [hg, hx]⟩
    | false =>
      obtain ⟨j,hj,rfl⟩ : ∃ j, l.findIdx? found = some j ∧ j+1 = i := by simpa [hx] using h
      simpa [hx] using ih hj

lemma find?_modify_other (hg : ∀ x, other (g x) = other x) (h : l.findIdx? found = some i)
    (hne : ∀ x, found x → other x = false) : (l.modify i g).find? other = l.find? other := by
  induction l generalizing i with
  | nil => simp at h
  | cons x l ih =>
    rw [findIdx?_cons] at h
    cases hx : found x with
    | true =>
      obtain rfl : 0 = i := by simpa [hx] using h
      simp [hg, hne x hx]
    | false =>
      obtain ⟨j,hj,rfl⟩ : ∃ j, l.findIdx? found = some j ∧ j+1 = i := by simpa [hx] using h
      rw [modify_succ_cons, find?_cons, find?_cons, ih hj]

end

variable {w : World c}

open World

lemma find_assign (w : World c) (key : Fin c.ports × ℕ) (port : Fin c.ports) (m : Mac) :
    (w.assign key port).find m = if m = w.read key then some port else w.find m := by
  have hfound : (w.assign key port).found = w.found := rfl
  unfold find
  rw [hfound]
  unfold assign
  cases hi : w.macTable.findIdx? (w.found (w.read key)) with
  | none =>
    by_cases hm : m = w.read key
    · simp [found, hm, c.visits_self]
    · simp [found, hm, Ne.symm hm]
  | some =>
    dsimp only
    by_cases hm : m = w.read key
    · obtain ⟨x,hx⟩ := find?_modify (g := fun x => { x with value := port }) (fun _ => rfl) hi
      rw [if_pos hm, hm, hx]
      rfl
    · rw [if_neg hm, find?_modify_other (g := fun x => { x with value := port }) (fun _ => rfl) hi]
      intro x hx
      have hread : w.read x.key = w.read key := by
        have h := (Bool.and_eq_true_iff.mp hx).2
        simpa using h
      simp [found, hread, Ne.symm hm]

structure Inv (w : World c) : Prop where
  table : ∀ m, w.find m = lastPort w.seen m
  sources : ∀ x ∈ w.seen, unicast x.1

lemma lastPort_cons (seen : List (Mac × Fin c.ports)) (m s : Mac) (p : Fin c.ports) :
    lastPort ((s,p)::seen) m = if m = s then some p else lastPort seen m := by
  unfold lastPort
  rw [find?_cons]
  by_cases h : m = s
  · simp [h]
  · simp [h, Ne.symm h]

lemma Inv.lastPort_eq (h : Inv w) {m : Mac} (hm : unicast m = false) :
    lastPort w.seen m = none := by
  unfold lastPort
  rw [map_eq_none_iff, find?_eq_none]
  intro x hx heq
  have heq : x.1 = m := by simpa using heq
  exact absurd (heq ▸ h.sources x hx) (by simp [hm])

variable {p : Fin c.ports}

lemma Inv.learn (h : Inv w) {i : ℕ} (hu : unicast (w.read (p,i))) :
    Inv { w.learn (p,i) p with seen := (w.read (p,i),p)::w.seen } := by
  have hne : w.read (p,i) ≠ bcastAddr := by
    intro heq
    rw [heq] at hu
    cases hu
  constructor
  · intro m
    have hfind : World.find { w.learn (p,i) p with seen := (w.read (p,i),p)::w.seen } m =
        (w.assign (p,i) p).find m := by
      unfold World.learn
      rw [if_neg hne]
      rfl
    rw [hfind, find_assign, lastPort_cons, h.table]
  · intro x hx
    rcases mem_cons.mp hx with rfl | hx
    · exact hu
    · exact h.sources x hx

lemma Inv.forward_eq (h : Inv w) (p : Fin c.ports) (f : Frame) :
    forward (w.find f.dest) p f = expected w.seen p f := by
  unfold expected
  rw [h.table]
  cases hu : unicast f.dest with
  | true => rfl
  | false => rw [h.lastPort_eq hu]; rfl

lemma Inv.of_read (h : Inv w) {ring : Fin c.ports → Ring}
    (hread : ∀ x ∈ w.macTable, read { w with ring := ring } x.key = w.read x.key) :
    Inv { w with ring := ring } := by
  refine ⟨fun m => ?_,h.sources⟩
  rw [← h.table]
  unfold find
  congr 1
  refine find?_congr fun x hx => ?_
  unfold found
  rw [hread x hx]

lemma Inv.rxDone (h : Inv w) (p : Fin c.ports) : Inv (w.rxDone p) := by
  refine h.of_read fun x _ => ?_
  unfold World.read
  dsimp only
  rw [update_apply]
  split_ifs with hp
  · rw [hp]
  · rfl

lemma Inv.write (h : Inv w) (p : Fin c.ports) (f : Option Frame)
    (hf : ∀ g, f = some g → ∀ x ∈ w.macTable, x.key = (p,(w.ring p).tail % c.size p) →
      g.source = w.read x.key) : Inv (w.write p f) := by
  unfold World.write
  dsimp only
  split_ifs with hfree
  · refine h.of_read fun x hx => ?_
    by_cases hkey : x.key = (p,(w.ring p).tail % c.size p)
    · have hsame : (match f with
          | some f => (⟨.packet,f⟩ : Slot)
          | none =>
            { (w.ring p).slots ((w.ring p).tail % c.size p) with kind := .sync }).frame.source =
          w.read x.key := by
        cases f with
        | some g => exact hf g rfl x hx hkey
        | none => rw [hkey]; rfl
      rw [← hsame, hkey]
      simp [World.read]
    · -- another slot
      unfold World.read
      dsimp only
      rw [update_apply]
      split_ifs with hp
      · have hslot : x.key.2 ≠ (w.ring p).tail % c.size p := fun hs => hkey (Prod.ext hp hs)
        dsimp only
        rw [update_of_ne hslot, hp]
      · rfl
  · exact h

lemma poll_packet {f : Frame} (hf : w.incoming p = some f) : ∃ i, w.read (p,i) = f.source ∧
    w.switchPkt p = (World.rxDone { w.learn (p,i) p with seen := (f.source,p)::w.seen } p,
        forward (World.find { w.learn (p,i) p with seen := (f.source,p)::w.seen } f.dest) p f) := by
  unfold World.incoming at hf
  split at hf
  case h_1 i g hrx =>
    cases hf
    refine ⟨i,?_,by simp only [World.switchPkt, hrx]⟩
    unfold World.rxPacket at hrx
    split_ifs at hrx
    obtain ⟨rfl,hslot⟩ := Prod.mk.inj (some.inj hrx)
    rw [World.read, hslot]
  case h_2 => exact absurd hf (by simp)

lemma poll_none (hf : w.incoming p = none) :
    w.switchPkt p = (w,[]) ∨ w.switchPkt p = (w.rxDone p,[]) := by
  unfold incoming at hf
  unfold switchPkt
  cases hrx : w.rxPacket p with
  | none => exact .inl rfl
  | some x =>
    obtain ⟨i,kind,g⟩ := x
    cases kind with
    | sync => exact .inr rfl
    | packet => simp [hrx] at hf

lemma Inv.step (h : Inv w) {e : Event c} (he : Steady w e) : Inv (w.step e) := by
  cases e with
  | packet p f =>
    refine h.write p (some f) fun g hg => ?_
    cases hg
    exact he
  | sync p => exact h.write p none fun g hg => absurd hg (by simp)
  | poll p =>
    change Inv (w.switchPkt p).1
    cases hf : w.incoming p with
    | none =>
      rcases poll_none hf with heq | heq
      · rwa [heq]
      · rw [heq]
        exact h.rxDone p
    | some f =>
      obtain ⟨i,hread,heq⟩ := poll_packet hf
      rw [heq, ← hread]
      exact (h.learn (hread ▸ he f hf)).rxDone p

lemma Inv.forwards (h : Inv w) {e : Event c} (he : Steady w e) : Forwards w e := by
  cases e with
  | packet p f | sync p => trivial
  | poll p =>
    intro f hf
    obtain ⟨i,hread,heq⟩ := poll_packet hf
    have hlearn := (h.learn (hread ▸ he f hf)).forward_eq p f
    rw [hread] at hlearn
    rw [heq, hlearn]

/-- As long as no key of the table comes to point to another address and
sources are unicast, every frame goes to the port its destination was last
seen on, or to all other ports if there is none. -/
theorem switch_forwards (c : Config) (ring : Fin c.ports → Ring) (es : List (Event c))
    (hes : Along World.step Steady ⟨ring,[],[]⟩ es) :
    Along World.step Forwards ⟨ring,[],[]⟩ es :=
  along_imp (fun w e h he => Inv.step h he) (fun w e h he => Inv.forwards h he)
    ⟨fun _ => rfl,by simp⟩ hes

abbrev threePorts : Config := ⟨3,fun _ => 1,(· == ·),by simp⟩

def blank : World threePorts where
  ring _ := { slots := fun _ => ⟨.sync,⟨#v[0,0,0,0,0,0],#v[0,0,0,0,0,0],[]⟩⟩ }

def host (i : UInt8) : Mac := #v[2,0,0,0,0,i]

def broadcast : Mac := ⟨#[0xFF,0xFF,0xFF,0xFF,0xFF,0xFF],by decide⟩

def received (p : Fin 3) (dest source : Mac) : List (Event threePorts) :=
  [.packet p ⟨dest,source,[]⟩,.poll p]

/-- One host on each of two ports, with slots used again. -/
theorem switch_forwards_hosts : Along World.step Steady blank
      (received 0 (host 2) (host 1)++received 0 broadcast (host 1)++received 1 (host 1) (host 2)) ∧
    Along World.step Forwards blank
      (received 0 (host 2) (host 1)++received 0 broadcast (host 1)++received 1 (host 1)
      (host 2)) := by
  have h : Along World.step Steady blank (received 0 (host 2) (host 1)++
      received 0 broadcast (host 1)++received 1 (host 1) (host 2)) := by decide +kernel
  exact ⟨h,switch_forwards threePorts _ _ h⟩

/-- Two hosts on port 0: the slot of the first one's frame is used for the
second one, and the first one is not known any more. A frame from the
broadcast address is learnt, and broadcasts go to its port only. -/
theorem slot_reused :
    (World.switchPkt (run World.step blank (received 0 (host 3) (host 1)++
        received 0 (host 3) (host 2)++[.packet 1 ⟨host 1,host 3,[]⟩])) 1).2 =
      flood 1 ⟨host 1,host 3,[]⟩ ∧
    ¬ Along World.step Forwards blank (received 0 (host 3) (host 1)++
      received 0 (host 3) (host 2)++received 1 (host 1) (host 3)) ∧
    (World.switchPkt (run World.step blank (received 0 (host 3) broadcast++
        [.packet 1 ⟨broadcast,host 3,[]⟩])) 1).2 = [(0,⟨broadcast,host 3,[]⟩)] ∧
    ¬ Along World.step Forwards blank (received 0 (host 3) broadcast++
      received 1 broadcast (host 3)) := by
  decide +kernel

end SimBricks.NetSwitch
