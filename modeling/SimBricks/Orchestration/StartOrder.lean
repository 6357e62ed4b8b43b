import SimBricks.Orchestration.DependencyGraph

/-!
# What is in the start-up graph

The edges of the graph, told by the channels and proxies of the fragment, and
the order in which `SimulationExecutor.run` starts its nodes.
-/

set_option autoImplicit false

namespace SimBricks.Orchestration
open Library Library.Run List

variable {Sim Comp Inf Proxy : Type} [DecidableEq Sim] [DecidableEq Proxy]
variable {a n d : Node Sim Proxy} {p : Proxy} {i j : Inf}

namespace DepGraph
variable {g g' : DepGraph Sim Proxy}

/-- The nodes that `TopologicalSorter` knows: keys and dependencies. -/
def nodes (g : DepGraph Sim Proxy) : List (Node Sim Proxy) :=
  (g.entries.flatMap fun x => x.1::x.2).dedup

/-- The nodes in the order in which they are started, if all starts succeed;
with a cycle `prepare` raises and none is. -/
def runStarts (g : DepGraph Sim Proxy) : List (Node Sim Proxy) :=
  let order := TopoSort.order (nodes g) (deps g)
  if ∀ n ∈ nodes g, n ∈ order then order else []

def Edge (g : DepGraph Sim Proxy) (a b : Node Sim Proxy) : Prop := b ∈ deps g a

def HasEdge (g : DepGraph Sim Proxy) (c d : Component Sim Proxy) : Prop :=
  ∃ a b, Edge g a b ∧ a.component = c ∧ b.component = d

def Keyed (g : DepGraph Sim Proxy) : Prop := ∀ n l, g.get? n = some l → l ≠ []

lemma edge_iff {b : Node Sim Proxy} : Edge g a b ↔ ∃ l, g.get? a = some l ∧ b ∈ l := by
  rw [Edge, deps]
  cases g.get? a with
  | none | some l => simp

lemma mem_nodes (h : Keyed g) : n ∈ nodes g ↔ (∃ b, Edge g n b) ∨ ∃ a, Edge g a n := by
  rw [nodes, mem_dedup, mem_flatMap]
  constructor
  · rintro ⟨⟨k,l⟩,hk,hn⟩
    have hget := Dict.mem_entries.mp hk
    rcases mem_cons.mp hn with rfl | hn
    · obtain ⟨b,hb⟩ := exists_mem_of_ne_nil l (h n l hget)
      exact .inl ⟨b,edge_iff.mpr ⟨l,hget,hb⟩⟩
    · exact .inr ⟨k,edge_iff.mpr ⟨l,hget,hn⟩⟩
  · rintro (⟨b,hb⟩ | ⟨a,ha⟩)
    · obtain ⟨l,hl,-⟩ := edge_iff.mp hb
      exact ⟨(n,l),Dict.mem_entries.mpr hl,mem_cons_self⟩
    · obtain ⟨l,hl,hn⟩ := edge_iff.mp ha
      exact ⟨(a,l),Dict.mem_entries.mpr hl,mem_cons_of_mem a hn⟩

lemma insertDependency_spec (h : g.insertDependency a d = .ok g') :
    (∀ x y, Edge g' x y ↔ Edge g x y ∨ (x = a ∧ y = d)) ∧ (Keyed g → Keyed g') := by
  unfold insertDependency at h
  split_ifs at h
  cases h
  refine ⟨fun x y => ?_,fun hk n l hl => ?_⟩
  · rw [Edge, Edge, deps, Dict.get?_set]
    by_cases hx : x = a
    · subst hx
      simp [deps, or_comm]
    · simp [deps, hx]
  · rcases Dict.get?_set_cases hl with ⟨-,rfl⟩ | hl
    · exact ne_nil_of_mem mem_insert_self
    · exact hk n l hl

end DepGraph

namespace Instantiation
variable {I : Instantiation Sim Comp Inf Proxy}
variable (I) in
def Kept (p : Proxy) : Prop := p ∈ I.proxies ∧ I.isDummy p = false ∧
    ∀ q, I.fragments.findOpposingProxy p = some q → q ∉ I.proxies

variable (I) in
def ConnectsTo (i j : Inf) : Prop :=
  I.infSocktype i = some .connect ∧ I.infSocktype j = some .listen

variable (I) in
/-- What must have been started before a component. -/
inductive DependsOn : Component Sim Proxy → Component Sim Proxy → Prop where
  | sims {i j : Inf} {s t : Sim} (hs : s ∈ I.simulators) (ht : t ∈ I.simulators)
      (cross : I.simulation.Cross i j s t) (types : I.ConnectsTo i j) :
      DependsOn (.simulator s) (.simulator t)
  | simProxy {p : Proxy} {i j : Inf} {s : Sim} (kept : I.Kept p) (hi : i ∈ I.interfaces p)
      (opposing : I.simulation.opposing i = some j)
      (hs : I.simulation.findSim (I.simulation.component i) = some s) (types : I.ConnectsTo i j) :
      DependsOn (.simulator s) (.proxy p)
  | proxySim {p : Proxy} {i j : Inf} {s : Sim} (kept : I.Kept p) (hi : i ∈ I.interfaces p)
      (opposing : I.simulation.opposing i = some j)
      (hs : I.simulation.findSim (I.simulation.component i) = some s) (types : I.ConnectsTo j i) :
      DependsOn (.proxy p) (.simulator s)
  | proxies {p q : Proxy} (kept : I.Kept p) (opposing : I.fragments.findOpposingProxy p = some q)
      (mode : I.connectionMode p = some .connect) : DependsOn (.proxy p) (.externalProxy q)

lemma orRaise_eq_ok {α : Type} {x : Option α} {text : String} {a : α} :
    orRaise x text = .ok a ↔ x = some a := by
  cases x with
  | none | some b => simp [orRaise]

/-! ## The proxies that stay -/

/-- Nothing has been decided about the proxies that have not been visited. -/
structure Dropped (I : Instantiation Sim Comp Inf Proxy) (done new : List Proxy) : Prop where
  nodup : new.Nodup
  mem : ∀ p, p ∈ new ↔ p ∈ I.proxies ∧ (p ∈ done → I.Kept p)

variable {done new : List Proxy}

variable {new' : List Proxy}

omit [DecidableEq Sim] in
lemma Dropped.next (h : I.Dropped done new) (hnodup : new'.Nodup)
    (hmem : ∀ r, r ∈ new' ↔ r ∈ new ∧ (r = p → I.Kept p)) : I.Dropped (done++[p]) new' := by
  refine ⟨hnodup,fun r => ?_⟩
  have hkept : (r = p → I.Kept p) ↔ (r = p → I.Kept r) := forall_congr' fun hr => by rw [hr]
  rw [hmem, h.mem r, hkept, and_assoc, mem_append, mem_singleton, or_imp]

omit [DecidableEq Sim] in
lemma Dropped.drop (h : I.Dropped done new) (hp : ¬ I.Kept p) :
    I.Dropped (done++[p]) (new.erase p) :=
  h.next (h.nodup.erase p) fun r => by
    rw [h.nodup.mem_erase_iff, and_comm]
    exact and_congr_right fun _ => ⟨fun hne he => absurd he hne,fun hk he => hp (hk he)⟩

omit [DecidableEq Sim] in
lemma Dropped.visit (h : I.Dropped done new) (hmem : p ∈ I.proxies)
    (hp : I.dropProxy new p = .ok new') : I.Dropped (done++[p]) new' := by
  obtain ⟨q,hq,hp⟩ := bind_eq_ok.mp hp
  rw [orRaise_eq_ok] at hq
  have hkept : I.Kept p ↔ I.isDummy p = false ∧ q ∉ I.proxies := by
    constructor
    · rintro ⟨-,hdummy,hopp⟩
      exact ⟨hdummy,hopp q hq⟩
    · rintro ⟨hdummy,hopp⟩
      exact ⟨hmem,hdummy,fun r hr => Option.some.inj (hq.symm.trans hr) ▸ hopp⟩
  cases hdummy : I.isDummy p with
  | true =>
    rw [if_pos hdummy] at hp
    split_ifs at hp with hopp hin
    · exact absurd hin fun hin => (h.nodup.mem_erase_iff.mp hin).1 rfl
    · cases hp
      exact h.drop fun hk => absurd (hkept.mp hk).1 (by simp [hdummy])
  | false =>
    have hnot : ¬ I.isDummy p := by simp [hdummy]
    rw [if_neg hnot] at hp
    split_ifs at hp with hopp
    · cases hp
      exact h.drop fun hk => (hkept.mp hk).2 hopp
    · cases hp
      exact h.next h.nodup fun r => (and_iff_left fun _ => hkept.mpr ⟨hdummy,hopp⟩).symm

omit [DecidableEq Sim] in
lemma removeUnnecessaryProxies_spec {remaining : List Proxy}
    (h : I.removeUnnecessaryProxies = .ok remaining) : ∀ p, p ∈ remaining ↔ I.Kept p := by
  have hall : I.Dropped I.proxies remaining := by
    refine foldlM_ok_invariant (I := fun done new => I.Dropped done new) ?_ ?_ h
    · intro done p rest new new' hl hd hp
      exact hd.visit (by rw [hl]; simp) hp
    · exact ⟨I.proxies_nodup,fun p => by simp⟩
  intro p
  rw [hall.mem p]
  constructor
  · rintro ⟨hp,hk⟩
    exact hk hp
  · intro hk
    exact ⟨hk.1,fun _ => hk⟩

/-! ## The passes over channels and proxies -/

omit [DecidableEq Sim] [DecidableEq Proxy] in
lemma ConnectsTo.asymm (h : I.ConnectsTo i j) : ¬ I.ConnectsTo j i := by
  intro h'
  have := h.1.symm.trans h'.2
  cases this

lemma insertDepIfADependsOnB_spec {g g' : DepGraph Sim Proxy}
    (h : I.insertDepIfADependsOnB g i a j d = .ok g') :
    (I.ConnectsTo i j ∧ g.insertDependency a d = .ok g') ∨ (I.ConnectsTo j i ∧ g' = g) := by
  obtain ⟨x,hx,h⟩ := bind_eq_ok.mp h
  obtain ⟨y,hy,h⟩ := bind_eq_ok.mp h
  rw [orRaise_eq_ok] at hx hy
  cases x with
  | listen =>
    cases y with
    | listen => cases h
    | connect => exact .inr ⟨⟨hy,hx⟩,(Except.ok.inj h).symm⟩
  | connect =>
    cases y with
    | listen => exact .inl ⟨⟨hx,hy⟩,h⟩
    | connect => cases h

end Instantiation

namespace Build

def Registered (b : Build Sim Proxy) (n : Node Sim Proxy) : Prop :=
  match n.component with
  | .simulator s => b.nodesSim.get? s = some n
  | .proxy p => b.nodesProxy.get? p = some n
  | .externalProxy p => b.nodesProxy.get? p = some n

lemma registered_sim {b : Build Sim Proxy} {s : Sim} (h : b.nodesSim.get? s = some n)
    (hc : n.component = .simulator s) : b.Registered n := by
  unfold Registered
  rw [hc]
  exact h

lemma registered_proxy {b : Build Sim Proxy} (h : b.nodesProxy.get? p = some n)
    (hc : n.component = .proxy p ∨ n.component = .externalProxy p) : b.Registered n := by
  unfold Registered
  rcases hc with hc | hc
  · rw [hc]
    exact h
  · rw [hc]
    exact h

lemma Registered.unique {b : Build Sim Proxy} {n' : Node Sim Proxy} (h : b.Registered n)
    (h' : b.Registered n') (heq : n.component = n'.component) : n = n' := by
  unfold Registered at h h'
  rw [heq] at h
  cases hc : n'.component with
  | simulator s | proxy p | externalProxy p =>
    rw [hc] at h h'
    exact Option.some.inj (h.symm.trans h')

structure Grows (b b' : Build Sim Proxy) : Prop where
  sims : ∀ s n, b.nodesSim.get? s = some n → b'.nodesSim.get? s = some n
  proxies : ∀ p n, b.nodesProxy.get? p = some n → b'.nodesProxy.get? p = some n

lemma Registered.grows {b b' : Build Sim Proxy} (h : b.Registered n) (hg : Grows b b') :
    b'.Registered n := by
  unfold Registered at h ⊢
  cases hc : n.component with
  | simulator s =>
    rw [hc] at h
    exact hg.sims s n h
  | proxy p | externalProxy p =>
    rw [hc] at h
    exact hg.proxies p n h

end Build

namespace Instantiation
variable {I : Instantiation Sim Comp Inf Proxy} {b b' : Build Sim Proxy}
  {E : Component Sim Proxy → Component Sim Proxy → Prop}

/-- What the passes keep, with the edges that they have made so far. -/
structure Inv (I : Instantiation Sim Comp Inf Proxy) (b : Build Sim Proxy)
    (E : Component Sim Proxy → Component Sim Proxy → Prop) : Prop where
  sims : ∀ s n, b.nodesSim.get? s = some n → n.component = .simulator s ∧ s ∈ I.simulators
  proxies : ∀ p n, b.nodesProxy.get? p = some n →
    (I.Kept p → n.component = .proxy p ∧ I.interfaces p ≠ []) ∧
    (¬ I.Kept p → n.component = .externalProxy p)
  keyed : b.graph.Keyed
  registered : ∀ a d, b.graph.Edge a d → b.Registered a ∧ b.Registered d
  edges : ∀ c d, b.graph.HasEdge c d ↔ E c d

lemma Inv.insert {g : DepGraph Sim Proxy} (h : I.Inv b E) (ha : b.Registered a)
    (hd : b.Registered d) (hg : b.graph.insertDependency a d = .ok g) :
    I.Inv { b with graph := g } fun x y => E x y ∨ (x = a.component ∧ y = d.component) := by
  obtain ⟨hedge,hkeyed⟩ := DepGraph.insertDependency_spec hg
  refine ⟨h.sims,h.proxies,hkeyed h.keyed,?_,?_⟩
  · intro x y hxy
    rcases (hedge x y).mp hxy with hxy | ⟨rfl,rfl⟩
    · exact h.registered x y hxy
    · exact ⟨ha,hd⟩
  · intro x y
    rw [← h.edges x y]
    constructor
    · rintro ⟨n,m,hnm,rfl,rfl⟩
      rcases (hedge n m).mp hnm with hnm | ⟨rfl,rfl⟩
      · exact .inl ⟨n,m,hnm,rfl,rfl⟩
      · exact .inr ⟨rfl,rfl⟩
    · rintro (⟨n,m,hnm,rfl,rfl⟩ | ⟨rfl,rfl⟩)
      · exact ⟨n,m,(hedge n m).mpr (.inl hnm),rfl,rfl⟩
      · exact ⟨a,d,(hedge a d).mpr (.inr ⟨rfl,rfl⟩),rfl,rfl⟩

def Joined (I : Instantiation Sim Comp Inf Proxy) (i j : Inf) (cA cB c d : Component Sim Proxy) :
    Prop :=
  (I.ConnectsTo i j ∧ c = cA ∧ d = cB) ∨ (I.ConnectsTo j i ∧ c = cB ∧ d = cA)

lemma Inv.insertBoth (h : I.Inv b E) (ha : b.Registered a) (hd : b.Registered d)
    (hb : I.insertBoth b i a j d = .ok b') :
    I.Inv b' (fun x y => E x y ∨ I.Joined i j a.component d.component x y) ∧
    (I.ConnectsTo i j ∨ I.ConnectsTo j i) := by
  obtain ⟨g,hg,hb⟩ := bind_eq_ok.mp hb
  obtain ⟨_,hg',hb⟩ := bind_eq_ok.mp hb
  cases hb
  rcases insertDepIfADependsOnB_spec hg with ⟨hij,hins⟩ | ⟨hji,rfl⟩
  · rcases insertDepIfADependsOnB_spec hg' with ⟨hji,-⟩ | ⟨-,rfl⟩
    · exact absurd hji hij.asymm
    · refine ⟨?_,.inl hij⟩
      have hinv := h.insert ha hd hins
      refine ⟨hinv.sims,hinv.proxies,hinv.keyed,hinv.registered,fun x y => ?_⟩
      rw [hinv.edges x y, Joined]
      simp [hij, hij.asymm]
  · rcases insertDepIfADependsOnB_spec hg' with ⟨-,hins⟩ | ⟨hij,-⟩
    · refine ⟨?_,.inr hji⟩
      have hinv := h.insert hd ha hins
      refine ⟨hinv.sims,hinv.proxies,hinv.keyed,hinv.registered,fun x y => ?_⟩
      rw [hinv.edges x y, Joined]
      simp [hji, hji.asymm]
    · exact absurd hji hij.asymm

lemma Inv.of_grows (h : I.Inv b E) (hg : Build.Grows b b') (hgraph : b'.graph = b.graph)
    (hsims : ∀ s n, b'.nodesSim.get? s = some n → n.component = .simulator s ∧ s ∈ I.simulators)
    (hproxies : ∀ p n, b'.nodesProxy.get? p = some n →
      (I.Kept p → n.component = .proxy p ∧ I.interfaces p ≠ []) ∧
      (¬ I.Kept p → n.component = .externalProxy p)) : I.Inv b' E := by
  refine ⟨hsims,hproxies,hgraph ▸ h.keyed,fun a d had => ?_,fun c d => hgraph ▸ h.edges c d⟩
  rw [hgraph] at had
  obtain ⟨ha,hd⟩ := h.registered a d had
  exact ⟨ha.grows hg,hd.grows hg⟩

/-- A node that is not used takes its number all the same. -/
lemma Inv.numbered (h : I.Inv b E) : I.Inv { b with nextId := b.nextId+1 } E ∧
    Build.Grows b { b with nextId := b.nextId+1 } := by
  have hg : Build.Grows b { b with nextId := b.nextId+1 } :=
    ⟨fun _ _ hx => hx,fun _ _ hx => hx⟩
  exact ⟨h.of_grows hg rfl h.sims h.proxies,hg⟩

variable {s : Sim} {c : Component Sim Proxy}

lemma Inv.simNode (h : I.Inv b E) (hs : s ∈ I.simulators) :
    I.Inv (b.simNode s).1 E ∧ Build.Grows b (b.simNode s).1 ∧
    (b.simNode s).1.Registered (b.simNode s).2 ∧ (b.simNode s).2.component = .simulator s := by
  unfold Build.simNode
  cases hn : b.nodesSim.get? s with
  | some n =>
    have hcomp := (h.sims s n hn).1
    exact ⟨h.numbered.1,h.numbered.2,Build.registered_sim hn hcomp,hcomp⟩
  | none =>
    have hgrows : Build.Grows b { b with
        nextId := b.nextId+1, nodesSim := b.nodesSim.set s ⟨b.nextId,.simulator s⟩ } :=
      ⟨fun t n ht => Dict.get?_set_new hn ht _,fun _ _ hx => hx⟩
    refine ⟨h.of_grows hgrows rfl (fun t n ht => ?_) h.proxies,hgrows,Dict.get?_set_self ..,rfl⟩
    rcases Dict.get?_set_cases ht with ⟨rfl,rfl⟩ | ht
    · exact ⟨rfl,hs⟩
    · exact h.sims t n ht

lemma Inv.proxyNode (h : I.Inv b E) (hkept : I.Kept p → c = .proxy p ∧ I.interfaces p ≠ [])
    (hother : ¬ I.Kept p → c = .externalProxy p) :
    I.Inv (b.proxyNode p c).1 E ∧ Build.Grows b (b.proxyNode p c).1 ∧
    (b.proxyNode p c).1.Registered (b.proxyNode p c).2 ∧ (b.proxyNode p c).2.component = c := by
  have hcases : c = .proxy p ∨ c = .externalProxy p := by
    by_cases hk : I.Kept p
    · exact .inl (hkept hk).1
    · exact .inr (hother hk)
  unfold Build.proxyNode
  cases hn : b.nodesProxy.get? p with
  | some n =>
    have hcomp : n.component = c := by
      by_cases hk : I.Kept p
      · rw [((h.proxies p n hn).1 hk).1, (hkept hk).1]
      · rw [(h.proxies p n hn).2 hk, hother hk]
    exact ⟨h.numbered.1,h.numbered.2,Build.registered_proxy hn (hcomp ▸ hcases),hcomp⟩
  | none =>
    have hgrows : Build.Grows b { b with
        nextId := b.nextId+1, nodesProxy := b.nodesProxy.set p ⟨b.nextId,c⟩ } :=
      ⟨fun _ _ hx => hx,fun q n hq => Dict.get?_set_new hn hq _⟩
    refine ⟨h.of_grows hgrows rfl h.sims (fun q n hq => ?_),hgrows,
      Build.registered_proxy (Dict.get?_set_self ..) hcases,rfl⟩
    rcases Dict.get?_set_cases hq with ⟨rfl,rfl⟩ | hq
    · exact ⟨hkept,hother⟩
    · exact h.proxies q n hq

lemma Inv.congr {F : Component Sim Proxy → Component Sim Proxy → Prop} (h : I.Inv b E)
    (hEF : ∀ c d, E c d ↔ F c d) : I.Inv b F :=
  ⟨h.sims,h.proxies,h.keyed,h.registered,fun c d => (h.edges c d).trans (hEF c d)⟩

lemma Inv.registered_node (h : I.Inv b E) (hn : n ∈ b.graph.nodes) : b.Registered n := by
  rcases (DepGraph.mem_nodes h.keyed).mp hn with ⟨d,hd⟩ | ⟨a,ha⟩
  · exact (h.registered n d hd).1
  · exact (h.registered a n ha).2

def SimEdge (I : Instantiation Sim Comp Inf Proxy) (x : Sim × Inf) (c d : Component Sim Proxy) :
    Prop :=
  ∃ j t, I.simulation.Cross x.2 j x.1 t ∧ t ∈ I.simulators ∧
    I.Joined x.2 j (.simulator x.1) (.simulator t) c d

def ProxyEdge (I : Instantiation Sim Comp Inf Proxy) (x : Proxy × Inf)
    (c d : Component Sim Proxy) : Prop :=
  ∃ j s, I.simulation.opposing x.2 = some j ∧
    I.simulation.findSim (I.simulation.component x.2) = some s ∧
    I.Joined x.2 j (.simulator s) (.proxy x.1) c d

def PeerEdge (I : Instantiation Sim Comp Inf Proxy) (p : Proxy) (c d : Component Sim Proxy) :
    Prop :=
  ∃ q, I.fragments.findOpposingProxy p = some q ∧ I.connectionMode p = some .connect ∧
    c = .proxy p ∧ d = .externalProxy q

omit [DecidableEq Proxy] in
lemma opposingInterfaceWithinSameSim_spec [DecidableEq Inf] {same : Bool}
    (h : I.opposingInterfaceWithinSameSim i = .ok same) :
    ∃ j s t, I.simulation.opposing i = some j ∧
    I.simulation.findSim (I.simulation.component i) = some s ∧
    I.simulation.findSim (I.simulation.component j) = some t ∧ same = decide (s = t) := by
  obtain ⟨j,hj,h⟩ := bind_eq_ok.mp h
  split_ifs at h
  obtain ⟨s,hs,h⟩ := bind_eq_ok.mp h
  obtain ⟨t,ht,h⟩ := bind_eq_ok.mp h
  exact ⟨j,s,t,orRaise_eq_ok.mp hj,orRaise_eq_ok.mp hs,orRaise_eq_ok.mp ht, (Except.ok.inj h).symm⟩

lemma Inv.addSimSim [DecidableEq Inf] (h : I.Inv b E) (hs : s ∈ I.simulators)
    (hi : I.simulation.findSim (I.simulation.component i) = some s)
    (hb : I.addSimSim s b i = .ok b') :
    I.Inv b' (fun c d => E c d ∨ I.SimEdge (s,i) c d) ∧ ∀ j t, I.simulation.Cross i j s t →
    t ∈ I.simulators → I.ConnectsTo i j ∨ I.ConnectsTo j i := by
  obtain ⟨_,hsame,hb⟩ := bind_eq_ok.mp hb
  obtain ⟨j,s',t,hj,hs',ht,rfl⟩ := opposingInterfaceWithinSameSim_spec hsame
  cases hi.symm.trans hs'
  have honly : ∀ j' t', I.simulation.Cross i j' s t' → j' = j ∧ t' = t ∧ s ≠ t := by
    intro j' t' hc
    cases hc.opposing.symm.trans hj
    cases hc.right.symm.trans ht
    exact ⟨rfl,rfl,hc.ne⟩
  by_cases hst : s = t
  · rw [if_pos (decide_eq_true hst)] at hb
    cases hb
    refine ⟨h.congr fun c d => ?_,fun j' t' hc => absurd hst (honly j' t' hc).2.2⟩
    refine ⟨.inl,fun hcd => hcd.resolve_right ?_⟩
    rintro ⟨j',t',hc,-,-⟩
    exact (honly j' t' hc).2.2 hst
  · rw [if_neg (by simpa using hst)] at hb
    obtain ⟨j',hj',hb⟩ := bind_eq_ok.mp hb
    cases hj.symm.trans (orRaise_eq_ok.mp hj')
    obtain ⟨t',ht',hb⟩ := bind_eq_ok.mp hb
    cases ht.symm.trans (orRaise_eq_ok.mp ht')
    obtain ⟨hinvA,-,hregA,hcompA⟩ := h.simNode hs
    by_cases hin : t ∈ I.simulators
    · rw [if_neg (not_not.mpr hin)] at hb
      obtain ⟨hinvB,hgrows,hregB,hcompB⟩ := hinvA.simNode hin
      obtain ⟨hinv,htypes⟩ := hinvB.insertBoth (hregA.grows hgrows) hregB hb
      rw [hcompA, hcompB] at hinv
      have hcross : I.simulation.Cross i j s t := ⟨hj,hi,ht,hst⟩
      refine ⟨hinv.congr fun c d => or_congr_right ⟨?_,?_⟩,fun j' t' hc _ => ?_⟩
      · intro hjoined
        exact ⟨j,t,hcross,hin,hjoined⟩
      · rintro ⟨j',t',hc,-,hjoined⟩
        obtain ⟨rfl,rfl,-⟩ := honly j' t' hc
        exact hjoined
      · rw [(honly j' t' hc).1]
        exact htypes
    · rw [if_pos hin] at hb
      cases hb
      have hnone : ∀ j' t', I.simulation.Cross i j' s t' → t' ∉ I.simulators := by
        intro j' t' hc
        rw [(honly j' t' hc).2.1]
        exact hin
      refine ⟨hinvA.congr fun c d => ⟨.inl,fun hcd => hcd.resolve_right ?_⟩,
        fun j' t' hc hin' => absurd hin' (hnone j' t' hc)⟩
      rintro ⟨j',t',hc,hin',-⟩
      exact hnone j' t' hc hin'

lemma Inv.addProxySim (h : I.Inv b E) (hp : I.Kept p) (hi : i ∈ I.interfaces p)
    (hb : I.addProxySim p b i = .ok b') :
    I.Inv b' (fun c d => E c d ∨ I.ProxyEdge (p,i) c d) ∧ ∃ j s, I.simulation.opposing i = some j ∧
    I.simulation.findSim (I.simulation.component i) = some s ∧ s ∈ I.simulators ∧
    (I.ConnectsTo i j ∨ I.ConnectsTo j i) := by
  obtain ⟨j,hj,hb⟩ := bind_eq_ok.mp hb
  obtain ⟨s,hs,hb⟩ := bind_eq_ok.mp hb
  obtain ⟨n,hn,hb⟩ := bind_eq_ok.mp hb
  replace hj := orRaise_eq_ok.mp hj
  replace hs := orRaise_eq_ok.mp hs
  replace hn := orRaise_eq_ok.mp hn
  obtain ⟨hcomp,hin⟩ := h.sims s n hn
  have hreg := Build.registered_sim hn hcomp
  obtain ⟨hinvB,hgrows,hregB,hcompB⟩ := h.proxyNode
    (fun _ => ⟨rfl,ne_nil_of_mem hi⟩) fun hk => absurd hp hk
  obtain ⟨hinv,htypes⟩ := hinvB.insertBoth (hreg.grows hgrows) hregB hb
  rw [hcomp, hcompB] at hinv
  refine ⟨hinv.congr fun c d => or_congr_right ⟨?_,?_⟩,j,s,hj,hs,hin,htypes⟩
  · intro hjoined
    exact ⟨j,s,hj,hs,hjoined⟩
  · rintro ⟨j',s',hj',hs',hjoined⟩
    cases hj.symm.trans hj'
    cases hs.symm.trans hs'
    exact hjoined

lemma Inv.addProxyProxy {remaining : List Proxy} (h : I.Inv b E) (hp : I.Kept p)
    (hremaining : ∀ q, q ∈ remaining ↔ I.Kept q) (hb : I.addProxyProxy remaining b p = .ok b') :
    I.Inv b' (fun c d => E c d ∨ I.PeerEdge p c d) ∧ I.interfaces p ≠ [] := by
  obtain ⟨n,hn,hb⟩ := bind_eq_ok.mp hb
  obtain ⟨q,hq,hb⟩ := bind_eq_ok.mp hb
  replace hn := orRaise_eq_ok.mp hn
  replace hq := orRaise_eq_ok.mp hq
  obtain ⟨hcomp,hne⟩ := (h.proxies p n hn).1 hp
  have hreg := Build.registered_proxy hn (.inl hcomp)
  have hpeer : ∀ c d, I.PeerEdge p c d ↔
      I.connectionMode p = some .connect ∧ c = .proxy p ∧ d = .externalProxy q := by
    intro c d
    constructor
    · rintro ⟨q',hq',hmode,hc,hd⟩
      cases hq.symm.trans hq'
      exact ⟨hmode,hc,hd⟩
    · rintro ⟨hmode,hc,hd⟩
      exact ⟨q,hq,hmode,hc,hd⟩
  split_ifs at hb with hqr hmode
  all_goals
    obtain ⟨hinvB,hgrows,hregB,hcompB⟩ := h.proxyNode
      (fun hk => absurd ((hremaining q).mpr hk) hqr) fun _ => rfl
  · obtain ⟨g,hg,hb⟩ := bind_eq_ok.mp hb
    cases hb
    have hinv := hinvB.insert (hreg.grows hgrows) hregB hg
    rw [hcomp, hcompB] at hinv
    refine ⟨hinv.congr fun c d => or_congr_right ?_,hne⟩
    rw [hpeer c d]
    simp [hmode]
  · cases hb
    refine ⟨hinvB.congr fun c d => ?_,hne⟩
    rw [hpeer c d]
    simp [hmode]

lemma Inv.pass {α : Type} {f : Build Sim Proxy → α → Except String (Build Sim Proxy)}
    {Adds : α → Component Sim Proxy → Component Sim Proxy → Prop} {Ok : α → Prop} {l : List α}
    (hstep : ∀ x ∈ l, ∀ b b' E, I.Inv b E → f b x = .ok b' →
      I.Inv b' (fun c d => E c d ∨ Adds x c d) ∧ Ok x)
    (h : I.Inv b E) (hb : l.foldlM f b = .ok b') :
    I.Inv b' (fun c d => E c d ∨ ∃ x ∈ l, Adds x c d) ∧ ∀ x ∈ l, Ok x := by
  refine foldlM_ok_invariant (I := fun done b =>
    I.Inv b (fun c d => E c d ∨ ∃ x ∈ done, Adds x c d) ∧ ∀ x ∈ done, Ok x) ?_ ?_ hb
  · rintro done x rest b b' rfl ⟨hinv,hok⟩ hb
    obtain ⟨hinv',hx⟩ := hstep x (by simp) b b' _ hinv hb
    refine ⟨hinv'.congr fun c d => ?_,fun y hy => ?_⟩
    · simp only [mem_append, mem_singleton, or_and_right, exists_or, exists_eq_left,
        or_assoc]
    · rcases mem_append.mp hy with hy | hy
      · exact hok y hy
      · rw [mem_singleton.mp hy]
        exact hx
  · exact ⟨h.congr fun c d => (by simp),fun x hx => by cases hx⟩

def visits (I : Instantiation Sim Comp Inf Proxy) : List (Sim × Inf) :=
  I.simulators.flatMap fun s => (I.simulation.components s).flatMap fun k =>
    (I.simulation.interfaces k).map (s,·)

omit [DecidableEq Sim] [DecidableEq Proxy] in
lemma mem_visits (h : (s,i) ∈ I.visits) :
    s ∈ I.simulators ∧ I.simulation.findSim (I.simulation.component i) = some s := by
  simp only [visits, mem_flatMap, mem_map, Prod.mk.injEq] at h
  obtain ⟨s',hs',k,hk,i',hi',rfl,rfl⟩ := h
  refine ⟨hs',?_⟩
  rw [I.simulation.owned i' k hi']
  exact I.simulation.mapped k s' hk

omit [DecidableEq Sim] [DecidableEq Proxy] in
lemma cross_visited {t : Sim} (hs : s ∈ I.simulators) (h : I.simulation.Cross i j s t) :
    (s,i) ∈ I.visits := by
  simp only [visits, mem_flatMap, mem_map, Prod.mk.injEq]
  exact ⟨s,hs,_,(I.simulation.added _ s h.left).2,i,I.simulation.listed i j h.opposing,rfl,rfl⟩

/-- What a graph that was built says about its instantiation. -/
structure Built (I : Instantiation Sim Comp Inf Proxy) (g : DepGraph Sim Proxy)
    (remaining : List Proxy) : Prop where
  remaining : ∀ p, p ∈ remaining ↔ I.Kept p
  keyed : g.Keyed
  unique : ∀ n ∈ g.nodes, ∀ n' ∈ g.nodes, n.component = n'.component → n = n'
  edges : ∀ c d, g.HasEdge c d ↔ I.DependsOn c d
  simTypes : ∀ i j s t, s ∈ I.simulators → t ∈ I.simulators → I.simulation.Cross i j s t →
    I.ConnectsTo i j ∨ I.ConnectsTo j i
  proxyTypes : ∀ p i, I.Kept p → i ∈ I.interfaces p → ∃ j s, I.simulation.opposing i = some j ∧
    I.simulation.findSim (I.simulation.component i) = some s ∧ s ∈ I.simulators ∧
    (I.ConnectsTo i j ∨ I.ConnectsTo j i)
  handled : ∀ p, I.Kept p → I.interfaces p ≠ []

omit [DecidableEq Sim] in
lemma dependsOn_iff {remaining : List Proxy} (hr : ∀ p, p ∈ remaining ↔ I.Kept p)
    (c d : Component Sim Proxy) :
    I.DependsOn c d ↔ ((∃ x ∈ I.visits, I.SimEdge x c d) ∨
      ∃ x ∈ remaining.flatMap fun p => (I.interfaces p).map (p,·), I.ProxyEdge x c d) ∨
      ∃ p ∈ remaining, I.PeerEdge p c d := by
  have hmem : ∀ p i, (p,i) ∈ (remaining.flatMap fun p => (I.interfaces p).map (p,·)) ↔
      I.Kept p ∧ i ∈ I.interfaces p := by
    intro p i
    simp [hr]
  constructor
  · intro h
    cases h with
    | @sims i j s t hs ht cross types =>
      exact .inl (.inl ⟨(s,i),cross_visited hs cross,j,t,cross,ht,.inl ⟨types,rfl,rfl⟩⟩)
    | @simProxy p i j s kept hi opposing hs types =>
      exact .inl (.inr ⟨(p,i),(hmem p i).mpr ⟨kept,hi⟩,j,s,opposing,hs,.inl ⟨types,rfl,rfl⟩⟩)
    | @proxySim p i j s kept hi opposing hs types =>
      exact .inl (.inr ⟨(p,i),(hmem p i).mpr ⟨kept,hi⟩,j,s,opposing,hs,.inr ⟨types,rfl,rfl⟩⟩)
    | @proxies p q kept opposing mode =>
      exact .inr ⟨p,(hr p).mpr kept,q,opposing,mode,rfl,rfl⟩
  · rintro ((⟨⟨s,i⟩,hx,j,t,cross,ht,hjoined⟩ | ⟨⟨p,i⟩,hx,j,s,hj,hs,hjoined⟩) |
      ⟨p,hp,q,hq,mode,rfl,rfl⟩)
    · obtain ⟨hs,-⟩ := mem_visits hx
      rcases hjoined with ⟨types,rfl,rfl⟩ | ⟨types,rfl,rfl⟩
      · exact .sims hs ht cross types
      · exact .sims ht hs cross.symm types
    · obtain ⟨kept,hi⟩ := (hmem p i).mp hx
      rcases hjoined with ⟨types,rfl,rfl⟩ | ⟨types,rfl,rfl⟩
      · exact .simProxy kept hi hj hs types
      · exact .proxySim kept hi hj hs types
    · exact .proxies ((hr p).mp hp) hq mode

lemma build_built [DecidableEq Inf] {g : DepGraph Sim Proxy} {remaining : List Proxy}
    (h : I.buildSimulationDependencyGraph = .ok (g,remaining)) : I.Built g remaining := by
  obtain ⟨b₁,h₁,h⟩ := bind_eq_ok.mp h
  obtain ⟨rem,hrem,h⟩ := bind_eq_ok.mp h
  obtain ⟨b₂,h₂,h⟩ := bind_eq_ok.mp h
  obtain ⟨_,h₃,h⟩ := bind_eq_ok.mp h
  obtain ⟨rfl,rfl⟩ := Prod.mk.inj (Except.ok.inj h)
  have hr := removeUnnecessaryProxies_spec hrem
  have hstart : I.Inv (⟨0,.empty,.empty,.empty⟩ : Build Sim Proxy) fun _ _ => False := by
    refine ⟨fun s n hn => (by cases hn),fun p n hn => (by cases hn),fun n l hl => (by cases hl),
      fun a d had => (by cases had),fun c d => ⟨?_,False.elim⟩⟩
    rintro ⟨a,d,had,-⟩
    cases had
  have h₁' : I.visits.foldlM (fun b x => I.addSimSim x.1 b x.2) ⟨0,.empty,.empty,.empty⟩ =
      .ok b₁ := by
    rw [← h₁]
    simp [visits, foldlM_flatMap, foldlM_map]
  have h₂' : (rem.flatMap fun p => (I.interfaces p).map (p,·)).foldlM
      (fun b x => I.addProxySim x.1 b x.2) b₁ = .ok b₂ := by
    rw [← h₂]
    simp [foldlM_flatMap, foldlM_map]
  obtain ⟨hinv₁,hok₁⟩ := hstart.pass (fun x hx b b' E hinv hb =>
    hinv.addSimSim (mem_visits hx).1 (mem_visits hx).2 hb) h₁'
  have hkept : ∀ x ∈ rem.flatMap fun p => (I.interfaces p).map (p,·),
      I.Kept x.1 ∧ x.2 ∈ I.interfaces x.1 := by
    rintro ⟨p,i⟩ hx
    simpa [hr] using hx
  obtain ⟨hinv₂,hok₂⟩ := hinv₁.pass (fun x hx b b' E hinv hb =>
    hinv.addProxySim (hkept x hx).1 (hkept x hx).2 hb) h₂'
  obtain ⟨hinv₃,hok₃⟩ := hinv₂.pass (fun p hp b b' E hinv hb =>
    hinv.addProxyProxy ((hr p).mp hp) hr hb) h₃
  refine ⟨hr,hinv₃.keyed,fun n hn n' hn' => ?_,fun c d => ?_,?_,?_,?_⟩
  · exact (hinv₃.registered_node hn).unique (hinv₃.registered_node hn')
  · rw [hinv₃.edges c d, dependsOn_iff hr]
    simp only [false_or]
  · intro i j s t hs ht cross
    exact hok₁ (s,i) (cross_visited hs cross) j t cross ht
  · intro p i hp hi
    exact hok₂ (p,i) (by simp [hr, hp, hi])
  · intro p hp
    exact hok₃ p ((hr p).mpr hp)

/-! ## What is started -/

namespace Built
variable {g : DepGraph Sim Proxy} {remaining : List Proxy} (h : I.Built g remaining)
include h

lemma exists_node_iff (c : Component Sim Proxy) :
    (∃ n ∈ g.nodes, n.component = c) ↔ (∃ d, I.DependsOn c d) ∨ ∃ d, I.DependsOn d c := by
  constructor
  · rintro ⟨n,hn,rfl⟩
    rcases (DepGraph.mem_nodes h.keyed).mp hn with ⟨d,hd⟩ | ⟨a,ha⟩
    · exact .inl ⟨_,(h.edges _ _).mp ⟨n,d,hd,rfl,rfl⟩⟩
    · exact .inr ⟨_,(h.edges _ _).mp ⟨a,n,ha,rfl,rfl⟩⟩
  · rintro (⟨d,hd⟩ | ⟨d,hd⟩)
    · obtain ⟨n,m,hnm,hn,-⟩ := (h.edges c d).mpr hd
      exact ⟨n,(DepGraph.mem_nodes h.keyed).mpr (.inl ⟨m,hnm⟩),hn⟩
    · obtain ⟨m,n,hmn,-,hn⟩ := (h.edges d c).mpr hd
      exact ⟨n,(DepGraph.mem_nodes h.keyed).mpr (.inr ⟨m,hmn⟩),hn⟩

lemma exists_unique_node (hc : ∃ n ∈ g.nodes, n.component = c) :
    ∃! n, n ∈ g.nodes ∧ n.component = c := by
  obtain ⟨n,hn,rfl⟩ := hc
  exact ⟨n,⟨hn,rfl⟩,fun m hm => h.unique m hm.1 n hn hm.2⟩

lemma acyclic_iff : TopoSort.Acyclic g.nodes g.deps ↔ ∀ c, ¬ Relation.TransGen I.DependsOn c c := by
  have hedge : ∀ a d, TopoSort.Before g.nodes g.deps d a ↔ g.Edge a d := by
    intro a d
    refine ⟨fun hb => hb.2,fun he => ⟨(DepGraph.mem_nodes h.keyed).mpr (.inl ⟨d,he⟩),he⟩⟩
  constructor
  · intro hacyclic c hcycle
    have hlift : ∀ c d, Relation.TransGen I.DependsOn c d → ∀ n ∈ g.nodes, n.component = c →
        ∃ m ∈ g.nodes, m.component = d ∧
          Relation.TransGen (TopoSort.Before g.nodes g.deps) m n := by
      intro c d hcd
      have hone : ∀ c d, I.DependsOn c d → ∀ n ∈ g.nodes, n.component = c →
          ∃ m ∈ g.nodes, m.component = d ∧ TopoSort.Before g.nodes g.deps m n := by
        intro c d hcd n hn hnc
        obtain ⟨a,m,ham,ha,hm⟩ := (h.edges c d).mpr hcd
        obtain rfl : a = n := h.unique a ((DepGraph.mem_nodes h.keyed).mpr (.inl ⟨m,ham⟩)) n hn
          (ha.trans hnc.symm)
        exact ⟨m,(DepGraph.mem_nodes h.keyed).mpr (.inr ⟨a,ham⟩),hm,(hedge a m).mpr ham⟩
      induction hcd with
      | single hcd =>
        intro n hn hnc
        obtain ⟨m,hm,hmd,hb⟩ := hone _ _ hcd n hn hnc
        exact ⟨m,hm,hmd,.single hb⟩
      | tail _ hcd ih =>
        intro n hn hnc
        obtain ⟨k,hk,hkc,hkn⟩ := ih n hn hnc
        obtain ⟨m,hm,hmd,hb⟩ := hone _ _ hcd k hk hkc
        exact ⟨m,hm,hmd,.head hb hkn⟩
    obtain ⟨d,hd,-⟩ := Relation.TransGen.head'_iff.mp hcycle
    obtain ⟨n,hn,hnc⟩ := (h.exists_node_iff c).mpr (.inl ⟨d,hd⟩)
    obtain ⟨m,hm,hmc,hmn⟩ := hlift c c hcycle n hn hnc
    obtain rfl : m = n := h.unique m hm n hn (hmc.trans hnc.symm)
    exact hacyclic m hmn
  · intro hacyclic n hcycle
    have hproj : ∀ a b, Relation.TransGen (TopoSort.Before g.nodes g.deps) a b →
        Relation.TransGen I.DependsOn b.component a.component := by
      intro a b hab
      induction hab with
      | single hb => exact .single ((h.edges _ _).mp ⟨_,_,(hedge _ _).mp hb,rfl,rfl⟩)
      | tail _ hb ih => exact .head ((h.edges _ _).mp ⟨_,_,(hedge _ _).mp hb,rfl,rfl⟩) ih
    exact hacyclic _ (hproj n n hcycle)

lemma order_complete :
    (∀ n ∈ g.nodes, n ∈ TopoSort.order g.nodes g.deps) ↔ ∀ c,
    ¬ Relation.TransGen I.DependsOn c c := by
  rw [← h.acyclic_iff]
  refine TopoSort.order_complete_iff (nodup_dedup _) fun n hn d hd => ?_
  exact (DepGraph.mem_nodes h.keyed).mpr (.inr ⟨n,hd⟩)

lemma runStarts_of_cycle (hcycle : ∃ c, Relation.TransGen I.DependsOn c c) : g.runStarts = [] := by
  refine if_neg fun hall => ?_
  obtain ⟨c,hc⟩ := hcycle
  exact h.order_complete.mp hall c hc

/-- Without a cycle each component of the graph is started once. -/
lemma count_started (hacyclic : ∀ c, ¬ Relation.TransGen I.DependsOn c c)
    (hc : ∃ n ∈ g.nodes, n.component = c) : (g.runStarts.map (·.component)).count c = 1 := by
  have hall := h.order_complete.mpr hacyclic
  have htaken : TopoSort.Taken g.nodes g.deps (TopoSort.order g.nodes g.deps) :=
    TopoSort.order_taken (nodup_dedup _)
  have hruns : g.runStarts = TopoSort.order g.nodes g.deps := if_pos hall
  rw [hruns]
  obtain ⟨n,hn,rfl⟩ := hc
  apply count_eq_one_of_mem
  · exact htaken.nodup.map_on fun a ha b hb heq =>
      h.unique a (htaken.subset a ha) b (htaken.subset b hb) heq
  · exact mem_map.mpr ⟨n,hall n hn,rfl⟩

end Built

/-- The graph has what the fragment needs, and the executor starts it. -/
structure Complete (I : Instantiation Sim Comp Inf Proxy) (g : DepGraph Sim Proxy)
    (remaining : List Proxy) : Prop where
  sims : ∀ s ∈ I.simulators, ∃! n, n ∈ g.nodes ∧ n.component = .simulator s
  proxies : ∀ p ∈ remaining, ∃! n, n ∈ g.nodes ∧ n.component = .proxy p
  simsStarted : ∀ s ∈ I.simulators, (g.runStarts.map (·.component)).count (.simulator s) = 1
  proxiesStarted : ∀ p ∈ remaining, (g.runStarts.map (·.component)).count (.proxy p) = 1
  simListener : ∀ s ∈ I.simulators, ∀ i j t, I.simulation.Cross i j s t →
    I.infSocktype i = some .connect →
    (t ∈ I.simulators ∧ g.HasEdge (.simulator s) (.simulator t)) ∨
    (t ∉ I.simulators ∧ ∃ p ∈ remaining, i ∈ I.interfaces p ∧ g.HasEdge (.simulator s) (.proxy p))
  proxyListener : ∀ p ∈ remaining, ∀ i ∈ I.interfaces p, ∀ j s, I.simulation.opposing i = some j →
    I.simulation.findSim (I.simulation.component i) = some s →
    I.infSocktype j = some .connect → g.HasEdge (.proxy p) (.simulator s)
  proxyPeer : ∀ p ∈ remaining, ∀ q, I.fragments.findOpposingProxy p = some q →
    I.connectionMode p = some .connect → g.HasEdge (.proxy p) (.externalProxy q)

/-- What makes the graph complete: every simulator has a channel to another
one, channels that leave the fragment have a proxy where a simulator connects,
and no component connects back to itself. -/
structure Startable (I : Instantiation Sim Comp Inf Proxy) : Prop where
  linked : ∀ s ∈ I.simulators, (∃ i j t, I.simulation.Cross i j s t ∧ t ∈ I.simulators) ∨
    ∃ p i, I.Kept p ∧ i ∈ I.interfaces p ∧ I.simulation.findSim (I.simulation.component i) = some s
  proxied : ∀ s ∈ I.simulators, ∀ i j t, I.simulation.Cross i j s t → t ∉ I.simulators →
    I.infSocktype i = some .connect → ∃ p, I.Kept p ∧ i ∈ I.interfaces p
  acyclic : ∀ c, ¬ Relation.TransGen I.DependsOn c c

section
variable {g : DepGraph Sim Proxy} {remaining : List Proxy}

lemma Built.sim_node_iff (h : I.Built g remaining) (hs : s ∈ I.simulators) :
    (∃ n ∈ g.nodes, n.component = .simulator s) ↔
    (∃ i j t, I.simulation.Cross i j s t ∧ t ∈ I.simulators) ∨ ∃ p i, I.Kept p ∧ i ∈ I.interfaces
    p ∧ I.simulation.findSim (I.simulation.component i) = some s := by
  rw [h.exists_node_iff]
  constructor
  · rintro (⟨d,hd⟩ | ⟨d,hd⟩)
    · cases hd with
      | @sims i j _ t _ ht cross _ => exact .inl ⟨i,j,t,cross,ht⟩
      | @simProxy p i _ _ kept hi _ hfind _ => exact .inr ⟨p,i,kept,hi,hfind⟩
    · cases hd with
      | @sims i j t _ ht _ cross _ => exact .inl ⟨j,i,t,cross.symm,ht⟩
      | @proxySim p i _ _ kept hi _ hfind _ => exact .inr ⟨p,i,kept,hi,hfind⟩
  · rintro (⟨i,j,t,cross,ht⟩ | ⟨p,i,kept,hi,hfind⟩)
    · rcases h.simTypes i j s t hs ht cross with types | types
      · exact .inl ⟨_,.sims hs ht cross types⟩
      · exact .inr ⟨_,.sims ht hs cross.symm types⟩
    · obtain ⟨j,s',hj,hs',-,types⟩ := h.proxyTypes p i kept hi
      rcases types with types | types
      · exact .inl ⟨_,.simProxy kept hi hj hfind types⟩
      · exact .inr ⟨_,.proxySim kept hi hj hfind types⟩

lemma Built.proxy_node (h : I.Built g remaining) (hp : I.Kept p) :
    ∃ n ∈ g.nodes, n.component = .proxy p := by
  rw [h.exists_node_iff]
  obtain ⟨i,hi⟩ := exists_mem_of_ne_nil _ (h.handled p hp)
  obtain ⟨j,s,hj,hs,-,types⟩ := h.proxyTypes p i hp hi
  rcases types with types | types
  · exact .inr ⟨_,.simProxy hp hi hj hs types⟩
  · exact .inl ⟨_,.proxySim hp hi hj hs types⟩

omit [DecidableEq Sim] [DecidableEq Proxy] in
lemma connectsTo_of_connect (h : I.ConnectsTo i j ∨ I.ConnectsTo j i)
    (hi : I.infSocktype i = some .connect) : I.ConnectsTo i j := by
  rcases h with h | h
  · exact h
  · have := hi.symm.trans h.2
    cases this

lemma Built.complete (h : I.Built g remaining) (hI : I.Startable) : I.Complete g remaining := by
  have hsim : ∀ s ∈ I.simulators, ∃ n ∈ g.nodes, n.component = .simulator s :=
    fun s hs => (h.sim_node_iff hs).mpr (hI.linked s hs)
  have hproxy : ∀ p ∈ remaining, ∃ n ∈ g.nodes, n.component = .proxy p :=
    fun p hp => h.proxy_node ((h.remaining p).mp hp)
  refine ⟨fun s hs => h.exists_unique_node (hsim s hs),
    fun p hp => h.exists_unique_node (hproxy p hp),
    fun s hs => h.count_started hI.acyclic (hsim s hs),
    fun p hp => h.count_started hI.acyclic (hproxy p hp),?_,?_,?_⟩
  · intro s hs i j t cross hi
    by_cases ht : t ∈ I.simulators
    · have types := connectsTo_of_connect (h.simTypes i j s t hs ht cross) hi
      exact .inl ⟨ht,(h.edges _ _).mpr (.sims hs ht cross types)⟩
    · obtain ⟨p,hp,hip⟩ := hI.proxied s hs i j t cross ht hi
      obtain ⟨j',_,hj',-,-,htypes⟩ := h.proxyTypes p i hp hip
      cases cross.opposing.symm.trans hj'
      refine .inr ⟨ht,p,(h.remaining p).mpr hp,hip,(h.edges _ _).mpr ?_⟩
      exact .simProxy hp hip cross.opposing cross.left (connectsTo_of_connect htypes hi)
  · intro p hp i hi j s hj hs hconnect
    have hkept := (h.remaining p).mp hp
    obtain ⟨j',-,hj',-,-,htypes⟩ := h.proxyTypes p i hkept hi
    cases hj.symm.trans hj'
    exact (h.edges _ _).mpr
      (.proxySim hkept hi hj hs (connectsTo_of_connect htypes.symm hconnect))
  · intro p hp q hq hmode
    exact (h.edges _ _).mpr (.proxies ((h.remaining p).mp hp) hq hmode)

lemma Built.startable (h : I.Built g remaining) (hg : I.Complete g remaining) : I.Startable := by
  refine ⟨fun s hs => (h.sim_node_iff hs).mp (hg.sims s hs).exists,?_,?_⟩
  · intro s hs i j t cross ht hi
    rcases hg.simListener s hs i j t cross hi with ⟨hin,-⟩ | ⟨-,p,hp,hip,-⟩
    · exact absurd hin ht
    · exact ⟨p,(h.remaining p).mp hp,hip⟩
  · intro c hcycle
    have hnone := h.runStarts_of_cycle ⟨c,hcycle⟩
    -- the first component of the cycle is in the fragment and would have been started
    have hsim : ∀ s ∈ I.simulators, False := by
      intro s hs
      have := hg.simsStarted s hs
      simp [hnone] at this
    have hproxy : ∀ p, I.Kept p → False := by
      intro p hp
      have := hg.proxiesStarted p ((h.remaining p).mpr hp)
      simp [hnone] at this
    obtain ⟨d,hd,-⟩ := Relation.TransGen.head'_iff.mp hcycle
    cases hd with
    | sims hs => exact hsim _ hs
    | simProxy kept _ _ _ _ | proxySim kept _ _ _ _ | proxies kept _ _ => exact hproxy _ kept

/-- A graph that is returned is complete, and all of the fragment is started
once, exactly if the fragment is startable. -/
theorem graph_complete_iff [DecidableEq Inf] (I : Instantiation Sim Comp Inf Proxy)
    (g : DepGraph Sim Proxy) (remaining : List Proxy)
    (h : I.buildSimulationDependencyGraph = .ok (g,remaining)) :
    I.Complete g remaining ↔ I.Startable :=
  ⟨(build_built h).startable,(build_built h).complete⟩

end
end Instantiation

/-! ## Fragments -/

def pair : Instantiation Bool Bool Bool Unit where
  simulation :=
    { simList := [false,true]
      components := fun s => [s]
      interfaces := fun k => [k]
      component := id
      opposing := fun i => some !i
      findSim := fun k => some k
      supportedSocketTypes := fun _ _ _ => true
      nodup := by decide
      added := by decide
      mapped := by decide
      owned := by decide
      listed := by decide
      opposing_symm := by decide }
  fragments := ⟨[[]],[]⟩
  simulators := [false,true]
  proxies := []
  interfaces := fun _ => []
  isDummy := fun _ => false
  infSocktype := fun i => some (if i then .listen else .connect)
  connectionMode := fun _ => none
  proxies_nodup := by decide

theorem graph_complete_pair : ∃ g, pair.buildSimulationDependencyGraph = .ok (g,[]) ∧
    pair.Startable ∧ pair.Complete g [] := by
  have hcross : pair.simulation.Cross false true false true := ⟨rfl,rfl,rfl,by decide⟩
  have hacyclic : ∀ c, ¬ Relation.TransGen pair.DependsOn c c :=
    (Instantiation.build_built rfl).order_complete.mp (by decide +kernel)
  have hstart : pair.Startable := by
    refine ⟨fun s hs => .inl ?_,fun s _ i j t _ ht => absurd (by cases t <;> decide) ht,hacyclic⟩
    cases s
    · exact ⟨false,true,true,hcross,by decide⟩
    · exact ⟨true,false,false,hcross.symm,by decide⟩
  exact ⟨_,rfl,hstart,(Instantiation.graph_complete_iff pair _ [] rfl).mpr hstart⟩

def lone : Instantiation Bool Bool Bool Unit := { pair with
  simulation := { pair.simulation with
    simList := [false]
    components := fun s => if s then [] else [false,true]
    findSim := fun _ => some false
    nodup := by decide
    added := by decide
    mapped := by decide
    owned := by decide
    listed := by decide }
  simulators := [false]
  infSocktype := fun _ => none }

/-- Four simulators in a row, the inner two in the fragment. Both channels that
leave it go through the first proxy, whose peer is the second. -/
def detour : Instantiation (Bool × Bool) (Bool × Bool) (Place × Bool) Bool where
  simulation :=
    { simList := [(false,false),(false,true),(true,false),(true,true)]
      components := fun s => [s]
      interfaces := fun
        | (false,false) => [(.first,false)]
        | (false,true) => [(.first,true),(.second,false)]
        | (true,false) => [(.second,true),(.third,false)]
        | (true,true) => [(.third,true)]
      component := fun
        | (.first,false) => (false,false)
        | (.first,true) | (.second,false) => (false,true)
        | (.second,true) | (.third,false) => (true,false)
        | (.third,true) => (true,true)
      opposing := fun i => some (i.1,!i.2)
      findSim := fun k => some k
      supportedSocketTypes := fun _ _ _ => true
      nodup := by decide
      added := by decide
      mapped := by decide
      owned := by decide
      listed := by decide
      opposing_symm := by decide }
  fragments := ⟨[[false],[true]],[(false,true)]⟩
  simulators := [(false,true),(true,false)]
  proxies := [false]
  interfaces := fun p => [(.first,!p),(.third,p)]
  isDummy := fun _ => false
  infSocktype := fun i => some (if i.2 then .listen else .connect)
  connectionMode := fun p => some (if p then .connect else .listen)
  proxies_nodup := by decide

/-- The lone simulator is not in its graph. In the second fragment the second
simulator waits for the proxy, the proxy for the first and that one for the
second, so nothing is started. -/
theorem fragments_not_started :
    (∃ g, finalizeValidate lone.simulation lone.fragments (fun _ => none,fun _ => none) =
        some (lone.infSocktype,lone.connectionMode) ∧
      lone.buildSimulationDependencyGraph = .ok (g,[]) ∧ g.nodes = [] ∧ g.runStarts = [] ∧
      ¬ lone.Complete g []) ∧
    ∃ g, finalizeValidate detour.simulation detour.fragments (fun _ => none,fun _ => none) =
        some (detour.infSocktype,detour.connectionMode) ∧
      detour.buildSimulationDependencyGraph = .ok (g,[false]) ∧ g.nodes.length = 3 ∧
      g.runStarts = [] ∧ ¬ detour.Complete g [false] := by
  refine ⟨⟨_,by decide +kernel,rfl,by decide +kernel,by decide +kernel,fun h => ?_⟩,
    ⟨_,by decide +kernel,rfl,by decide +kernel,by decide +kernel,fun h => ?_⟩⟩
  · exact absurd (h.simsStarted false (by decide)) (by decide +kernel)
  · exact absurd (h.simsStarted (false,true) (by decide)) (by decide +kernel)

end SimBricks.Orchestration
