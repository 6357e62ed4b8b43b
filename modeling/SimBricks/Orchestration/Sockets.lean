import SimBricks.Library.Run

/-!
# Socket types of `instantiation/base.py`

Every channel between two simulators needs one end that listens and one that
connects. The pass over all simulators, components and interfaces decides it
at the first end it meets, for connecting if that is possible. A raised
exception is `none`.
-/

set_option autoImplicit false

namespace SimBricks.Orchestration
open Library Library.Run List Function Option

inductive SockType where
  | listen | connect
  deriving DecidableEq, Repr

def SockType.other : SockType → SockType
  | .listen => .connect
  | .connect => .listen

@[simp] lemma SockType.other_other (ty : SockType) : ty.other.other = ty := by
  cases ty <;> rfl

variable {Sim Comp Inf Proxy : Type}

/-- The simulators with the components they simulate. The fields say what
`add_sim`, `Simulator.add`, `add_if` and `Channel` see to. -/
structure Simulation (Sim Comp Inf : Type) where
  simList : List Sim
  components : Sim → List Comp
  interfaces : Comp → List Inf
  component : Inf → Comp
  opposing : Inf → Option Inf
  findSim : Comp → Option Sim
  supportedSocketTypes : Sim → Inf → SockType → Bool
  nodup : simList.Nodup
  added : ∀ k s, findSim k = some s → s ∈ simList ∧ k ∈ components s
  mapped : ∀ k s, k ∈ components s → findSim k = some s
  owned : ∀ i k, i ∈ interfaces k → component i = k
  listed : ∀ i j, opposing i = some j → i ∈ interfaces (component i)
  opposing_symm : ∀ i j, opposing i = some j → opposing j = some i

abbrev Assignment (Inf : Type) := Inf → Option SockType

namespace Simulation
variable [DecidableEq Sim] [DecidableEq Inf] (S : Simulation Sim Comp Inf)

def assignInf (simA : Sim) (m : Assignment Inf) (infA : Inf) : Option (Assignment Inf) :=
  if (m infA).isSome then some m
  else do
    let infB ← S.opposing infA
    let own ← S.findSim (S.component infA)
    let simB ← S.findSim (S.component infB)
    if infA = infB then none
    else if own = simB then some m
    else if S.supportedSocketTypes simA infA .connect &&
        S.supportedSocketTypes simB infB .listen then
      some (update (update m infA (some .connect)) infB (some .listen))
    else if S.supportedSocketTypes simA infA .listen &&
        S.supportedSocketTypes simB infB .connect then
      some (update (update m infA (some .listen)) infB (some .connect))
    else none

def assignInterfaceSocktype (m : Assignment Inf) : Option (Assignment Inf) :=
  S.simList.foldlM (fun m simA =>
    (S.components simA).foldlM (fun m compA =>
      (S.interfaces compA).foldlM (S.assignInf simA) m) m) m

end Simulation

/-- The fragments with their proxies, and the pairs of proxies. -/
structure Fragments (Proxy : Type) where
  allProxies : List (List Proxy)
  pairs : List (Proxy × Proxy)

namespace Fragments
variable [DecidableEq Proxy] (F : Fragments Proxy)

def findOpposingProxy (p : Proxy) : Option Proxy :=
  (F.pairs.find? fun x => x.1 = p || x.2 = p).map fun x => if x.2 = p then x.1 else x.2

def assignProxy (modes : Proxy → Option SockType) (p : Proxy) : Option (Proxy → Option SockType) :=
  if (modes p).isSome then some modes
  else do
    let q ← F.findOpposingProxy p
    if (modes q).isSome then none
    else some (update (update modes p (some .listen)) q (some .connect))

def assignProxySocktype (modes : Proxy → Option SockType) : Option (Proxy → Option SockType) :=
  F.allProxies.foldlM (fun modes proxies => proxies.foldlM F.assignProxy modes) modes

end Fragments

def finalizeValidate [DecidableEq Sim] [DecidableEq Inf] [DecidableEq Proxy]
    (S : Simulation Sim Comp Inf) (F : Fragments Proxy)
    (x : Assignment Inf × (Proxy → Option SockType)) :
    Option (Assignment Inf × (Proxy → Option SockType)) := do
  let m ← S.assignInterfaceSocktype x.1
  let modes ← F.assignProxySocktype x.2
  return (m,modes)

namespace Simulation
variable (S : Simulation Sim Comp Inf)

structure Cross (i j : Inf) (s t : Sim) : Prop where
  opposing : S.opposing i = some j
  left : S.findSim (S.component i) = some s
  right : S.findSim (S.component j) = some t
  ne : s ≠ t

def Internal (i : Inf) : Prop := ∃ j s, S.opposing i = some j ∧ S.findSim (S.component i) = some s ∧
    S.findSim (S.component j) = some s ∧ i ≠ j

/-- What a simulator supports does not depend on the interface. -/
def Uniform : Prop := ∀ s i j, S.supportedSocketTypes s i = S.supportedSocketTypes s j

def Connects (m : Assignment Inf) (s t : Sim) : Prop := ∃ i j, S.Cross i j s t ∧ m i = some .connect

end Simulation

/-! ## The pass -/

namespace Simulation
variable {S : Simulation Sim Comp Inf}

variable (S) in
def visits : List (Sim × Inf) :=
  S.simList.flatMap fun s => (S.components s).flatMap fun k => (S.interfaces k).map (s,·)

lemma mem_visits {s : Sim} {i : Inf} :
    (s,i) ∈ S.visits ↔ s ∈ S.simList ∧ ∃ k ∈ S.components s, i ∈ S.interfaces k := by
  simp [visits]

lemma Cross.symm {i j : Inf} {s t : Sim} (h : S.Cross i j s t) : S.Cross j i t s :=
  ⟨S.opposing_symm i j h.opposing,h.right,h.left,h.ne.symm⟩

lemma Cross.visited {i j : Inf} {s t : Sim} (h : S.Cross i j s t) : (s,i) ∈ S.visits :=
  mem_visits.mpr ⟨(S.added _ s h.left).1,_,(S.added _ s h.left).2,S.listed i j h.opposing⟩

lemma Cross.distinct {i j : Inf} {s t : Sim} (h : S.Cross i j s t) : i ≠ j := by
  rintro rfl
  exact h.ne (some.inj (h.left.symm.trans h.right))

lemma Cross.not_internal {i j : Inf} {s t : Sim} (h : S.Cross i j s t) : ¬ S.Internal i := by
  rintro ⟨k,u,hk,hi,hj,-⟩
  cases h.opposing.symm.trans hk
  exact h.ne (some.inj ((h.left.symm.trans hi).trans (hj.symm.trans h.right)))

lemma findSim_of_visited {s : Sim} {i : Inf} (h : (s,i) ∈ S.visits) :
    S.findSim (S.component i) = some s := by
  obtain ⟨-,k,hk,hi⟩ := mem_visits.mp h
  rw [S.owned i k hi]
  exact S.mapped k s hk

lemma visits_ordered [DecidableEq Sim] :
    S.visits.Pairwise fun x y => S.simList.idxOf x.1 ≤ S.simList.idxOf y.1 := by
  have hfst : ∀ s, ∀ x ∈ (S.components s).flatMap fun k => (S.interfaces k).map (s,·), x.1 = s := by
    intro s x hx
    obtain ⟨k,-,hx⟩ := mem_flatMap.mp hx
    obtain ⟨i,-,rfl⟩ := mem_map.mp hx
    rfl
  unfold visits
  rw [pairwise_flatMap]
  constructor
  · intro s _
    refine pairwise_of_forall_mem_list fun x hx y hy => ?_
    rw [hfst s x hx, hfst s y hy]
  · rw [pairwise_iff_getElem]
    intro a b ha hb hab x hx y hy
    rw [hfst _ x hx, hfst _ y hy, S.nodup.idxOf_getElem, S.nodup.idxOf_getElem]
    exact hab.le

variable [DecidableEq Sim]

variable (S) in
structure Inv (done : List (Sim × Inf)) (m : Assignment Inf) : Prop where
  typed : ∀ i ty, m i = some ty → ∃ j s t, S.Cross i j s t ∧ m j = some ty.other ∧
    S.supportedSocketTypes s i ty ∧ S.supportedSocketTypes t j ty.other
  visited : ∀ x ∈ done, (m x.2).isSome ∨ S.Internal x.2
  ordered : ∀ i j s t, S.Cross i j s t → m i = some .connect →
    S.simList.idxOf s < S.simList.idxOf t ∨ S.supportedSocketTypes s i .listen = false ∨
      S.supportedSocketTypes t j .connect = false

lemma Inv.init : Inv S [] fun _ => none := ⟨by simp,by simp,by simp⟩

lemma Inv.opposite {done : List (Sim × Inf)} {m : Assignment Inf} (h : Inv S done m) {i j : Inf}
    {s t : Sim} (hc : S.Cross i j s t) (hi : m i = none) : m j = none := by
  by_contra hj
  obtain ⟨ty,hty⟩ := ne_none_iff_exists'.mp hj
  obtain ⟨k,_,_,hcross,hk,-⟩ := h.typed j ty hty
  cases hc.symm.opposing.symm.trans hcross.opposing
  cases hi.symm.trans hk

lemma Inv.later {done rest : List (Sim × Inf)} {m : Assignment Inf} (h : Inv S done m) {i j : Inf}
    {s t : Sim} (hl : S.visits = done++(s,i)::rest) (hc : S.Cross i j s t) (hi : m i = none) :
    S.simList.idxOf s < S.simList.idxOf t := by
  have hmem := hc.symm.visited
  rw [hl, mem_append, mem_cons] at hmem
  rcases hmem with hdone | heq | hrest
  · have hj := (h.visited _ hdone).resolve_right hc.symm.not_internal
    rw [h.opposite hc hi] at hj
    cases hj
  · exact absurd (Prod.mk.inj heq).1.symm hc.ne
  · have hord := S.visits_ordered
    rw [hl, pairwise_append, pairwise_cons] at hord
    refine lt_of_le_of_ne (hord.2.1.1 _ hrest) fun heq => hc.ne ?_
    exact (idxOf_inj (S.added _ s hc.left).1).mp heq

open Classical in
variable (S) in
/-- Simulators that only connect, then the others in the order of the pass,
then those that only listen. -/
noncomputable def rank (s : Sim) : ℕ :=
  if ∃ i, S.supportedSocketTypes s i .listen then
    if ∃ i, S.supportedSocketTypes s i .connect then 1+S.simList.idxOf s
    else 1+S.simList.length
  else 0

lemma Inv.rank_lt {done : List (Sim × Inf)} {m : Assignment Inf} (h : Inv S done m)
    (hu : S.Uniform) {s t : Sim} (hst : S.Connects m s t) : S.rank s < S.rank t := by
  obtain ⟨i,j,hc,hi⟩ := hst
  obtain ⟨k,s',t',hc',-,hs,ht⟩ := h.typed i .connect hi
  cases hc.opposing.symm.trans hc'.opposing
  cases hc.left.symm.trans hc'.left
  cases hc.right.symm.trans hc'.right
  have hex : ∀ u k ty, (∃ i, S.supportedSocketTypes u i ty) ↔
      S.supportedSocketTypes u k ty := fun u k ty =>
    ⟨fun ⟨i,hi⟩ => by rwa [hu u k i],fun hk => ⟨k,hk⟩⟩
  have hidx : S.simList.idxOf s < S.simList.length := idxOf_lt_length_of_mem (S.added _ s hc.left).1
  unfold rank
  rw [if_pos ((hex t j .listen).mpr ht), if_pos ((hex s i .connect).mpr hs)]
  split_ifs with hsl htc htc
  · have hlt := h.ordered i j s t hc hi
    rw [(hex s i .listen).mp hsl, (hex t j .connect).mp htc] at hlt
    simpa using hlt
  · omega
  · omega
  · omega

lemma Inv.acyclic {done : List (Sim × Inf)} {m : Assignment Inf} (h : Inv S done m)
    (hu : S.Uniform) (s : Sim) : ¬ Relation.TransGen (S.Connects m) s s := by
  have hlt : ∀ t, Relation.TransGen (S.Connects m) s t → S.rank s < S.rank t := by
    intro t hst
    induction hst with
    | single hst => exact h.rank_lt hu hst
    | tail _ hst ih => exact ih.trans (h.rank_lt hu hst)
  exact fun hs => absurd (hlt s hs) (Nat.lt_irrefl _)

variable [DecidableEq Inf]

lemma assign_eq (m : Assignment Inf) :
    S.assignInterfaceSocktype m = S.visits.foldlM (fun m x => S.assignInf x.1 m x.2) m := by
  unfold assignInterfaceSocktype visits
  simp [foldlM_flatMap, foldlM_map]

variable (S) in
/-- Types for the two ends of a channel, connecting at the end that is met
first if both sides can. -/
structure Chosen (i j : Inf) (s t : Sim) (ty : SockType) : Prop where
  cross : S.Cross i j s t
  left : S.supportedSocketTypes s i ty
  right : S.supportedSocketTypes t j ty.other
  choice : ty = .connect ∨ S.supportedSocketTypes s i .connect = false ∨
    S.supportedSocketTypes t j .listen = false

lemma assignInf_cases {s : Sim} {i : Inf} (hx : (s,i) ∈ S.visits) {m m' : Assignment Inf}
    (h : S.assignInf s m i = some m') :
    (m' = m ∧ ((m i).isSome ∨ S.Internal i)) ∨
    (m i = none ∧ ∃ j t ty, S.Chosen i j s t ty ∧
      m' = update (update m i (some ty)) j (some ty.other)) := by
  unfold assignInf at h
  split_ifs at h with hi
  · exact .inl ⟨(some.inj h).symm,.inl hi⟩
  · simp only [bind_eq_bind, bind_eq_some_iff] at h
    obtain ⟨j,hj,own,hown,t,ht,h⟩ := h
    cases (findSim_of_visited hx).symm.trans hown
    split_ifs at h with hij hst hc hl
    · exact .inl ⟨(some.inj h).symm,.inr ⟨j,t,hj,hst ▸ hown,ht,hij⟩⟩
    · obtain ⟨hs,ht'⟩ := Bool.and_eq_true_iff.mp hc
      exact .inr ⟨by simpa using hi,j,t,.connect,⟨⟨hj,hown,ht,hst⟩,hs,ht',.inl rfl⟩,
        (some.inj h).symm⟩
    · obtain ⟨hs,ht'⟩ := Bool.and_eq_true_iff.mp hl
      exact .inr ⟨by simpa using hi,j,t,.listen,⟨⟨hj,hown,ht,hst⟩,hs,ht',
        .inr (by simpa [Classical.or_iff_not_imp_left] using hc)⟩,(some.inj h).symm⟩

section
variable {done rest : List (Sim × Inf)} {m : Assignment Inf} {i j : Inf} {s t : Sim} {ty : SockType}

lemma Inv.typed_update (h : Inv S done m) (hi : m i = none) (hch : S.Chosen i j s t ty) (k : Inf)
    (ty' : SockType) (hk : update (update m i (some ty)) j (some ty.other) k = some ty') :
    ∃ j' s t, S.Cross k j' s t ∧
    update (update m i (some ty)) j (some ty.other) j' = some ty'.other ∧
    S.supportedSocketTypes s k ty' ∧ S.supportedSocketTypes t j' ty'.other := by
  have hij := hch.cross.distinct
  have hj := h.opposite hch.cross hi
  by_cases hkj : k = j
  · subst hkj
    obtain rfl : ty.other = ty' := by simpa using hk
    refine ⟨i,t,s,hch.cross.symm,?_,hch.right,?_⟩
    · rw [update_of_ne hij, update_self, SockType.other_other]
    · rw [SockType.other_other]
      exact hch.left
  · rw [update_of_ne hkj] at hk
    by_cases hki : k = i
    · subst hki
      obtain rfl : ty = ty' := by simpa using hk
      exact ⟨j,s,t,hch.cross,by simp,hch.left,hch.right⟩
    · rw [update_of_ne hki] at hk
      obtain ⟨j',s',t',hcross,hj',hl,hr⟩ := h.typed k ty' hk
      have hne : ∀ x, m x = none → j' ≠ x := by
        rintro x hx rfl
        cases hx.symm.trans hj'
      exact ⟨j',s',t',hcross,by rwa [update_of_ne (hne j hj), update_of_ne (hne i hi)],hl,hr⟩

lemma Inv.ordered_update (h : Inv S done m) (hl : S.visits = done++(s,i)::rest) (hi : m i = none)
    (hch : S.Chosen i j s t ty) (a b : Inf) (u v : Sim) (hc : S.Cross a b u v)
    (ha : update (update m i (some ty)) j (some ty.other) a = some .connect) :
    S.simList.idxOf u < S.simList.idxOf v ∨ S.supportedSocketTypes u a .listen = false ∨
    S.supportedSocketTypes v b .connect = false := by
  by_cases haj : a = j
  · -- the end met first listens, so it could not connect
    subst haj
    have hty : ty.other = .connect := by simpa using ha
    cases hch.cross.symm.opposing.symm.trans hc.opposing
    cases hch.cross.right.symm.trans hc.left
    cases hch.cross.left.symm.trans hc.right
    rcases hch.choice with rfl | hs | ht
    · cases hty
    · exact .inr (.inr hs)
    · exact .inr (.inl ht)
  · rw [update_of_ne haj] at ha
    by_cases hai : a = i
    · subst hai
      cases hch.cross.left.symm.trans hc.left
      exact .inl (h.later hl hc hi)
    · rw [update_of_ne hai] at ha
      exact h.ordered a b u v hc ha

lemma Inv.visit (h : Inv S done m) (hl : S.visits = done++(s,i)::rest) {m' : Assignment Inf}
    (hm : S.assignInf s m i = some m') : Inv S (done++[(s,i)]) m' := by
  have hx : (s,i) ∈ S.visits := by simp [hl]
  rcases assignInf_cases hx hm with ⟨rfl,hsome⟩ | ⟨hi,j,t,_,hch,rfl⟩
  · refine ⟨h.typed,fun x hx => ?_,h.ordered⟩
    rcases mem_append.mp hx with hx | hx
    · exact h.visited x hx
    · rw [mem_singleton.mp hx]
      exact hsome
  · refine ⟨h.typed_update hi hch,fun x hx => ?_,h.ordered_update hl hi hch⟩
    by_cases hxj : x.2 = j
    · simp [hxj]
    · rw [update_of_ne hxj]
      by_cases hxi : x.2 = i
      · simp [hxi]
      · rw [update_of_ne hxi]
        refine h.visited x ((mem_append.mp hx).resolve_right fun hx => ?_)
        exact hxi (congrArg Prod.snd (mem_singleton.mp hx))

end

lemma Inv.of_assign {m : Assignment Inf} (h : S.assignInterfaceSocktype (fun _ => none) = some m) :
    Inv S S.visits m := by
  rw [assign_eq] at h
  exact foldlM_invariant (fun done x rest m m' hl hi hm => hi.visit hl hm) Inv.init h

lemma Inv.again {m : Assignment Inf} (h : Inv S S.visits m) :
    S.assignInterfaceSocktype m = some m := by
  rw [assign_eq]
  refine foldlM_fixed fun x hx => ?_
  unfold assignInf
  split_ifs with hi
  · rfl
  · obtain ⟨j,s,hj,hs,ht,hne⟩ := (h.visited x hx).resolve_left hi
    simp [hj, hs, ht, hne]

end Simulation

/-! ## The proxies -/

namespace Fragments
variable [DecidableEq Proxy] {F : Fragments Proxy}

lemma assignProxy_eq (modes : Proxy → Option SockType) :
    F.assignProxySocktype modes = F.allProxies.flatten.foldlM F.assignProxy modes := by
  rw [← flatMap_id, foldlM_flatMap]
  rfl

lemma assigned {modes modes' : Proxy → Option SockType}
    (h : F.assignProxySocktype modes = some modes') :
    ∀ p ∈ F.allProxies.flatten, (modes' p).isSome := by
  rw [assignProxy_eq] at h
  refine foldlM_invariant (I := fun done modes => ∀ p ∈ done, (modes p).isSome)
    (fun done p rest modes modes' _ hdone hp => ?_) (by simp) h
  unfold assignProxy at hp
  split_ifs at hp with hmode
  · cases hp
    simpa [or_imp, forall_and, hmode] using hdone
  · obtain ⟨q,-,hq⟩ := bind_eq_some_iff.mp hp
    split_ifs at hq
    cases hq
    intro x hx
    by_cases hxq : x = q
    · simp [hxq]
    · rw [update_of_ne hxq]
      by_cases hxp : x = p
      · simp [hxp]
      · rw [update_of_ne hxp]
        exact hdone x ((mem_append.mp hx).resolve_right fun hx => hxp (mem_singleton.mp hx))

lemma again {modes modes' : Proxy → Option SockType}
    (h : F.assignProxySocktype modes = some modes') :
    F.assignProxySocktype modes' = some modes' := by
  have hall := assigned h
  rw [assignProxy_eq]
  exact foldlM_fixed fun p hp => if_pos (hall p hp)

end Fragments

/-- Every channel between two simulators gets a listening and a connecting
end, each supported by its simulator; interfaces inside one simulator get
none; a second call changes nothing, and no simulator waits for itself. -/
theorem socket_types_assigned [DecidableEq Sim] [DecidableEq Inf] [DecidableEq Proxy]
    (S : Simulation Sim Comp Inf) (F : Fragments Proxy) (m : Assignment Inf)
    (h : S.assignInterfaceSocktype (fun _ => none) = some m) :
    (∀ i j s t, S.Cross i j s t → ∃ ty, m i = some ty ∧ m j = some ty.other ∧
      S.supportedSocketTypes s i ty ∧ S.supportedSocketTypes t j ty.other) ∧
    (∀ i, S.Internal i → m i = none) ∧
    (∀ modes x, finalizeValidate S F (fun _ => none,modes) = some x →
      finalizeValidate S F x = some x) ∧
    (S.Uniform → ∀ s, ¬ Relation.TransGen (S.Connects m) s s) := by
  have hinv := Simulation.Inv.of_assign h
  refine ⟨fun i j s t hc => ?_,fun i hi => ?_,fun modes x hx => ?_,hinv.acyclic⟩
  · obtain ⟨ty,hty⟩ := isSome_iff_exists.mp
      ((hinv.visited _ hc.visited).resolve_right hc.not_internal)
    obtain ⟨k,s',t',hc',hj,hs,ht⟩ := hinv.typed i ty hty
    cases hc.opposing.symm.trans hc'.opposing
    cases hc.left.symm.trans hc'.left
    cases hc.right.symm.trans hc'.right
    exact ⟨ty,hty,hj,hs,ht⟩
  · by_contra hne
    obtain ⟨ty,hty⟩ := ne_none_iff_exists'.mp hne
    obtain ⟨_,_,_,hc,-⟩ := hinv.typed i ty hty
    exact hc.not_internal hi
  · unfold finalizeValidate at hx ⊢
    obtain ⟨m',hm,hx⟩ := bind_eq_some_iff.mp hx
    obtain ⟨_,hmodes,hx⟩ := bind_eq_some_iff.mp hx
    cases h.symm.trans hm
    cases hx
    rw [hinv.again, Fragments.again hmodes]
    rfl

inductive Place where
  | first | second | third
  deriving DecidableEq

instance Place.fintype : Fintype Place := ⟨{.first,.second,.third},by rintro (_ | _ | _) <;> decide⟩

/-- A host that connects, a NIC that listens and a switch that can do both, in a
row. An interface is a channel and one of its ends. -/
def row : Simulation Place Place (Bool × Bool) where
  simList := [.first,.second,.third]
  components s := [s]
  interfaces
    | .first => [(false,false)]
    | .second => [(false,true),(true,false)]
    | .third => [(true,true)]
  component
    | (false,false) => .first
    | (true,true) => .third
    | _ => .second
  opposing i := some (i.1,!i.2)
  findSim k := some k
  supportedSocketTypes s _ ty := match s with
    | .first => ty = .connect
    | .second => ty = .listen
    | .third => true
  nodup := by decide
  added := by decide
  mapped := by decide
  owned := by decide
  listed := by decide
  opposing_symm := by decide

theorem socket_types_assigned_row : ∃ m, row.assignInterfaceSocktype (fun _ => none) = some m ∧
    m (false,false) = some .connect ∧ m (true,true) = some .connect ∧
    ∀ s, ¬ Relation.TransGen (row.Connects m) s s := by
  have hsome : (row.assignInterfaceSocktype fun _ => none).isSome := by decide +kernel
  obtain ⟨m,hm⟩ := isSome_iff_exists.mp hsome
  have hread : ∀ i ty, (row.assignInterfaceSocktype fun _ => none).bind (· i) = ty → m i = ty := by
    intro i ty hi
    rwa [hm] at hi
  refine ⟨m,hm,hread _ _ (by decide +kernel),hread _ _ (by decide +kernel),?_⟩
  exact (socket_types_assigned row (⟨[],[]⟩ : Fragments ℕ) m hm).2.2.2 fun _ _ _ => rfl

end SimBricks.Orchestration
