import SimBricks.Library.Run

/-!
# Ids of objects

New objects take their id from one counter of the process, loaded ones bring
theirs from the file, and the counter is not told.
-/

set_option autoImplicit false

namespace SimBricks.ObjectIds
open Library.Run List

inductive Kind where
  | component | interface | channel | diskImage | simulator | simChannel
  deriving DecidableEq

/-- A `System` or a `Simulation`: what belongs to it, with its ids. -/
abbrev Owner := List (Kind × ℕ)

/-- A `System` has a dictionary for each of its kinds and asserts that an id is
new there; a `Simulation` only appends. -/
def Kind.asserted : Kind → Bool
  | .component | .interface | .channel | .diskImage => true
  | .simulator | .simChannel => false

def add (o : Owner) (x : Kind × ℕ) : Option Owner :=
  if x.1.asserted ∧ x ∈ o then none else some (o++[x])

def fromJSON (json : Owner) : Option Owner := json.foldlM add []

structure Process where
  nextId : ℕ := 0
  owners : List Owner := []
  failed : Bool := false

/-- A new owner, a new object of one, any other `IdObj`, or an owner loaded
from a file. -/
inductive Event where
  | owner
  | construct (i : ℕ) (k : Kind)
  | other
  | load (json : Owner)

def step (p : Process) : Event → Process
  | .owner => { p with nextId := p.nextId+1, owners := p.owners++[[]] }
  | .construct i k =>
    match p.owners[i]? with
    | none => p
    | some o =>
      match add o (k,p.nextId) with
      | none => { p with nextId := p.nextId+1, failed := true }
      | some o => { p with nextId := p.nextId+1, owners := p.owners.set i o }
  | .other => { p with nextId := p.nextId+1 }
  | .load json =>
    match fromJSON json with
    | none => { p with failed := true }
    | some o => { p with owners := p.owners++[o] }

def ids (o : Owner) : List ℕ := o.map Prod.snd

structure Unique (p : Process) : Prop where
  running : p.failed = false
  distinct : ∀ o ∈ p.owners, (ids o).Nodup

/-- The counter is beyond every id of a file that is loaded, and these are
distinct. -/
def Beyond (p : Process) : Event → Prop
  | .load json => (ids json).Nodup ∧ ∀ n ∈ ids json, n < p.nextId
  | _ => True

structure Inv (p : Process) : Prop extends Unique p where
  below : ∀ o ∈ p.owners, ∀ n ∈ ids o, n < p.nextId

variable {p : Process} {o : Owner} {e : Event} {n : ℕ}

lemma add_new {x : Kind × ℕ} (h : x.2 ∉ ids o) : add o x = some (o++[x]) :=
  if_neg fun hx => h (mem_map_of_mem hx.2)

lemma fromJSON_eq (h : (ids o).Nodup) : fromJSON o = some o := by
  suffices ∀ done rest : Owner, (ids (done++rest)).Nodup →
      rest.foldlM add done = some (done++rest) from
    this [] o h
  intro done rest
  induction rest generalizing done with
  | nil => simp
  | cons x rest ih =>
    intro hd
    have hx : x.2 ∉ ids done := by
      rw [ids, map_append] at hd
      exact fun hm => disjoint_of_nodup_append hd hm mem_cons_self
    rw [append_cons] at hd ⊢
    rw [foldlM_cons, add_new hx]
    exact ih _ hd

lemma Inv.grow (h : Inv p) (hn : p.nextId ≤ n) : Inv { p with nextId := n } :=
  { h with below := fun o ho m hm => (h.below o ho m hm).trans_le hn }

lemma Inv.owners {owners : List Owner} (h : Inv p)
    (hnew : ∀ o ∈ owners, o ∈ p.owners ∨ (ids o).Nodup ∧ ∀ n ∈ ids o, n < p.nextId) :
    Inv { p with owners } := by
  refine ⟨⟨h.running,fun o ho => ?_⟩,fun o ho => ?_⟩
  · exact (hnew o ho).elim (h.distinct o) And.left
  · exact (hnew o ho).elim (h.below o) And.right

lemma Inv.step (h : Inv p) (he : Beyond p e) : Inv (step p e) := by
  cases e with
  | owner =>
    refine (h.grow (Nat.le_succ _)).owners fun o ho => ?_
    rcases mem_append.mp ho with ho | ho
    · exact .inl ho
    · rw [mem_singleton.mp ho]
      exact .inr (by simp [ids])
  | construct i k =>
    rw [ObjectIds.step]
    cases ho : p.owners[i]? with
    | none => exact h
    | some o =>
      have hmem := mem_of_getElem? ho
      have hnew : p.nextId ∉ ids o := fun hm => (h.below o hmem _ hm).false
      dsimp only
      rw [add_new hnew]
      refine (h.grow (Nat.le_succ _)).owners fun o' ho' => ?_
      rcases mem_or_eq_of_mem_set ho' with ho' | rfl
      · exact .inl ho'
      · refine .inr ⟨?_,fun n hn => ?_⟩
        · rw [ids, map_append]
          exact (h.distinct o hmem).append (nodup_singleton _) (disjoint_singleton.mpr hnew)
        · rw [ids, map_append, mem_append] at hn
          rcases hn with hn | hn
          · exact (h.below o hmem n hn).trans (Nat.lt_succ_self _)
          · exact mem_singleton.mp hn ▸ Nat.lt_succ_self _
  | other => exact h.grow (Nat.le_succ _)
  | load json =>
    rw [ObjectIds.step, fromJSON_eq he.1]
    refine h.owners fun o ho => ?_
    rcases mem_append.mp ho with ho | ho
    · exact .inl ho
    · exact .inr (mem_singleton.mp ho ▸ he)

/-- While files are loaded only when the counter is beyond their ids, no
assertion fails and the ids in every owner are distinct. -/
theorem ids_unique (es : List Event) (h : Along step Beyond {} es) : Unique (run step {} es) := by
  have h0 : Inv {} := ⟨⟨rfl,by simp⟩,by simp⟩
  exact (run_invariant (fun _ _ hi he => hi.step he) h0 h).toUnique

def written : Owner := [(.component,1),(.diskImage,2)]

def writing : List Event := [.owner,.construct 0 .component,.construct 0 .diskImage]

/-- The system is loaded where it was written, and extended there. -/
theorem ids_unique_reloaded :
    Along step Beyond {} (writing++[.load written,.construct 1 .diskImage]) ∧
    Unique (run step {} (writing++[.load written,.construct 1 .diskImage])) := by
  have h : Along step Beyond {} (writing++[.load written,.construct 1 .diskImage]) :=
    ⟨trivial,trivial,trivial,⟨by decide,by decide⟩,trivial,trivial⟩
  exact ⟨h,ids_unique _ h⟩

/-- Another process loads the system; the second component it adds there gets
the id of the first one. -/
theorem loaded_system_not_extended :
    written ∈ (run step {} writing).owners ∧
    (run step {} [.load written,.construct 0 .component,.construct 0 .component]).failed := by
  decide

end SimBricks.ObjectIds
