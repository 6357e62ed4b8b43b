import Mathlib.Data.Fintype.List
import Mathlib.Order.WellFounded
import Mathlib.Tactic

/-!
# Topological order by rounds

Each round takes all nodes whose dependencies have been taken. The rounds take
every node exactly if there is no cycle, and none of them twice.
-/

set_option autoImplicit false

namespace Library.TopoSort
open List

variable {α : Type} [DecidableEq α] (nodes : List α) (deps : α → List α)

def ready (done : List α) : List α := nodes.filter fun n => n ∉ done ∧ ∀ d ∈ deps n, d ∈ done

def rounds : ℕ → List α → List α
  | 0, done => done
  | k+1, done => rounds k (done++ready nodes deps done)

def order : List α := rounds nodes deps nodes.length []

def Before (d n : α) : Prop := n ∈ nodes ∧ d ∈ deps n

def Acyclic : Prop := ∀ n, ¬ Relation.TransGen (Before nodes deps) n n

variable {nodes deps}
variable {done : List α}

lemma mem_ready {n : α} :
    n ∈ ready nodes deps done ↔ n ∈ nodes ∧ n ∉ done ∧ ∀ d ∈ deps n, d ∈ done := by
  simp [ready]

/-- What the rounds keep: no node twice, and each behind its dependencies. -/
structure Taken (nodes : List α) (deps : α → List α) (done : List α) : Prop where
  nodup : done.Nodup
  subset : ∀ n ∈ done, n ∈ nodes
  behind : ∀ a n b, done = a++n::b → ∀ d ∈ deps n, d ∈ a

omit [DecidableEq α] in
lemma Taken.nil : Taken nodes deps [] :=
  ⟨nodup_nil,fun _ h => (by cases h),fun a n b h => by cases a <;> cases h⟩

lemma Taken.round (hnodes : nodes.Nodup) (h : Taken nodes deps done) :
    Taken nodes deps (done++ready nodes deps done) := by
  refine ⟨?_,?_,?_⟩
  · rw [nodup_append']
    exact ⟨h.nodup,hnodes.filter _,fun n hn hr => (mem_ready.mp hr).2.1 hn⟩
  · intro n hn
    rcases mem_append.mp hn with hn | hn
    · exact h.subset n hn
    · exact (mem_ready.mp hn).1
  · intro a n b hsplit d hd
    rcases append_eq_append_iff.mp hsplit with ⟨c,rfl,hc⟩ | ⟨c,hdone,hc⟩
    · have hn : n ∈ ready nodes deps done := by
        rw [hc]
        simp
      exact mem_append_left c ((mem_ready.mp hn).2.2 d hd)
    · cases c with
      | nil =>
        have hn : n ∈ ready nodes deps done := by
          rw [nil_append] at hc
          rw [← hc]
          exact mem_cons_self
        rw [append_nil] at hdone
        exact hdone ▸ (mem_ready.mp hn).2.2 d hd
      | cons m c =>
        obtain ⟨rfl,-⟩ := cons.inj hc
        exact h.behind a n c hdone d hd

lemma Taken.rounds (hnodes : nodes.Nodup) (k : ℕ) (h : Taken nodes deps done) :
    Taken nodes deps (rounds nodes deps k done) := by
  induction k generalizing done with
  | zero => exact h
  | succ k ih => exact ih (h.round hnodes)

lemma order_taken (hnodes : nodes.Nodup) : Taken nodes deps (order nodes deps) :=
  Taken.nil.rounds hnodes nodes.length

lemma rounds_of_ready_nil (h : ready nodes deps done = []) (k : ℕ) :
    rounds nodes deps k done = done := by
  induction k with
  | zero => rfl
  | succ k ih => rw [rounds, h, append_nil, ih]

/-- The rounds go on until no node is ready. -/
lemma ready_rounds (hnodes : nodes.Nodup) (k : ℕ) (h : Taken nodes deps done)
    (hk : nodes.length ≤ done.length+k) : ready nodes deps (rounds nodes deps k done) = [] := by
  induction k generalizing done with
  | zero =>
    have hperm : done.Perm nodes := (subperm_of_subset h.nodup h.subset).perm_of_length_le hk
    refine eq_nil_iff_forall_not_mem.mpr fun n hn => ?_
    exact (mem_ready.mp hn).2.1 (hperm.mem_iff.mpr (mem_ready.mp hn).1)
  | succ k ih =>
    cases hr : ready nodes deps done with
    | nil => rw [rounds_of_ready_nil hr, hr]
    | cons =>
      refine ih (h.round hnodes) ?_
      rw [hr, length_append, length_cons]
      omega

lemma ready_order (hnodes : nodes.Nodup) : ready nodes deps (order nodes deps) = [] :=
  ready_rounds hnodes nodes.length Taken.nil (by simp)

lemma Taken.idxOf_lt (h : Taken nodes deps done) {d n : α} (hn : n ∈ done) (hd : d ∈ deps n) :
    done.idxOf d < done.idxOf n := by
  obtain ⟨a,b,hsplit,hfirst⟩ := eq_append_cons_of_mem hn
  have hda := h.behind a n b hsplit d hd
  rw [hsplit, idxOf_append_of_mem hda, idxOf_append_of_notMem hfirst, idxOf_cons_self]
  exact idxOf_lt_length_of_mem hda

lemma wellFounded_of_acyclic (h : Acyclic nodes deps) :
    WellFounded fun x y : { n // n ∈ nodes } => Relation.TransGen (Before nodes deps) x.1 y.1 := by
  have htrans : IsTrans { n // n ∈ nodes }
      fun x y => Relation.TransGen (Before nodes deps) x.1 y.1 :=
    ⟨fun _ _ _ hab hbc => hab.trans hbc⟩
  have hirrefl : Std.Irrefl fun x y : { n // n ∈ nodes } =>
      Relation.TransGen (Before nodes deps) x.1 y.1 := ⟨fun x hx => h x.1 hx⟩
  exact Finite.wellFounded_of_trans_of_irrefl _

/-- Every node is taken exactly if there is no cycle. -/
lemma order_complete_iff (hnodes : nodes.Nodup) (hdeps : ∀ n ∈ nodes, ∀ d ∈ deps n, d ∈ nodes) :
    (∀ n ∈ nodes, n ∈ order nodes deps) ↔ Acyclic nodes deps := by
  constructor
  · intro hall n hcycle
    have hlt : ∀ a b, Relation.TransGen (Before nodes deps) a b →
        (order nodes deps).idxOf a < (order nodes deps).idxOf b := by
      intro a b hab
      induction hab with
      | single hb => exact (order_taken hnodes).idxOf_lt (hall _ hb.1) hb.2
      | tail _ hb ih => exact ih.trans ((order_taken hnodes).idxOf_lt (hall _ hb.1) hb.2)
    exact lt_irrefl _ (hlt n n hcycle)
  · intro hacyclic n hn
    -- all that the node depends on is taken, so it would be ready itself
    refine (wellFounded_of_acyclic hacyclic).induction
      (C := fun x => x.1 ∈ order nodes deps) ⟨n,hn⟩ ?_
    rintro ⟨m,hm⟩ ih
    by_contra hnot
    have hready : m ∈ ready nodes deps (order nodes deps) := mem_ready.mpr
      ⟨hm,hnot,fun d hd => ih ⟨d,hdeps m hm d hd⟩ (.single ⟨hm,hd⟩)⟩
    rw [ready_order hnodes] at hready
    cases hready

end Library.TopoSort
