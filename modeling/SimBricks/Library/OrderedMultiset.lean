import Mathlib.Data.List.Basic

/-!
# Ordered multisets

`std::multiset` with a comparator: a list in the order of the comparator.
Elements that the comparator does not tell apart are equivalent but need not
be equal; a new one goes behind those that are there, and an erasure by key
removes all of them.
-/

set_option autoImplicit false

namespace Library.OrderedMultiset
open List

variable {α : Type*} (lt : α → α → Bool)

def insert (a : α) : List α → List α
  | [] => [a]
  | x::xs => if lt a x then a::x::xs else x::insert a xs

def eraseKey (a : α) (l : List α) : List α := l.filter fun x => lt x a || lt a x

/-- No element comes before one that stands in front of it. -/
def Sorted (l : List α) : Prop := l.Pairwise fun a b => lt b a = false

/-- A strict order, in which incomparable elements may be different. -/
structure Strict : Prop where
  irrefl : ∀ a, lt a a = false
  trans : ∀ a b c, lt a b → lt b c → lt a c

variable {lt} {a x : α} {l : List α}

lemma Strict.asymm (h : Strict lt) (hab : lt a x) : lt x a = false := by
  by_contra hxa
  have haa := h.trans a x a hab (Bool.of_not_eq_false hxa)
  rw [h.irrefl] at haa
  cases haa

lemma insert_perm : (insert lt a l).Perm (a::l) := by
  induction l with
  | nil => exact List.Perm.refl _
  | cons y ys ih =>
    unfold insert
    split_ifs
    · exact List.Perm.refl _
    · exact (ih.cons y).trans (List.Perm.swap a y ys)

@[simp] lemma mem_insert : x ∈ insert lt a l ↔ x = a ∨ x ∈ l := by
  rw [insert_perm.mem_iff, mem_cons]

lemma insert_nodup (h : l.Nodup) (ha : a ∉ l) : (insert lt a l).Nodup :=
  insert_perm.nodup_iff.mpr (nodup_cons.mpr ⟨ha,h⟩)

lemma insert_pairwise {r : α → α → Prop} (hfront : ∀ y, lt a y → r a y ∧ ∀ z, r y z → r a z)
    (hback : ∀ y, ¬ lt a y → r y a) (h : l.Pairwise r) : (insert lt a l).Pairwise r := by
  induction l with
  | nil => exact pairwise_singleton _ _
  | cons y ys ih =>
    obtain ⟨hy,hys⟩ := pairwise_cons.mp h
    unfold insert
    split_ifs with hay
    · refine pairwise_cons.mpr ⟨?_,h⟩
      intro z hz
      rcases mem_cons.mp hz with rfl | hz
      · exact (hfront z hay).1
      · exact (hfront y hay).2 z (hy z hz)
    · refine pairwise_cons.mpr ⟨?_,ih hys⟩
      intro z hz
      rcases mem_insert.mp hz with rfl | hz
      · exact hback y hay
      · exact hy z hz

lemma insert_sorted (hlt : Strict lt) (h : Sorted lt l) : Sorted lt (insert lt a l) := by
  refine insert_pairwise (fun y hay => ⟨hlt.asymm hay,fun z hzy => ?_⟩)
    (fun y => Bool.of_not_eq_true) h
  -- an element behind `y` and before `a` would be before `y`
  by_contra hza
  rw [hlt.trans z a y (Bool.of_not_eq_false hza) hay] at hzy
  cases hzy

@[simp] lemma mem_eraseKey : x ∈ eraseKey lt a l ↔ x ∈ l ∧ (lt x a ∨ lt a x) := by
  rw [eraseKey, mem_filter, Bool.or_eq_true]

lemma eraseKey_nodup (h : l.Nodup) : (eraseKey lt a l).Nodup := h.filter _

lemma eraseKey_sorted (h : Sorted lt l) : Sorted lt (eraseKey lt a l) := h.filter _

lemma head_minimal (hlt : Strict lt) (h : Sorted lt (a::l)) (hx : x ∈ a::l) : lt x a = false := by
  rcases mem_cons.mp hx with rfl | hx
  · exact hlt.irrefl x
  · exact (pairwise_cons.mp h).1 x hx

lemma Sorted.tail (h : Sorted lt (a::l)) : Sorted lt l := (pairwise_cons.mp h).2

lemma Sorted.congr {lt' : α → α → Bool} (h : Sorted lt l)
    (heq : ∀ x ∈ l, ∀ y ∈ l, lt' x y = lt x y) : Sorted lt' l := by
  apply List.Pairwise.imp_of_mem ?_ h
  intro x y hx hy hxy
  rw [heq y hy x hx, hxy]

end Library.OrderedMultiset
