import Mathlib.Tactic

/-!
# Priority queues

What a queue that yields a smallest entry first promises, whatever it does
with entries of the same key, and the binary heap of the C++ standard library
as one such queue. `push_heap` moves parents down until the new entry fits;
`pop_heap` takes the hole at the root down to a leaf, always along the smaller
child, and moves the last entry up from there.
-/

set_option autoImplicit false

namespace Library.Heap
open List Option

/-- A queue with the contents of a list, in some order. -/
structure PriorityQueue (α κ : Type) [LinearOrder κ] (key : α → κ) where
  Q : Type
  contents : Q → List α
  empty : Q
  push : Q → α → Q
  top : Q → Option α
  pop : Q → Q
  contents_empty : contents empty = []
  contents_push : ∀ q x, (contents (push q x)).Perm (x :: contents q)
  top_none : ∀ q, top q = none → contents q = []
  contents_pop : ∀ q x, top q = some x → (contents q).Perm (x :: contents (pop q))
  top_le : ∀ q x, top q = some x → ∀ y ∈ contents q, key x ≤ key y

section
variable {α κ : Type} [LinearOrder κ] (key : α → κ)

def parent (i : ℕ) : ℕ := (i-1)/2

lemma parent_lt {i : ℕ} (h : i ≠ 0) : parent i < i := by
  unfold parent
  omega

/-- `__push_heap`: parents larger than the value move down into the hole. -/
def siftUp (value : α) (l : List α) (hole : ℕ) : List α :=
  if h : hole = 0 then l.set hole value
  else match l[parent hole]? with
  | none => l.set hole value
  | some p =>
    have := parent_lt h
    if key value < key p then siftUp value (l.set hole p) (parent hole) else l.set hole value
termination_by hole

/-- The loop of `__adjust_heap`: the smaller child moves up into the hole, the
right one if they are equal; an only child at the end as well. -/
def siftDown (l : List α) (hole : ℕ) : List α × ℕ :=
  if h : 2*hole+2 < l.length then
    if key l[2*hole+1] < key l[2*hole+2] then siftDown (l.set hole l[2*hole+1]) (2*hole+1)
    else siftDown (l.set hole l[2*hole+2]) (2*hole+2)
  else if h : 2*hole+1 < l.length then (l.set hole l[2*hole+1],2*hole+1)
  else (l,hole)
termination_by l.length-hole
decreasing_by all_goals (rw [length_set]; omega)

def push (l : List α) (x : α) : List α := siftUp key x (l++[x]) l.length

def pop (l : List α) : List α :=
  match l.getLast? with
  | none => []
  | some value =>
    if l.length = 1 then []
    else
      let (l,hole) := siftDown key l.dropLast 0
      siftUp key value l hole

/-! ## Contents -/

omit [LinearOrder κ] in
lemma move_perm {l : List α} {hole i : ℕ} {p : α} (value : α) (hi : l[i]? = some p)
    (hh : hole < l.length) (hne : hole ≠ i) :
    ((l.set hole p).set i value).Perm (l.set hole value) := by
  obtain ⟨hlt,hp⟩ := List.getElem?_eq_some_iff.mp hi
  have hh : hole < (l.set hole value).length := by rwa [List.length_set]
  have hlt : i < (l.set hole value).length := by rwa [length_set]
  have hswap := set_set_perm hh hlt
  rwa [getElem_set_self, getElem_set_ne hne, hp, set_set] at hswap

lemma siftUp_perm (value : α) (l : List α) (hole : ℕ) (h : hole < l.length) :
    (siftUp key value l hole).Perm (l.set hole value) := by
  fun_induction siftUp key value l hole with
  | case1 l | case2 l hole h0 hp => exact List.Perm.refl _
  | case3 l hole h0 p hp hlt hkey ih =>
    refine (ih (by rw [length_set]; omega)).trans ?_
    exact move_perm value hp h (parent_lt h0).ne'
  | case4 => exact List.Perm.refl _

lemma length_siftDown (l : List α) (hole : ℕ) : (siftDown key l hole).1.length = l.length := by
  fun_induction siftDown key l hole with
  | case1 l hole h hkey ih | case2 l hole h hkey ih => rw [ih, length_set]
  | case3 => rw [length_set]
  | case4 => rfl

lemma siftDown_lt (l : List α) (hole : ℕ) (h : hole < l.length) :
    (siftDown key l hole).2 < l.length := by
  fun_induction siftDown key l hole with
  | case1 l hole h hkey ih | case2 l hole h hkey ih =>
    simpa using ih (by rw [length_set]; omega)
  | case3 l hole h1 h2 => exact h2
  | case4 => exact h

lemma siftDown_perm (value : α) (l : List α) (hole : ℕ) (h : hole < l.length) :
    ((siftDown key l hole).1.set (siftDown key l hole).2 value).Perm (l.set hole value) := by
  fun_induction siftDown key l hole with
  | case1 l hole hlt hkey ih | case2 l hole hlt hkey ih =>
    refine (ih (by rw [length_set]; omega)).trans ?_
    exact move_perm value (getElem?_eq_getElem _) h (by omega)
  | case3 => exact move_perm value (getElem?_eq_getElem _) h (by omega)
  | case4 => exact List.Perm.refl _

lemma push_perm (l : List α) (x : α) : (push key l x).Perm (x :: l) := by
  have h := siftUp_perm key x (l++[x]) l.length (by simp)
  rw [set_append_right _ _ le_rfl, Nat.sub_self, set_cons_zero] at h
  exact h.trans (perm_append_singleton x l)

lemma pop_perm {l : List α} {x : α} (h : l.head? = some x) : l.Perm (x :: pop key l) := by
  cases l with
  | nil => cases h
  | cons y rest =>
    obtain rfl : y = x := by simpa using h
    unfold pop
    cases rest using reverseRecOn with
    | nil => simp
    | append_singleton rest value =>
      have hne : ¬ (y :: (rest++[value])).length = 1 := by simp
      have hlast : (y :: (rest++[value])).getLast? = some value := by
        rw [← cons_append, getLast?_concat]
      have hdrop : (y :: (rest++[value])).dropLast = y :: rest := by
        rw [← cons_append, dropLast_concat]
      simp only [hlast, hne, if_false, hdrop]
      have hdown := siftDown_lt key (y :: rest) 0 (by simp)
      have hup := siftUp_perm key value (siftDown key (y :: rest) 0).1
        (siftDown key (y :: rest) 0).2 (by rwa [length_siftDown])
      have hall := hup.trans (siftDown_perm key value (y :: rest) 0 (by simp))
      rw [set_cons_zero] at hall
      exact ((perm_append_singleton value rest).trans hall.symm).cons y

/-! ## Order -/

/-- The entry at one place is not larger than the entry at another. -/
def NotAfter (l : List α) (i j : ℕ) : Prop := ∀ a ∈ l[i]?, ∀ b ∈ l[j]?, key a ≤ key b

def Ordered (l : List α) : Prop := ∀ i, 0 < i → NotAfter key l (parent i) i

/-- The order of a heap with a hole: the hole is passed over. -/
structure Around (l : List α) (hole : ℕ) : Prop where
  away : ∀ i, 0 < i → i ≠ hole → parent i ≠ hole → NotAfter key l (parent i) i
  across : 0 < hole → ∀ i, 0 < i → parent i = hole → NotAfter key l (parent hole) i

variable {key} {l : List α} {hole : ℕ}

lemma Ordered.around (h : Ordered key l) : Around key l 0 where
  away i hi _ _ := h i hi
  across h0 := absurd h0 (lt_irrefl 0)

omit [LinearOrder κ] in
lemma mem_set {value b : α} {i : ℕ} (h : b ∈ (l.set hole value)[i]?) :
    (hole = i ∧ b = value) ∨ (hole ≠ i ∧ b ∈ l[i]?) := by
  rw [getElem?_set] at h
  by_cases hi : hole = i
  · rw [if_pos hi] at h
    exact .inl ⟨hi,(some.inj (ite_none_right_eq_some.mp h).2).symm⟩
  · rw [if_neg hi] at h
    exact .inr ⟨hi,h⟩

lemma Around.fill (h : Around key l hole) {value : α}
    (above : 0 < hole → ∀ a ∈ l[parent hole]?, key a ≤ key value)
    (below : ∀ i, 0 < i → parent i = hole → ∀ b ∈ l[i]?, key value ≤ key b) :
    Ordered key (l.set hole value) := by
  intro i hi a ha b hb
  have hlt := parent_lt hi.ne'
  rcases mem_set ha with ⟨hp,rfl⟩ | ⟨hp,ha'⟩
  · rcases mem_set hb with ⟨hih,-⟩ | ⟨-,hb'⟩
    · omega
    · exact below i hi hp.symm b hb'
  · rcases mem_set hb with ⟨rfl,rfl⟩ | ⟨hih,hb'⟩
    · exact above hi a ha'
    · exact h.away i hi hih.symm hp.symm a ha' b hb'

lemma Around.ascend (h : Around key l hole) (h0 : hole ≠ 0) {p : α}
    (hp : l[parent hole]? = some p) : Around key (l.set hole p) (parent hole) := by
  have hpos := pos_of_ne_zero h0
  have hlt := parent_lt h0
  constructor
  · intro i hi hne hpar a ha b hb
    rcases mem_set hb with ⟨rfl,-⟩ | ⟨hih,hb'⟩
    · exact absurd rfl hpar
    · rcases mem_set ha with ⟨hph,rfl⟩ | ⟨hph,ha'⟩
      · exact h.across hpos i hi hph.symm a hp b hb'
      · exact h.away i hi hih.symm hph.symm a ha' b hb'
  · intro hpp i hi hpar a ha b hb
    have hgp := parent_lt hpp.ne'
    rcases mem_set ha with ⟨_,-⟩ | ⟨-,ha⟩
    · omega
    · have hroot : key a ≤ key p := h.away (parent hole) hpp (by omega) (by omega) a ha p hp
      rcases mem_set hb with ⟨-,rfl⟩ | ⟨hih,hb⟩
      · exact hroot
      · exact hroot.trans (h.away i hi hih.symm (by omega) p (hpar ▸ hp) b hb)

lemma Around.descend (h : Around key l hole) {c : ℕ} {a : α} (hc : 0 < c)
    (hpc : parent c = hole) (ha : l[c]? = some a)
    (hmin : ∀ i, 0 < i → parent i = hole → i ≠ c → ∀ b ∈ l[i]?, key a ≤ key b) :
    Around key (l.set hole a) c := by
  have hlt := parent_lt hc.ne'
  constructor
  · intro i hi hic hpic x hx b hb
    have hup := parent_lt hi.ne'
    rcases mem_set hb with ⟨rfl,rfl⟩ | ⟨hih,hb'⟩
    · rcases mem_set hx with ⟨_,-⟩ | ⟨-,hx'⟩
      · omega
      · exact h.across hi c hc hpc x hx' b ha
    · rcases mem_set hx with ⟨hph,rfl⟩ | ⟨hph,hx'⟩
      · exact hmin i hi hph.symm hic b hb'
      · exact h.away i hi hih.symm hph.symm x hx' b hb'
  · intro _ i hi hpic x hx b hb
    have hup := parent_lt hi.ne'
    rcases mem_set hb with ⟨hih,-⟩ | ⟨-,hb'⟩
    · omega
    · rcases mem_set hx with ⟨-,rfl⟩ | ⟨hne,-⟩
      · exact h.away i hi (by omega) (by omega) x (hpic ▸ ha) b hb'
      · exact absurd hpc.symm hne

lemma siftUp_ordered (value : α) (l : List α) (hole : ℕ) (h : Around key l hole)
    (below : ∀ i, 0 < i → parent i = hole → ∀ b ∈ l[i]?, key value ≤ key b) :
    Ordered key (siftUp key value l hole) := by
  fun_induction siftUp key value l hole with
  | case1 => exact h.fill (fun h0 => absurd h0 (lt_irrefl 0)) below
  | case2 l hole h0 hp => exact h.fill (fun _ a ha => by rw [hp] at ha; cases ha) below
  | case3 l hole h0 p hp hlt hkey ih =>
    refine ih (h.ascend h0 hp) fun i hi hpar b hb => ?_
    rcases mem_set hb with ⟨-,rfl⟩ | ⟨hih,hb⟩
    · exact hkey.le
    · exact hkey.le.trans (h.away i hi hih.symm (by omega) p (hpar ▸ hp) b hb)
  | case4 l hole h0 p hp hlt hkey =>
    refine h.fill (fun _ a ha => ?_) below
    rw [hp] at ha
    cases ha
    exact not_lt.mp hkey

lemma siftDown_around (l : List α) (hole : ℕ) (h : Around key l hole) :
    Around key (siftDown key l hole).1 (siftDown key l hole).2 ∧
    l.length ≤ 2*(siftDown key l hole).2+1 := by
  have hchildren : ∀ {i hole : ℕ}, 0 < i → parent i = hole → i = 2*hole+1 ∨ i = 2*hole+2 := by
    intro i hole hi hp
    unfold parent at hp
    omega
  fun_induction siftDown key l hole with
  | case1 l hole hlt hkey ih =>
    rw [length_set] at ih
    refine ih (h.descend (by omega) (by unfold parent; omega) (getElem?_eq_getElem _) ?_)
    intro i hi hp hne b hb
    obtain rfl : i = 2*hole+2 := (hchildren hi hp).resolve_left hne
    rw [getElem?_eq_getElem hlt] at hb
    cases hb
    exact hkey.le
  | case2 l hole hlt hkey ih =>
    rw [length_set] at ih
    refine ih (h.descend (by omega) (by unfold parent; omega) (getElem?_eq_getElem _) ?_)
    intro i hi hp hne b hb
    obtain rfl : i = 2*hole+1 := (hchildren hi hp).resolve_right hne
    rw [getElem?_eq_getElem (by omega)] at hb
    cases hb
    exact not_lt.mp hkey
  | case3 l hole =>
    refine ⟨h.descend (by omega) (by unfold parent; omega) (getElem?_eq_getElem _) ?_,by
      dsimp only; omega⟩
    intro i hi hp hne b hb
    obtain rfl : i = 2*hole+2 := (hchildren hi hp).resolve_left hne
    rw [getElem?_eq_none (by omega)] at hb
    cases hb
  | case4 => exact ⟨h,by dsimp only; omega⟩

lemma push_ordered (h : Ordered key l) (x : α) : Ordered key (push key l x) := by
  have hbeyond : ∀ i, 0 < i → parent i = l.length → (l++[x])[i]? = none := by
    intro i hi hp
    unfold parent at hp
    exact getElem?_eq_none (by rw [length_append, length_singleton]; omega)
  refine siftUp_ordered x (l++[x]) l.length ⟨fun i hi hne hpar a ha b hb => ?_,?_⟩ ?_
  · -- Away from the new place both entries are old ones.
    obtain ⟨hlt,-⟩ := List.getElem?_eq_some_iff.mp hb
    rw [List.length_append, List.length_singleton] at hlt
    have hup := parent_lt hi.ne'
    rw [getElem?_append_left (by omega)] at ha hb
    exact h i hi a ha b hb
  · intro _ i hi hp a _ b hb
    rw [hbeyond i hi hp] at hb
    cases hb
  · intro i hi hp b hb
    rw [hbeyond i hi hp] at hb
    cases hb

lemma Ordered.dropLast (h : Ordered key l) : Ordered key l.dropLast := by
  intro i hi a ha b hb
  rw [dropLast_eq_take, getElem?_take] at ha hb
  exact h i hi a (ite_none_right_eq_some.mp ha).2 b (ite_none_right_eq_some.mp hb).2

lemma pop_ordered (h : Ordered key l) : Ordered key (pop key l) := by
  have hnil : Ordered key ([] : List α) := fun _ _ _ ha => by simp at ha
  unfold pop
  cases l.getLast? with
  | none => exact hnil
  | some value =>
    dsimp only
    split_ifs with hone
    · exact hnil
    · obtain ⟨hdown,_⟩ := siftDown_around l.dropLast 0 h.dropLast.around
      refine siftUp_ordered value _ _ hdown fun i hi hp b hb => ?_
      -- The hole is at a leaf.
      obtain ⟨hlt,-⟩ := List.getElem?_eq_some_iff.mp hb
      rw [length_siftDown] at hlt
      unfold parent at hp
      omega

lemma Ordered.head_le (h : Ordered key l) {x : α} (hx : l.head? = some x) :
    ∀ y ∈ l, key x ≤ key y := by
  have hall : ∀ i : ℕ, ∀ y ∈ l[i]?, key x ≤ key y := by
    intro i
    induction i using Nat.strong_induction_on with
    | _ i ih =>
      intro y hy
      by_cases h0 : i = 0
      · subst h0
        rw [head?_eq_getElem?] at hx
        rw [hx] at hy
        cases hy
        exact le_rfl
      · have hlt := parent_lt h0
        obtain ⟨hi,-⟩ := List.getElem?_eq_some_iff.mp hy
        have hp := List.getElem?_eq_getElem (l := l) (i := parent i) (by omega)
        exact (ih _ hlt _ hp).trans (h i (pos_of_ne_zero h0) _ hp y hy)
  intro y hy
  obtain ⟨i,hi⟩ := mem_iff_getElem?.mp hy
  exact hall i y hi

end

def heap {α κ : Type} [LinearOrder κ] (key : α → κ) : PriorityQueue α κ key where
  Q := { l : List α // Ordered key l }
  contents q := q.val
  empty := ⟨[],fun _ _ _ ha => by simp at ha⟩
  push q x := ⟨push key q.val x,push_ordered q.property x⟩
  top q := q.val.head?
  pop q := ⟨pop key q.val,pop_ordered q.property⟩
  contents_empty := rfl
  contents_push q x := push_perm key q.val x
  top_none q h := head?_eq_none_iff.mp h
  contents_pop q x h := pop_perm key h
  top_le q x h := q.property.head_le h

end Library.Heap
