import Mathlib.Tactic

/-!
# Dictionaries with insertion order

A dictionary is the list of its entries, oldest first. Setting a known key
keeps its place, a new key goes to the end.
-/

set_option autoImplicit false

namespace Library
open List Option

structure Dict (K V : Type) where
  entries : List (K × V)
  nodup : (entries.map Prod.fst).Nodup

namespace Dict
variable {K V : Type}

def empty : Dict K V := ⟨[],nodup_nil⟩

variable [DecidableEq K]

def get? (d : Dict K V) (k : K) : Option V := (d.entries.find? (·.1 = k)).map Prod.snd

def contains (d : Dict K V) (k : K) : Bool := (d.get? k).isSome

variable {d : Dict K V} {k : K}

lemma get?_eq_none : d.get? k = none ↔ k ∉ d.entries.map Prod.fst := by
  rw [get?, Option.map_eq_none_iff, List.find?_eq_none, List.mem_map]
  simp only [decide_eq_true_eq, not_exists, not_and]

lemma contains_eq_false : d.contains k = false ↔ k ∉ d.entries.map Prod.fst := by
  rw [contains, isSome_eq_false_iff, isNone_iff_eq_none, get?_eq_none]

lemma mem_entries {v : V} : (k,v) ∈ d.entries ↔ d.get? k = some v := by
  obtain ⟨l,hl⟩ := d
  unfold get?
  induction l with
  | nil => simp
  | cons x l ih =>
    rw [map_cons, nodup_cons] at hl
    rw [find?_cons]
    by_cases hx : x.1 = k
    · subst hx
      have hnot : (x.1,v) ∉ l := fun hm => hl.1 (mem_map.mpr ⟨_,hm,rfl⟩)
      simp [hnot, Prod.ext_iff, eq_comm]
    · have hne : (k,v) ≠ x := by
        rintro rfl
        exact hx rfl
      simpa [hx, hne] using ih hl.2

lemma get?_congr {e : Dict K V} (h : d.entries = e.entries) (k : K) : d.get? k = e.get? k := by
  rw [get?, get?, h]

def replace (k : K) (v : V) (l : List (K × V)) : List (K × V) :=
  l.map fun x => if x.1 = k then (k,v) else x

lemma keys_replace (k : K) (v : V) (l : List (K × V)) :
    (replace k v l).map Prod.fst = l.map Prod.fst := by
  rw [replace, List.map_map]
  refine List.map_congr_left fun x _ => ?_
  rw [Function.comp_apply]
  split_ifs with hx
  · exact hx.symm
  · rfl

lemma find?_replace (k j : K) (v : V) (l : List (K × V)) :
    (replace k v l).find? (·.1 = j) = if j = k then (l.find? (·.1 = k)).map fun _ => (k,v) else
    l.find? (·.1 = j) := by
  induction l with
  | nil => simp [replace]
  | cons x l ih =>
    rw [replace, map_cons, ← replace, find?_cons, find?_cons, find?_cons, ih]
    by_cases hx : x.1 = k
    · by_cases hj : j = k
      · simp [hx, hj]
      · simp [hx, hj, Ne.symm hj]
    · by_cases hj : j = k
      · simp [hx, hj]
      · simp [hx, hj]

def set (d : Dict K V) (k : K) (v : V) : Dict K V :=
  if h : d.contains k = false then
    ⟨d.entries++[(k,v)],by
      rw [map_append, map_singleton, ← concat_eq_append, nodup_concat]
      exact ⟨contains_eq_false.mp h,d.nodup⟩⟩
  else
    ⟨replace k v d.entries,by
      rw [keys_replace]
      exact d.nodup⟩

lemma entries_set_new (h : d.contains k = false) (v : V) :
    (d.set k v).entries = d.entries++[(k,v)] := by
  rw [set, dif_pos h]

lemma get?_set (d : Dict K V) (k j : K) (v : V) :
    (d.set k v).get? j = if j = k then some v else d.get? j := by
  by_cases h : d.contains k = false
  · have hk := get?_eq_none.mpr (contains_eq_false.mp h)
    rw [get?, entries_set_new h, find?_append]
    split_ifs with hj
    · subst hj
      rw [get?, map_eq_none_iff] at hk
      simp [hk]
    · simp [get?, Ne.symm hj]
  · rw [get?, set, dif_neg h]
    dsimp only
    rw [find?_replace]
    split_ifs with hj
    · rw [contains, get?, isSome_map, Bool.not_eq_false, isSome_iff_exists] at h
      obtain ⟨x,hx⟩ := h
      rw [hx]
      rfl
    · rfl

@[simp] lemma get?_set_self (d : Dict K V) (k : K) (v : V) : (d.set k v).get? k = some v := by
  rw [get?_set, if_pos rfl]

lemma get?_set_cases {j : K} {u v : V} (h : (d.set k v).get? j = some u) :
    (j = k ∧ u = v) ∨ d.get? j = some u := by
  rw [get?_set] at h
  split_ifs at h with hj
  · exact .inl ⟨hj,(some.inj h).symm⟩
  · exact .inr h

lemma get?_set_new {j : K} {u : V} (hk : d.get? k = none) (hj : d.get? j = some u) (v : V) :
    (d.set k v).get? j = some u := by
  have hne : j ≠ k := by
    rintro rfl
    rw [hk] at hj
    cases hj
  rw [get?_set, if_neg hne, hj]

end Dict
end Library
