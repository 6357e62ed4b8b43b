import SimBricks.Library.Table

/-!
# Queues of ticketed items

Every item in a system of queues carries the ticket of what it belongs to.
A map from tickets to stages says where each one is; a queue agrees with it if
it holds, once each, the tickets whose stage shows an item to it. Moving an
item changes the stage of one ticket, and each queue gains it, loses it or is
not concerned. In the same way a table can hold one entry for each ticket
whose stage names a key.
-/

set_option autoImplicit false

namespace Library.Tickets
open Function List Finmap

variable {σ α : Type*} {view : σ → Option α} {stage : ℕ → σ} {items : List (ℕ × α)}

structure Holds (view : σ → Option α) (stage : ℕ → σ) (items : List (ℕ × α)) : Prop where
  nodup : (items.map Prod.fst).Nodup
  mem_iff : ∀ t x, (t,x) ∈ items ↔ view (stage t) = some x

lemma Holds.not_mem (h : Holds view stage items) {t : ℕ} (hv : view (stage t) = none) :
    t ∉ items.map Prod.fst := by
  rintro ht
  obtain ⟨⟨u,x⟩,hmem,rfl⟩ := mem_map.mp ht
  exact absurd ((h.mem_iff u x).mp hmem) (by simp [hv])

lemma Holds.empty (h : ∀ t, view (stage t) = none) : Holds view stage [] :=
  ⟨nodup_nil,by simp [h]⟩

lemma Holds.keep (h : Holds view stage items) {t : ℕ} {new : σ}
    (hv : view new = view (stage t)) : Holds view (update stage t new) items := by
  refine ⟨h.nodup,fun u x => ?_⟩
  rw [h.mem_iff]
  by_cases hu : u = t
  · subst hu
    rw [update_self, hv]
  · rw [update_of_ne hu]

lemma Holds.push (h : Holds view stage items) {t : ℕ} {new : σ} {x : α}
    (hold : view (stage t) = none) (hnew : view new = some x) :
    Holds view (update stage t new) (items++[(t,x)]) := by
  constructor
  · rw [map_append, nodup_append]
    refine ⟨h.nodup,by simp,?_⟩
    rintro u hu v hv rfl
    obtain rfl : u = t := by simpa using hv
    exact h.not_mem hold hu
  · intro u y
    rw [List.mem_append, h.mem_iff, List.mem_singleton, Prod.mk.injEq]
    by_cases hu : u = t
    · subst hu
      simp [hold, hnew, eq_comm]
    · simp [hu]

lemma Holds.remove {front back : List (ℕ × α)} {t : ℕ} {x : α} {new : σ}
    (h : Holds view stage (front++(t,x)::back)) (hnew : view new = none) :
    Holds view (update stage t new) (front++back) := by
  have hnodup : (t::(front++back).map Prod.fst).Nodup := by
    have hmap := h.nodup
    rw [map_append, map_cons, nodup_middle] at hmap
    rwa [map_append]
  obtain ⟨hnot,hrest⟩ := nodup_cons.mp hnodup
  refine ⟨hrest,fun u y => ?_⟩
  by_cases hu : u = t
  · subst hu
    rw [update_self, hnew]
    refine ⟨fun hm => absurd (mem_map.mpr ⟨_,hm,rfl⟩) hnot,?_⟩
    simp
  · rw [update_of_ne hu, ← h.mem_iff]
    simp [hu]

lemma Holds.shown {front back : List (ℕ × α)} {t : ℕ} {x : α}
    (h : Holds view stage (front++(t,x)::back)) : view (stage t) = some x :=
  (h.mem_iff t x).mp (by simp)

lemma holds_update {K : Type*} [DecidableEq K] {views : K → σ → Option α}
    {queues : K → List (ℕ × α)} {k : K} (hk : Holds (views k) stage items)
    (hother : ∀ k', k' ≠ k → Holds (views k') stage (queues k')) (k' : K) :
    Holds (views k') stage (update queues k items k') := by
  by_cases he : k' = k
  · subst he
    rwa [update_self]
  · rw [update_of_ne he]
    exact hother k' he

section
variable {K V : Type} [DecidableEq K]

/-- The keys of the table are those that stages name, each named once. -/
structure Owned (key : σ → Option K) (stage : ℕ → σ) (table : Table K V) : Prop where
  alive : ∀ k, table.lookup k ≠ none ↔ ∃ t, key (stage t) = some k
  unique : ∀ t u k, key (stage t) = some k → key (stage u) = some k → t = u

variable {key : σ → Option K} {table : Table K V} {t : ℕ} {new : σ} {k : K}

lemma Owned.keep (h : Owned key stage table) (hk : key new = key (stage t)) :
    Owned key (update stage t new) table := by
  have hsame : ∀ u, key (update stage t new u) = key (stage u) := by
    intro u
    by_cases hu : u = t
    · subst hu
      rw [update_self, hk]
    · rw [update_of_ne hu]
  constructor
  · simpa only [hsame] using h.alive
  · simpa only [hsame] using h.unique

lemma Owned.unnamed (h : Owned key stage table) (hk : table.lookup k = none) (u : ℕ) :
    key (stage u) ≠ some k :=
  fun hu => (h.alive k).mpr ⟨u,hu⟩ hk

lemma Owned.insert (h : Owned key stage table) (hk : table.lookup k = none)
    (hold : key (stage t) = none) (hnew : key new = some k) (v : V) :
    Owned key (update stage t new) (insert k v table) := by
  constructor
  · intro k'
    rw [Table.lookup_insert_ite]
    by_cases he : k' = k
    · subst he
      simp only [if_true, ne_eq, reduceCtorEq, not_false_eq_true, true_iff]
      exact ⟨t,by rw [update_self, hnew]⟩
    · rw [if_neg he, h.alive]
      refine exists_congr fun u => ?_
      by_cases hu : u = t
      · subst hu
        simp [hold, hnew, Ne.symm he]
      · rw [update_of_ne hu]
  · intro u w k' hu hw
    by_cases hut : u = t <;> by_cases hwt : w = t
    · rw [hut, hwt]
    · subst hut
      rw [update_self, hnew] at hu
      rw [update_of_ne hwt, ← hu] at hw
      exact absurd hw (h.unnamed hk w)
    · subst hwt
      rw [update_self, hnew] at hw
      rw [update_of_ne hut, ← hw] at hu
      exact absurd hu (h.unnamed hk u)
    · rw [update_of_ne hut] at hu
      rw [update_of_ne hwt] at hw
      exact h.unique u w k' hu hw

lemma Owned.erase (h : Owned key stage table) (hold : key (stage t) = some k)
    (hnew : key new = none) : Owned key (update stage t new) (erase k table) := by
  have hother : ∀ u k', key (update stage t new u) = some k' → u ≠ t ∧ key (stage u) = some k' := by
    intro u k' hu
    by_cases hut : u = t
    · subst hut
      rw [update_self, hnew] at hu
      cases hu
    · exact ⟨hut,by rwa [update_of_ne hut] at hu⟩
  constructor
  · intro k'
    by_cases he : k' = k
    · subst he
      simp only [lookup_erase, ne_eq, not_true_eq_false, false_iff, not_exists]
      intro u hu
      obtain ⟨hut,hu⟩ := hother u k' hu
      exact hut (h.unique u t k' hu hold)
    · rw [lookup_erase_ne he, h.alive]
      constructor
      · rintro ⟨u,hu⟩
        have hut : u ≠ t := by
          rintro rfl
          exact he (Option.some.inj (hu.symm.trans hold))
        exact ⟨u,by rwa [update_of_ne hut]⟩
      · rintro ⟨u,hu⟩
        exact ⟨u,(hother u k' hu).2⟩
  · exact fun u w k' hu hw => h.unique u w k' (hother u k' hu).2 (hother w k' hw).2

end

end Library.Tickets
