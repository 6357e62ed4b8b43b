import Mathlib.Data.Finset.Card

/-!
# Operations on one entry

A state seen as a family of entries beside a shared part. An operation that
writes one entry, and reads that entry and the shared part only, commutes
with the operations on other entries. Where an entry takes room before it can
be written, there has to be room for both.
-/

set_option autoImplicit false

namespace Library.Entries
open Finset

variable {σ K E C A B : Type*} [DecidableEq K]

/-- The entries of a state, which of them take room, and the rest. -/
structure Layout (σ K E C : Type*) where
  entry : σ → K → E
  shared : σ → C
  keys : σ → Finset K
  capacity : C → ℕ
  Tracked : E → Prop
  mem_keys : ∀ s k, k ∈ keys s ↔ Tracked (entry s k)
  ext : ∀ s t, shared s = shared t → (∀ k, entry s k = entry t k) → s = t

def Layout.Fits (L : Layout σ K E C) (s : σ) (k : K) : Prop :=
  k ∈ L.keys s ∨ (L.keys s).card < L.capacity (L.shared s)

/-- The operation writes the entry of this key; what it writes and returns
depends on nothing but that entry and the shared part, as long as it fits. -/
structure Local (L : Layout σ K E C) (k : K) (op : σ → σ × A) : Prop where
  shared : ∀ s, L.shared (op s).1 = L.shared s
  other : ∀ s l, l ≠ k → L.entry (op s).1 l = L.entry s l
  reads : ∀ s t, L.Fits s k → L.Fits t k → L.shared s = L.shared t → L.entry s k = L.entry t k →
    L.entry (op s).1 k = L.entry (op t).1 k ∧ (op s).2 = (op t).2

/-- In either order the operations lead to the same state, and each returns
what it returns alone. -/
def Commutes (f : σ → σ × A) (g : σ → σ × B) (s : σ) : Prop :=
  (g (f s).1).1 = (f (g s).1).1 ∧ (g (f s).1).2 = (g s).2 ∧ (f (g s).1).2 = (f s).2

section
variable {L : Layout σ K E C} {k l : K} {f : σ → σ × A} {g : σ → σ × B} {s : σ}

lemma Local.keys (h : Local L k f) (s : σ) : L.keys (f s).1 ⊆ insert k (L.keys s) := by
  intro j hj
  by_cases hjk : j = k
  · exact hjk ▸ mem_insert_self _ _
  · rw [L.mem_keys, h.other s j hjk, ← L.mem_keys] at hj
    exact mem_insert_of_mem hj

/-- With room for two keys the first one fits, also after the second was written. -/
lemma fits_of_subset {t : σ} (hshared : L.shared t = L.shared s)
    (hkeys : L.keys t ⊆ insert l (L.keys s))
    (hroom : (insert k (insert l (L.keys s))).card ≤ L.capacity (L.shared s)) : L.Fits t k := by
  by_cases hk : k ∈ L.keys t
  · exact .inl hk
  · right
    rw [hshared]
    calc (L.keys t).card < (insert k (L.keys t)).card := by
          rw [card_insert_of_notMem hk]
          exact Nat.lt_succ_self _
      _ ≤ (insert k (insert l (L.keys s))).card := card_le_card (insert_subset_insert k hkeys)
      _ ≤ L.capacity (L.shared s) := hroom

/-- An operation does the same before and after one on another key. -/
lemma Local.after (hf : Local L k f) (hg : Local L l g) (hne : k ≠ l)
    (hroom : (insert k (insert l (L.keys s))).card ≤ L.capacity (L.shared s)) :
    L.entry (f (g s).1).1 k = L.entry (f s).1 k ∧ (f (g s).1).2 = (f s).2 := by
  apply hf.reads
  · exact fits_of_subset (hg.shared s) (hg.keys s) hroom
  · exact fits_of_subset rfl (subset_insert _ _) hroom
  · exact hg.shared s
  · exact hg.other s k hne

lemma Local.commute (hf : Local L k f) (hg : Local L l g) (hne : k ≠ l)
    (hroom : (insert k (insert l (L.keys s))).card ≤ L.capacity (L.shared s)) : Commutes f g s := by
  have hroom' : (insert l (insert k (L.keys s))).card ≤ L.capacity (L.shared s) := by
    rwa [insert_comm]
  obtain ⟨hfe,hfo⟩ := hf.after hg hne hroom
  obtain ⟨hge,hgo⟩ := hg.after hf hne.symm hroom'
  refine ⟨?_,hgo,hfo⟩
  apply L.ext
  · rw [hg.shared, hf.shared, hf.shared, hg.shared]
  · intro j
    by_cases hjk : j = k
    · subst hjk
      rw [hg.other _ j hne, hfe]
    · rw [hf.other _ j hjk]
      by_cases hjl : j = l
      · subst hjl
        exact hge
      · rw [hg.other _ j hjl, hf.other _ j hjk, hg.other _ j hjl]

end

end Library.Entries
