import Mathlib.Algebra.BigOperators.Group.Finset.Basic
import Mathlib.Data.Finmap
import SimBricks.Library.Run

/-!
# Unordered tables

A table is a finite map without an iteration order. Code that walks such a
table takes the order of the walk as an argument of its own.
-/

set_option autoImplicit false

namespace Library
open Run Finset Finmap

abbrev Table (K V : Type) := Finmap (fun _ : K => V)

namespace Table

variable {K V : Type}

def size (t : Table K V) : ℕ := t.keys.card

variable [DecidableEq K]

@[simp] lemma lookup_insert_ite (t : Table K V) (a b : K) (v : V) :
    lookup b (insert a v t) = if b = a then some v else lookup b t := by
  by_cases h : b = a
  · subst h
    simp
  · simp [h, lookup_insert_of_ne t h]

lemma erase_insert_untracked {t : Table K V} {a : K} {v : V} (h : t.lookup a = none) :
    erase a (insert a v t) = t := by
  apply ext_lookup
  intro b
  by_cases hb : b = a
  · subst hb
    rw [lookup_erase, h]
  · rw [lookup_erase_ne hb, lookup_insert_of_ne _ hb]

lemma keys_insert (t : Table K V) (a : K) (v : V) :
    (insert a v t).keys = Insert.insert a t.keys := by
  ext b
  simp [Finmap.mem_keys, Finmap.mem_insert]

lemma mem_keys_of_lookup {t : Table K V} {a : K} {v : V} (h : lookup a t = some v) : a ∈ t.keys :=
  mem_keys.mpr (mem_of_lookup_eq_some h)

lemma not_mem_keys_of_lookup {t : Table K V} {a : K} (h : lookup a t = none) : a ∉ t.keys :=
  fun hm => lookup_eq_none.mp h (mem_keys.mp hm)

/-! Totals over the values. -/

section
variable (f : V → ℕ) {t : Table K V} {a : K} {u : V}

def total (t : Table K V) : ℕ := ∑ k ∈ t.keys, ((t.lookup k).map f).getD 0

lemma total_congr {t' : Table K V} {s : Finset K} (ha : a ∉ s)
    (h : ∀ k, k ≠ a → t'.lookup k = t.lookup k) :
    ∑ k ∈ s, ((t'.lookup k).map f).getD 0 = ∑ k ∈ s, ((t.lookup k).map f).getD 0 := by
  apply sum_congr rfl
  intro k hk
  rw [h k fun he => ha (he ▸ hk)]

lemma total_erase (h : t.lookup a = some u) : f u+total f (t.erase a) = total f t := by
  have hrest := total_congr f (notMem_erase a t.keys)
    fun k (hk : k ≠ a) => lookup_erase_ne (s := t) hk
  have hsplit := add_sum_erase t.keys (fun k => ((t.lookup k).map f).getD 0)
    (mem_keys_of_lookup h)
  simp only [total, keys_erase, hrest]
  simpa [h] using hsplit

lemma total_insert_new (h : t.lookup a = none) (v : V) :
    total f (insert a v t) = f v+total f t := by
  have hnew : lookup a (insert a v t) = some v := lookup_insert t
  have := total_erase f hnew
  rw [erase_insert_untracked h] at this
  exact this.symm

lemma total_insert_old (h : t.lookup a = some u) (v : V) :
    total f (insert a v t)+f u = total f t+f v := by
  have hnew : lookup a (insert a v t) = some v := lookup_insert t
  have hsame : (insert a v t).erase a = t.erase a := by
    apply ext_lookup
    intro b
    by_cases hb : b = a
    · subst hb
      simp
    · rw [lookup_erase_ne hb, lookup_erase_ne hb, lookup_insert_of_ne _ hb]
  have hv := total_erase f hnew
  have hu := total_erase f h
  rw [hsame] at hv
  omega

end

/-! A key set of bounded size that never forgets a key. -/

def Grows (capacity : ℕ) (k : K) (s t : Finset K) : Prop :=
  t = s ∨ (t = insert k s ∧ (k ∈ s ∨ s.card < capacity))

def Closed (capacity : ℕ) (s : Finset K) (k : K) : Prop := k ∉ s ∧ capacity ≤ s.card

lemma Grows.mem {capacity : ℕ} {k a : K} {s t : Finset K} (h : Grows capacity k s t)
    (ha : a ∈ s) : a ∈ t := by
  rcases h with rfl | ⟨rfl,-⟩
  · exact ha
  · exact mem_insert_of_mem ha

lemma Grows.closed {capacity : ℕ} {k a : K} {s t : Finset K} (h : Grows capacity k s t)
    (ha : Closed capacity s a) : Closed capacity t a := by
  rcases h with rfl | ⟨rfl,hk | hk⟩
  · exact ha
  · rw [insert_eq_of_mem hk]
    exact ha
  · exact absurd hk (not_lt.mpr ha.2)

/-- In a run whose key set only grows, a key is not both refused and used,
whichever comes first. -/
lemma never_refused_and_used {σ ε : Type*} {step : σ → ε → σ} {I : σ → Prop} {A B : σ → ε → Prop}
    {N : σ → ℕ} {S : σ → Finset K} {k : K} (hI : ∀ s e, I s → I (step s e))
    (hgrow : ∀ s e, I s → N (step s e) = N s ∧ ∃ a, Grows (N s) a (S s) (S (step s e)))
    (hA : ∀ s e, I s → A s e → Closed (N s) (S s) k) (hB : ∀ s e, I s → B s e → k ∈ S (step s e))
    {s : σ} (hs : I s) (es : List ε) (i j : Fin es.length) :
    ¬ (A (run step s (es.take i)) (es.get i) ∧ B (run step s (es.take j)) (es.get j)) := by
  have hclosed : ∀ s e, I s → Closed (N s) (S s) k → Closed (N (step s e)) (S (step s e)) k := by
    intro s e h hc
    obtain ⟨hcap,a,hg⟩ := hgrow s e h
    rw [hcap]
    exact hg.closed hc
  apply never_both hI hclosed (Q := fun s => k ∈ S s) ?_ ?_ ?_ hs
  · intro s e h hk
    obtain ⟨-,a,hg⟩ := hgrow s e h
    exact hg.mem hk
  · intro s e h ha
    have hc := hA s e h ha
    exact ⟨hc,hc.1⟩
  · intro s e h hb
    have hk := hB s e h hb
    exact ⟨fun hc => (hclosed s e h hc).1 hk,hk⟩

end Table

end Library
