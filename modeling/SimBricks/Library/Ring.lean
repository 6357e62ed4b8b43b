import Mathlib.Data.Nat.ModEq
import Mathlib.Tactic

/-!
# Cells of a ring

Positions in a ring of `n` cells are counted without bound and reduced when
a cell is touched. Inside a window of one round the reduction loses nothing.
-/

set_option autoImplicit false

namespace Library.Ring
open List Function Nat

variable {α : Type*} {n : ℕ}

/-- Positions less than a round apart share their cell only if they are equal. -/
lemma mod_eq_iff {i j : ℕ} (hij : i < j+n) (hji : j < i+n) : i % n = j % n ↔ i = j := by
  constructor
  · intro h
    apply Nat.ModEq.eq_of_abs_lt h
    rw [abs_lt]
    omega
  · rintro rfl
    rfl

lemma exists_in_round (d : ℕ) {i : ℕ} (hi : i < n) : ∃ k, d ≤ k ∧ k < d+n ∧ k % n = i := by
  have hd := div_add_mod d n
  have hlt := mod_lt d (by omega : 0 < n)
  rcases lt_or_ge i (d % n) with h | h
  · refine ⟨n*(d/n)+n+i,by omega,by omega,?_⟩
    rw [add_assoc, mul_add_mod, add_mod_left, mod_eq_of_lt hi]
  · refine ⟨n*(d/n)+i,by omega,by omega,?_⟩
    rw [mul_add_mod, mod_eq_of_lt hi]

lemma update_mod (f : ℕ → α) (v : α) {i j : ℕ} (hij : i < j+n) (hji : j < i+n) :
    update f (i % n) v (j % n) = if j = i then v else f (j % n) := by
  rw [update_apply]
  exact if_congr (mod_eq_iff hji hij) rfl rfl

/-- One pass over `k` cells from `first` on. The body is told how far the pass
is and may refuse a cell. -/
def sweep (n : ℕ) (f : ℕ → α → Option α) (first k : ℕ) (cell : ℕ → α) : Option (ℕ → α) :=
  (range k).foldlM
    (fun cell i => (f i (cell ((first+i) % n))).map (update cell ((first+i) % n))) cell

/-- A pass of at most one round meets each cell as it was before the pass. -/
lemma sweep_eq {f : ℕ → α → Option α} {k : ℕ} (first : ℕ) (cell c : ℕ → α) (hk : k ≤ n)
    (h : ∀ i < k, f i (cell ((first+i) % n)) = some (c i)) :
    ∃ cell', sweep n f first k cell = some cell' ∧ (∀ i < k, cell' ((first+i) % n) = c i) ∧ ∀ j,
    (∀ i < k, j ≠ (first+i) % n) → cell' j = cell j := by
  induction k with
  | zero => exact ⟨cell,rfl,by simp,fun _ _ => rfl⟩
  | succ k ih =>
    obtain ⟨cell',hs,hin,hout⟩ := ih (by omega) fun i hi => h i (by omega)
    -- the next cell has not been met before
    have hnew : cell' ((first+k) % n) = cell ((first+k) % n) := by
      refine hout _ fun i hi => ?_
      rw [Ne, mod_eq_iff (by omega) (by omega)]
      omega
    refine ⟨update cell' ((first+k) % n) (c k),?_,?_,?_⟩
    · rw [sweep] at hs ⊢
      rw [range_succ, foldlM_append, hs]
      simp [hnew, h k (by omega)]
    · intro i hi
      rw [update_mod _ _ (by omega) (by omega)]
      split_ifs with he
      · rw [add_left_cancel he]
      · exact hin i (by omega)
    · intro j hj
      rw [update_of_ne (hj k (by omega))]
      exact hout j fun i hi => hj i (by omega)

variable {β : Type*} {Full : β → α → Prop} {Free : α → Prop}

structure Holds (n : ℕ) (Full : β → α → Prop) (Free : α → Prop) (d : ℕ) (log : List β)
    (cell : ℕ → α) : Prop where
  full : ∀ k m, d ≤ k → log[k]? = some m → Full m (cell (k % n))
  free : ∀ k, log.length ≤ k → k < d+n → Free (cell (k % n))

namespace Holds

variable {d : ℕ} {log : List β} {cell : ℕ → α} {c : α}

lemma empty (h : ∀ i, Free (cell i)) : Holds n Full Free 0 [] cell :=
  ⟨fun k m _ hm => by simp at hm,fun k _ _ => h (k % n)⟩

lemma touch (h : Holds n Full Free d log cell) (hd : d ≤ log.length) (hn : log.length < d+n)
    (hc : Free c) : Holds n Full Free d log (update cell (log.length % n) c) := by
  constructor
  · intro k m hk hm
    have hlt : k < log.length := (List.getElem?_eq_some_iff.mp hm).1
    rw [update_mod _ _ (by omega) (by omega), if_neg (by omega)]
    exact h.full k m hk hm
  · intro k hk hkn
    rw [update_mod _ _ (by omega) (by omega)]
    split_ifs
    · exact hc
    · exact h.free k hk hkn

lemma push (h : Holds n Full Free d log cell) (hd : d ≤ log.length) (hn : log.length < d+n)
    {m : β} (hc : Full m c) : Holds n Full Free d (log++[m]) (update cell (log.length % n) c) := by
  constructor
  · intro k m' hk hm
    have hlt : k < log.length+1 := by simpa using (List.getElem?_eq_some_iff.mp hm).1
    rw [update_mod _ _ (by omega) (by omega)]
    split_ifs with he
    · subst he
      rw [getElem?_concat_length] at hm
      exact Option.some.inj hm ▸ hc
    · rw [getElem?_append_left (by omega)] at hm
      exact h.full k m' hk hm
  · intro k hk hkn
    rw [length_append, length_singleton] at hk
    rw [update_mod _ _ (by omega) (by omega), if_neg (by omega)]
    exact h.free k (by omega) hkn

lemma pop (h : Holds n Full Free d log cell) (hd : d < log.length) (hn : log.length ≤ d+n)
    (hc : Free c) : Holds n Full Free (d+1) log (update cell (d % n) c) := by
  constructor
  · intro k m hk hm
    have hlt : k < log.length := (List.getElem?_eq_some_iff.mp hm).1
    rw [update_mod _ _ (by omega) (by omega), if_neg (by omega)]
    exact h.full k m (by omega) hm
  · intro k hk hkn
    by_cases he : k = d+n
    · rw [he, add_mod_right, update_self]
      exact hc
    · rw [update_mod _ _ (by omega) (by omega), if_neg (by omega)]
      exact h.free k hk (by omega)

end Holds

lemma prefix_snoc {l m : List β} {x : β} (h : l <+: m) (hx : m[l.length]? = some x) :
    l++[x] <+: m := by
  obtain ⟨t,rfl⟩ := h
  rw [List.getElem?_append_right le_rfl, Nat.sub_self, ← List.head?_eq_getElem?] at hx
  obtain ⟨t,rfl⟩ := List.head?_eq_some_iff.mp hx
  exact ⟨t,by simp⟩

end Library.Ring
