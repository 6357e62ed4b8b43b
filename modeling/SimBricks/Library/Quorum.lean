import Mathlib.Data.Fintype.Card
import Mathlib.Tactic

/-! Majorities of a finite set meet, and a list of receipts from distinct
members names as many members as it is long. -/

set_option autoImplicit false

namespace Library.Quorum

variable {A : Type*} [Fintype A] [DecidableEq A]

def Majority (Q : Finset A) : Prop := Fintype.card A/2+1 ≤ Q.card

lemma majorities_meet {P Q : Finset A} (hp : Majority P) (hq : Majority Q) : ∃ a ∈ P, a ∈ Q := by
  by_contra h
  have hd : Disjoint P Q := Finset.disjoint_left.mpr fun a ha hb => h ⟨a,ha,hb⟩
  have hc : (P ∪ Q).card ≤ Fintype.card A := Finset.card_le_univ _
  rw [Finset.card_union_of_disjoint hd] at hc
  unfold Majority at hp hq
  omega

omit [Fintype A] in
/-- Receipts are indices into a log; `sender` may only repeat on one index. -/
lemma senders_card {J : List ℕ} (hn : J.Nodup) (sender : ℕ → A)
    (hinj : ∀ i ∈ J, ∀ j ∈ J, sender i = sender j → i = j) :
    (J.map sender).toFinset.card = J.length := by
  rw [List.toFinset_card_of_nodup, List.length_map]
  exact List.Nodup.map_on (fun i hi j hj h => hinj i hi j hj h) hn

end Library.Quorum
