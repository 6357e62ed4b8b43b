import SimBricks.Library.Quorum

/-!
# Ballots, votes and decisions

A ballot carries at most one proposed value and members vote for proposed
values only. A decision is a ballot with a majority of votes. Every later
proposal repeats a decided value as soon as each proposal above a decision
takes its value from a ballot between the two.
-/

set_option autoImplicit false

namespace Library.Voting
open Library.Quorum

variable {A B V : Type*} [Fintype A]

structure Record (A B V : Type*) where
  proposed : B → V → Prop
  voted : A → B → V → Prop

namespace Record

variable (R : Record A B V)

def Chosen (b : B) (v : V) : Prop := ∃ Q : Finset A, Majority Q ∧ ∀ a ∈ Q, R.voted a b v

structure Honest : Prop where
  one : ∀ b v w, R.proposed b v → R.proposed b w → v = w
  vote : ∀ a b v, R.voted a b v → R.proposed b v

variable {b : B} {v : V} {c : B} {w : V}

lemma Chosen.proposed {R : Record A B V} (hR : R.Honest) (h : R.Chosen b v) : R.proposed b v := by
  obtain ⟨Q,hQ,hv⟩ := h
  have hne : 0 < Q.card := by unfold Majority at hQ; omega
  obtain ⟨a,ha⟩ := Finset.card_pos.mp hne
  exact hR.vote a b v (hv a ha)

/-- What a majority reported before ballot `b` started: a vote of a reporter
below `b` is bounded by `top`, and `top` itself was proposed with `v`. -/
structure Reported [LinearOrder B] (b : B) (v : V) (P : Finset A) (top : B) : Prop where
  majority : Majority P
  below : top < b
  proposed : R.proposed top v
  bound : ∀ a ∈ P, ∀ c w, R.voted a c w → c < b → c ≤ top

lemma Reported.covers [DecidableEq A] [LinearOrder B] {R : Record A B V} {top : B} {P : Finset A}
    (hr : R.Reported b v P top) (hc : R.Chosen c w) (h : c < b) :
    ∃ m, c ≤ m ∧ m < b ∧ R.proposed m v := by
  obtain ⟨Q,hQ,hv⟩ := hc
  obtain ⟨a,hp,hq⟩ := majorities_meet hr.majority hQ
  exact ⟨top,hr.bound a hp c w (hv a hq) h,hr.below,hr.proposed⟩

variable [LinearOrder B] [WellFoundedLT B]

lemma later_proposal {R : Record A B V} {D : B → V → Prop} (hR : R.Honest)
    (hD : ∀ c w, D c w → R.Chosen c w)
    (hsafe : ∀ b v c w, R.proposed b v → D c w → c < b → ∃ m, c ≤ m ∧ m < b ∧ R.proposed m v)
    (hc : D c w) : ∀ b v, c ≤ b → R.proposed b v → v = w := by
  intro b
  induction b using WellFoundedLT.induction with
  | _ b ih =>
    intro v hcb hv
    rcases hcb.eq_or_lt with rfl | hlt
    · exact hR.one _ _ _ hv ((hD _ _ hc).proposed hR)
    · obtain ⟨m,hcm,hmb,hm⟩ := hsafe b v c w hv hc hlt
      exact ih m hmb v hcm hm

lemma decisions_agree {R : Record A B V} {D : B → V → Prop} (hR : R.Honest)
    (hD : ∀ c w, D c w → R.Chosen c w)
    (hsafe : ∀ b v c w, R.proposed b v → D c w → c < b → ∃ m, c ≤ m ∧ m < b ∧ R.proposed m v)
    (hb : D b v) (hc : D c w) : v = w := by
  rcases le_total c b with h | h
  · exact later_proposal hR hD hsafe hc b v h ((hD _ _ hb).proposed hR)
  · exact (later_proposal hR hD hsafe hb c w h ((hD _ _ hc).proposed hR)).symm

end Record

end Library.Voting
