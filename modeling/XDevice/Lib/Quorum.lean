import Mathlib.Algebra.Ring.Nat
import Mathlib.Data.Finset.Card
/-!
# Majorities

Two majorities of the same finite set of members have a member in common, so
two decisions that each take a majority cannot both be taken when a member
takes part in one only.
-/

namespace Lib

variable {α κ ν : Type} [DecidableEq α]

/-- More than half of `members`. -/
structure IsMajority (members s : Finset α) : Prop where
  subset : s ⊆ members
  card : members.card < 2 * s.card

theorem IsMajority.inter {members s t : Finset α} (hs : IsMajority members s) (ht : IsMajority members t) :
    (s ∩ t).Nonempty := by
  have hunion : (s ∪ t).card ≤ members.card := Finset.card_le_card (Finset.union_subset hs.subset ht.subset)
  have hsum := Finset.card_union_add_card_inter s t
  have h1 := hs.card
  have h2 := ht.card
  exact Finset.card_pos.1 (by omega)

/-- A ledger of votes, at most one by each voter in each term. -/
def OneVote (ledger : Set (α × κ × ν)) : Prop :=
  ∀ voter term c c', (voter, term, c) ∈ ledger → (voter, term, c') ∈ ledger → c = c'

/-- Whoever has the votes of a majority is alone in it. -/
theorem OneVote.unique {ledger : Set (α × κ × ν)} (h : OneVote ledger) {members s t : Finset α} {term : κ} {c c' : ν}
    (hs : IsMajority members s) (ht : IsMajority members t) (hsv : ∀ v ∈ s, (v, term, c) ∈ ledger)
    (htv : ∀ v ∈ t, (v, term, c') ∈ ledger) : c = c' := by
  obtain ⟨v, hv⟩ := hs.inter ht
  obtain ⟨h1, h2⟩ := Finset.mem_inter.1 hv
  exact h v term c c' (hsv v h1) (htv v h2)

end Lib
