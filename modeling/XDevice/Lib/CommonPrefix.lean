import Mathlib.Data.List.Basic
/-!
# Common prefixes

How long two lists are the same from their start.
-/

namespace Lib

variable {α : Type} [DecidableEq α]

/-- The length of the longest prefix that both lists have. -/
def commonPrefix : List α → List α → Nat
  | a :: l, b :: m => if a = b then commonPrefix l m + 1 else 0
  | _, _ => 0

/-- The common prefixes are those up to the longest. -/
theorem le_commonPrefix_iff {l m : List α} {k : Nat} :
    k ≤ commonPrefix l m ↔ k ≤ l.length ∧ k ≤ m.length ∧ l.take k = m.take k := by
  induction l generalizing m k with
  | nil =>
    rw [commonPrefix.eq_def]
    constructor
    · intro hk
      obtain rfl := Nat.le_zero.1 hk
      exact ⟨Nat.le_refl 0, Nat.zero_le _, rfl⟩
    · exact fun h => h.1
  | cons a l ih =>
    cases m with
    | nil =>
      constructor
      · intro hk
        obtain rfl := Nat.le_zero.1 hk
        exact ⟨Nat.zero_le _, Nat.le_refl 0, rfl⟩
      · exact fun h => h.2.1
    | cons b m =>
      cases k with
      | zero => exact iff_of_true (Nat.zero_le _) ⟨Nat.zero_le _, Nat.zero_le _, rfl⟩
      | succ k =>
        rw [commonPrefix]
        split
        · rename_i hab
          subst hab
          simp only [Nat.add_le_add_iff_right, ih, List.length_cons, List.take_succ_cons, List.cons.injEq, true_and]
        · rename_i hab
          refine iff_of_false (by omega) fun h => hab ?_
          have ht := h.2.2
          simp only [List.take_succ_cons, List.cons.injEq] at ht
          exact ht.1

theorem commonPrefix_le_left (l m : List α) : commonPrefix l m ≤ l.length := (le_commonPrefix_iff.1 (Nat.le_refl _)).1

/-- Below its end the two lists agree. -/
theorem getElem?_of_lt_commonPrefix {l m : List α} {k : Nat} (h : k < commonPrefix l m) : m[k]? = l[k]? := by
  have ht := (le_commonPrefix_iff.1 h).2.2
  rw [← List.getElem?_take_of_succ, ← ht, List.getElem?_take_of_succ]

end Lib
