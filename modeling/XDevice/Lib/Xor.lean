import Mathlib.Data.BitVec
import Mathlib.Logic.Function.Iterate
/-!
# Maps of words that respect exclusive or

Such a map is known from its values on the words with one bit, so that two of
them are compared by comparing as many values as a word has bits.
-/

namespace Lib

variable {w : Nat}

def XorLinear (f : BitVec w → BitVec w) : Prop := ∀ a b, f (a ^^^ b) = f a ^^^ f b

/-- The exclusive or of the columns at the bits of `x`. -/
def combine (columns : List (BitVec w)) (x : BitVec w) : BitVec w :=
  (columns.zipIdx.map fun c => if x.getLsbD c.2 then c.1 else 0#w).foldr (· ^^^ ·) 0#w

namespace XorLinear

variable {f g : BitVec w → BitVec w}

theorem zero (h : XorLinear f) : f 0#w = 0#w := by
  have := h 0#w 0#w
  rwa [BitVec.xor_self, BitVec.xor_self] at this

theorem id : XorLinear (fun x : BitVec w => x) := fun _ _ => rfl

theorem comp (hf : XorLinear f) (hg : XorLinear g) : XorLinear fun x => f (g x) := by
  intro a b
  dsimp only
  rw [hg, hf]

theorem iterate (h : XorLinear f) (n : Nat) : XorLinear f^[n] := by
  induction n with
  | zero => exact id
  | succ n ih =>
    intro a b
    rw [Function.iterate_succ_apply, Function.iterate_succ_apply, Function.iterate_succ_apply, h, ih]

theorem xor_xor_comm (a b c d : BitVec w) : a ^^^ b ^^^ (c ^^^ d) = a ^^^ c ^^^ (b ^^^ d) := by
  ac_rfl

theorem xor_xor_cancel (a b c : BitVec w) : a ^^^ c ^^^ (b ^^^ c) = a ^^^ b := by
  rw [xor_xor_comm, BitVec.xor_self, BitVec.xor_zero]

theorem xor (hf : XorLinear f) (hg : XorLinear g) : XorLinear fun x => f x ^^^ g x := by
  intro a b
  dsimp only
  rw [hf, hg, xor_xor_comm]

theorem combine (columns : List (BitVec w)) : XorLinear (Lib.combine columns) := by
  intro a b
  unfold Lib.combine
  induction columns.zipIdx with
  | nil => simp
  | cons c cs ih =>
    simp only [List.map_cons, List.foldr_cons, ih]
    rw [← xor_xor_comm]
    congr 1
    simp only [BitVec.getLsbD_xor]
    cases a.getLsbD c.2 <;> cases b.getLsbD c.2 <;> simp

/-- A word without its bit `n` and that bit alone. -/
theorem split_bit (x : BitVec w) (n : Nat) :
    x = (x ^^^ if x.getLsbD n then BitVec.twoPow w n else 0#w) ^^^ if x.getLsbD n then BitVec.twoPow w n else 0#w := by
  rw [BitVec.xor_assoc, BitVec.xor_self, BitVec.xor_zero]

/-- Two such maps are the same when they agree on every word with one bit. -/
theorem ext (hf : XorLinear f) (hg : XorLinear g) (h : ∀ i < w, f (BitVec.twoPow w i) = g (BitVec.twoPow w i))
    (x : BitVec w) : f x = g x := by
  have hlow : ∀ n ≤ w, ∀ x : BitVec w, (∀ i, n ≤ i → x.getLsbD i = false) → f x = g x := by
    intro n
    induction n with
    | zero =>
      intro _ x hx
      obtain rfl : x = 0#w := BitVec.eq_of_getLsbD_eq fun i _ => by rw [hx i (Nat.zero_le i), BitVec.getLsbD_zero]
      rw [hf.zero, hg.zero]
    | succ n ih =>
      intro hn x hx
      rw [split_bit x n, hf, hg]
      congr 1
      · refine ih (by omega) _ fun i hi => ?_
        rw [BitVec.getLsbD_xor]
        by_cases hin : i = n
        · subst hin
          cases hb : x.getLsbD i <;> simp; omega
        · rw [hx i (by omega)]
          cases hb : x.getLsbD n <;> simp [Ne.symm hin]
      · split
        · exact h n (by omega)
        · rw [hf.zero, hg.zero]
  exact hlow w (Nat.le_refl w) x fun i hi => BitVec.getLsbD_of_ge x i hi

/-- A map with no other word at zero has no two words at one place. -/
theorem injective (hf : XorLinear f) (h : ∀ x, f x = 0#w → x = 0#w) : Function.Injective f := by
  intro a b hab
  have hz : f (a ^^^ b) = 0#w := by rw [hf, hab, BitVec.xor_self]
  exact BitVec.xor_eq_zero_iff.1 (h _ hz)

end XorLinear

end Lib
