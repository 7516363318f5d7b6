import Mathlib.Algebra.Ring.Nat
import Mathlib.Data.List.GetD
import Mathlib.Data.List.Pairwise
/-!
# Sparse byte sequences

A file, a memory block or a mapped region is a list whose elements past the end
read as a filler `z`. Writing past the end fills the gap with `z`, as a POSIX
`pwrite` does. Everything here is over an arbitrary element type.
-/

namespace Lib

variable {α : Type} (z : α)

/-- `l` extended with `z` to at least `n` elements. -/
def padTo (l : List α) (n : Nat) : List α := l ++ List.replicate (n - l.length) z

/-- `l` with `d` written at `off`, a gap before `off` filled with `z`. -/
def writeAt (l : List α) (off : Nat) (d : List α) : List α :=
  (padTo z l off).take off ++ d ++ l.drop (off + d.length)

/-- The `n` elements of `l` from `off` on, those past the end as `z`. -/
def readAt (l : List α) (off n : Nat) : List α :=
  (l.drop off).take n ++ List.replicate (n - (l.length - off)) z

/-! ## Elements, with the filler past the end -/

theorem ext_getD {l l' : List α} (hlen : l.length = l'.length)
    (h : ∀ i < l.length, l.getD i z = l'.getD i z) : l = l' := by
  refine List.ext_getElem hlen fun i h1 h2 => ?_
  have := h i h1
  rwa [List.getD_eq_getElem _ _ h1, List.getD_eq_getElem _ _ h2] at this

theorem getD_past {l : List α} {i : Nat} (h : l.length ≤ i) : l.getD i z = z := by
  rw [List.getD_eq_default _ _ h]

theorem getD_append_fill (l : List α) (k i : Nat) :
    (l ++ List.replicate k z).getD i z = l.getD i z := by
  by_cases h : i < l.length
  · rw [List.getD_append _ _ _ _ h]
  · rw [List.getD_append_right _ _ _ _ (by omega), getD_past z (by omega : l.length ≤ i)]
    by_cases hk : i - l.length < k
    · rw [List.getD_eq_getElem _ _ (by simpa using hk)]; simp
    · rw [getD_past z (by simpa using hk)]

theorem getD_take (l : List α) (n i : Nat) : (l.take n).getD i z = if i < n then l.getD i z else z := by
  simp only [List.getD_eq_getElem?_getD, List.getElem?_take]
  split <;> rfl

theorem getD_drop (l : List α) (n i : Nat) : (l.drop n).getD i z = l.getD (n + i) z := by
  simp only [List.getD_eq_getElem?_getD, List.getElem?_drop]

theorem getD_replicate (k i : Nat) : (List.replicate k z).getD i z = z := by
  exact getD_append_fill z [] k i

/-! ## Padding -/

@[simp] theorem length_padTo (l : List α) (n : Nat) : (padTo z l n).length = max l.length n := by
  simp [padTo]; omega

theorem getD_padTo (l : List α) (n i : Nat) : (padTo z l n).getD i z = l.getD i z :=
  getD_append_fill z l _ i

/-! ## Writing -/

@[simp] theorem length_writeAt (l : List α) (off : Nat) (d : List α) :
    (writeAt z l off d).length = max l.length (off + d.length) := by
  simp only [writeAt, List.length_append, List.length_take, length_padTo, List.length_drop]
  omega

theorem getD_writeAt (l : List α) (off : Nat) (d : List α) (i : Nat) :
    (writeAt z l off d).getD i z =
      if off ≤ i ∧ i < off + d.length then d.getD (i - off) z else l.getD i z := by
  have hhead : ((padTo z l off).take off).length = off := by
    rw [List.length_take, length_padTo]
    omega
  unfold writeAt
  by_cases h1 : i < off
  · rw [List.append_assoc, List.getD_append _ _ _ _ (by omega), getD_take, if_pos h1, getD_padTo,
      if_neg (by omega)]
  · by_cases h2 : i < off + d.length
    · rw [if_pos ⟨by omega, h2⟩, List.getD_append _ _ _ _ (by simp only [List.length_append]; omega),
        List.getD_append_right _ _ _ _ (by omega), hhead]
    · rw [if_neg (by omega), List.getD_append_right _ _ _ _ (by simp only [List.length_append]; omega),
        getD_drop]
      congr 1
      simp only [List.length_append, hhead]
      omega

/-- A write inside the sequence keeps its length. -/
theorem length_writeAt_inside {l : List α} {off : Nat} {d : List α} (h : off + d.length ≤ l.length) :
    (writeAt z l off d).length = l.length := by
  rw [length_writeAt]; omega

theorem writeAt_nil_zero (d : List α) : writeAt z [] 0 d = d := by
  simp [writeAt, padTo]

/-- Padding first changes nothing about a write that reaches past the padding. -/
theorem writeAt_padTo {l : List α} {n off : Nat} {d : List α} (h : n ≤ off + d.length) :
    writeAt z (padTo z l n) off d = writeAt z l off d := by
  refine ext_getD z (by simp; omega) fun i _ => ?_
  simp only [getD_writeAt, getD_padTo]

/-- A write to a prefix is a prefix of the write, when it stays inside the prefix. -/
theorem take_writeAt_inside {l : List α} {off n : Nat} {d : List α} (h : off + d.length ≤ n) :
    (writeAt z l off d).take n = writeAt z (l.take n) off d := by
  refine ext_getD z (by simp; omega) fun i hi => ?_
  have hi' : i < n := by simp at hi; omega
  simp only [getD_take, getD_writeAt, if_pos hi']

/-- Two writes in a row, the second where the first ends. -/
theorem writeAt_append (l : List α) (off : Nat) (a b : List α) :
    writeAt z (writeAt z l off a) (off + a.length) b = writeAt z l off (a ++ b) := by
  refine ext_getD z (by simp; omega) fun i _ => ?_
  simp only [getD_writeAt, List.length_append]
  by_cases hb : off + a.length ≤ i ∧ i < off + a.length + b.length
  · rw [if_pos hb, if_pos (by omega), List.getD_append_right _ _ _ _ (by omega), Nat.sub_sub]
  · rw [if_neg hb]
    by_cases ha : off ≤ i ∧ i < off + a.length
    · rw [if_pos ha, if_pos (by omega), List.getD_append _ _ _ _ (by omega)]
    · rw [if_neg ha, if_neg (by omega)]

/-! ## Reading -/

@[simp] theorem length_readAt (l : List α) (off n : Nat) : (readAt z l off n).length = n := by
  simp [readAt]; omega

theorem getD_readAt (l : List α) (off n i : Nat) :
    (readAt z l off n).getD i z = if i < n then l.getD (off + i) z else z := by
  rw [readAt, getD_append_fill, getD_take]
  split <;> simp only [getD_drop]

/-- A read that stays inside is a plain slice. -/
theorem readAt_inside {l : List α} {off n : Nat} (h : off + n ≤ l.length) :
    readAt z l off n = (l.drop off).take n := by
  simp [readAt, show n - (l.length - off) = 0 by omega]

theorem readAt_congr {l l' : List α} {off n : Nat}
    (h : ∀ i, off ≤ i → i < off + n → l.getD i z = l'.getD i z) : readAt z l off n = readAt z l' off n := by
  refine ext_getD z (by simp) fun i hi => ?_
  have hi' : i < n := by simpa using hi
  rw [getD_readAt, getD_readAt, if_pos hi', if_pos hi', h _ (by omega) (by omega)]

/-- Reading back what was written. -/
@[simp] theorem readAt_writeAt (l : List α) (off : Nat) (d : List α) :
    readAt z (writeAt z l off d) off d.length = d := by
  refine ext_getD z (by simp) fun i hi => ?_
  have hi' : i < d.length := by simpa using hi
  rw [getD_readAt, if_pos hi', getD_writeAt, if_pos (by omega)]
  congr 1
  omega

theorem take_drop_writeAt (l : List α) (off : Nat) (d : List α) : ((writeAt z l off d).drop off).take d.length = d := by
  rw [← readAt_inside z (by rw [length_writeAt]; omega), readAt_writeAt]

/-- A write elsewhere is not seen. -/
theorem readAt_writeAt_disjoint {l : List α} {off off' n : Nat} {d : List α}
    (h : off + n ≤ off' ∨ off' + d.length ≤ off) :
    readAt z (writeAt z l off' d) off n = readAt z l off n := by
  refine readAt_congr z fun i h1 h2 => ?_
  rw [getD_writeAt, if_neg (by omega)]

/-! ## Writing at several places -/

/-- The writes in their order, each a sequence and where it goes. -/
def writeAll (l : List α) (ws : List (Nat × List α)) : List α := ws.foldl (fun l w => writeAt z l w.1 w.2) l

/-- Two writes that do not overlap. -/
def Apart (w w' : Nat × List α) : Prop := w.1 + w.2.length ≤ w'.1 ∨ w'.1 + w'.2.length ≤ w.1

instance : Std.Symm (@Apart α) := ⟨fun _ _ => Or.symm⟩

instance (w w' : Nat × List α) : Decidable (Apart w w') :=
  inferInstanceAs (Decidable (w.1 + w.2.length ≤ w'.1 ∨ w'.1 + w'.2.length ≤ w.1))

theorem writeAt_comm {l : List α} {w w' : Nat × List α} (h : Apart w w') :
    writeAt z (writeAt z l w.1 w.2) w'.1 w'.2 = writeAt z (writeAt z l w'.1 w'.2) w.1 w.2 := by
  refine ext_getD z (by simp only [length_writeAt]; omega) fun i _ => ?_
  simp only [getD_writeAt]
  rcases h with h | h
  · by_cases hw : w.1 ≤ i ∧ i < w.1 + w.2.length
    · rw [if_neg (by omega), if_pos hw, if_pos hw]
    · rw [if_neg hw, if_neg hw]
  · by_cases hw : w.1 ≤ i ∧ i < w.1 + w.2.length
    · rw [if_neg (by omega), if_pos hw, if_pos hw]
    · rw [if_neg hw, if_neg hw]

/-- Writes that do not overlap may come in any order. -/
theorem writeAll_perm {ws ws' : List (Nat × List α)} (h : ws.Perm ws') (happart : ws.Pairwise Apart) (l : List α) :
    writeAll z l ws = writeAll z l ws' := by
  refine h.foldl_eq' (fun w hw w' hw' l => ?_) l
  by_cases he : w = w'
  · rw [he]
  · exact writeAt_comm z (happart.forall hw hw' he)

/-- Each of them is there in the end. -/
theorem writeAll_holds {ws : List (Nat × List α)} (happart : ws.Pairwise Apart) {w : Nat × List α} (hw : w ∈ ws)
    (l : List α) : ((writeAll z l ws).drop w.1).take w.2.length = w.2 := by
  obtain ⟨l₁, l₂, rfl⟩ := List.append_of_mem hw
  have hlast : (l₁ ++ w :: l₂).Perm ((l₁ ++ l₂) ++ [w]) := List.perm_middle.trans (List.perm_append_singleton _ _).symm
  rw [writeAll_perm z hlast happart, writeAll, List.foldl_append]
  exact take_drop_writeAt z _ _ _

/-! ## Writing one over the other -/

/-- The sequences in `vs`, the newest first, each written over the start of the
ones before it. -/
def overlay : List (List α) → List α
  | [] => []
  | v :: vs => writeAt z (overlay vs) 0 v

/-- The element at `i` of the newest sequence that reaches that far. -/
def topmost : List (List α) → Nat → α
  | [], _ => z
  | v :: vs, i => if i < v.length then v.getD i z else topmost vs i

@[simp] theorem overlay_cons (v : List α) (vs : List (List α)) :
    overlay z (v :: vs) = writeAt z (overlay z vs) 0 v := rfl

theorem overlay_singleton (v : List α) : overlay z [v] = v := writeAt_nil_zero z v

theorem overlay_append (us : List (List α)) {vs ws : List (List α)} (h : overlay z vs = overlay z ws) :
    overlay z (us ++ vs) = overlay z (us ++ ws) := by
  induction us with
  | nil => exact h
  | cons u us ih => rw [List.cons_append, List.cons_append, overlay_cons, overlay_cons, ih]

theorem getD_overlay (vs : List (List α)) (i : Nat) : (overlay z vs).getD i z = topmost z vs i := by
  induction vs with
  | nil => rfl
  | cons v vs ih =>
    rw [overlay_cons, getD_writeAt, topmost, ih]
    by_cases h : i < v.length
    · rw [if_pos (by omega), if_pos h, Nat.sub_zero]
    · rw [if_neg (by omega), if_neg h]

/-- Reads from the start see the newest sequence and filler behind it, just when
no older sequence shows behind it. -/
theorem readAt_overlay_iff {v : List α} {vs : List (List α)} {bound : Nat}
    (hb : (overlay z (v :: vs)).length < bound) :
    (∀ n, 0 < n → n < bound → readAt z (overlay z (v :: vs)) 0 n = readAt z v 0 n) ↔
      ∀ i, v.length ≤ i → topmost z vs i = z := by
  constructor
  · intro h i hi
    by_cases hlen : i < (overlay z (v :: vs)).length
    · have hread := congrArg (List.getD · i z) (h (i + 1) (by omega) (by omega))
      simp only [getD_readAt, Nat.zero_add, if_pos (Nat.lt_succ_self i)] at hread
      rwa [getD_overlay, topmost, if_neg (by omega), getD_past z hi] at hread
    · have := getD_past z (Nat.le_of_not_lt hlen)
      rwa [getD_overlay, topmost, if_neg (by omega)] at this
  · intro h n _ _
    refine readAt_congr z fun i _ _ => ?_
    rw [getD_overlay, topmost]
    split
    · rfl
    · rw [h i (by omega), getD_past z (by omega)]

end Lib
