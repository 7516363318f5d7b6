import Mathlib.Algebra.Ring.Nat
import Mathlib.Data.List.Nodup
/-!
# Keyed lists

A list searched from the front by a key, as a linked list or a linear cache is:
`lookup` finds the first element with the key, `indexOf` its position, through
which it can be replaced in place.
-/

namespace Lib

variable {α κ : Type} [DecidableEq κ] (key : α → κ)

/-- The first element with key `k`. -/
def lookup (l : List α) (k : κ) : Option α := l.find? fun x => key x = k

/-- The position of the first element with key `k`. -/
def indexOf (l : List α) (k : κ) : Option Nat := l.findIdx? fun x => key x = k

@[simp] theorem lookup_nil (k : κ) : lookup key [] k = none := rfl

theorem lookup_cons (x : α) (l : List α) (k : κ) :
    lookup key (x :: l) k = if key x = k then some x else lookup key l k := by
  by_cases h : key x = k <;> simp [lookup, h]

theorem indexOf_cons (x : α) (l : List α) (k : κ) :
    indexOf key (x :: l) k = if key x = k then some 0 else (indexOf key l k).map (· + 1) := by
  by_cases h : key x = k <;> simp [indexOf, List.findIdx?_cons, h]

theorem lookup_append (l l' : List α) (k : κ) :
    lookup key (l ++ l') k = (lookup key l k).or (lookup key l' k) := by
  simp [lookup, List.find?_append]

theorem key_of_lookup {l : List α} {k : κ} {x : α} (h : lookup key l k = some x) : key x = k := by
  simpa using List.find?_some h

theorem mem_of_lookup {l : List α} {k : κ} {x : α} (h : lookup key l k = some x) : x ∈ l :=
  List.mem_of_find?_eq_some h

theorem lookup_eq_none {l : List α} {k : κ} : lookup key l k = none ↔ k ∉ l.map key := by
  simp [lookup, List.find?_eq_none]

theorem indexOf_eq_none {l : List α} {k : κ} : indexOf key l k = none ↔ lookup key l k = none := by
  simp [indexOf, lookup, List.findIdx?_eq_none_iff, List.find?_eq_none]

/-- The element at the found position is the one `lookup` finds. -/
theorem getElem?_indexOf {l : List α} {k : κ} {i : Nat} (h : indexOf key l k = some i) :
    ∃ x, l[i]? = some x ∧ lookup key l k = some x := by
  induction l generalizing i with
  | nil => simp [indexOf] at h
  | cons y l ih =>
    rw [indexOf_cons] at h
    rw [lookup_cons]
    split at h
    · cases h
      exact ⟨y, rfl, by simp [*]⟩
    · obtain ⟨j, hj, rfl⟩ := Option.map_eq_some_iff.1 h
      obtain ⟨x, hx, hl⟩ := ih hj
      exact ⟨x, by simpa using hx, by simp [*]⟩

/-- The list around the found position. -/
theorem indexOf_split {l : List α} {k : κ} {i : Nat} (h : indexOf key l k = some i) :
    ∃ l₁ x l₂, l = l₁ ++ x :: l₂ ∧ l₁.length = i ∧ key x = k := by
  obtain ⟨x, hx, hl⟩ := getElem?_indexOf key h
  obtain ⟨hi, rfl⟩ := List.getElem?_eq_some_iff.1 hx
  refine ⟨l.take i, l[i], l.drop (i + 1), ?_, List.length_take_of_le (Nat.le_of_lt hi), key_of_lookup key hl⟩
  rw [← List.drop_eq_getElem_cons, List.take_append_drop]

/-- Replacing the found element by one with the same key. -/
theorem lookup_set {l : List α} {k : κ} {i : Nat} (h : indexOf key l k = some i) {x : α} (hx : key x = k)
    (k' : κ) : lookup key (l.set i x) k' = if k' = k then some x else lookup key l k' := by
  induction l generalizing i with
  | nil => simp [indexOf] at h
  | cons y l ih =>
    rw [indexOf_cons] at h
    split at h
    · cases h
      rename_i hy
      simp only [List.set_cons_zero, lookup_cons, hx, hy]
      by_cases hk : k' = k
      · simp [hk]
      · simp [hk, Ne.symm hk]
    · obtain ⟨j, hj, rfl⟩ := Option.map_eq_some_iff.1 h
      rename_i hy
      simp only [List.set_cons_succ, lookup_cons, ih hj]
      by_cases hk : k' = k
      · subst hk; simp [hy]
      · simp [hk]

theorem map_set_same {l : List α} {k : κ} {i : Nat} (h : indexOf key l k = some i) {x : α} (hx : key x = k) :
    (l.set i x).map key = l.map key := by
  induction l generalizing i with
  | nil => simp [indexOf] at h
  | cons y l ih =>
    rw [indexOf_cons] at h
    split at h
    · cases h
      simp [*]
    · obtain ⟨j, hj, rfl⟩ := Option.map_eq_some_iff.1 h
      simp [ih hj]

/-- What `eraseP` takes out is what `lookup` finds. -/
theorem lookup_split {l : List α} {k : κ} {x : α} (h : lookup key l k = some x) :
    ∃ pre post, l = pre ++ x :: post ∧ (l.eraseP fun y => key y = k) = pre ++ post := by
  obtain ⟨hx, pre, post, rfl, hpre⟩ := List.find?_eq_some_iff_append.1 h
  refine ⟨pre, post, rfl, ?_⟩
  rw [List.eraseP_append_right _ fun y hy => by simpa using hpre y hy]
  exact congrArg (pre ++ ·) (List.eraseP_cons_of_pos hx)

/-- With unique keys, removing the first element with key `k` removes the key. -/
theorem lookup_eraseP {l : List α} (hn : (l.map key).Nodup) (k k' : κ) :
    lookup key (l.eraseP fun x => key x = k) k' = if k' = k then none else lookup key l k' := by
  induction l with
  | nil => simp
  | cons y l ih =>
    simp only [List.map_cons, List.nodup_cons] at hn
    by_cases hy : key y = k
    · rw [List.eraseP_cons_of_pos (by simpa using hy), lookup_cons]
      by_cases hk : k' = k
      · subst hk; simpa [hy] using (lookup_eq_none key).2 (hy ▸ hn.1)
      · simp [hk, hy, Ne.symm hk]
    · rw [List.eraseP_cons_of_neg (by simpa using hy), lookup_cons, lookup_cons, ih hn.2]
      by_cases hk : k' = k
      · subst hk; simp [hy]
      · simp [hk]

omit [DecidableEq κ] in
theorem nodup_eraseP {l : List α} (hn : (l.map key).Nodup) (p : α → Bool) : ((l.eraseP p).map key).Nodup :=
  hn.sublist (List.eraseP_sublist.map key)

end Lib
