import XDevice.Lib.Bytes
/-!
# A file in memory and on the disk

What a program writes to a file, or to a mapping of it, is in memory at once; any
of it may reach the disk at any time, in any order, and a flush makes sure that a
part of it has. After a crash each place holds what was in memory or on the disk
about then.
-/

namespace Lib

variable {α : Type}

/-- The bytes of a file as programs see them, and as the disk has them. -/
structure Cached (α : Type) where
  mem : List α
  disk : Nat → α

namespace Cached

variable (z : α)

/-- Some places reach the disk. -/
def writeback (c : Cached α) (places : Nat → Bool) : Cached α :=
  { c with disk := fun i => if places i then c.mem.getD i z else c.disk i }

/-- All places below `n` reach the disk. -/
def flush (c : Cached α) (n : Nat) : Cached α := c.writeback z fun i => i < n

def store (c : Cached α) (mem : List α) : Cached α := { c with mem := mem }

/-- `d` lies at `off` in an image of the disk. -/
def OnDisk (disk : Nat → α) (off : Nat) (d : List α) : Prop := ∀ i < d.length, disk (off + i) = d.getD i z

/-- `d` lies at `off` in memory and on the disk. -/
structure Holds (c : Cached α) (off : Nat) (d : List α) : Prop where
  mem : readAt z c.mem off d.length = d
  disk : OnDisk z c.disk off d

/-- What a crash may leave while `c` is on its way to `c'`. -/
def Torn (c c' : Cached α) (image : Nat → α) : Prop :=
  ∀ i, image i = c.disk i ∨ image i = c.mem.getD i z ∨ image i = c'.mem.getD i z ∨ image i = c'.disk i

variable {z} {c c' : Cached α} {off : Nat} {d : List α}

theorem getD_of_readAt {l : List α} (h : readAt z l off d.length = d) {i : Nat} (hi : i < d.length) :
    l.getD (off + i) z = d.getD i z := by
  have := getD_readAt z l off d.length i
  rw [h, if_pos hi] at this
  exact this.symm

theorem Holds.writeback (h : c.Holds z off d) (places : Nat → Bool) : (c.writeback z places).Holds z off d where
  mem := h.mem
  disk i hi := by
    simp only [Cached.writeback]
    split
    · exact getD_of_readAt h.mem hi
    · exact h.disk i hi

/-- What is in memory below the flushed part is on the disk. -/
theorem holds_flush (h : readAt z c.mem off d.length = d) {n : Nat} (hn : off + d.length ≤ n) :
    (c.flush z n).Holds z off d where
  mem := h
  disk i hi := by
    have hlt : decide (off + i < n) = true := decide_eq_true (by omega)
    simp only [Cached.flush, Cached.writeback, hlt, if_true]
    exact getD_of_readAt h hi

/-- Writing behind it leaves it alone. -/
theorem Holds.behind (h : c.Holds z off d) {off' : Nat} (hoff : off + d.length ≤ off') (d' : List α) :
    (c.store (writeAt z c.mem off' d')).Holds z off d where
  mem := (readAt_writeAt_disjoint z (.inl hoff)).trans h.mem
  disk := h.disk

/-- What is held before and after a step survives a crash in it. -/
theorem Holds.torn (h : c.Holds z off d) (h' : c'.Holds z off d) {image : Nat → α} (ht : Torn z c c' image) :
    OnDisk z image off d := by
  intro i hi
  rcases ht (off + i) with he | he | he | he
  · exact he.trans (h.disk i hi)
  · exact he.trans (getD_of_readAt h.mem hi)
  · exact he.trans (getD_of_readAt h'.mem hi)
  · exact he.trans (h'.disk i hi)

end Cached

/-! ## Files that grow -/

/-- What the disk has of a file when some of its bytes have reached it, and perhaps its size. -/
def writtenBack (z : α) (mem disk : List α) (size : Bool) (places : Nat → Bool) : List α :=
  (List.range (if size then mem.length else disk.length)).map fun i => (if places i then mem else disk).getD i z

/-- A file that is all on the disk stays so. -/
theorem writtenBack_self (z : α) (l : List α) (size : Bool) (places : Nat → Bool) : writtenBack z l l size places = l := by
  unfold writtenBack
  simp only [ite_self]
  refine List.ext_getElem (by simp) fun i _ hi => ?_
  rw [List.getElem_map, List.getElem_range, List.getD_eq_getElem l z hi]

end Lib
