import XDevice.Storage.RaftStorage
import XDevice.Storage.Local
/-!
# Files of the Raft keys

The adapter prints a path of at most 511 bytes and the Local backend prints the base path
before it, into another buffer of that size. Neither looks at what was cut off. What is
left of the names behind the device prefix tells two keys apart or does not.
-/
open Lib.Posix

namespace XDevice

/-- The file of a key: `build_full_path`, then `build_file_path`. -/
def keyFile (basePath devicePrefix : CString) (key : RaftKey) : CString :=
  buildFilePath basePath ((raftStorageAdapterInit devicePrefix).path key) maxPathLen

/-- How much of a name is left behind the base path, a slash and the device prefix. -/
def nameRoom (basePath devicePrefix : CString) : Nat := maxPathLen - 2 - basePath.length - devicePrefix.length

/-- The first `room` bytes of the names differ: what is left of two indices or two state
keys does, or there is room for the letters that tell the kinds apart. -/
def ToldApart (room : Nat) : RaftKey → RaftKey → Prop
  | .log i, .log j => (decimal i.toNat).take (room - 4) ≠ (decimal j.toNat).take (room - 4)
  | .state s, .state t => s.take (room - 6) ≠ t.take (room - 6)
  | .snapshot i, .snapshot j => (decimal i.toNat).take (room - 5) ≠ (decimal j.toNat).take (room - 5)
  | .log _, _ | _, .log _ => 1 ≤ room
  | .state _, .snapshot _ | .snapshot _, .state _ => 2 ≤ room

instance (room : Nat) : ∀ k k', Decidable (ToldApart room k k')
  | .log i, .log j => inferInstanceAs (Decidable ((decimal i.toNat).take (room - 4) ≠ (decimal j.toNat).take (room - 4)))
  | .state s, .state t => inferInstanceAs (Decidable (s.take (room - 6) ≠ t.take (room - 6)))
  | .snapshot i, .snapshot j =>
    inferInstanceAs (Decidable ((decimal i.toNat).take (room - 5) ≠ (decimal j.toNat).take (room - 5)))
  | .log _, .state _ | .log _, .snapshot _ | .state _, .log _ | .snapshot _, .log _ => inferInstanceAs (Decidable (1 ≤ room))
  | .state _, .snapshot _ | .snapshot _, .state _ => inferInstanceAs (Decidable (2 ≤ room))

/-! ## What is left of a name -/

section
variable {basePath devicePrefix : CString}

/-- The path of a key is relative. -/
theorem path_relative (hrel : devicePrefix.head? ≠ some slash) (hlen : devicePrefix.length ≤ 63) (key : RaftKey) :
    ((raftStorageAdapterInit devicePrefix).path key).head? ≠ some slash := by
  have htext : ((raftStorageAdapterInit devicePrefix).pathText key).head? ≠ some slash := by
    rw [pathText_eq (Nat.lt_succ_of_le hlen)]
    cases devicePrefix with
    | nil => cases key <;> simp [RaftKey.text, cstr, slash]
    | cons b rest => exact hrel
  rw [RaftStorageAdapter.path, snprintf, List.head?_take]
  split
  · rename_i hzero
    exact absurd hzero (by decide)
  · exact htext

/-- The base path is whole; the slash and what follows are there as far as there is room. -/
theorem keyFile_eq (hrel : devicePrefix.head? ≠ some slash) (hlen : devicePrefix.length ≤ 63)
    (hbase : basePath.length ≤ maxPathLen - 1) (key : RaftKey) :
    keyFile basePath devicePrefix key =
      basePath ++ (slash :: (devicePrefix ++ key.text)).take (maxPathLen - 1 - basePath.length) := by
  have hcut : slash :: (devicePrefix ++ key.text).take (maxPathLen - 1) =
      (slash :: (devicePrefix ++ key.text)).take maxPathLen := rfl
  rw [keyFile, buildFilePath, if_neg (path_relative hrel hlen key), RaftStorageAdapter.path, snprintf, snprintf,
    pathText_eq (Nat.lt_succ_of_le hlen), hcut, List.take_append, List.take_of_length_le hbase, List.take_take]
  congr 2
  exact Nat.min_eq_left (by simp only [maxPathLen]; omega)

theorem take_append_inj {α : Type} (l : List α) {a b : List α} {n : Nat} :
    (l ++ a).take n = (l ++ b).take n ↔ a.take (n - l.length) = b.take (n - l.length) := by
  rw [List.take_append, List.take_append, List.append_right_inj]

/-- Files are the same just when what is left of the names is. -/
theorem keyFile_eq_iff (hrel : devicePrefix.head? ≠ some slash) (hlen : devicePrefix.length ≤ 63)
    (hbase : basePath.length ≤ maxPathLen - 1) (k k' : RaftKey) :
    keyFile basePath devicePrefix k = keyFile basePath devicePrefix k' ↔
      k.text.take (nameRoom basePath devicePrefix) = k'.text.take (nameRoom basePath devicePrefix) := by
  have hroom : maxPathLen - 1 - basePath.length - (slash :: devicePrefix).length = nameRoom basePath devicePrefix := by
    simp only [nameRoom, List.length_cons]
    omega
  rw [keyFile_eq hrel hlen hbase, keyFile_eq hrel hlen hbase, List.append_right_inj, ← List.cons_append, ← List.cons_append,
    take_append_inj, hroom]

end

/-- Two words that differ in the letter behind a common start. -/
theorem take_differ {α : Type} (start : List α) {x y : α} (hne : x ≠ y) (a b : List α) (n : Nat) :
    (start ++ x :: a).take n ≠ (start ++ y :: b).take n ↔ start.length + 1 ≤ n := by
  rw [ne_eq, take_append_inj]
  cases hn : n - start.length with
  | zero =>
    refine iff_of_false (fun h => h rfl) ?_
    omega
  | succ m =>
    refine iff_of_true (fun h => ?_) ?_
    · rw [List.take_succ_cons, List.take_succ_cons] at h
      exact hne (List.cons.inj h).1
    · omega

theorem toldApart_iff (room : Nat) (k k' : RaftKey) : k.text.take room ≠ k'.text.take room ↔ ToldApart room k k' := by
  cases k with
  | log i =>
    cases k' with
    | log j => exact not_congr (take_append_inj (cstr "log_"))
    | state | snapshot => exact take_differ [] (show (108 : Byte) ≠ 115 by decide) _ _ room
  | state s =>
    cases k' with
    | log => exact take_differ [] (show (115 : Byte) ≠ 108 by decide) _ _ room
    | state t => exact not_congr (take_append_inj (cstr "state_"))
    | snapshot => exact take_differ [115] (show (116 : Byte) ≠ 110 by decide) _ _ room
  | snapshot i =>
    cases k' with
    | log => exact take_differ [] (show (115 : Byte) ≠ 108 by decide) _ _ room
    | state => exact take_differ [115] (show (110 : Byte) ≠ 116 by decide) _ _ room
    | snapshot j => exact not_congr (take_append_inj (cstr "snap_"))

/-! ## Main theorem -/

/-- Two keys have different files just when what there is room for of their names, behind the
base path and the device prefix, tells them apart. -/
theorem key_files_differ_iff {basePath devicePrefix : CString} (hrel : devicePrefix.head? ≠ some slash)
    (hlen : devicePrefix.length ≤ 63) (hbase : basePath.length ≤ maxPathLen - 1) (k k' : RaftKey) :
    keyFile basePath devicePrefix k ≠ keyFile basePath devicePrefix k' ↔
      ToldApart (nameRoom basePath devicePrefix) k k' :=
  (not_congr (keyFile_eq_iff hrel hlen hbase k k')).trans (toldApart_iff _ k k')

/-- A state and a log entry under the default base path. -/
theorem short_keys_differ : keyFile (cstr "/tmp/xdevice") (cstr "node1_") (.state (cstr "term")) ≠
    keyFile (cstr "/tmp/xdevice") (cstr "node1_") (.log 18446744073709551615) := by
  have hrel : (cstr "node1_").head? ≠ some slash := fun h => absurd (Option.some.inj h) (by decide)
  have hlen : (cstr "node1_").length ≤ 63 := by decide
  have hbase : (cstr "/tmp/xdevice").length ≤ maxPathLen - 1 := by decide
  exact (key_files_differ_iff hrel hlen hbase _ _).2 (by decide)

/-- A base path of 500 bytes, of two directories. -/
def longBase : CString := slash :: List.replicate 249 97 ++ slash :: List.replicate 249 97

/-- Behind the long base path there is no room for the index of a log entry. -/
theorem log_entries_share_file :
    keyFile longBase (cstr "node1_") (.log 1) = keyFile longBase (cstr "node1_") (.log 2) ∧
      longBase.length = 500 ∧ RaftKey.log 1 ≠ .log 2 := by
  decide +kernel

end XDevice
