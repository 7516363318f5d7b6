import XDevice.Lib.Directories
/-!
# What is outside

A set of places has an outside, and a call changes nothing there when the places it makes,
names, writes and unlinks are in the set. Without a `..` on the way a path stays below where
it started.
-/

namespace Lib.Posix.Fs

/-! ## Below a place -/

/-- The places from `d` down. -/
def below (d : Place) : Set Place := {q | d <+: q}

theorem enter_below {q : Place} {name : Path} (h : name ≠ [dot, dot]) : q <+: enter q name := by
  unfold enter
  split
  · exact List.prefix_rfl
  · exact List.prefix_append q [name]

theorem foldl_enter_below {names : List Path} (h : [dot, dot] ∉ names) (q : Place) : q <+: names.foldl enter q := by
  induction names generalizing q with
  | nil => exact List.prefix_rfl
  | cons name names ih =>
    have hname : name ≠ [dot, dot] := fun he => h (he ▸ List.mem_cons_self)
    exact (enter_below hname).trans (ih (fun hmem => h (List.mem_cons_of_mem _ hmem)) _)

/-- A path below another is looked up from where the other leads. -/
theorem placeOf_below {cwd : Place} {base : Path} (hbase : base ≠ []) (p : Path) :
    placeOf cwd (base ++ slash :: p) = (p.splitOn slash).foldl enter (placeOf cwd base) := by
  unfold placeOf
  rw [head?_append hbase, List.splitOn_append_cons_self, List.foldl_append]

/-- Without a `..` it does not leave it. -/
theorem placeOf_mem_below {cwd : Place} {base p : Path} (hbase : base ≠ []) (hp : [dot, dot] ∉ p.splitOn slash) :
    placeOf cwd (base ++ slash :: p) ∈ below (placeOf cwd base) := by
  unfold below
  rw [placeOf_below hbase]
  exact foldl_enter_below hp _

/-! ## What a call leaves alone -/

/-- From `fs` to `fs'` the directories are as before but in `D`, and the files but in `F`. -/
structure SameOutside (D F : Set Place) (fs fs' : Fs) : Prop where
  dirs : ∀ q ∉ D, fs'.isDir q = fs.isDir q
  files : ∀ q ∉ F, fs'.files q = fs.files q
  contents : ∀ q ∉ F, fs'.contentAt q = fs.contentAt q

section
variable {D F : Set Place} {fs fs' fs'' : Fs} {path : Path} {fd : Nat}

theorem SameOutside.refl (fs : Fs) : SameOutside D F fs fs := ⟨fun _ _ => rfl, fun _ _ => rfl, fun _ _ => rfl⟩

theorem SameOutside.trans (h : SameOutside D F fs fs') (h' : SameOutside D F fs' fs'') : SameOutside D F fs fs'' :=
  ⟨fun q hq => (h'.dirs q hq).trans (h.dirs q hq), fun q hq => (h'.files q hq).trans (h.files q hq),
    fun q hq => (h'.contents q hq).trans (h.contents q hq)⟩

/-- The inode of a file outside is the same, with the same bytes. -/
theorem SameOutside.inode (h : SameOutside D F fs fs') {q : Place} (hq : q ∉ F) {ino : Nat} (hfile : fs.files q = some ino) :
    fs'.files q = some ino ∧ fs'.inodes ino = fs.inodes ino := by
  have hfile' : fs'.files q = some ino := (h.files q hq).trans hfile
  refine ⟨hfile', ?_⟩
  rw [← bytesAt_of hfile, ← bytesAt_of hfile', bytesAt, h.contents q hq, bytesAt]

/-- A directory is made where there is none. -/
theorem SameOutside.of_mkdir (hm : fs.mkdir path = .ok fs') (hpath : placeOf fs.cwd path ∈ D ∨ IsDirectory fs path) :
    SameOutside D F fs fs' := by
  unfold Fs.mkdir at hm
  split at hm
  · cases hm
  · rename_i q hq
    have hplace := (resolve_eq hq).trans (entryPath_same fs path).1
    split at hm
    · cases hm
    · rename_i hfree
      cases hm
      have hnew : q ∈ D := by
        rcases hpath with hmem | hdir
        · rwa [hplace]
        · rw [not_or, hplace] at hfree
          exact absurd (isDirectory_iff.1 hdir).2 hfree.1
      refine ⟨fun q' hq' => if_neg ?_, fun _ _ => rfl, fun _ _ => rfl⟩
      rintro rfl
      exact hq' hnew

theorem SameOutside.newFd (ino : Nat) (access : Access) : SameOutside D F fs (fs.newFd ino access) :=
  ⟨fun _ _ => rfl, fun _ _ => rfl, fun _ _ => rfl⟩

theorem SameOutside.setOffset (f : OpenFile) (offset : Nat) : SameOutside D F fs (fs.setOffset fd f offset) :=
  ⟨fun _ _ => rfl, fun _ _ => rfl, fun _ _ => rfl⟩

theorem SameOutside.close : SameOutside D F fs (fs.close fd) := ⟨fun _ _ => rfl, fun _ _ => rfl, fun _ _ => rfl⟩

theorem SameOutside.newFile (h : fs.Ok) {q : Place} (hq : q ∈ F) : SameOutside D F fs (fs.newFile q) := by
  have hne : ∀ q' ∉ F, q' ≠ q := by
    rintro q' hq' rfl
    exact hq' hq
  refine ⟨fun _ _ => rfl, fun q' hq' => if_neg (hne q' hq'), fun q' hq' => ?_⟩
  rw [contentAt_newFile h, if_neg (hne q' hq')]

/-- Opening makes the file of that name at most. -/
theorem SameOutside.of_open {flags : OpenFlags} (h : fs.Ok) (hopen : fs.openFile path flags = .ok (fs', fd))
    (hpath : placeOf fs.cwd path ∈ F) : SameOutside D F fs fs' := by
  obtain ⟨q, hq, hopens⟩ := openFile_ok hopen
  rw [← resolve_eq hq] at hpath
  cases hopens with
  | found ino => exact .newFd _ _
  | made hfile =>
    have hnew : SameOutside D F fs (fs.newFile q) := .newFile h hpath
    exact hnew.trans (.newFd _ _)
  | directory => exact ⟨fun _ _ => rfl, fun _ _ => rfl, fun _ _ => rfl⟩

/-- The bytes of an inode are those under its names. -/
theorem SameOutside.setInode {ino : Nat} (hname : ∀ q, fs.files q = some ino → q ∈ F) (c : List UInt8) :
    SameOutside D F fs (fs.setInode ino c) := by
  refine ⟨fun _ _ => rfl, fun _ _ => rfl, fun q hq => ?_⟩
  unfold contentAt Fs.setInode
  dsimp only
  cases hi : fs.files q with
  | none => rfl
  | some i =>
    have hne : i ≠ ino := by
      rintro rfl
      exact hq (hname q hi)
    simp only [Option.map_some, if_neg hne]

theorem SameOutside.of_unlink (hu : fs.unlink path = .ok fs') (hpath : placeOf fs.cwd path ∈ F) :
    SameOutside D F fs fs' := by
  unfold Fs.unlink at hu
  split at hu
  · cases hu
  · rename_i q hq
    rw [← resolve_eq hq] at hpath
    split at hu
    · cases hu
    · split at hu
      · cases hu
        have hne : ∀ q' ∉ F, q' ≠ q := by
          rintro q' hq' rfl
          exact hq' hpath
        refine ⟨fun _ _ => rfl, fun q' hq' => if_neg (hne q' hq'), fun q' hq' => ?_⟩
        unfold contentAt
        simp only [if_neg (hne q' hq')]
      · cases hu

end

end Lib.Posix.Fs
