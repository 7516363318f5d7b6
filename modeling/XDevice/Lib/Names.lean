import XDevice.Lib.Posix
import Mathlib.Data.Set.Insert
/-!
# Names and the bytes under them

Where a path leads does not change while no directory is moved, and an inode has one name
at most. So what a call does to the bytes under the names can be said place by place: it
touches some places, and leaves the others and the descriptors of an onlooker alone.
-/

namespace Lib.Posix.Fs

/-! ## Places -/

/-- Where a path leads, if it leads anywhere. -/
def placeOf (cwd : Place) (path : Path) : Place :=
  (path.splitOn slash).foldl enter (if path.head? = some slash then [] else cwd)

theorem walk_eq {fs : Fs} {q d : Place} {names : List Path} (h : fs.walk q names = .ok d) : d = names.foldl enter q := by
  induction names generalizing q with
  | nil =>
    cases h
    rfl
  | cons name names ih =>
    unfold walk at h
    split at h
    · exact ih h
    · cases h

theorem resolve_eq {fs : Fs} {path : Path} {q : Place} (h : fs.resolve path = .ok q) : q = placeOf fs.cwd path := by
  unfold resolve at h
  split at h
  · cases h
  · exact walk_eq h

theorem walk_mono {fs fs' : Fs} (hdirs : ∀ q, fs.isDir q = true → fs'.isDir q = true) {q d : Place} {names : List Path}
    (h : fs.walk q names = .ok d) : fs'.walk q names = .ok d := by
  induction names generalizing q with
  | nil => exact h
  | cons name names ih =>
    unfold walk at h ⊢
    split at h
    · rename_i hq
      rw [if_pos (hdirs q hq)]
      exact ih h
    · cases h

/-- A path that leads somewhere still does when directories are added. -/
theorem resolve_mono {fs fs' : Fs} (hcwd : fs'.cwd = fs.cwd) (hdirs : ∀ q, fs.isDir q = true → fs'.isDir q = true)
    {path : Path} {q : Place} (h : fs.resolve path = .ok q) : fs'.resolve path = .ok q := by
  unfold resolve at h ⊢
  split at h
  · cases h
  · rename_i hne
    rw [if_neg hne, hcwd]
    exact walk_mono hdirs h

theorem walk_through {fs : Fs} {q d : Place} {names : List Path} {name : Path} {names' : List Path}
    (h : fs.walk q (names ++ name :: names') = .ok d) : ∃ q', fs.walk q names = .ok q' ∧ fs.isDir q' = true := by
  induction names generalizing q with
  | nil =>
    simp only [List.nil_append, walk] at h
    split at h
    · exact ⟨q, rfl, ‹_›⟩
    · cases h
  | cons n names ih =>
    simp only [List.cons_append, walk] at h ⊢
    split at h
    · rename_i hq
      rw [if_pos hq]
      exact ih h
    · cases h

/-- What a path goes through on its way is a directory. -/
theorem resolve_through {fs : Fs} {path rest : Path} {d : Place} (hne : path ≠ [])
    (h : fs.resolve (path ++ slash :: rest) = .ok d) : ∃ q, fs.resolve path = .ok q ∧ fs.isDir q = true := by
  unfold resolve at h ⊢
  have hhead : (path ++ slash :: rest).head? = path.head? := by
    cases path with
    | nil => exact absurd rfl hne
    | cons c cs => rfl
  rw [if_neg (by simp), hhead, List.splitOn_append_cons_self] at h
  rw [if_neg hne]
  cases hsplit : rest.splitOn slash with
  | nil => exact absurd hsplit (List.splitOn_ne_nil _ _)
  | cons name names =>
    rw [hsplit] at h
    exact walk_through h

/-- A slash behind the path of a directory. -/
theorem resolve_slash {fs : Fs} {path : Path} {d : Place} (h : fs.resolve path = .ok d) (hd : fs.isDir d = true) :
    fs.resolve (path ++ [slash]) = .ok d := resolve_below h hd List.not_mem_nil

theorem entryPath_slash {path : Path} (hne : path ≠ []) : entryPath (path ++ [slash]) = entryPath path := by
  have htake : (path ++ [slash]).take 1 = path.take 1 := by
    cases path with
    | nil => exact absurd rfl hne
    | cons c cs => rfl
  have htrim : (path ++ [slash]).rdropWhile (· = slash) = path.rdropWhile (· = slash) :=
    List.rdropWhile_concat_pos _ _ _ (decide_eq_true rfl)
  unfold entryPath
  rw [htrim, htake]

/-- A path that does not end in a slash is its own. -/
theorem entryPath_of_last {path : Path} {c : UInt8} (hc : c ≠ slash) : entryPath (path ++ [c]) = path ++ [c] := by
  have htrim : (path ++ [c]).rdropWhile (· = slash) = path ++ [c] :=
    List.rdropWhile_concat_neg _ _ _ (by simpa using hc)
  unfold entryPath
  rw [htrim, if_neg (by simp)]

/-- What leads somewhere does so without the slashes at its end. -/
theorem resolve_entryPath {fs : Fs} {path : Path} {d : Place} (h : fs.resolve path = .ok d) :
    fs.resolve (entryPath path) = .ok d := by
  induction path using List.reverseRecOn generalizing d with
  | nil => exact h
  | append_singleton path c ih =>
    by_cases hc : c = slash
    · subst hc
      by_cases hne : path = []
      · subst hne
        exact h
      · obtain ⟨q, hq, hdir⟩ := resolve_through hne h
        have hsame : d = q := Except.ok.inj (h.symm.trans (resolve_slash hq hdir))
        rw [entryPath_slash hne, hsame]
        exact ih hq
    · rw [entryPath_of_last hc]
      exact h

/-- The bytes under a name, none if there is no file. -/
def bytesAt (fs : Fs) (q : Place) : List UInt8 := (fs.contentAt q).getD []

theorem bytesAt_of {fs : Fs} {q : Place} {ino : Nat} (h : fs.files q = some ino) : fs.bytesAt q = fs.inodes ino := by
  unfold bytesAt contentAt
  rw [h]
  rfl

/-! ## What a call touches -/

/-- From `fs` to `fs'` only the bytes under the names in `S` may change, and the descriptors
in `C` stay open. A name leads to the same inode as before, or to one that is new. -/
structure Touches (C : Set Nat) (S : Set Place) (fs fs' : Fs) : Prop where
  cwd : fs'.cwd = fs.cwd
  dirs : ∀ q, fs.isDir q = true → fs'.isDir q = true
  ok : fs'.Ok
  fds : ∀ fd ∈ C, ∀ f, fs.fds fd = some f → ∃ offset, fs'.fds fd = some { f with offset := offset }
  nextIno : fs.nextIno ≤ fs'.nextIno
  files : ∀ q i, fs'.files q = some i → fs.files q = some i ∨ fs.nextIno ≤ i
  bytes : ∀ q ∉ S, fs'.bytesAt q = fs.bytesAt q

section
variable {C : Set Nat} {S : Set Place} {fs fs' fs'' : Fs}

theorem Touches.refl (h : fs.Ok) : Touches C S fs fs :=
  ⟨rfl, fun _ h => h, h, fun _ _ f hf => ⟨f.offset, hf⟩, Nat.le_refl _, fun _ _ hq => .inl hq, fun _ _ => rfl⟩

theorem Touches.trans (h : Touches C S fs fs') (h' : Touches C S fs' fs'') : Touches C S fs fs'' where
  cwd := h'.cwd.trans h.cwd
  dirs q hq := h'.dirs q (h.dirs q hq)
  ok := h'.ok
  fds fd hfd f hf := by
    obtain ⟨offset, hf⟩ := h.fds fd hfd f hf
    obtain ⟨offset', hf⟩ := h'.fds fd hfd _ hf
    exact ⟨offset', hf⟩
  nextIno := h.nextIno.trans h'.nextIno
  files q i hq := by
    rcases h'.files q i hq with hq | hi
    · exact h.files q i hq
    · exact .inr (h.nextIno.trans hi)
  bytes q hq := (h'.bytes q hq).trans (h.bytes q hq)

theorem Touches.mono {C' : Set Nat} {S' : Set Place} (h : Touches C S fs fs') (hC : C' ⊆ C) (hS : S ⊆ S') :
    Touches C' S' fs fs' :=
  ⟨h.cwd, h.dirs, h.ok, fun fd hfd => h.fds fd (hC hfd), h.nextIno, h.files, fun q hq => h.bytes q fun hmem => hq (hS hmem)⟩

/-- A place that ends up with the bytes it had is not touched. -/
theorem Touches.of_same {q : Place} (h : Touches C {q} fs fs') (hq : fs'.bytesAt q = fs.bytesAt q) :
    Touches C S fs fs' := by
  refine ⟨h.cwd, h.dirs, h.ok, h.fds, h.nextIno, h.files, fun q' _ => ?_⟩
  by_cases he : q' = q
  · rw [he]
    exact hq
  · exact h.bytes q' he

theorem bytesAt_none {q : Place} (h : fs.files q = none) : fs.bytesAt q = [] := by
  unfold bytesAt contentAt
  rw [h]
  rfl

/-- A name does not show what is written to an inode that is not its own. -/
theorem bytesAt_other {q : Place} {ino : Nat} {c : List UInt8} (hq : fs.files q ≠ some ino)
    (hfiles : fs'.files = fs.files) (hinodes : fs'.inodes = (fs.setInode ino c).inodes) :
    fs'.bytesAt q = fs.bytesAt q := by
  unfold bytesAt contentAt
  rw [hfiles, hinodes]
  cases hi : fs.files q with
  | none => rfl
  | some i =>
    have hne : i ≠ ino := by
      rintro rfl
      exact hq hi
    simp only [Option.map_some, Fs.setInode, if_neg hne]

/-- Where there are bytes, there is a file. -/
theorem file_of_bytesAt {q : Place} {off : Nat} {data : List UInt8} (hd : data.length ≠ 0)
    (h : ((fs.bytesAt q).drop off).take data.length = data) :
    ∃ ino, fs.files q = some ino ∧ ((fs.inodes ino).drop off).take data.length = data := by
  cases hfile : fs.files q with
  | none =>
    rw [bytesAt_none hfile, List.drop_nil, List.take_nil] at h
    exact absurd (congrArg List.length h.symm) hd
  | some ino =>
    rw [bytesAt_of hfile] at h
    exact ⟨ino, rfl, h⟩

theorem Touches.of_mkdir {path : Path} (h : fs.Ok) (hm : fs.mkdir path = .ok fs') : Touches C S fs fs' := by
  have hok := h.mkdir hm
  unfold Fs.mkdir at hm
  split at hm
  · cases hm
  · split at hm
    · cases hm
    · cases hm
      refine ⟨rfl, fun q hq => ?_, hok, fun _ _ f hf => ⟨f.offset, hf⟩, Nat.le_refl _, fun _ _ hq => .inl hq,
        fun _ _ => rfl⟩
      dsimp only
      split
      · rfl
      · exact hq

theorem Touches.newFd (h : fs.Ok) {ino : Nat} (hino : ino < fs.nextIno) (access : Access) :
    Touches C S fs (fs.newFd ino access) := by
  refine ⟨rfl, fun _ hq => hq, h.newFd hino access, fun fd _ f hf => ⟨f.offset, ?_⟩, Nat.le_refl _,
    fun _ _ hq => .inl hq, fun _ _ => rfl⟩
  have hlt := (h.fd fd f hf).1
  unfold Fs.newFd
  dsimp only
  rw [if_neg (Nat.ne_of_lt hlt)]
  exact hf

theorem Touches.openDir (h : fs.Ok) : Touches C S fs fs.openDir.1 := by
  refine ⟨rfl, fun _ hq => hq, h.openDir, fun fd _ f hf => ⟨f.offset, ?_⟩, Nat.le_succ _, fun _ _ hq => .inl hq, fun _ _ => rfl⟩
  have hlt := (h.fd fd f hf).1
  unfold Fs.openDir Fs.newFd
  dsimp only
  rw [if_neg (Nat.ne_of_lt hlt)]
  exact hf

/-- A new file is empty, as a name with no file is. -/
theorem Touches.newFile (h : fs.Ok) {q : Place} (hq : fs.files q = none) : Touches C S fs (fs.newFile q) := by
  refine ⟨rfl, fun _ hq => hq, h.newFile q, fun _ _ f hf => ⟨f.offset, hf⟩, Nat.le_succ _, fun q' i hi => ?_,
    fun q' _ => ?_⟩
  · unfold Fs.newFile at hi
    dsimp only at hi
    split at hi
    · cases hi
      exact .inr (Nat.le_refl _)
    · exact .inl hi
  · unfold bytesAt
    rw [contentAt_newFile h]
    split
    · rename_i he
      rw [he, contentAt, hq]
      rfl
    · rfl

theorem Touches.setOffset (h : fs.Ok) {fd : Nat} {f : OpenFile} (hf : fs.fds fd = some f) (offset : Nat) :
    Touches C S fs (fs.setOffset fd f offset) := by
  refine ⟨rfl, fun _ hq => hq, h.setOffset hf offset, fun fd' _ f' hf' => ?_, Nat.le_refl _, fun _ _ hq => .inl hq,
    fun _ _ => rfl⟩
  unfold Fs.setOffset
  dsimp only
  split
  · rename_i he
    rw [he, hf] at hf'
    cases hf'
    exact ⟨offset, rfl⟩
  · exact ⟨f'.offset, hf'⟩

/-- Writing to an inode touches its name, if it has one. -/
theorem Touches.setInode (h : fs.Ok) {ino : Nat} (hname : ∀ q, fs.files q = some ino → q ∈ S) (c : List UInt8) :
    Touches C S fs (fs.setInode ino c) := by
  refine ⟨rfl, fun _ hq => hq, h.setInode ino c, fun _ _ f hf => ⟨f.offset, hf⟩, Nat.le_refl _, fun _ _ hq => .inl hq,
    fun q hq => bytesAt_other (fun hi => hq (hname q hi)) rfl rfl⟩

theorem Touches.close (h : fs.Ok) {fd : Nat} (hfd : fd ∉ C) : Touches C S fs (fs.close fd) := by
  refine ⟨rfl, fun _ hq => hq, h.close fd, fun fd' hmem f hf => ⟨f.offset, ?_⟩, Nat.le_refl _, fun _ _ hq => .inl hq,
    fun _ _ => rfl⟩
  have hne : fd' ≠ fd := by
    rintro rfl
    exact hfd hmem
  unfold Fs.close
  dsimp only
  rw [if_neg hne]
  exact hf

theorem Touches.of_unlink {path : Path} (h : fs.Ok) (hu : fs.unlink path = .ok fs') (hS : placeOf fs.cwd path ∈ S) :
    Touches C S fs fs' ∧ fs'.files (placeOf fs.cwd path) = none := by
  unfold Fs.unlink at hu
  split at hu
  · cases hu
  · rename_i q hres
    rw [← resolve_eq hres] at hS ⊢
    split at hu
    · cases hu
    · split at hu
      · cases hu
        refine ⟨⟨rfl, fun _ hq => hq, h.unlink q, fun _ _ f hf => ⟨f.offset, hf⟩, Nat.le_refl _, fun q' i hi => ?_,
          fun q' hq' => ?_⟩, if_pos rfl⟩
        · dsimp only at hi
          split at hi
          · cases hi
          · exact .inl hi
        · have hne : q' ≠ q := by
            rintro rfl
            exact hq' hS
          unfold bytesAt contentAt
          simp only [if_neg hne]
      · cases hu

/-- What a descriptor opened with these flags is onto: the file of that name, or a directory,
which has no name among the files. -/
def OpenedAt (fs : Fs) (flags : OpenFlags) (q : Place) (f : OpenFile) : Prop :=
  f.access = flags.access ∧ fs.files q = some f.ino ∨
    f.access = .directory ∧ flags.mode = .rdonly ∧ flags.creat = false ∧ ∀ q', fs.files q' ≠ some f.ino

theorem OpenedAt.names (hfs : fs.Ok) {flags : OpenFlags} {q q' : Place} {f : OpenFile} (h : OpenedAt fs flags q f)
    (hq' : fs.files q' = some f.ino) : q' = q := by
  rcases h with ⟨-, hq⟩ | ⟨-, -, -, hnone⟩
  · exact hfs.inj q' q f.ino hq' hq
  · exact absurd hq' (hnone q')

/-- A descriptor that makes the file it is onto is never a directory's. -/
theorem OpenedAt.of_creat {flags : OpenFlags} {q : Place} {f : OpenFile} (h : OpenedAt fs flags q f) (hcreat : flags.creat) :
    f.access = flags.access ∧ fs.files q = some f.ino := by
  rcases h with hfile | ⟨-, -, hno, -⟩
  · exact hfile
  · rw [hno] at hcreat
    cases hcreat

/-- Opening touches nothing. -/
theorem openFile_cases {path : Path} {flags : OpenFlags} {fd : Nat} (h : fs.Ok)
    (hopen : fs.openFile path flags = .ok (fs', fd)) :
    Touches C S fs fs' ∧ fd = fs.nextFd ∧ fs'.resolve path = .ok (placeOf fs.cwd path) ∧
      ∃ f, fs'.fds fd = some f ∧ f.offset = 0 ∧ OpenedAt fs' flags (placeOf fs.cwd path) f ∧
        (flags.creat && flags.excl → fs.files (placeOf fs.cwd path) = none) := by
  obtain ⟨q, hres, hopens⟩ := openFile_ok hopen
  rw [← resolve_eq hres]
  cases hopens with
  | found ino hino hexcl =>
    have ht : Touches C S fs (fs.newFd ino flags.access) := .newFd h (h.ino q ino hino) _
    exact ⟨ht, rfl, resolve_mono ht.cwd ht.dirs hres, _, newFd_self .., rfl, .inl ⟨rfl, hino⟩, fun he => absurd he hexcl⟩
  | made hnone hcreat =>
    have hnew : Touches C S fs (fs.newFile q) := .newFile h hnone
    have ht := hnew.trans (.newFd hnew.ok (Nat.lt_succ_self _) flags.access)
    exact ⟨ht, rfl, resolve_mono ht.cwd ht.dirs hres, _, newFd_self (fs.newFile q) fs.nextIno flags.access, rfl,
      .inl ⟨rfl, newFile_self fs q⟩, fun _ => hnone⟩
  | directory hdir hcreat hmode =>
    have ht : Touches C S fs fs.openDir.1 := .openDir h
    have hfree : ∀ q', fs.files q' ≠ some fs.nextIno := fun q' hq' => absurd (h.ino q' _ hq') (Nat.lt_irrefl _)
    refine ⟨ht, rfl, resolve_mono ht.cwd ht.dirs hres, _, newFd_self { fs with nextIno := fs.nextIno + 1 } ..,
      rfl, .inr ⟨rfl, hmode, hcreat, hfree⟩, fun hboth => ?_⟩
    rw [hcreat] at hboth
    cases hboth

end

end Lib.Posix.Fs
