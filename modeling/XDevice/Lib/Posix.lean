import XDevice.Lib.Bytes
import Mathlib.Data.List.DropRight
/-!
# A file system without faults

The part of POSIX that a program storing bytes in files meets when nothing else
touches them: a tree of directories and names of inodes, descriptors that carry
an inode, an access mode and an offset. No call fails for want of space or
descriptors, and none is cut short but a transfer of 2^63 bytes or more, which
fails. There are no links, symbolic or hard, and names may be of any length.
-/

namespace Lib.Posix

abbrev Path := List UInt8

/-- A place in the tree: the names on the way to it from the root. -/
abbrev Place := List Path

def slash : UInt8 := 47
def dot : UInt8 := 46

inductive Errno where
  | noent
  | exist
  | notdir
  | isdir
  | badf
  | inval
  deriving DecidableEq, Repr

/-- What a file is opened for. -/
inductive OpenMode where
  | rdonly
  | wronly
  deriving DecidableEq, Repr

/-- What an open descriptor lets be done: transfers one way, or none when it is that of a
directory. -/
inductive Access where
  | rdonly
  | wronly
  | directory
  deriving DecidableEq, Repr

def OpenMode.access : OpenMode → Access
  | .rdonly => .rdonly
  | .wronly => .wronly

structure OpenFlags where
  mode : OpenMode
  creat : Bool
  excl : Bool

/-- What a descriptor opened with these flags onto a file lets be done. -/
def OpenFlags.access (flags : OpenFlags) : Access := flags.mode.access

/-- An open file description. -/
structure OpenFile where
  ino : Nat
  access : Access
  offset : Nat
  deriving DecidableEq

structure Fs where
  cwd : Place
  isDir : Place → Bool
  files : Place → Option Nat
  inodes : Nat → List UInt8
  fds : Nat → Option OpenFile
  nextIno : Nat
  nextFd : Nat

namespace Fs

/-! ## Paths -/

/-- One name further down the tree, or up it. -/
def enter (q : Place) (name : Path) : Place :=
  if name = [] ∨ name = [dot] then q else if name = [dot, dot] then q.dropLast else q ++ [name]

/-- Follow names from a place; all but the last must lead to a directory. -/
def walk (fs : Fs) (q : Place) : List Path → Except Errno Place
  | [] => .ok q
  | name :: names =>
    if fs.isDir q then walk fs (enter q name) names
    else .error (if (fs.files q).isSome then .notdir else .noent)

def resolve (fs : Fs) (path : Path) : Except Errno Place :=
  if path = [] then .error .noent
  else fs.walk (if path.head? = some slash then [] else fs.cwd) (path.splitOn slash)

/-- The path without the slashes behind its last name, which may stand there for a directory. -/
def entryPath (path : Path) : Path :=
  let trimmed := path.rdropWhile (· = slash)
  if trimmed = [] then path.take 1 else trimmed

/-- A name that stands for an entry of the directory it is looked up in. -/
structure FlatName (name : Path) : Prop where
  nonempty : name ≠ []
  flat : slash ∉ name
  notDot : name ≠ [dot]
  notDotDot : name ≠ [dot, dot]

instance (name : Path) : Decidable (FlatName name) :=
  decidable_of_iff (name ≠ [] ∧ slash ∉ name ∧ name ≠ [dot] ∧ name ≠ [dot, dot])
    ⟨fun ⟨h1, h2, h3, h4⟩ => ⟨h1, h2, h3, h4⟩, fun ⟨h1, h2, h3, h4⟩ => ⟨h1, h2, h3, h4⟩⟩

/-- A slash stands behind the last name of the path, so that it can only be a directory's. -/
def slashBehindName (path : Path) : Bool :=
  path.getLast? = some slash ∧ FlatName (((entryPath path).splitOn slash).getLastD [])

/-! ## Calls -/

def mkdir (fs : Fs) (path : Path) : Except Errno Fs :=
  match fs.resolve (entryPath path) with
  | .error e => .error e
  | .ok q =>
    if fs.isDir q ∨ (fs.files q).isSome then .error .exist
    else .ok { fs with isDir := fun q' => if q' = q then true else fs.isDir q' }

/-- A descriptor that was not in use before. -/
def newFd (fs : Fs) (ino : Nat) (access : Access) : Fs :=
  { fs with
    fds := fun fd => if fd = fs.nextFd then some ⟨ino, access, 0⟩ else fs.fds fd
    nextFd := fs.nextFd + 1 }

/-- A name for a new empty inode. -/
def newFile (fs : Fs) (q : Place) : Fs :=
  { fs with
    files := fun q' => if q' = q then some fs.nextIno else fs.files q'
    inodes := fun ino => if ino = fs.nextIno then [] else fs.inodes ino
    nextIno := fs.nextIno + 1 }

/-- A descriptor of a directory, onto an inode that has no name among the files. -/
def openDir (fs : Fs) : Fs × Nat := (({ fs with nextIno := fs.nextIno + 1 }).newFd fs.nextIno .directory, fs.nextFd)

def openFile (fs : Fs) (path : Path) (flags : OpenFlags) : Except Errno (Fs × Nat) :=
  if flags.creat && slashBehindName path then
    -- no file is made under a directory's name, whether it is there or not
    match fs.resolve (entryPath path) with
    | .error e => .error e
    | .ok _ => .error .isdir
  else
    match fs.resolve path with
    | .error e => .error e
    | .ok q =>
      if fs.isDir q then
        if flags.creat && flags.excl then .error .exist
        else if flags.creat ∨ flags.mode = .wronly then .error .isdir
        else .ok fs.openDir
      else
        match fs.files q with
        | some ino => if flags.creat && flags.excl then .error .exist else .ok (fs.newFd ino flags.access, fs.nextFd)
        | none =>
          if flags.creat then .ok ((fs.newFile q).newFd fs.nextIno flags.access, fs.nextFd) else .error .noent

def setOffset (fs : Fs) (fd : Nat) (f : OpenFile) (offset : Nat) : Fs :=
  { fs with fds := fun fd' => if fd' = fd then some { f with offset := offset } else fs.fds fd' }

def setInode (fs : Fs) (ino : Nat) (c : List UInt8) : Fs :=
  { fs with inodes := fun i => if i = ino then c else fs.inodes i }

/-- `lseek(fd, offset, SEEK_SET)`, `offset` as an unsigned word. -/
def lseek (fs : Fs) (fd offset : Nat) : Except Errno Fs :=
  match fs.fds fd with
  | none => .error .badf
  | some f => if offset < 2 ^ 63 then .ok (fs.setOffset fd f offset) else .error .inval

/-- Up to `n` bytes from the descriptor's offset on. -/
def read (fs : Fs) (fd n : Nat) : Except Errno (Fs × List UInt8) :=
  match fs.fds fd with
  | none => .error .badf
  | some f =>
    if f.access ≠ .rdonly then .error (if f.access = .directory then .isdir else .badf)
    else if 2 ^ 63 ≤ n then .error .inval
    else
      let bytes := ((fs.inodes f.ino).drop f.offset).take n
      .ok (fs.setOffset fd f (f.offset + bytes.length), bytes)

def write (fs : Fs) (fd : Nat) (d : List UInt8) : Except Errno Fs :=
  match fs.fds fd with
  | none => .error .badf
  | some f =>
    if f.access ≠ .wronly then .error .badf
    else if 2 ^ 63 ≤ d.length then .error .inval
    else .ok ((fs.setInode f.ino (writeAt 0 (fs.inodes f.ino) f.offset d)).setOffset fd f (f.offset + d.length))

def fsync (fs : Fs) (fd : Nat) : Except Errno Unit := if (fs.fds fd).isSome then .ok () else .error .badf

def close (fs : Fs) (fd : Nat) : Fs := { fs with fds := fun fd' => if fd' = fd then none else fs.fds fd' }

def ftruncate (fs : Fs) (fd size : Nat) : Except Errno Fs :=
  match fs.fds fd with
  | none => .error .badf
  | some f =>
    if f.access ≠ .wronly ∨ 2 ^ 63 ≤ size then .error .inval
    else .ok (fs.setInode f.ino ((padTo 0 (fs.inodes f.ino) size).take size))

def unlink (fs : Fs) (path : Path) : Except Errno Fs :=
  match fs.resolve path with
  | .error e => .error e
  | .ok q =>
    if fs.isDir q then .error .isdir
    else if (fs.files q).isSome then .ok { fs with files := fun q' => if q' = q then none else fs.files q' }
    else .error .noent

/-- What `stat` says of a path: its size, none for a directory. -/
def stat (fs : Fs) (path : Path) : Except Errno (Option Nat) :=
  match fs.resolve path with
  | .error e => .error e
  | .ok q =>
    if fs.isDir q then .ok none
    else
      match fs.files q with
      | some ino => .ok (some (fs.inodes ino).length)
      | none => .error .noent

/-! ## Names in a directory -/

theorem FlatName.enter {name : Path} (h : FlatName name) (q : Place) : enter q name = q ++ [name] := by
  simp [Fs.enter, h.nonempty, h.notDot, h.notDotDot]

theorem walk_append {fs : Fs} {q d : Place} {names : List Path} (h : fs.walk q names = .ok d) (names' : List Path) :
    fs.walk q (names ++ names') = fs.walk d names' := by
  induction names generalizing q with
  | nil =>
    cases h
    rfl
  | cons name names ih =>
    simp only [List.cons_append, walk] at h ⊢
    split at h
    · rename_i hq
      rw [if_pos hq]
      exact ih h
    · cases h

/-- A name in a directory is looked up right there. -/
theorem resolve_below {fs : Fs} {base name : Path} {d : Place} (hbase : fs.resolve base = .ok d)
    (hd : fs.isDir d = true) (hname : slash ∉ name) : fs.resolve (base ++ slash :: name) = .ok (Fs.enter d name) := by
  unfold resolve at hbase ⊢
  split at hbase
  · cases hbase
  · rename_i hne
    have hhead : (base ++ slash :: name).head? = base.head? := by
      cases base with
      | nil => exact absurd rfl hne
      | cons c cs => rfl
    rw [if_neg (by simp), hhead, List.splitOn_append_cons_self,
      List.splitOn_eq_singleton hname, walk_append hbase]
    simp only [walk, hd, if_true]

/-- A flat name in a directory is found right below it. -/
theorem resolve_entry {fs : Fs} {base name : Path} {d : Place} (hbase : fs.resolve base = .ok d)
    (hd : fs.isDir d = true) (hname : FlatName name) : fs.resolve (base ++ slash :: name) = .ok (d ++ [name]) := by
  rw [resolve_below hbase hd hname.flat, hname.enter]

theorem slashBehindName_entry (base : Path) {name : Path} (hname : FlatName name) :
    slashBehindName (base ++ slash :: name) = false := by
  have hlast : (base ++ slash :: name).getLast? = name.getLast? := by
    rw [List.getLast?_append, List.getLast?_cons, List.getLast?_eq_some_getLast hname.nonempty]
    rfl
  have hne : name.getLast? ≠ some slash := fun he => hname.flat (List.mem_of_getLast? he)
  unfold slashBehindName
  rw [hlast]
  exact decide_eq_false fun h => hne h.1

/-! ## What calls keep -/

/-- Inodes and descriptors in use are below the counters, and each file has its
own inode. -/
structure Ok (fs : Fs) : Prop where
  ino : ∀ q i, fs.files q = some i → i < fs.nextIno
  inj : ∀ q q' i, fs.files q = some i → fs.files q' = some i → q = q'
  fd : ∀ fd f, fs.fds fd = some f → fd < fs.nextFd ∧ f.ino < fs.nextIno

/-- The bytes of the file at a place. -/
def contentAt (fs : Fs) (q : Place) : Option (List UInt8) := (fs.files q).map fs.inodes

theorem newFd_self (fs : Fs) (ino : Nat) (access : Access) :
    (fs.newFd ino access).fds fs.nextFd = some ⟨ino, access, 0⟩ := if_pos rfl

theorem newFile_self (fs : Fs) (q : Place) : (fs.newFile q).files q = some fs.nextIno := if_pos rfl

theorem ftruncate_open {fs : Fs} {fd : Nat} {f : OpenFile} (hf : fs.fds fd = some f) (hw : f.access = .wronly)
    {size : Nat} (hsize : size < 2 ^ 63) :
    fs.ftruncate fd size = .ok (fs.setInode f.ino ((padTo 0 (fs.inodes f.ino) size).take size)) := by
  have hfine : ¬ (f.access ≠ .wronly ∨ 2 ^ 63 ≤ size) := by
    rintro (hno | hle)
    · exact hno hw
    · exact absurd hsize (Nat.not_lt.2 hle)
  simp only [ftruncate, hf, if_neg hfine]

theorem read_open {fs : Fs} {fd n : Nat} {f : OpenFile} (hf : fs.fds fd = some f) (hr : f.access = .rdonly) (hn : n < 2 ^ 63) :
    fs.read fd n = .ok (fs.setOffset fd f (f.offset + (((fs.inodes f.ino).drop f.offset).take n).length),
      ((fs.inodes f.ino).drop f.offset).take n) := by
  simp only [read, hf, if_neg (not_not.2 hr), if_neg (Nat.not_le.2 hn)]

theorem read_fails {fs : Fs} {fd n : Nat} {f : OpenFile} (hf : fs.fds fd = some f) (h : ¬ (f.access = .rdonly ∧ n < 2 ^ 63)) :
    ∃ e, fs.read fd n = .error e := by
  cases hread : fs.read fd n with
  | error e => exact ⟨e, rfl⟩
  | ok r =>
    unfold read at hread
    rw [hf] at hread
    dsimp only at hread
    split at hread
    · cases hread
    · rename_i hr
      split at hread
      · cases hread
      · rename_i hn
        exact absurd ⟨not_not.1 hr, Nat.not_le.1 hn⟩ h

theorem write_open {fs : Fs} {fd : Nat} {f : OpenFile} {d : List UInt8} (hf : fs.fds fd = some f) (hw : f.access = .wronly)
    (hd : d.length < 2 ^ 63) :
    fs.write fd d = .ok ((fs.setInode f.ino (writeAt 0 (fs.inodes f.ino) f.offset d)).setOffset fd f (f.offset + d.length)) := by
  simp only [write, hf, if_neg (not_not.2 hw), if_neg (Nat.not_le.2 hd)]

theorem write_fails {fs : Fs} {fd : Nat} {f : OpenFile} {d : List UInt8} (hf : fs.fds fd = some f)
    (h : ¬ (f.access = .wronly ∧ d.length < 2 ^ 63)) : ∃ e, fs.write fd d = .error e := by
  cases hwrite : fs.write fd d with
  | error e => exact ⟨e, rfl⟩
  | ok r =>
    unfold write at hwrite
    rw [hf] at hwrite
    dsimp only at hwrite
    split at hwrite
    · cases hwrite
    · rename_i hw
      split at hwrite
      · cases hwrite
      · rename_i hd
        exact absurd ⟨not_not.1 hw, Nat.not_le.1 hd⟩ h

theorem contentAt_newFd (fs : Fs) (ino : Nat) (access : Access) (q : Place) :
    (fs.newFd ino access).contentAt q = fs.contentAt q := rfl

section
variable {fs : Fs}

theorem Ok.newFd (h : fs.Ok) {ino : Nat} (hi : ino < fs.nextIno) (access : Access) : (fs.newFd ino access).Ok where
  ino := h.ino
  inj := h.inj
  fd fd f hf := by
    simp only [Fs.newFd] at hf ⊢
    split at hf
    · cases hf
      exact ⟨by omega, hi⟩
    · have := h.fd fd f hf
      exact ⟨by omega, this.2⟩

theorem Ok.openDir (h : fs.Ok) : fs.openDir.1.Ok := by
  have hroom : Ok { fs with nextIno := fs.nextIno + 1 } :=
    ⟨fun q i hi => Nat.lt_succ_of_lt (h.ino q i hi), h.inj, fun fd f hf => ⟨(h.fd fd f hf).1, Nat.lt_succ_of_lt (h.fd fd f hf).2⟩⟩
  exact hroom.newFd (Nat.lt_succ_self _) .directory

theorem Ok.newFile (h : fs.Ok) (q : Place) : (fs.newFile q).Ok where
  ino q' i hi := by
    simp only [Fs.newFile] at hi ⊢
    split at hi
    · cases hi
      omega
    · have := h.ino q' i hi
      omega
  inj q1 q2 i h1 h2 := by
    simp only [Fs.newFile] at h1 h2
    split at h1 <;> split at h2
    · simp [*]
    · cases h1
      exact absurd (h.ino _ _ h2) (Nat.lt_irrefl _)
    · cases h2
      exact absurd (h.ino _ _ h1) (Nat.lt_irrefl _)
    · exact h.inj q1 q2 i h1 h2
  fd fd f hf := by
    have := h.fd fd f hf
    simp only [Fs.newFile]
    exact ⟨this.1, by omega⟩

theorem Ok.setOffset (h : fs.Ok) {fd : Nat} {f : OpenFile} (hf : fs.fds fd = some f) (offset : Nat) :
    (fs.setOffset fd f offset).Ok where
  ino := h.ino
  inj := h.inj
  fd fd' f' hf' := by
    simp only [Fs.setOffset] at hf' ⊢
    split at hf'
    · rename_i he
      cases hf'
      exact he ▸ h.fd fd f hf
    · exact h.fd fd' f' hf'

theorem Ok.setInode (h : fs.Ok) (ino : Nat) (c : List UInt8) : (fs.setInode ino c).Ok := ⟨h.ino, h.inj, h.fd⟩

theorem Ok.close (h : fs.Ok) (fd : Nat) : (fs.close fd).Ok where
  ino := h.ino
  inj := h.inj
  fd fd' f hf := by
    simp only [Fs.close] at hf
    split at hf
    · cases hf
    · exact h.fd fd' f hf

theorem Ok.unlink (h : fs.Ok) (q : Place) :
    Ok { fs with files := fun q' => if q' = q then none else fs.files q' } where
  ino q' i hi := by
    dsimp only at hi
    split at hi
    · cases hi
    · exact h.ino q' i hi
  inj q1 q2 i h1 h2 := by
    dsimp only at h1 h2
    split at h1 <;> split at h2
    · cases h1
    · cases h1
    · cases h2
    · exact h.inj q1 q2 i h1 h2
  fd := h.fd

theorem Ok.mkdir {fs' : Fs} {path : Path} (h : fs.Ok) (hm : fs.mkdir path = .ok fs') : fs'.Ok := by
  unfold Fs.mkdir at hm
  split at hm
  · cases hm
  · split at hm
    · cases hm
    · cases hm
      exact ⟨h.ino, h.inj, h.fd⟩

theorem contentAt_newFile (h : fs.Ok) (q q' : Place) :
    (fs.newFile q).contentAt q' = if q' = q then some [] else fs.contentAt q' := by
  simp only [contentAt, Fs.newFile]
  split
  · simp
  · cases hq : fs.files q' with
    | none => rfl
    | some i =>
      have := h.ino q' i hq
      simp [Nat.ne_of_lt this]

theorem contentAt_setInode (h : fs.Ok) {q : Place} {ino : Nat} (hq : fs.files q = some ino) (c : List UInt8)
    (q' : Place) : (fs.setInode ino c).contentAt q' = if q' = q then some c else fs.contentAt q' := by
  simp only [contentAt, Fs.setInode]
  split
  · rename_i he
    simp [he, hq]
  · rename_i hne
    cases hq' : fs.files q' with
    | none => rfl
    | some i =>
      have : i ≠ ino := fun he => hne (h.inj q' q i hq' (he ▸ hq))
      simp [this]

end

/-! ## Descriptors in use -/

/-- The same descriptors are open, and none that was given out is to be given out again. -/
structure SameOpen (fs fs' : Fs) : Prop where
  isOpen : ∀ fd, (fs'.fds fd).isSome = (fs.fds fd).isSome
  nextFd : fs.nextFd ≤ fs'.nextFd

section
variable {fs fs' fs'' : Fs} {fd : Nat}

theorem SameOpen.refl (fs : Fs) : SameOpen fs fs := ⟨fun _ => rfl, Nat.le_refl _⟩

theorem SameOpen.trans (h : SameOpen fs fs') (h' : SameOpen fs' fs'') : SameOpen fs fs'' :=
  ⟨fun fd => (h'.isOpen fd).trans (h.isOpen fd), Nat.le_trans h.nextFd h'.nextFd⟩

theorem SameOpen.setOffset {f : OpenFile} (hf : fs.fds fd = some f) (offset : Nat) : SameOpen fs (fs.setOffset fd f offset) := by
  refine ⟨fun fd' => ?_, Nat.le_refl _⟩
  unfold Fs.setOffset
  dsimp only
  split
  · rename_i he
    rw [he, hf]
    rfl
  · rfl

/-- A read that gives bytes is through a descriptor for reading, and moves it. -/
theorem read_ok {n : Nat} {bytes : List UInt8} (h : fs.read fd n = .ok (fs', bytes)) :
    ∃ f, fs.fds fd = some f ∧ f.access = .rdonly ∧ n < 2 ^ 63 ∧ bytes = ((fs.inodes f.ino).drop f.offset).take n ∧
      fs' = fs.setOffset fd f (f.offset + bytes.length) := by
  unfold Fs.read at h
  split at h
  · cases h
  · rename_i f hf
    split at h
    · cases h
    · rename_i hr
      split at h
      · cases h
      · rename_i hn
        cases h
        exact ⟨f, hf, not_not.1 hr, Nat.not_le.1 hn, rfl, rfl⟩

/-- A write that succeeds is through a descriptor for writing. -/
theorem write_ok {d : List UInt8} (h : fs.write fd d = .ok fs') :
    ∃ f, fs.fds fd = some f ∧ f.access = .wronly ∧ d.length < 2 ^ 63 ∧
      fs' = (fs.setInode f.ino (writeAt 0 (fs.inodes f.ino) f.offset d)).setOffset fd f (f.offset + d.length) := by
  unfold Fs.write at h
  split at h
  · cases h
  · rename_i f hf
    split at h
    · cases h
    · rename_i hw
      split at h
      · cases h
      · rename_i hd
        cases h
        exact ⟨f, hf, not_not.1 hw, Nat.not_le.1 hd, rfl⟩

theorem SameOpen.of_read {n : Nat} {bytes : List UInt8} (h : fs.read fd n = .ok (fs', bytes)) : SameOpen fs fs' := by
  obtain ⟨f, hf, -, -, -, rfl⟩ := read_ok h
  exact .setOffset hf _

theorem SameOpen.of_write {d : List UInt8} (h : fs.write fd d = .ok fs') : SameOpen fs fs' := by
  obtain ⟨f, hf, -, -, rfl⟩ := write_ok h
  have hset : SameOpen fs (fs.setInode f.ino (writeAt 0 (fs.inodes f.ino) f.offset d)) := ⟨fun _ => rfl, Nat.le_refl _⟩
  have hf' : (fs.setInode f.ino (writeAt 0 (fs.inodes f.ino) f.offset d)).fds fd = some f := hf
  exact hset.trans (.setOffset hf' _)

theorem SameOpen.of_ftruncate {size : Nat} (h : fs.ftruncate fd size = .ok fs') : SameOpen fs fs' := by
  unfold Fs.ftruncate at h
  split at h
  · cases h
  · split at h
    · cases h
    · cases h
      exact ⟨fun _ => rfl, Nat.le_refl _⟩

theorem SameOpen.of_unlink {path : Path} (h : fs.unlink path = .ok fs') : SameOpen fs fs' := by
  unfold Fs.unlink at h
  split at h
  · cases h
  · split at h
    · cases h
    · split at h
      · cases h
        exact ⟨fun _ => rfl, Nat.le_refl _⟩
      · cases h

/-- What opening gives: a new descriptor onto the file of that name, which may be a new one,
or of the directory of that name. -/
inductive Opens (fs : Fs) (flags : OpenFlags) (q : Place) : Fs × Nat → Prop where
  | found (ino : Nat) (hfile : fs.files q = some ino) (hexcl : ¬ (flags.creat && flags.excl)) :
    Opens fs flags q (fs.newFd ino flags.access, fs.nextFd)
  | made (hfile : fs.files q = none) (hcreat : flags.creat) :
    Opens fs flags q ((fs.newFile q).newFd fs.nextIno flags.access, fs.nextFd)
  | directory (hdir : fs.isDir q) (hcreat : flags.creat = false) (hmode : flags.mode = .rdonly) :
    Opens fs flags q fs.openDir

theorem openFile_ok {path : Path} {flags : OpenFlags} {r : Fs × Nat} (h : fs.openFile path flags = .ok r) :
    ∃ q, fs.resolve path = .ok q ∧ Opens fs flags q r := by
  unfold Fs.openFile at h
  split at h
  · split at h <;> cases h
  · split at h
    · cases h
    · rename_i q hq
      refine ⟨q, hq, ?_⟩
      split at h
      · rename_i hdir
        split at h
        · cases h
        · split at h
          · cases h
          · rename_i hread
            cases h
            rw [not_or] at hread
            refine .directory hdir ((Bool.not_eq_true _).mp hread.1) ?_
            cases hm : flags.mode with
            | rdonly => rfl
            | wronly => exact absurd hm hread.2
      · split at h
        · rename_i ino hino
          split at h
          · cases h
          · rename_i hexcl
            cases h
            exact .found ino hino hexcl
        · rename_i hnone
          split at h
          · rename_i hcreat
            cases h
            exact .made hnone hcreat
          · cases h

/-- Opening gives out the next descriptor. -/
theorem openFile_opens {path : Path} {flags : OpenFlags} (h : fs.openFile path flags = .ok (fs', fd)) :
    fd = fs.nextFd ∧ fs'.nextFd = fs.nextFd + 1 ∧ (fs'.fds fd).isSome = true ∧
      ∀ fd' ≠ fd, fs'.fds fd' = fs.fds fd' := by
  obtain ⟨q, -, hopens⟩ := openFile_ok h
  cases hopens with
  | found ino => exact ⟨rfl, rfl, Option.isSome_of_eq_some (newFd_self ..), fun fd' hne => if_neg hne⟩
  | made => exact ⟨rfl, rfl, Option.isSome_of_eq_some (newFd_self (fs.newFile q) ..), fun fd' hne => if_neg hne⟩
  | directory =>
    have hself := newFd_self { fs with nextIno := fs.nextIno + 1 } fs.nextIno .directory
    exact ⟨rfl, rfl, Option.isSome_of_eq_some hself, fun fd' hne => if_neg hne⟩

/-- A descriptor that is opened and closed again leaves the others as they were. -/
theorem SameOpen.close (hopen : ∀ fd' ≠ fd, (fs'.fds fd').isSome = (fs.fds fd').isSome) (hfd : fs.fds fd = none)
    (hnext : fs.nextFd ≤ fs'.nextFd) : SameOpen fs (fs'.close fd) := by
  refine ⟨fun fd' => ?_, hnext⟩
  unfold Fs.close
  dsimp only
  split
  · rename_i he
    rw [he, hfd]
  · rename_i hne
    exact hopen fd' hne

end

end Fs

end Lib.Posix
