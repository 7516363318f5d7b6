import XDevice.Storage.LocalRefinement
import XDevice.Lib.Names
/-!
# Deleting a file that has a cached descriptor

A deletion takes the name away and leaves the descriptor cached for its path, which goes
on leading to the old inode. Every path is allowed here: what counts is the place it leads
to, so that a file may be deleted by one path and written by another.
-/
open Lib Lib.Posix

namespace XDevice

/-! ## What deletions promise -/

def fullPath (w : LocalWorld) (p : CString) : CString := buildFilePath w.priv.basePath p maxPathLen

/-- The name a call works on. -/
def placeAt (w : LocalWorld) (p : CString) : Place := Fs.placeOf w.fs.cwd (fullPath w p)

/-- The names that have been deleted at all, and those not created or written since. -/
structure Deletions where
  once : List Place
  gone : List Place

/-- The deletions after a call on the name `q` that gave `code`. -/
def Deletions.after (log : Deletions) (q : Place) (op : StorageOp) (code : XdeviceError) : Deletions :=
  if code = .ok then
    match op with
    | .deleteFile _ => ⟨q :: log.once, q :: log.gone⟩
    | .createFile _ _ | .writeSync _ _ _ => { log with gone := log.gone.filter (· ≠ q) }
    | _ => log
  else log

/-- A backend with the deletions of its run. -/
def deletionHistory : Machine (LocalWorld × Deletions) (CallEnv × StorageOp) StorageReply where
  step s a := (localExec a.1 s.1 a.2).map fun r =>
    ((r.1, s.2.after (placeAt s.1 a.2.path) a.2 r.2.code), r.2)

/-- No read of a deleted file succeeds, and a successful write to a name that was deleted
leaves a file there with the bytes at their offset. -/
def DeleteVisible (s : LocalWorld × Deletions) (a : CallEnv × StorageOp) : Prop :=
  ∀ w' reply, localExec a.1 s.1 a.2 = some (w', reply) → reply.code = .ok →
    match a.2 with
    | .readSync p _ _ => placeAt s.1 p ∉ s.2.gone
    | .writeSync p off d => placeAt s.1 p ∈ s.2.once → (localStorageGetFileInfo w' p).code = .ok ∧
        ∃ c, w'.fs.contentAt (placeAt s.1 p) = some c ∧ (c.drop off).take d.length = d
    | _ => True

/-- The open file behind the descriptor cached for a path. -/
def cachedOpen (w : LocalWorld) (path : CString) : Option OpenFile := (cachedFd w path).bind w.fs.fds

/-- What a call finds behind the descriptor it gets: the cached one, or else one that it
opens, if that can be kept. -/
def descriptorFor (w : LocalWorld) (fs : Fs) (path : CString) (flags : OpenFlags) : Option (Option OpenFile) :=
  match cachedFd w path with
  | some fd => some (fs.fds fd)
  | none =>
    match fs.openFile path flags with
    | .error _ => none
    | .ok (fs, fd) =>
      if w.priv.fdCache.length < w.priv.maxOpenFiles ∧ maxPathLen - 1 ≤ path.length then none else some (fs.fds fd)

def openedFor (w : LocalWorld) (fs : Fs) (path : CString) (flags : OpenFlags) : Option OpenFile :=
  (descriptorFor w fs path flags).join

/-- Where a call with this offset reads or writes: at the last offset the failure of
`lseek` goes unnoticed. -/
def seekStart (f : OpenFile) (offset : Nat) : Option Nat :=
  if offset < 2 ^ 63 then some offset else if offset = 2 ^ 64 - 1 then some f.offset else none

/-- A read of a deleted file that comes to reading is not of the last size, whose failure goes
unnoticed, and finds no descriptor cached for reading onto an inode that has the bytes. -/
def FreshRead (w : LocalWorld) (p : CString) (off n : Nat) : Prop :=
  ∀ f ∈ openedFor w w.fs (fullPath w p) ⟨.rdonly, false, false⟩, ∀ start ∈ seekStart f off,
    n ≠ 2 ^ 64 - 1 ∧
      (cachedOpen w (fullPath w p) = some f → f.access = .rdonly → n < 2 ^ 63 → (w.fs.inodes f.ino).length < start + n)

instance (w : LocalWorld) (p : CString) (off n : Nat) : Decidable (FreshRead w p off n) :=
  inferInstanceAs (Decidable (∀ f ∈ openedFor w w.fs (fullPath w p) ⟨.rdonly, false, false⟩, ∀ start ∈ seekStart f off,
    n ≠ 2 ^ 64 - 1 ∧
      (cachedOpen w (fullPath w p) = some f → f.access = .rdonly → n < 2 ^ 63 → (w.fs.inodes f.ino).length < start + n)))

/-- A write to a name that was deleted is not at the last offset, and finds no descriptor
cached for writing but one onto the file of that name; and it is not of the last size; unless
the bytes are there already. -/
def FreshThrough (w : LocalWorld) (p : CString) (off : Nat) (d : Bytes) (f : OpenFile) : Prop :=
  (f.access = .wronly → d.length < 2 ^ 63 → off ≠ 2 ^ 64 - 1 ∧
    (cachedOpen w (fullPath w p) = some f → w.fs.files (placeAt w p) = some f.ino ∨
      ((w.fs.bytesAt (placeAt w p)).drop off).take d.length = d)) ∧
  (d.length = 2 ^ 64 - 1 → ((w.fs.bytesAt (placeAt w p)).drop off).take d.length = d)

instance (w : LocalWorld) (p : CString) (off : Nat) (d : Bytes) (f : OpenFile) : Decidable (FreshThrough w p off d f) :=
  inferInstanceAs (Decidable ((_ → _ → _ ∧ (_ → _ ∨ _)) ∧ (_ → _)))

/-- So it is when it comes to writing at all. -/
def FreshWrite (w : LocalWorld) (p : CString) (off : Nat) (d : Bytes) : Prop :=
  ∀ fs ∈ createParents w.fs (fullPath w p), ∀ f ∈ openedFor w fs (fullPath w p) ⟨.wronly, true, false⟩,
    seekStart f off ≠ none → FreshThrough w p off d f

instance (w : LocalWorld) (p : CString) (off : Nat) (d : Bytes) : Decidable (FreshWrite w p off d) :=
  inferInstanceAs (Decidable (∀ fs ∈ createParents w.fs (fullPath w p),
    ∀ f ∈ openedFor w fs (fullPath w p) ⟨.wronly, true, false⟩, seekStart f off ≠ none → FreshThrough w p off d f))

/-- A call on a deleted name that does not go by what the deletion has left behind. -/
def FreshCall (s : LocalWorld × Deletions) (a : CallEnv × StorageOp) : Prop :=
  match a.2 with
  | .readSync p off n => placeAt s.1 p ∈ s.2.gone → n ≠ 0 → FreshRead s.1 p off n
  | .writeSync p off d => placeAt s.1 p ∈ s.2.once → d.length ≠ 0 → FreshWrite s.1 p off d
  | _ => True

instance : ∀ s a, Decidable (FreshCall s a)
  | s, (_, .readSync p off n) => inferInstanceAs (Decidable (placeAt s.1 p ∈ s.2.gone → n ≠ 0 → FreshRead s.1 p off n))
  | s, (_, .writeSync p off d) =>
    inferInstanceAs (Decidable (placeAt s.1 p ∈ s.2.once → d.length ≠ 0 → FreshWrite s.1 p off d))
  | _, (_, .createFile _ _) | _, (_, .deleteFile _) | _, (_, .getFileInfo _) | _, (_, .fsync _) => .isTrue trivial

/-! ## Descriptors -/

/-- The descriptors in the cache. -/
def cachedFds (w : LocalWorld) : Set Nat := {fd | ∃ path, cachedFd w path = some fd}

/-- A cached descriptor is open, its path leads somewhere, and no other name has its inode. -/
structure DescriptorsOk (w : LocalWorld) : Prop where
  fs : w.fs.Ok
  cached : ∀ path fd, cachedFd w path = some fd → ∃ f, w.fs.fds fd = some f ∧
    w.fs.resolve path = .ok (Fs.placeOf w.fs.cwd path) ∧
    ∀ q, w.fs.files q = some f.ino → q = Fs.placeOf w.fs.cwd path

/-- A call that touches the places in `S`. -/
structure CallTouches (S : Set Place) (w w' : LocalWorld) : Prop where
  ok : DescriptorsOk w'
  basePath : w'.priv.basePath = w.priv.basePath
  touches : Fs.Touches ∅ S w.fs w'.fs

section
variable {S : Set Place} {w w' w'' : LocalWorld}

theorem CallTouches.refl (h : DescriptorsOk w) : CallTouches S w w := ⟨h, rfl, .refl h.fs⟩

theorem CallTouches.trans (h : CallTouches S w w') (h' : CallTouches S w' w'') : CallTouches S w w'' :=
  ⟨h'.ok, h'.basePath.trans h.basePath, h.touches.trans h'.touches⟩

theorem CallTouches.mono {S' : Set Place} (h : CallTouches S w w') (hS : S ⊆ S') : CallTouches S' w w' :=
  ⟨h.ok, h.basePath, h.touches.mono (Set.Subset.refl _) hS⟩

theorem CallTouches.withFs {fs : Fs} (h : DescriptorsOk w) (ht : Fs.Touches (cachedFds w) S w.fs fs) :
    CallTouches S w (w.withFs fs) := by
  refine ⟨⟨ht.ok, fun path fd hc => ?_⟩, rfl, ht.mono (Set.empty_subset _) (Set.Subset.refl _)⟩
  obtain ⟨f, hf, hres, hnames⟩ := h.cached path fd hc
  obtain ⟨offset, hf'⟩ := ht.fds fd ⟨path, hc⟩ f hf
  refine ⟨_, hf', ?_, fun q hq => ?_⟩
  · have := Fs.resolve_mono ht.cwd ht.dirs hres
    rwa [← ht.cwd] at this
  · rcases ht.files q f.ino hq with hq | hnew
    · exact (hnames q hq).trans (by rw [← ht.cwd]; rfl)
    · exact absurd (h.fs.fd fd f hf).2 (Nat.not_lt.2 hnew)

theorem CallTouches.withStats (h : CallTouches S w w') (st : StorageStats) : CallTouches S w (w'.withStats st) :=
  ⟨⟨h.ok.fs, h.ok.cached⟩, h.basePath, h.touches⟩

theorem placeAt_eq (h : CallTouches S w w') (p : CString) : placeAt w' p = placeAt w p := by
  unfold placeAt fullPath
  rw [h.basePath, h.touches.cwd]

/-! ### Parents -/

theorem makeDirectories_touches {C : Set Nat} {fs : Fs} (h : fs.Ok) (paths : List CString) :
    Fs.Touches C S fs (makeDirectories fs paths).1 := by
  induction paths generalizing fs with
  | nil => exact .refl h
  | cons path paths ih =>
    unfold makeDirectories
    split
    · rename_i fs1 hm
      have hmk : Fs.Touches C S fs fs1 := .of_mkdir h hm
      exact hmk.trans (ih hmk.ok)
    · exact ih h
    · exact .refl h

/-- Making directories changes the directories only. -/
theorem makeDirectories_dirs (fs : Fs) (paths : List CString) :
    ∃ isDir, (makeDirectories fs paths).1 = { fs with isDir := isDir } := by
  induction paths generalizing fs with
  | nil => exact ⟨fs.isDir, rfl⟩
  | cons path paths ih =>
    unfold makeDirectories
    split
    · rename_i fs1 hm
      obtain ⟨isDir, he⟩ := ih fs1
      refine ⟨isDir, ?_⟩
      unfold Fs.mkdir at hm
      split at hm
      · cases hm
      · split at hm
        · cases hm
        · cases hm
          exact he
    · exact ih fs
    · exact ⟨fs.isDir, rfl⟩

/-- The parents are made, if the path is one that parents can be made of. -/
theorem createParents_cases {fs fs' : Fs} {path : CString} (hp : createParents fs path = some fs') :
    fs' = fs ∨ ∃ paths, fs' = (makeDirectories fs paths).1 := by
  unfold createParents at hp
  split at hp
  · cases hp
  · split at hp
    · cases hp
      exact .inl rfl
    · unfold createDirectories at hp
      dsimp only at hp
      split at hp
      · cases hp
      · cases hp
        exact .inr ⟨_, rfl⟩

theorem createParents_touches {C : Set Nat} {fs fs' : Fs} {path : CString} (h : fs.Ok)
    (hp : createParents fs path = some fs') : Fs.Touches C S fs fs' := by
  rcases createParents_cases hp with rfl | ⟨paths, rfl⟩
  · exact .refl h
  · exact makeDirectories_touches h paths

theorem createParents_dirs {fs fs' : Fs} {path : CString} (hp : createParents fs path = some fs') :
    ∃ isDir, fs' = { fs with isDir := isDir } := by
  rcases createParents_cases hp with rfl | ⟨paths, rfl⟩
  · exact ⟨fs'.isDir, rfl⟩
  · exact makeDirectories_dirs fs paths

/-! ### The descriptor of a call -/

theorem cachedFd_append {path path' : CString} {fd fd' now : Nat}
    (h : cachedFd (w.withCache (w.priv.fdCache ++ [⟨path, fd, now⟩])) path' = some fd') :
    cachedFd w path' = some fd' ∨ path' = path ∧ fd' = fd := by
  unfold cachedFd at h ⊢
  simp only [LocalWorld.withCache, lookup_append, lookup_cons, lookup_nil] at h
  cases hl : lookup FdCacheEntry.path w.priv.fdCache path' with
  | some e =>
    rw [hl] at h
    exact .inl h
  | none =>
    rw [hl, Option.none_or] at h
    split at h
    · rename_i he
      cases h
      exact .inr ⟨he.symm, rfl⟩
    · cases h

/-- What a call has when it asks for a descriptor: the cached one as it was, or a new one
onto what has that name. -/
structure HasDescriptor (w w' : LocalWorld) (path : CString) (flags : OpenFlags) (f : OpenFile) : Prop where
  resolves : w'.fs.resolve path = .ok (Fs.placeOf w.fs.cwd path)
  names : ∀ q, w'.fs.files q = some f.ino → q = Fs.placeOf w.fs.cwd path
  opened : openedFor w w.fs path flags = some f
  source : cachedOpen w path = some f ∧ w'.fs = w.fs ∨
    cachedOpen w path = none ∧ Fs.OpenedAt w'.fs flags (Fs.placeOf w.fs.cwd path) f

theorem getFileDescriptor_cases {env : CallEnv} {path : CString} {flags : OpenFlags} {r : Option Nat}
    (h : DescriptorsOk w) (hget : getFileDescriptor env w path flags = some (w', r)) :
    CallTouches S w w' ∧ (r = none → openedFor w w.fs path flags = none) ∧
      ∀ fd, r = some fd → ∃ f, w'.fs.fds fd = some f ∧ HasDescriptor w w' path flags f := by
  cases hc : cachedFd w path with
  | some fd =>
    obtain ⟨f, hf, hres, hnames⟩ := h.cached path fd hc
    obtain ⟨cache, hget', hsame⟩ := getFileDescriptor_cached env hc flags
    rw [hget] at hget'
    cases hget'
    have hopen : cachedOpen w path = some f := by
      unfold cachedOpen
      rw [hc]
      exact hf
    have hopened : openedFor w w.fs path flags = some f := by
      unfold openedFor descriptorFor
      rw [hc]
      exact hf
    refine ⟨⟨⟨h.fs, fun path' fd' hc' => h.cached path' fd' ((hsame path').symm.trans hc')⟩, rfl, .refl h.fs⟩, ?_, ?_⟩
    · intro hnone
      cases hnone
    · intro fd' hfd'
      cases hfd'
      exact ⟨f, hf, hres, hnames, hopened, .inl ⟨hopen, rfl⟩⟩
  | none =>
    have hopen : cachedOpen w path = none := by
      unfold cachedOpen
      rw [hc]
      rfl
    cases hopened : w.fs.openFile path flags with
    | error e =>
      rw [getFileDescriptor_failed hc hopened] at hget
      cases hget
      refine ⟨.refl h, fun _ => ?_, fun fd hfd => (by cases hfd)⟩
      unfold openedFor descriptorFor
      rw [hc, hopened]
      rfl
    | ok opened =>
      obtain ⟨fs, fd⟩ := opened
      rw [getFileDescriptor_opens env hc hopened] at hget
      obtain ⟨ht, -, hres, f, hfd, -, hat, -⟩ := Fs.openFile_cases (C := cachedFds w) (S := S) h.fs hopened
      -- opened anew: no other name has the inode of the new descriptor
      have hnew := CallTouches.withFs h ht
      have hcwd : fs.cwd = w.fs.cwd := ht.cwd
      have hnames : ∀ q, fs.files q = some f.ino → q = Fs.placeOf w.fs.cwd path := fun q hq => hat.names ht.ok hq
      have hfor : ¬ (w.priv.fdCache.length < w.priv.maxOpenFiles ∧ maxPathLen - 1 ≤ path.length) →
          openedFor w w.fs path flags = some f := by
        intro hkept
        simp only [openedFor, descriptorFor, hc, hopened, if_neg hkept, hfd, Option.join_some]
      have hhas : ¬ (w.priv.fdCache.length < w.priv.maxOpenFiles ∧ maxPathLen - 1 ≤ path.length) →
          ∀ w', w'.fs = fs → ∃ f, w'.fs.fds fd = some f ∧ HasDescriptor w w' path flags f := by
        rintro hkept w' rfl
        exact ⟨f, hfd, hres, hnames, hfor hkept, .inr ⟨hopen, hat⟩⟩
      split at hget
      · rename_i hroom
        split at hget
        · cases hget
        · rename_i hshort
          cases hget
          refine ⟨⟨⟨hnew.ok.fs, fun path' fd' hc' => ?_⟩, rfl, hnew.touches⟩, fun hno => (by cases hno), ?_⟩
          · rcases cachedFd_append hc' with hc' | ⟨rfl, rfl⟩
            · exact hnew.ok.cached path' fd' hc'
            · rw [← hcwd] at hres hnames
              exact ⟨_, hfd, hres, hnames⟩
          · rintro fd' hfd'
            cases hfd'
            exact hhas (fun hlong => hshort hlong.2) _ rfl
      · rename_i hfull
        cases hget
        refine ⟨hnew, fun hno => (by cases hno), ?_⟩
        rintro fd' hfd'
        cases hfd'
        exact hhas (fun hroom => hfull hroom.1) _ rfl

end

/-! ## Calls -/

section
variable {S : Set Place} {w w' : LocalWorld} {p : CString} {env : CallEnv} {off n : Nat} {data : Bytes}
  {reply : StorageReply}

theorem setOffset_same {fs : Fs} {fd : Nat} {f : OpenFile} (hf : fs.fds fd = some f) : fs.setOffset fd f f.offset = fs := by
  unfold Fs.setOffset
  congr 1
  funext fd'
  split
  · rename_i he
    rw [he, hf]
  · rfl

/-- The last move is the one that counts. -/
theorem setOffset_setOffset (fs : Fs) (fd : Nat) (f : OpenFile) (start pos : Nat) :
    (fs.setOffset fd f start).setOffset fd { f with offset := start } pos = fs.setOffset fd f pos := by
  unfold Fs.setOffset
  congr 1
  funext fd'
  dsimp only
  split
  · rfl
  · rfl

theorem seekTo_eq {fs : Fs} {fd : Nat} {f : OpenFile} (hf : fs.fds fd = some f) (offset : Nat) :
    seekTo fs fd offset = (seekStart f offset).map (fs.setOffset fd f) := by
  unfold seekTo seekStart Fs.lseek
  rw [hf]
  dsimp only
  by_cases hlt : offset < 2 ^ 63
  · rw [if_pos hlt, if_pos hlt]
    rfl
  · rw [if_neg hlt, if_neg hlt]
    dsimp only
    split
    · rw [Option.map_some, setOffset_same hf]
    · rfl

/-- A seek goes to its offset, unless it is the last one, where it goes nowhere. -/
theorem seekStart_cases {f : OpenFile} {off start : Nat} (h : seekStart f off = some start) :
    start = off ∧ off < 2 ^ 63 ∨ start = f.offset ∧ off = 2 ^ 64 - 1 := by
  unfold seekStart at h
  split at h
  · rename_i hlt
    cases h
    exact .inl ⟨rfl, hlt⟩
  · split at h
    · rename_i hlast
      cases h
      exact .inr ⟨rfl, hlast⟩
    · cases h

/-- A read through an open file moves its descriptor, and succeeds for reading and where the
bytes are; of the last size it succeeds in any case, with nothing read. -/
theorem localRead_through {w1 : LocalWorld} {fd : Nat} {f : OpenFile} (off : Nat) (hn : n ≠ 0)
    (hget : getFileDescriptor env w (fullPath w p) ⟨.rdonly, false, false⟩ = some (w1, some fd)) (hf : w1.fs.fds fd = some f) :
    ∃ w' reply, localStorageReadSync env w p off n = some (w', reply) ∧
      (∃ pos stats, w' = (w1.withFs (w1.fs.setOffset fd f pos)).withStats stats) ∧
      (reply.code = .ok ↔ ∃ start, seekStart f off = some start ∧
        (n = 2 ^ 64 - 1 ∨ f.access = .rdonly ∧ n < 2 ^ 63 ∧ start + n ≤ (w1.fs.inodes f.ino).length)) ∧
      ∀ start, seekStart f off = some start → reply.code = .ok →
        reply.data = if n = 2 ^ 64 - 1 then [] else ((w1.fs.inodes f.ino).drop start).take n := by
  have hget : getFileDescriptor env w (buildFilePath w.priv.basePath p maxPathLen) ⟨.rdonly, false, false⟩ =
      some (w1, some fd) := hget
  unfold localStorageReadSync
  rw [if_neg hn, hget, Option.map_some]
  dsimp only
  rw [seekTo_eq hf]
  cases hstart : seekStart f off with
  | none =>
    refine ⟨_, _, rfl, ⟨f.offset, w1.priv.stats, ?_⟩, iff_of_false (fun he => by cases he) ?_, fun _ he => by cases he⟩
    · rw [setOffset_same hf]
      rfl
    · rintro ⟨start, hno, -⟩
      cases hno
  | some start =>
    have hfd := setOffset_self w1.fs fd f start
    rw [Option.map_some]
    dsimp only
    by_cases hreads : f.access = .rdonly ∧ n < 2 ^ 63
    · obtain ⟨hr, hsize⟩ := hreads
      have hlast : n ≠ 2 ^ 64 - 1 := by omega
      have hbytes : (((w1.fs.inodes f.ino).drop start).take n).length = n ↔ start + n ≤ (w1.fs.inodes f.ino).length := by
        rw [List.length_take, List.length_drop]
        omega
      rw [Fs.read_open hfd hr hsize]
      dsimp only
      rw [setOffset_setOffset]
      split
      · rename_i hshort
        refine ⟨_, _, rfl, ⟨_, w1.priv.stats, rfl⟩, iff_of_false (fun he => by cases he) ?_, fun _ _ he => by cases he⟩
        rintro ⟨start', he, hlast' | ⟨-, -, hin⟩⟩
        · exact hlast hlast'
        · cases he
          exact hshort (hbytes.2 hin)
      · rename_i hfull
        refine ⟨_, _, rfl, ⟨_, _, rfl⟩, iff_of_true rfl ⟨start, rfl, .inr ⟨hr, hsize, hbytes.1 (not_not.1 hfull)⟩⟩, ?_⟩
        intro start' he _
        cases he
        rfl
    · obtain ⟨e, hread⟩ := Fs.read_fails hfd hreads
      rw [hread]
      dsimp only
      by_cases hlast : n = 2 ^ 64 - 1
      · rw [if_pos hlast]
        refine ⟨_, _, rfl, ⟨start, _, rfl⟩, iff_of_true rfl ⟨start, rfl, .inl hlast⟩, fun _ _ _ => ?_⟩
        rw [if_pos hlast]
        rfl
      · rw [if_neg hlast]
        refine ⟨_, _, rfl, ⟨start, w1.priv.stats, rfl⟩, iff_of_false (fun he => by cases he) ?_, fun _ _ he => by cases he⟩
        rintro ⟨start', -, hlast' | ⟨hr, hsize, -⟩⟩
        · exact hlast hlast'
        · exact hreads ⟨hr, hsize⟩

/-- A write that puts its data into the file of its descriptor. -/
def WritesAt (f : OpenFile) (off : Nat) (data : Bytes) (start : Nat) : Prop :=
  seekStart f off = some start ∧ f.access = .wronly ∧ data.length < 2 ^ 63

/-- A write through an open file succeeds for writing, and otherwise moves the descriptor at
most; which of the last size counts as success too. -/
theorem localWrite_through {w1 : LocalWorld} {fs : Fs} {fd : Nat} {f : OpenFile} (off : Nat) (hd : data.length ≠ 0)
    (hparents : createParents w.fs (fullPath w p) = some fs)
    (hget : getFileDescriptor env (w.withFs fs) (fullPath w p) ⟨.wronly, true, false⟩ = some (w1, some fd))
    (hf : w1.fs.fds fd = some f) :
    ∃ w' reply, localStorageWriteSync env w p off data = some (w', reply) ∧
      (reply.code = .ok ↔ (∃ start, WritesAt f off data start) ∨ data.length = 2 ^ 64 - 1 ∧ seekStart f off ≠ none) ∧
      ((¬ ∃ start, WritesAt f off data start) →
        ∃ pos stats, w' = (w1.withFs (w1.fs.setOffset fd f pos)).withStats stats) ∧
      ∀ start, WritesAt f off data start → ∃ pos stats,
        w' = (w1.withFs ((w1.fs.setInode f.ino (writeAt 0 (w1.fs.inodes f.ino) start data)).setOffset fd f pos)).withStats
          stats := by
  have hparents : createParents w.fs (buildFilePath w.priv.basePath p maxPathLen) = some fs := hparents
  have hget : getFileDescriptor env (w.withFs fs) (buildFilePath w.priv.basePath p maxPathLen) ⟨.wronly, true, false⟩ =
      some (w1, some fd) := hget
  unfold localStorageWriteSync
  dsimp only
  rw [if_neg hd, hparents, Option.bind_some, hget, Option.map_some]
  dsimp only
  rw [seekTo_eq hf]
  cases hstart : seekStart f off with
  | none =>
    have hnot : ∀ start, ¬ WritesAt f off data start := fun start h => by cases hstart.symm.trans h.1
    refine ⟨_, _, rfl, iff_of_false (fun he => by cases he) ?_, fun _ => ⟨f.offset, w1.priv.stats, ?_⟩,
      fun start h => absurd h (hnot start)⟩
    · rintro (⟨start, h⟩ | ⟨-, hno⟩)
      · exact hnot start h
      · exact hno rfl
    · rw [setOffset_same hf]
      rfl
  | some start =>
    have hfd := setOffset_self w1.fs fd f start
    rw [Option.map_some]
    dsimp only
    by_cases hwrites : f.access = .wronly ∧ data.length < 2 ^ 63
    · obtain ⟨hw, hsize⟩ := hwrites
      rw [Fs.write_open hfd hw hsize]
      have hat : WritesAt f off data start := ⟨hstart, hw, hsize⟩
      refine ⟨_, _, rfl, iff_of_true rfl (.inl ⟨start, hat⟩), fun hno => absurd ⟨start, hat⟩ hno, ?_⟩
      intro start' h
      cases hstart.symm.trans h.1
      have hmoved := setOffset_setOffset (w1.fs.setInode f.ino (writeAt 0 (w1.fs.inodes f.ino) start data)) fd f start
        (start + data.length)
      exact ⟨_, _, congrArg (fun fs => (w1.withFs fs).withStats _) hmoved⟩
    · obtain ⟨e, hwrite⟩ := Fs.write_fails hfd hwrites
      have hnot : ∀ start, ¬ WritesAt f off data start := fun start h => hwrites h.2
      rw [hwrite]
      dsimp only
      by_cases hlast : data.length = 2 ^ 64 - 1
      · rw [if_pos hlast]
        refine ⟨_, _, rfl, iff_of_true rfl (.inr ⟨hlast, nofun⟩), fun _ => ⟨start, _, rfl⟩, fun start h => absurd h (hnot start)⟩
      · rw [if_neg hlast]
        refine ⟨_, _, rfl, iff_of_false (fun he => by cases he) ?_, fun _ => ⟨start, w1.priv.stats, rfl⟩,
          fun start h => absurd h (hnot start)⟩
        rintro (⟨start, h⟩ | ⟨hlast', -⟩)
        · exact hnot start h
        · exact hlast hlast'

/-- A read succeeds through a descriptor for reading, onto an inode that has the bytes, and of
the last size through any. -/
theorem localRead_cases (h : DescriptorsOk w) (hcall : localStorageReadSync env w p off n = some (w', reply)) :
    CallTouches S w w' ∧ (reply.code ≠ .ok ∧ (n = 0 ∨ openedFor w w.fs (fullPath w p) ⟨.rdonly, false, false⟩ = none) ∨
      n ≠ 0 ∧ ∃ w1 f, CallTouches S w w1 ∧ HasDescriptor w w1 (fullPath w p) ⟨.rdonly, false, false⟩ f ∧
        (reply.code = .ok ↔ ∃ start, seekStart f off = some start ∧
          (n = 2 ^ 64 - 1 ∨ f.access = .rdonly ∧ n < 2 ^ 63 ∧ start + n ≤ (w1.fs.inodes f.ino).length))) := by
  by_cases hn : n = 0
  · unfold localStorageReadSync at hcall
    rw [if_pos hn] at hcall
    cases hcall
    exact ⟨.refl h, .inl ⟨fun he => (by cases he), .inl hn⟩⟩
  · have hrest := hcall
    unfold localStorageReadSync at hrest
    rw [if_neg hn] at hrest
    obtain ⟨⟨w1, r⟩, hget, hrest⟩ := Option.map_eq_some_iff.1 hrest
    obtain ⟨htouch, hnone, hsome⟩ := getFileDescriptor_cases (S := S) h hget
    cases r with
    | none =>
      cases hrest
      exact ⟨htouch, .inl ⟨fun he => (by cases he), .inr (hnone rfl)⟩⟩
    | some fd =>
      obtain ⟨f, hf, hhas⟩ := hsome fd rfl
      obtain ⟨w2, reply2, hcall2, ⟨pos, stats, rfl⟩, hok, -⟩ := localRead_through off hn hget hf
      obtain ⟨rfl, rfl⟩ := Prod.mk.inj (Option.some.inj (hcall2.symm.trans hcall))
      have hmoved := htouch.trans (CallTouches.withFs htouch.ok (.setOffset htouch.ok.fs hf pos))
      exact ⟨hmoved.withStats stats, .inr ⟨hn, w1, f, htouch, hhas, hok⟩⟩

/-- A write succeeds through a descriptor for writing, and changes its inode; of the last size
it succeeds through any and changes nothing. -/
theorem localWrite_cases (h : DescriptorsOk w) (hcall : localStorageWriteSync env w p off data = some (w', reply)) :
    CallTouches {placeAt w p} w w' ∧ (reply.code ≠ .ok → CallTouches ∅ w w') ∧
      (reply.code ≠ .ok ∧ (data.length = 0 ∨ ∀ fs, createParents w.fs (fullPath w p) = some fs →
          openedFor w fs (fullPath w p) ⟨.wronly, true, false⟩ = none) ∨
      data.length ≠ 0 ∧ ∃ isDir w1 f, createParents w.fs (fullPath w p) = some { w.fs with isDir := isDir } ∧
        HasDescriptor (w.withFs { w.fs with isDir := isDir }) w1 (fullPath w p) ⟨.wronly, true, false⟩ f ∧
        (reply.code = .ok ↔ (∃ start, WritesAt f off data start) ∨ data.length = 2 ^ 64 - 1 ∧ seekStart f off ≠ none) ∧
        CallTouches {placeAt w p} w1 w' ∧ ((¬ ∃ start, WritesAt f off data start) → CallTouches ∅ w w') ∧
        ∀ start, WritesAt f off data start → w'.fs.files = w1.fs.files ∧
          w'.fs.inodes = (w1.fs.setInode f.ino (writeAt 0 (w1.fs.inodes f.ino) start data)).inodes) := by
  by_cases hd : data.length = 0
  · unfold localStorageWriteSync at hcall
    rw [if_pos hd] at hcall
    cases hcall
    exact ⟨.refl h, fun _ => .refl h, .inl ⟨fun he => (by cases he), .inl hd⟩⟩
  · have hrest := hcall
    unfold localStorageWriteSync at hrest
    rw [if_neg hd] at hrest
    obtain ⟨fs1, hparents, hrest⟩ := Option.bind_eq_some_iff.1 hrest
    obtain ⟨⟨w1, r⟩, hget, hrest⟩ := Option.map_eq_some_iff.1 hrest
    have hmade : CallTouches ∅ w (w.withFs fs1) := .withFs h (createParents_touches h.fs hparents)
    obtain ⟨hgot, hnone, hsome⟩ := getFileDescriptor_cases (S := ∅) hmade.ok hget
    have htouch := hmade.trans hgot
    cases r with
    | none =>
      cases hrest
      refine ⟨htouch.mono (Set.empty_subset _), fun _ => htouch, .inl ⟨fun he => (by cases he), .inr fun fs hfs => ?_⟩⟩
      cases hparents.symm.trans hfs
      exact hnone rfl
    | some fd =>
      obtain ⟨f, hf, hhas⟩ := hsome fd rfl
      obtain ⟨w2, reply2, hcall2, hok, hfailed, heffect⟩ := localWrite_through off hd hparents hget hf
      obtain ⟨rfl, rfl⟩ := Prod.mk.inj (Option.some.inj (hcall2.symm.trans hcall))
      have hfail : ∀ S, (¬ ∃ start, WritesAt f off data start) → CallTouches S w1 w2 := by
        intro S hno
        obtain ⟨pos, stats, rfl⟩ := hfailed hno
        exact (CallTouches.withFs htouch.ok (.setOffset htouch.ok.fs hf pos)).withStats stats
      have hcalled : CallTouches {placeAt w p} w1 w2 := by
        by_cases hwrites : ∃ start, WritesAt f off data start
        · obtain ⟨start, hwrites⟩ := hwrites
          obtain ⟨pos, stats, rfl⟩ := heffect start hwrites
          have hnames : ∀ q, w1.fs.files q = some f.ino → q ∈ ({placeAt w p} : Set Place) := by
            obtain ⟨isDir, rfl⟩ := createParents_dirs hparents
            exact hhas.names
          have hwrite := CallTouches.withFs htouch.ok
            (.setInode htouch.ok.fs hnames (writeAt 0 (w1.fs.inodes f.ino) start data))
          have hmoved := hwrite.trans (CallTouches.withFs hwrite.ok (.setOffset hwrite.ok.fs hf pos))
          exact hmoved.withStats stats
        · exact hfail _ hwrites
      obtain ⟨isDir, rfl⟩ := createParents_dirs hparents
      refine ⟨(htouch.mono (Set.empty_subset _)).trans hcalled, fun hne => ?_,
        .inr ⟨hd, isDir, w1, f, hparents, hhas, hok, hcalled, fun hno => htouch.trans (hfail ∅ hno), fun start hwrites => ?_⟩⟩
      · exact htouch.trans (hfail ∅ fun hwrites => hne (hok.2 (.inl hwrites)))
      · obtain ⟨pos, stats, rfl⟩ := heffect start hwrites
        exact ⟨rfl, rfl⟩

/-- Creating a file leaves its descriptor closed and the cache as it was. -/
theorem localCreate_touches (h : DescriptorsOk w) (hcall : localStorageCreateFile w p n = some (w', reply)) :
    CallTouches {placeAt w p} w w' ∧ (reply.code ≠ .ok → CallTouches ∅ w w') := by
  obtain ⟨fs1, hparents, hcall⟩ := Option.map_eq_some_iff.1 hcall
  have hmade : Fs.Touches (cachedFds w) ∅ w.fs fs1 := createParents_touches h.fs hparents
  obtain ⟨isDir, rfl⟩ := createParents_dirs hparents
  split at hcall
  · cases hcall
    have hdone := CallTouches.withFs h hmade
    exact ⟨hdone.mono (Set.empty_subset _), fun _ => hdone⟩
  · rename_i fs2 fd hopen
    obtain ⟨hopened, hfd, -, f, hf, -, hat, hexcl⟩ := Fs.openFile_cases (C := cachedFds w) (S := ∅) hmade.ok hopen
    obtain ⟨haccess, hfile⟩ := hat.of_creat rfl
    have hopened := hmade.trans hopened
    have hfree : fd ∉ cachedFds w := by
      rintro ⟨path, hc⟩
      obtain ⟨f, hf, -⟩ := h.cached path fd hc
      have hlt := (h.fs.fd fd f hf).1
      rw [hfd] at hlt
      exact Nat.lt_irrefl _ hlt
    have hclosed : CallTouches ∅ w (w.withFs (fs2.close fd)) := .withFs h (hopened.trans (.close hopened.ok hfree))
    split at hcall
    · by_cases hn : n < 2 ^ 63
      · rw [Fs.ftruncate_open hf haccess hn] at hcall
        cases hcall
        have hgrown : Fs.Touches (cachedFds w) {placeAt w p} fs2
            (fs2.setInode f.ino ((padTo 0 (fs2.inodes f.ino) n).take n)) :=
          .setInode hopened.ok (fun q hq => hopened.ok.inj _ _ _ hq hfile) _
        have hdone := hgrown.trans (.close hgrown.ok hfree)
        exact ⟨.withFs h ((hopened.mono (Set.Subset.refl _) (Set.empty_subset _)).trans hdone), fun hne => absurd rfl hne⟩
      · have hfail : fs2.ftruncate fd n = .error .inval := by
          unfold Fs.ftruncate
          rw [hf]
          exact if_pos (.inr (Nat.not_lt.1 hn))
        rw [hfail] at hcall
        dsimp only at hcall
        split at hcall
        · rename_i fs3 hu
          cases hcall
          -- the name is free again, as it was before
          have hcwd : (fs2.close fd).cwd = w.fs.cwd := hclosed.touches.cwd
          have hok : (fs2.close fd).Ok := hclosed.ok.fs
          have hplace : Fs.placeOf (fs2.close fd).cwd (buildFilePath w.priv.basePath p maxPathLen) = placeAt w p := by
            rw [hcwd]
            rfl
          obtain ⟨hunlinked, hnone⟩ := Fs.Touches.of_unlink (C := cachedFds w) (S := {placeAt w p}) hok hu hplace
          rw [hplace] at hnone
          have hwas : w.fs.files (placeAt w p) = none := hexcl rfl
          have hall := ((hopened.trans (.close hopened.ok hfree)).mono (Set.Subset.refl _)
            (Set.empty_subset {placeAt w p})).trans hunlinked
          have hsame := hall.of_same (S := ∅) ((Fs.bytesAt_none hnone).trans (Fs.bytesAt_none hwas).symm)
          have hdone := CallTouches.withFs h hsame
          exact ⟨hdone.mono (Set.empty_subset _), fun _ => hdone⟩
        · cases hcall
          exact ⟨hclosed.mono (Set.empty_subset _), fun _ => hclosed⟩
    · cases hcall
      exact ⟨hclosed.mono (Set.empty_subset _), fun hne => absurd rfl hne⟩

theorem localDelete_touches (h : DescriptorsOk w) (hcall : localStorageDeleteFile w p = (w', reply)) :
    CallTouches {placeAt w p} w w' ∧ (reply.code ≠ .ok → w' = w) ∧
      (reply.code = .ok → w'.fs.files (placeAt w p) = none) := by
  unfold localStorageDeleteFile at hcall
  split at hcall
  · rename_i fs hu
    cases hcall
    obtain ⟨ht, hnone⟩ := Fs.Touches.of_unlink (C := cachedFds w) (S := {placeAt w p}) h.fs hu rfl
    exact ⟨.withFs h ht, fun hne => absurd rfl hne, fun _ => hnone⟩
  · rename_i e _
    cases hcall
    refine ⟨.refl h, fun _ => rfl, fun hok => ?_⟩
    dsimp only [StorageReply.ofCode] at hok
    split at hok <;> cases hok

theorem localFsync_touches (h : DescriptorsOk w) (hcall : localStorageFsync env w p = some (w', reply)) :
    CallTouches S w w' := by
  obtain ⟨⟨w1, r⟩, hget, hcall⟩ := Option.map_eq_some_iff.1 hcall
  have htouch := (getFileDescriptor_cases (S := S) h hget).1
  cases r with
  | none =>
    cases hcall
    exact htouch
  | some fd =>
    dsimp only at hcall
    split at hcall <;> cases hcall <;> exact htouch

/-- A call touches the name it works on, and only when it succeeds. -/
theorem localExec_touches {op : StorageOp} (h : DescriptorsOk w) (hcall : localExec env w op = some (w', reply)) :
    CallTouches {placeAt w op.path} w w' ∧
      (CallTouches ∅ w w' ∨ reply.code = .ok ∧ (op.adds = true ∨ op = .deleteFile op.path)) ∧
      (op = .deleteFile op.path → reply.code = .ok → w'.fs.files (placeAt w op.path) = none) := by
  cases op with
  | createFile p n =>
    obtain ⟨htouch, hfailed⟩ := localCreate_touches h hcall
    refine ⟨htouch, ?_, nofun⟩
    by_cases hok : reply.code = .ok
    · exact .inr ⟨hok, .inl rfl⟩
    · exact .inl (hfailed hok)
  | writeSync p off d =>
    obtain ⟨htouch, hfailed, -⟩ := localWrite_cases h hcall
    refine ⟨htouch, ?_, nofun⟩
    by_cases hok : reply.code = .ok
    · exact .inr ⟨hok, .inl rfl⟩
    · exact .inl (hfailed hok)
  | readSync p off n =>
    have htouch := (localRead_cases (S := ∅) h hcall).1
    exact ⟨htouch.mono (Set.empty_subset _), .inl htouch, nofun⟩
  | deleteFile p =>
    obtain ⟨htouch, hfailed, hgone⟩ := localDelete_touches h (Option.some.inj hcall)
    refine ⟨htouch, ?_, fun _ => hgone⟩
    by_cases hok : reply.code = .ok
    · exact .inr ⟨hok, .inr rfl⟩
    · rw [hfailed hok]
      exact .inl (.refl h)
  | getFileInfo p =>
    cases hcall
    exact ⟨.refl h, .inl (.refl h), nofun⟩
  | fsync p =>
    have htouch := localFsync_touches (S := ∅) h hcall
    exact ⟨htouch.mono (Set.empty_subset _), .inl htouch, nofun⟩

theorem localInfo_ok {ino : Nat} (hres : w.fs.resolve (fullPath w p) = .ok (placeAt w p))
    (hfile : w.fs.files (placeAt w p) = some ino) : (localStorageGetFileInfo w p).code = .ok := by
  unfold localStorageGetFileInfo Fs.stat
  unfold fullPath at hres
  rw [hres]
  dsimp only
  split
  · rename_i hstat
    rfl
  · rename_i e hstat
    rw [hfile] at hstat
    split at hstat <;> cases hstat

end

/-! ## Histories -/

/-- What is gone has no bytes. -/
structure DeletionsOk (s : LocalWorld × Deletions) : Prop where
  descriptors : DescriptorsOk s.1
  gone : ∀ q ∈ s.2.gone, s.1.fs.bytesAt q = []

section
variable {s s' : LocalWorld × Deletions} {a : CallEnv × StorageOp} {reply : StorageReply}

/-- What is gone after a call has just been deleted, or was gone and has not come back. -/
theorem mem_gone_after {log : Deletions} {q q' : Place} {op : StorageOp} {code : XdeviceError}
    (h : q' ∈ (log.after q op code).gone) :
    q' = q ∧ op = .deleteFile op.path ∧ code = .ok ∨ q' ∈ log.gone ∧ (code = .ok → op.adds = true → q' ≠ q) := by
  unfold Deletions.after at h
  split at h
  · rename_i hok
    cases op with
    | deleteFile p =>
      rcases List.mem_cons.1 h with rfl | hmem
      · exact .inl ⟨rfl, rfl, hok⟩
      · exact .inr ⟨hmem, nofun⟩
    | createFile p n =>
      obtain ⟨hmem, hne⟩ := List.mem_filter.1 h
      exact .inr ⟨hmem, fun _ _ => of_decide_eq_true hne⟩
    | writeSync p off d =>
      obtain ⟨hmem, hne⟩ := List.mem_filter.1 h
      exact .inr ⟨hmem, fun _ _ => of_decide_eq_true hne⟩
    | readSync p off n => exact .inr ⟨h, nofun⟩
    | getFileInfo p => exact .inr ⟨h, nofun⟩
    | fsync p => exact .inr ⟨h, nofun⟩
  · rename_i hno
    exact .inr ⟨h, fun hok => absurd hok hno⟩

theorem deletions_step (h : DeletionsOk s) (hs : deletionHistory.step s a = some (s', reply)) : DeletionsOk s' := by
  obtain ⟨⟨w', r⟩, hcall, he⟩ := Option.map_eq_some_iff.1 hs
  cases he
  obtain ⟨htouch, hwhat, hdeleted⟩ := localExec_touches h.descriptors hcall
  refine ⟨htouch.ok, fun q hq => ?_⟩
  -- what was gone before has no bytes, and only its own call can give it some
  rcases mem_gone_after hq with ⟨rfl, hop, hok⟩ | ⟨hgone, hback⟩
  · exact Fs.bytesAt_none (hdeleted hop hok)
  · rw [← h.gone q hgone]
    rcases hwhat with hnone | ⟨hok, hadds | hop⟩
    · exact hnone.touches.bytes q nofun
    · exact htouch.touches.bytes q (hback hok hadds)
    · by_cases hne : q = placeAt s.1 a.2.path
      · rw [h.gone q hgone, hne]
        exact Fs.bytesAt_none (hdeleted hop hok)
      · exact htouch.touches.bytes q hne

theorem read_visible {w w' : LocalWorld} {p : CString} {env : CallEnv} {off n : Nat} (h : DescriptorsOk w)
    (hgone : w.fs.bytesAt (placeAt w p) = []) (hfresh : n ≠ 0 → FreshRead w p off n)
    (hcall : localStorageReadSync env w p off n = some (w', reply)) : reply.code ≠ .ok := by
  obtain ⟨-, ⟨hfailed, -⟩ | ⟨hn, w1, f, htouch, hhas, hiff⟩⟩ := localRead_cases (S := ∅) h hcall
  · exact hfailed
  · intro hok
    obtain ⟨start, hstart, hread⟩ := hiff.1 hok
    obtain ⟨hlast, hshort⟩ := hfresh hn f hhas.opened start hstart
    obtain ⟨hr, hsize, hin⟩ := hread.resolve_left hlast
    rcases hhas.source with ⟨hcached, hfs⟩ | ⟨-, ⟨-, hfile⟩ | ⟨hdir, -⟩⟩
    · rw [hfs] at hin
      exact Nat.not_lt.2 hin (hshort hcached hr hsize)
    · -- a new descriptor finds the name without bytes
      have hbytes : w1.fs.inodes f.ino = [] := by
        rw [← Fs.bytesAt_of hfile, htouch.touches.bytes _ (Set.notMem_empty _)]
        exact hgone
      rw [hbytes, List.length_nil] at hin
      omega
    · rw [hr] at hdir
      cases hdir

theorem write_visible {w w' : LocalWorld} {p : CString} {env : CallEnv} {off : Nat} {data : Bytes} (h : DescriptorsOk w)
    (hfresh : data.length ≠ 0 → FreshWrite w p off data)
    (hcall : localStorageWriteSync env w p off data = some (w', reply)) (hok : reply.code = .ok) :
    (localStorageGetFileInfo w' p).code = .ok ∧
      ∃ c, w'.fs.contentAt (placeAt w p) = some c ∧ (c.drop off).take data.length = data := by
  obtain ⟨hall, -, ⟨hfailed, -⟩ | ⟨hd, isDir, w1, f, hparents, hhas, hiff, hcalled, hsame, heffect⟩⟩ :=
    localWrite_cases h hcall
  · exact absurd hok hfailed
  have hplace := placeAt_eq hall p
  have hres : w'.fs.resolve (fullPath w' p) = .ok (placeAt w' p) := by
    rw [hplace]
    have hpath : fullPath w' p = fullPath w p := by
      unfold fullPath
      rw [hall.basePath]
    rw [hpath]
    exact Fs.resolve_mono hcalled.touches.cwd hcalled.touches.dirs hhas.resolves
  -- the file under the name, and its bytes
  suffices hthere : ∃ ino, w'.fs.files (placeAt w p) = some ino ∧
      ((w'.fs.inodes ino).drop off).take data.length = data by
    obtain ⟨ino, hfile, hbytes⟩ := hthere
    refine ⟨localInfo_ok hres (hplace ▸ hfile), w'.fs.inodes ino, ?_, hbytes⟩
    unfold Fs.contentAt
    rw [hfile]
    rfl
  obtain ⟨hwrite, hlast⟩ := hfresh hd _ hparents f hhas.opened (by
    rcases hiff.1 hok with ⟨start, hwrites⟩ | ⟨-, hseek⟩
    · rw [hwrites.1]
      exact Option.some_ne_none start
    · exact hseek)
  by_cases hwrites : ∃ start, WritesAt f off data start
  · obtain ⟨start, hstart, hw, hsize⟩ := hwrites
    obtain ⟨hoff, hcached⟩ := hwrite hw hsize
    obtain ⟨rfl, -⟩ := (seekStart_cases hstart).resolve_right fun hend => hoff hend.2
    obtain ⟨hfiles, hinodes⟩ := heffect start ⟨hstart, hw, hsize⟩
    have hlive : w1.fs.files (placeAt w p) = some f.ino → ∃ ino, w'.fs.files (placeAt w p) = some ino ∧
        ((w'.fs.inodes ino).drop start).take data.length = data := by
      intro hfile
      refine ⟨f.ino, by rw [hfiles, hfile], ?_⟩
      rw [hinodes, Fs.setInode]
      dsimp only
      rw [if_pos rfl]
      exact take_drop_writeAt 0 _ _ _
    rcases hhas.source with ⟨hopen, hfs⟩ | ⟨-, hat⟩
    · rw [hfs] at hfiles hinodes
      by_cases hnamed : w.fs.files (placeAt w p) = some f.ino
      · exact hlive (hfs ▸ hnamed)
      · -- the write goes to another inode than that of the name
        refine Fs.file_of_bytesAt hd ?_
        rw [Fs.bytesAt_other hnamed hfiles hinodes]
        exact (hcached hopen).resolve_left hnamed
    · exact hlive (hat.of_creat rfl).2
  · -- nothing has been written, and the bytes are those from before
    have hfull : data.length = 2 ^ 64 - 1 := ((hiff.1 hok).resolve_left hwrites).1
    refine Fs.file_of_bytesAt hd ?_
    rw [(hsame hwrites).touches.bytes _ (Set.notMem_empty _)]
    exact hlast hfull

/-- A call that meets its condition keeps its promise. -/
theorem call_visible (h : DeletionsOk s) (hfresh : FreshCall s a) : DeleteVisible s a := by
  obtain ⟨env, op⟩ := a
  intro w' reply hcall hok
  cases op with
  | readSync p off n =>
    intro hgone
    exact read_visible h.descriptors (h.gone _ hgone) (hfresh hgone) hcall hok
  | writeSync p off d =>
    intro honce
    exact write_visible h.descriptors (hfresh honce) hcall hok
  | createFile p n => trivial
  | deleteFile p => trivial
  | getFileInfo p => trivial
  | fsync p => trivial

/-- A call that goes through a descriptor left from before the deletion breaks its promise. -/
theorem call_fresh {w' : LocalWorld} (h : DeletionsOk s) (hcall : localExec a.1 s.1 a.2 = some (w', reply))
    (hoff : ∀ p d, a.2 ≠ .writeSync p (2 ^ 64 - 1) d) (hvisible : DeleteVisible s a) : FreshCall s a := by
  obtain ⟨env, op⟩ := a
  cases op with
  | readSync p off n =>
    intro hgone hn f hf start hstart
    obtain ⟨-, ⟨-, hempty | hnone⟩ | ⟨-, w1, f', -, hhas, hiff⟩⟩ := localRead_cases (S := ∅) h.descriptors hcall
    · exact absurd hempty hn
    · cases hnone.symm.trans hf
    · obtain rfl := Option.some.inj (hhas.opened.symm.trans hf)
      have hfails : reply.code ≠ .ok := fun hok => hvisible w' reply hcall hok hgone
      refine ⟨fun hlast => hfails (hiff.2 ⟨start, hstart, .inl hlast⟩), fun hcached hr hsize => ?_⟩
      by_contra hin
      -- the bytes are in the inode, so that the read succeeds
      rcases hhas.source with ⟨-, hfs⟩ | ⟨hnone, -⟩
      · exact hfails (hiff.2 ⟨start, hstart, .inr ⟨hr, hsize, hfs ▸ Nat.not_lt.1 hin⟩⟩)
      · rw [hnone] at hcached
        cases hcached
  | writeSync p off d =>
    intro honce hd fs hfs f hf hseek
    obtain ⟨-, -, ⟨-, hempty | hnone⟩ | ⟨-, isDir, w1, f', hparents, hhas, hiff, -, hsame, heffect⟩⟩ :=
      localWrite_cases h.descriptors hcall
    · exact absurd hempty hd
    · cases (hnone fs hfs).symm.trans hf
    · cases hparents.symm.trans hfs
      have hopened : openedFor s.1 _ (fullPath s.1 p) ⟨.wronly, true, false⟩ = some f' := hhas.opened
      obtain rfl : f' = f := Option.some.inj (hopened.symm.trans hf)
      have hvisible : reply.code = .ok → ((w'.fs.bytesAt (placeAt s.1 p)).drop off).take d.length = d := by
        intro hok
        obtain ⟨-, c, hc, hbytes⟩ := hvisible w' reply hcall hok honce
        rw [Fs.bytesAt, hc]
        exact hbytes
      refine ⟨fun hw hsize => ⟨fun he => hoff p d (he ▸ rfl), fun hcached => ?_⟩, fun hlast => ?_⟩
      · obtain ⟨start, hstart⟩ := Option.ne_none_iff_exists'.1 hseek
        have hwrites : WritesAt f' off d start := ⟨hstart, hw, hsize⟩
        obtain ⟨hfiles, hinodes⟩ := heffect start hwrites
        have hbytes := hvisible (hiff.2 (.inl ⟨start, hwrites⟩))
        rcases hhas.source with ⟨-, hfs⟩ | ⟨hnone, -⟩
        · -- the write went to the inode of the descriptor: another one has the bytes from before
          by_cases hsame : s.1.fs.files (placeAt s.1 p) = some f'.ino
          · exact .inl hsame
          · rw [hfs] at hfiles hinodes
            rw [Fs.bytesAt_other hsame hfiles hinodes] at hbytes
            exact .inr hbytes
        · have hnone : cachedOpen s.1 (fullPath s.1 p) = none := hnone
          rw [hnone] at hcached
          cases hcached
      · have hno : ¬ ∃ start, WritesAt f' off d start := by
          rintro ⟨start, -, -, hsize⟩
          omega
        rw [← (hsame hno).touches.bytes _ (Set.notMem_empty _)]
        exact hvisible (hiff.2 (.inr ⟨hlast, hseek⟩))
  | createFile p n => trivial
  | deleteFile p => trivial
  | getFileInfo p => trivial
  | fsync p => trivial

end

/-! ## Main theorem -/

theorem deletionsOk_init {fs fs' : Fs} {config : Option CString} {priv : LocalStoragePrivate} (hfs : fs.Ok)
    (hinit : localStorageInit fs config = some (fs', .ok priv)) : DeletionsOk (⟨fs', priv⟩, ⟨[], []⟩) := by
  obtain ⟨⟨fs1, ret⟩, hc, hr⟩ := Option.map_eq_some_iff.1 hinit
  have hok := (createDirectories_ok hfs hc).1
  dsimp only at hr
  split at hr
  · cases hr
  · cases hr
    exact ⟨⟨hok, nofun⟩, nofun⟩

/-- In a run of a new backend in which every call is fresh, deletions are visible; and a
run without undefined steps and without a write at the last offset, in which they are,
has fresh calls only. -/
theorem deletions_visible {fs fs' : Fs} {config : Option CString} {priv : LocalStoragePrivate} (hfs : fs.Ok)
    (hinit : localStorageInit fs config = some (fs', .ok priv)) (calls : List (CallEnv × StorageOp)) :
    (deletionHistory.Along FreshCall (⟨fs', priv⟩, ⟨[], []⟩) calls →
      deletionHistory.Along DeleteVisible (⟨fs', priv⟩, ⟨[], []⟩) calls) ∧
    (deletionHistory.run (⟨fs', priv⟩, ⟨[], []⟩) calls ≠ none →
      (∀ a ∈ calls, ∀ p d, a.2 ≠ .writeSync p (2 ^ 64 - 1) d) →
      deletionHistory.Along DeleteVisible (⟨fs', priv⟩, ⟨[], []⟩) calls →
        deletionHistory.Along FreshCall (⟨fs', priv⟩, ⟨[], []⟩) calls) := by
  have hstart := deletionsOk_init hfs hinit
  constructor
  · intro hfresh
    exact Machine.Along.imp (fun s a s' b h _ hs => deletions_step h hs) (fun s a h hcall => call_visible h hcall) hstart
      hfresh
  · intro hrun hoff hvisible
    obtain ⟨⟨s', bs⟩, hr⟩ := Option.ne_none_iff_exists'.1 hrun
    have hall := ((Machine.along_of_run hr).and (Machine.along_of_forall hoff _)).and hvisible
    refine Machine.Along.imp (fun s a s' b h _ hs => deletions_step h hs) (fun s a h hcall => ?_) hstart hall
    obtain ⟨⟨⟨t, b, hs⟩, ha⟩, hv⟩ := hcall
    obtain ⟨⟨w', r⟩, hexec, -⟩ := Option.map_eq_some_iff.1 hs
    exact call_fresh h hexec ha hv

/-- A file that is deleted before it has a descriptor, and made again. -/
theorem remade_file_visible :
    deletionHistory.Along DeleteVisible (freshLocal, ⟨[], []⟩)
      (calmly [.createFile (cstr "a") 4, .deleteFile (cstr "a"), .readSync (cstr "a") 0 2, .writeSync (cstr "a") 1 [7]]) :=
  (deletions_visible emptyDisk_ok freshLocal_init _).1 (by decide)

/-- Deleting a file that has been read, and one that has been written. -/
def readDeleteRead : List (CallEnv × StorageOp) :=
  calmly [.createFile (cstr "a") 4, .readSync (cstr "a") 0 2, .deleteFile (cstr "a"), .readSync (cstr "a") 0 2]

def writeDeleteWrite : List (CallEnv × StorageOp) :=
  calmly [.writeSync (cstr "a") 0 [1], .deleteFile (cstr "a"), .writeSync (cstr "a") 0 [2], .getFileInfo (cstr "a")]

/-- The cached descriptors go on reading and writing the inode that has no name. -/
theorem deleted_file_lives_on :
    emptyDisk.Ok ∧ localStorageInit emptyDisk none = some (freshLocal.fs, .ok freshLocal.priv) ∧
    ((localMachine.run freshLocal readDeleteRead).map fun r => r.2) =
      some [.ofCode .ok, ⟨.ok, [0, 0], 0⟩, .ofCode .ok, ⟨.ok, [0, 0], 0⟩] ∧
    ¬ deletionHistory.Along DeleteVisible (freshLocal, ⟨[], []⟩) readDeleteRead ∧
    ((localMachine.run freshLocal writeDeleteWrite).map fun r => r.2) =
      some [.ofCode .ok, .ofCode .ok, .ofCode .ok, .ofCode .notFound] ∧
    ¬ deletionHistory.Along DeleteVisible (freshLocal, ⟨[], []⟩) writeDeleteWrite := by
  refine ⟨emptyDisk_ok, freshLocal_init, by decide, fun h => ?_, by decide, fun h => ?_⟩
  · have hread : DeleteVisible _ _ := (((h.2 _ _ rfl).2 _ _ rfl).2 _ _ rfl).1
    exact hread _ _ rfl rfl (by decide)
  · have hwrite : DeleteVisible _ _ := ((h.2 _ _ rfl).2 _ _ rfl).1
    exact absurd (hwrite _ _ rfl rfl (by decide)).1 (by decide)

end XDevice
