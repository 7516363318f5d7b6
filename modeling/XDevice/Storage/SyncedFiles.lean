import XDevice.Storage.Confinement
import XDevice.Lib.Cached
/-!
# What a sync of a file makes durable

`local_storage_fsync` syncs the inode of the descriptor that is cached for its path. When the
file has been deleted and made again that is another inode, and the sync succeeds without one
byte of the file having to be on the disk. Nor does it make durable the name of the file, or
those of the directories above it: names are entries of directories, and get to the disk when
the kernel comes to it.
-/
open Lib Lib.Posix

namespace XDevice

/-! ## Model -/

/-- A backend, and what the disk has of each inode and of each name: the file it is of, and
whether it is a directory's. -/
structure LocalDisk where
  world : LocalWorld
  disk : Nat → Bytes
  names : Place → Option Nat
  dirs : Place → Bool

/-- A call, some bytes of an inode reaching the disk, or an entry of a directory. -/
inductive LocalAction where
  | call (env : CallEnv) (op : StorageOp)
  | writeback (ino : Nat) (size : Bool) (places : Nat → Bool)
  | entry (q : Place)

/-- What `local_storage_fsync` hands to `fsync`. -/
def fsyncFile (env : CallEnv) (w : LocalWorld) (path : CString) : Option OpenFile :=
  (getFileDescriptor env w (buildFilePath w.priv.basePath path maxPathLen) ⟨.wronly, false, false⟩).bind fun r =>
    r.2.bind r.1.fs.fds

/-- What is behind the descriptor that a call has synced when it returns. -/
def flushedFile (env : CallEnv) (w : LocalWorld) : StorageOp → Option OpenFile
  | .fsync p => fsyncFile env w p
  | _ => none

/-- An entry that is on the disk when a call returns: one of the directory it has synced. -/
def FlushedEntry (env : CallEnv) (w : LocalWorld) (op : StorageOp) (q : Place) : Prop :=
  (flushedFile env w op).map OpenFile.access = some .directory ∧ q ≠ [] ∧ q.dropLast = placeAt w op.path

instance (env : CallEnv) (w : LocalWorld) (op : StorageOp) (q : Place) : Decidable (FlushedEntry env w op q) :=
  inferInstanceAs (Decidable (_ ∧ _ ∧ _))

def localDisk : Machine LocalDisk LocalAction StorageReply where
  step s
    | .call env op => (localExec env s.world op).map fun r =>
        ({ world := r.1
           disk := fun ino =>
             if (flushedFile env s.world op).map OpenFile.ino = some ino then r.1.fs.inodes ino else s.disk ino
           names := fun q => if FlushedEntry env s.world op q then r.1.fs.files q else s.names q
           dirs := fun q => if FlushedEntry env s.world op q then r.1.fs.isDir q else s.dirs q }, r.2)
    | .writeback ino size places =>
        some ({ s with disk := fun i =>
          if i = ino then writtenBack 0 (s.world.fs.inodes ino) (s.disk ino) size places else s.disk i }, .ofCode .ok)
    | .entry q =>
        some ({ s with
          names := fun q' => if q' = q then s.world.fs.files q else s.names q'
          dirs := fun q' => if q' = q then s.world.fs.isDir q else s.dirs q' }, .ofCode .ok)

/-- A directory on the way from the root to a place. -/
def Above (q d : Place) : Prop := d <+: q ∧ d ≠ q

/-- The file of that name has these bytes, and the disk has it: the directories above it, its
name and all of its bytes. -/
structure OnDiskAt (s : LocalDisk) (q : Place) (ino : Nat) (c : Bytes) : Prop where
  file : s.world.fs.files q = some ino
  bytes : s.world.fs.inodes ino = c
  above : ∀ d, Above q d → s.dirs d = true
  name : s.names q = some ino
  disk : s.disk ino = c

/-- A call on another name. -/
def Elsewhere (w : LocalWorld) (q : Place) : LocalAction → Prop
  | .call _ op => placeAt w op.path ≠ q
  | .writeback _ _ _ | .entry _ => True

/-! ## The inode of a sync -/

section
variable {w w' : LocalWorld} {env : CallEnv} {p path : CString} {reply : StorageReply}

/-- Without `O_CREAT` no name, no inode and no directory changes. -/
theorem getFileDescriptor_there {flags : OpenFlags} {r : Option Nat} (hcreat : flags.creat = false)
    (hget : getFileDescriptor env w path flags = some (w', r)) :
    w'.fs.files = w.fs.files ∧ w'.fs.inodes = w.fs.inodes ∧ w'.fs.isDir = w.fs.isDir := by
  cases hc : cachedFd w path with
  | some fd =>
    obtain ⟨cache, hget', -⟩ := getFileDescriptor_cached env hc flags
    rw [hget] at hget'
    cases hget'
    exact ⟨rfl, rfl, rfl⟩
  | none =>
    cases hopened : w.fs.openFile path flags with
    | error e =>
      rw [getFileDescriptor_failed hc hopened] at hget
      cases hget
      exact ⟨rfl, rfl, rfl⟩
    | ok opened =>
      rw [getFileDescriptor_opens env hc hopened] at hget
      have hnew : opened.1.files = w.fs.files ∧ opened.1.inodes = w.fs.inodes ∧ opened.1.isDir = w.fs.isDir := by
        obtain ⟨q, -, hopens⟩ := Fs.openFile_ok hopened
        cases hopens with
        | found => exact ⟨rfl, rfl, rfl⟩
        | made _ hmakes =>
          rw [hcreat] at hmakes
          cases hmakes
        | directory => exact ⟨rfl, rfl, rfl⟩
      split at hget
      · split at hget
        · cases hget
        · cases hget
          exact hnew
      · cases hget
        exact hnew

/-- A sync that succeeds syncs what is behind the cached descriptor or, if there is none, the
file of that name. -/
theorem localFsync_file (h : DescriptorsOk w) (hcall : localStorageFsync env w p = some (w', reply))
    (hok : reply.code = .ok) : ∃ f, fsyncFile env w p = some f ∧ w'.fs.files = w.fs.files ∧
      w'.fs.inodes = w.fs.inodes ∧ w'.fs.isDir = w.fs.isDir ∧ (cachedOpen w (fullPath w p) = some f ∨
        cachedOpen w (fullPath w p) = none ∧ w.fs.files (placeAt w p) = some f.ino) := by
  obtain ⟨⟨w1, r⟩, hget, hcall⟩ := Option.map_eq_some_iff.1 hcall
  obtain ⟨hfiles, hinodes, hdirs⟩ := getFileDescriptor_there rfl hget
  obtain ⟨-, -, hsome⟩ := getFileDescriptor_cases (S := ∅) h hget
  cases r with
  | none =>
    cases hcall
    cases hok
  | some fd =>
    obtain ⟨f, hf, hhas⟩ := hsome fd rfl
    have hsynced : w1.fs.fsync fd = .ok () := if_pos (Option.isSome_of_eq_some hf)
    dsimp only at hcall
    rw [hsynced] at hcall
    cases hcall
    refine ⟨f, ?_, hfiles, hinodes, hdirs, ?_⟩
    · rw [fsyncFile, hget, Option.bind_some, Option.bind_some, hf]
    · rcases hhas.source with ⟨hcached, -⟩ | ⟨hnone, ⟨-, hfile⟩ | ⟨-, hread, -⟩⟩
      · exact .inl hcached
      · rw [hfiles] at hfile
        exact .inr ⟨hnone, hfile⟩
      · cases hread

end

/-! ## A sync -/

/-- What a sync of the path leaves of the file `ino` of that name. -/
structure Synced (s s1 : LocalDisk) (p : CString) (ino : Nat) : Prop where
  descriptors : DescriptorsOk s1.world
  places : ∀ p', placeAt s1.world p' = placeAt s.world p'
  isDir : s1.world.fs.isDir = s.world.fs.isDir
  file : s1.world.fs.files (placeAt s.world p) = some ino
  bytes : s1.world.fs.inodes ino = s.world.fs.inodes ino
  above : ∀ d, Above (placeAt s.world p) d → s1.dirs d = s.dirs d
  name : s1.names (placeAt s.world p) = s.names (placeAt s.world p)
  disk : s1.disk ino = s.world.fs.inodes ino ↔
    (∀ f ∈ cachedOpen s.world (fullPath s.world p), f.ino = ino) ∨ s.disk ino = s.world.fs.inodes ino

/-- The entries of a directory are below it. -/
theorem not_flushed_above {env : CallEnv} {w : LocalWorld} {p : CString} {d : Place} (hd : d <+: placeAt w p) :
    ¬ FlushedEntry env w (.fsync p) d := by
  rintro ⟨-, hne, hentry⟩
  have hlen := congrArg List.length hentry
  have hle := hd.length_le
  have hpos := List.length_pos_iff.2 hne
  rw [List.length_dropLast] at hlen
  have hpath : (StorageOp.fsync p).path = p := rfl
  rw [hpath] at hlen
  omega

theorem fsync_synced {s s1 : LocalDisk} {env : CallEnv} {p : CString} {reply : StorageReply} {ino : Nat}
    (h : DescriptorsOk s.world) (hsync : localDisk.step s (.call env (.fsync p)) = some (s1, reply)) (hok : reply.code = .ok)
    (hfile : s.world.fs.files (placeAt s.world p) = some ino) : Synced s s1 p ino := by
  obtain ⟨⟨w1, r⟩, hcall, he⟩ := Option.map_eq_some_iff.1 hsync
  cases he
  have htouch : CallTouches ∅ s.world w1 := localFsync_touches h hcall
  obtain ⟨f, hsynced, hfiles, hinodes, hdirs, hwhich⟩ := localFsync_file h hcall hok
  have hflushed : flushedFile env s.world (.fsync p) = some f := hsynced
  -- it is the file's inode that is synced just when no other one is cached
  have hfresh : (∀ f ∈ cachedOpen s.world (fullPath s.world p), f.ino = ino) ↔ f.ino = ino := by
    rcases hwhich with hf | ⟨hnone, hname⟩
    · simp [hf]
    · rw [hname] at hfile
      cases hfile
      simp [hnone]
  refine ⟨htouch.ok, placeAt_eq htouch, hdirs, by rw [hfiles, hfile], congrFun hinodes ino,
    fun d hd => if_neg (not_flushed_above hd.1), if_neg (not_flushed_above List.prefix_rfl), ?_⟩
  dsimp only
  rw [hfresh, hflushed, Option.map_some]
  by_cases hsame : f.ino = ino
  · rw [if_pos (congrArg some hsame)]
    exact iff_of_true (congrFun hinodes ino) (.inl hsame)
  · rw [if_neg (fun he => hsame (Option.some.inj he))]
    exact (or_iff_right hsame).symm

/-! ## What stays -/

/-- The file of the name is on the disk, and the backend is where it was in `w`. -/
structure HeldAt (w : LocalWorld) (q : Place) (ino : Nat) (c : Bytes) (s : LocalDisk) : Prop where
  descriptors : DescriptorsOk s.world
  places : ∀ p, placeAt s.world p = placeAt w p
  isDir : ∀ d, Above q d → s.world.fs.isDir d = true
  onDisk : OnDiskAt s q ino c

section
variable {w : LocalWorld} {q : Place} {ino : Nat} {c : Bytes} {s s' : LocalDisk} {a : LocalAction} {reply : StorageReply}

theorem held_step (h : HeldAt w q ino c s) (ha : Elsewhere w q a) (hs : localDisk.step s a = some (s', reply)) :
    HeldAt w q ino c s' := by
  obtain ⟨hfile, hmem, habove, hname, hdisk⟩ := h.onDisk
  cases a with
  | call env op =>
    obtain ⟨⟨w', r⟩, hcall, he⟩ := Option.map_eq_some_iff.1 hs
    cases he
    have htouch := (localExec_touches h.descriptors hcall).1
    have hother : placeAt s.world op.path ∈ ({q}ᶜ : Set Place) := by
      rw [h.places]
      exact ha
    -- directories may be made anywhere, but no other name changes
    have hparents : ParentsIn Set.univ s.world.fs (fullPath s.world op.path) := fun _ _ _ _ => .inl trivial
    have hsame := localExec_sameOutside h.descriptors hother hparents hcall
    obtain ⟨hfile', hmem'⟩ := hsame.inode (not_not.2 rfl) hfile
    have hdirs : ∀ d, Above q d → w'.fs.isDir d = true := fun d hd => htouch.touches.dirs d (h.isDir d hd)
    refine ⟨htouch.ok, fun p => (placeAt_eq htouch p).trans (h.places p), hdirs,
      ⟨hfile', hmem'.trans hmem, fun d hd => ?_, ?_, ?_⟩⟩
    · dsimp only
      split
      · exact hdirs d hd
      · exact habove d hd
    · dsimp only
      split
      · exact hfile'
      · exact hname
    · dsimp only
      split
      · exact hmem'.trans hmem
      · exact hdisk
  | writeback i size places =>
    cases hs
    refine ⟨h.descriptors, h.places, h.isDir, ⟨hfile, hmem, habove, hname, ?_⟩⟩
    dsimp only
    split
    · rename_i he
      subst he
      rw [hmem, hdisk]
      exact writtenBack_self 0 c size places
    · exact hdisk
  | entry q' =>
    cases hs
    refine ⟨h.descriptors, h.places, h.isDir, ⟨hfile, hmem, fun d hd => ?_, ?_, hdisk⟩⟩
    · dsimp only
      split
      · rename_i he
        exact he ▸ h.isDir d hd
      · exact habove d hd
    · dsimp only
      split
      · rename_i he
        exact he ▸ hfile
      · exact hname

end

section
variable {fs fs' : Fs} {config : Option CString} {priv : LocalStoragePrivate} {disk : Nat → Bytes}
  {names : Place → Option Nat} {dirs : Place → Bool}

theorem localDisk_ok (hfs : fs.Ok) (hinit : localStorageInit fs config = some (fs', .ok priv)) {calls : List LocalAction}
    {s : LocalDisk} {replies : List StorageReply}
    (hrun : localDisk.run ⟨⟨fs', priv⟩, disk, names, dirs⟩ calls = some (s, replies)) : DescriptorsOk s.world := by
  refine Machine.Keeps.run (M := localDisk) (I := fun s => DescriptorsOk s.world) ?_
    (deletionsOk_init hfs hinit).descriptors hrun
  intro s a s' reply h hs
  cases a with
  | call env op =>
    obtain ⟨⟨w', r⟩, hcall, he⟩ := Option.map_eq_some_iff.1 hs
    cases he
    exact (localExec_touches h hcall).1.ok
  | writeback ino size places =>
    cases hs
    exact h
  | entry q =>
    cases hs
    exact h

/-- After a sync of a path that succeeded, the file of that name stays on the disk, whatever is
called on other names and whatever else gets to the disk, just when its name and the
directories above it were there already, and no descriptor onto another inode was cached for
the path, or the bytes were there already. -/
theorem synced_file_stays_iff (hfs : fs.Ok) (hinit : localStorageInit fs config = some (fs', .ok priv))
    {calls : List LocalAction} {s s1 : LocalDisk} {replies : List StorageReply}
    (hrun : localDisk.run ⟨⟨fs', priv⟩, disk, names, dirs⟩ calls = some (s, replies)) {env : CallEnv} {p : CString}
    {reply : StorageReply} (hsync : localDisk.step s (.call env (.fsync p)) = some (s1, reply)) (hok : reply.code = .ok)
    {ino : Nat} (hfile : s.world.fs.files (placeAt s.world p) = some ino) :
    (∀ s2, localDisk.Reaches (Elsewhere s.world (placeAt s.world p)) s1 s2 →
      OnDiskAt s2 (placeAt s.world p) ino (s.world.fs.inodes ino)) ↔
    s.names (placeAt s.world p) = some ino ∧
      (∀ d, Above (placeAt s.world p) d → s.world.fs.isDir d = true ∧ s.dirs d = true) ∧
        ((∀ f ∈ cachedOpen s.world (fullPath s.world p), f.ino = ino) ∨ s.disk ino = s.world.fs.inodes ino) := by
  have hsynced := fsync_synced (localDisk_ok hfs hinit hrun) hsync hok hfile
  rw [← hsynced.disk, ← hsynced.name, ← hsynced.isDir]
  constructor
  · intro hall
    have hnow := hall s1 (.refl s1)
    refine ⟨hnow.name, fun d hd => ⟨?_, (hsynced.above d hd) ▸ hnow.above d hd⟩, hnow.disk⟩
    -- what stays when the directory's own entry gets to the disk once more
    have hagain : localDisk.Reaches (Elsewhere s.world (placeAt s.world p)) s1 _ :=
      ⟨[.entry d], [.ofCode .ok], by simp [Elsewhere], rfl⟩
    have hlater : _ = true := (hall _ hagain).above d hd
    exact (if_pos rfl).symm.trans hlater
  · rintro ⟨hname, hdirs, hdisk⟩ s2 hreach
    have hon : OnDiskAt s1 (placeAt s.world p) ino (s.world.fs.inodes ino) :=
      ⟨hsynced.file, hsynced.bytes, fun d hd => (hsynced.above d hd).trans (hdirs d hd).2, hname, hdisk⟩
    have hstart : HeldAt s.world (placeAt s.world p) ino (s.world.fs.inodes ino) s1 :=
      ⟨hsynced.descriptors, hsynced.places, fun d hd => (hdirs d hd).1, hon⟩
    exact (hreach.inv (fun _ _ _ _ h ha hs => held_step h ha hs) hstart).onDisk

end

/-- A new backend, with nothing on its disk but the root. -/
def runOnDisk (actions : List LocalAction) : Option (LocalDisk × List StorageReply) :=
  localDisk.run ⟨freshLocal, fun _ => [], emptyDisk.files, emptyDisk.isDir⟩ actions

/-- A file is written, and the kernel writes back its name and the directories above it. -/
def writeA : List LocalAction :=
  [.call .calm (.writeSync (cstr "a") 0 [1, 2, 3]), .entry [cstr "tmp"], .entry [cstr "tmp", cstr "xdevice"],
    .entry [cstr "tmp", cstr "xdevice", cstr "a"]]

theorem writeA_runs : (runOnDisk writeA).isSome := by decide

def writtenA : LocalDisk × List StorageReply := (runOnDisk writeA).get writeA_runs

theorem syncA_steps : (localDisk.step writtenA.1 (.call .calm (.fsync (cstr "a")))).isSome := by decide

def syncedA : LocalDisk × StorageReply := (localDisk.step writtenA.1 (.call .calm (.fsync (cstr "a")))).get syncA_steps

/-- Another file is written, gets to the disk in part, and is deleted. -/
def laterCalls : List LocalAction :=
  [.call .calm (.writeSync (cstr "b") 0 [4, 5]), .writeback 1 true (· = 0), .entry [cstr "tmp"],
    .call .calm (.deleteFile (cstr "b"))]

theorem laterCalls_run : (localDisk.run syncedA.1 laterCalls).isSome := by decide

theorem above_a {d : Place} (hd : Above [cstr "tmp", cstr "xdevice", cstr "a"] d) :
    d = [] ∨ d = [cstr "tmp"] ∨ d = [cstr "tmp", cstr "xdevice"] := by
  obtain ⟨hbelow, hne⟩ := hd
  simp only [List.prefix_cons_iff, List.prefix_nil] at hbelow
  rcases hbelow with rfl | ⟨_, rfl, rfl | ⟨_, rfl, rfl | ⟨_, rfl, rfl⟩⟩⟩
  · exact .inl rfl
  · exact .inr (.inl rfl)
  · exact .inr (.inr rfl)
  · exact absurd rfl hne

theorem writtenA_stays :
    OnDiskAt ((localDisk.run syncedA.1 laterCalls).get laterCalls_run).1 [cstr "tmp", cstr "xdevice", cstr "a"] 0 [1, 2, 3] := by
  have hrun : runOnDisk writeA = some (writtenA.1, writtenA.2) := (Option.some_get writeA_runs).symm
  have hsync : localDisk.step writtenA.1 (.call .calm (.fsync (cstr "a"))) = some (syncedA.1, syncedA.2) :=
    (Option.some_get syncA_steps).symm
  have hplace : placeAt writtenA.1.world (cstr "a") = [cstr "tmp", cstr "xdevice", cstr "a"] := by decide
  have hfile : writtenA.1.world.fs.files (placeAt writtenA.1.world (cstr "a")) = some 0 := by decide
  have hbytes : writtenA.1.world.fs.inodes 0 = [1, 2, 3] := by decide
  have hb : placeAt writtenA.1.world (cstr "b") ≠ placeAt writtenA.1.world (cstr "a") := by decide
  have hother : ∀ a ∈ laterCalls, Elsewhere writtenA.1.world (placeAt writtenA.1.world (cstr "a")) a := by
    intro a ha
    simp only [laterCalls, List.mem_cons, List.not_mem_nil, or_false] at ha
    rcases ha with rfl | rfl | rfl | rfl
    · exact hb
    · trivial
    · trivial
    · exact hb
  have hname : writtenA.1.names (placeAt writtenA.1.world (cstr "a")) = some 0 := by decide
  have habove : ∀ d, Above (placeAt writtenA.1.world (cstr "a")) d →
      writtenA.1.world.fs.isDir d = true ∧ writtenA.1.dirs d = true := by
    intro d hd
    rw [hplace] at hd
    rcases above_a hd with rfl | rfl | rfl
    · decide
    · decide
    · decide
  have hfresh : ∀ f ∈ cachedOpen writtenA.1.world (fullPath writtenA.1.world (cstr "a")), f.ino = 0 := by decide
  rw [← hbytes, ← hplace]
  exact (synced_file_stays_iff emptyDisk_ok freshLocal_init hrun hsync (by decide) hfile).2 ⟨hname, habove, .inl hfresh⟩ _
    ⟨laterCalls, _, hother, (Option.some_get laterCalls_run).symm⟩

-- the sync of a file that was made again goes to the inode of the deleted one
example : (runOnDisk ([.writeSync (cstr "a") 0 [1], .deleteFile (cstr "a"), .createFile (cstr "a") 2,
    .fsync (cstr "a")].map (.call .calm))).map
    (fun r => (r.2.getLast?, r.1.world.fs.contentAt (placeAt r.1.world (cstr "a")), r.1.disk 0, r.1.disk 1)) =
    some (some (.ofCode .ok), some [0, 0], [1], []) := by decide

-- and the bytes of a new file are on the disk without its name
example : (runOnDisk ([.writeSync (cstr "a") 0 [1], .fsync (cstr "a")].map (.call .calm))).map
    (fun r => (r.2.getLast?, r.1.disk 0, r.1.names (placeAt r.1.world (cstr "a")))) = some (some (.ofCode .ok), [1], none) := by
  decide

end XDevice
