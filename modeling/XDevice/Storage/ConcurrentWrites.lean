import XDevice.Storage.DeletedFiles
import Mathlib.Data.List.Perm.Basic
/-!
# Calls that run at the same time

Only the lookup of a descriptor is under a lock. A call then moves the offset of its
descriptor and reads or writes there in two steps, and all the calls on one path have the
same descriptor: another call may move it in between.
-/
open Lib Lib.Posix

namespace XDevice

/-! ## Steps of a call -/

/-- Where a call is: it has a descriptor, it has set the offset, it has returned. -/
inductive IoPhase where
  | called
  | located (fd : Nat)
  | sought (fd : Nat)
  | returned (reply : StorageReply)

/-- A call that is running. -/
structure IoThread where
  env : CallEnv
  op : StorageOp
  phase : IoPhase

def IoThread.call (t : IoThread) : CallEnv × StorageOp := (t.env, t.op)

def IoThread.start (a : CallEnv × StorageOp) : IoThread := ⟨a.1, a.2, .called⟩

/-- With the descriptor that was found, or -1. -/
def ioLocated : LocalWorld × Option Nat → LocalWorld × IoPhase
  | (w, none) => (w, .returned (.ofCode .io))
  | (w, some fd) => (w, .located fd)

/-- Up to `get_file_descriptor`; `none` for other calls. -/
def ioLocate (env : CallEnv) (w : LocalWorld) : StorageOp → Option (LocalWorld × IoPhase)
  | .writeSync p _ d =>
    if d.length = 0 then some (w, .returned (.ofCode .invalidParam))
    else
      let fullPath := buildFilePath w.priv.basePath p maxPathLen
      (createParents w.fs fullPath).bind fun fs =>
        (getFileDescriptor env (w.withFs fs) fullPath ⟨.wronly, true, false⟩).map ioLocated
  | .readSync p _ n =>
    if n = 0 then some (w, .returned (.ofCode .invalidParam))
    else
      (getFileDescriptor env w (buildFilePath w.priv.basePath p maxPathLen) ⟨.rdonly, false, false⟩).map ioLocated
  | _ => none

/-- `lseek`. -/
def ioSeek (w : LocalWorld) (fd : Nat) : StorageOp → Option (LocalWorld × IoPhase)
  | .writeSync _ off _ | .readSync _ off _ =>
    match seekTo w.fs fd off with
    | none => some (w, .returned (.ofCode .io))
    | some fs => some (w.withFs fs, .sought fd)
  | _ => none

/-- `read` or `write`, and the return. -/
def ioTransfer (env : CallEnv) (w : LocalWorld) (fd : Nat) : StorageOp → Option (LocalWorld × IoPhase)
  | .writeSync _ _ d =>
    match w.fs.write fd d with
    | .error _ =>
      if d.length = 2 ^ 64 - 1 then
        some (w.withStats (w.priv.stats.countWrite d.length env.latencyNs), .returned (.ofCode .ok))
      else some (w, .returned (.ofCode .io))
    | .ok fs =>
      some ((w.withFs fs).withStats (w.priv.stats.countWrite d.length env.latencyNs), .returned (.ofCode .ok))
  | .readSync _ _ n =>
    match w.fs.read fd n with
    | .error _ =>
      if n = 2 ^ 64 - 1 then
        some (w.withStats (w.priv.stats.countRead n env.latencyNs), .returned (.ofCode .ok))
      else some (w, .returned (.ofCode .io))
    | .ok (fs, bytes) =>
      if bytes.length ≠ n then some (w.withFs fs, .returned (.ofCode .notFound))
      else some ((w.withFs fs).withStats (w.priv.stats.countRead n env.latencyNs), .returned ⟨.ok, bytes, 0⟩)
  | _ => none

def ioStep (w : LocalWorld) (t : IoThread) : Option (LocalWorld × IoPhase) :=
  match t.phase with
  | .called => ioLocate t.env w t.op
  | .located fd => ioSeek w fd t.op
  | .sought fd => ioTransfer t.env w fd t.op
  | .returned _ => none

structure IoWorld where
  world : LocalWorld
  threads : List IoThread

/-- The calls take steps in any order; an action says whose turn it is. -/
def ioMachine : Machine IoWorld Nat Unit where
  step s i :=
    (s.threads[i]?).bind fun t => (ioStep s.world t).map fun r =>
      (⟨r.1, s.threads.set i { t with phase := r.2 }⟩, ())

/-- A read or a write. -/
def Transfers (op : StorageOp) : Prop := (∃ p off d, op = .writeSync p off d) ∨ ∃ p off n, op = .readSync p off n

/-! ## One call alone -/

/-- One call until it returns, in so many steps at most. -/
def ioAlone (env : CallEnv) (op : StorageOp) : Nat → LocalWorld × IoPhase → Option (LocalWorld × StorageReply)
  | _, (w, .returned reply) => some (w, reply)
  | 0, _ => none
  | n + 1, (w, phase) => (ioStep w ⟨env, op, phase⟩).bind (ioAlone env op n)

section
variable {env : CallEnv} {w w' : LocalWorld} {op : StorageOp} {reply : StorageReply}

/-- It is the run in which it is always its turn. -/
theorem ioAlone_runs {n : Nat} {phase : IoPhase} (h : ioAlone env op n (w, phase) = some (w', reply)) :
    ∃ k outs, ioMachine.run ⟨w, [⟨env, op, phase⟩]⟩ (List.replicate k 0) =
      some (⟨w', [⟨env, op, .returned reply⟩]⟩, outs) := by
  induction n generalizing w phase with
  | zero =>
    cases phase with
    | returned reply =>
      cases h
      exact ⟨0, [], rfl⟩
    | called => cases h
    | located fd => cases h
    | sought fd => cases h
  | succ n ih =>
    have hnext : (ioStep w ⟨env, op, phase⟩).bind (ioAlone env op n) = some (w', reply) →
        ∃ k outs, ioMachine.run ⟨w, [⟨env, op, phase⟩]⟩ (List.replicate k 0) =
          some (⟨w', [⟨env, op, .returned reply⟩]⟩, outs) := by
      intro h
      obtain ⟨⟨w1, phase1⟩, hs, hrest⟩ := Option.bind_eq_some_iff.1 h
      obtain ⟨k, outs, hrun⟩ := ih hrest
      refine ⟨k + 1, () :: outs, Machine.run_cons_eq_some.2 ⟨_, (), outs, ?_, hrun, rfl⟩⟩
      simp only [ioMachine, List.getElem?_cons_zero, Option.bind_some, hs, Option.map_some, List.set_cons_zero]
    cases phase with
    | returned reply =>
      cases h
      exact ⟨0, [], rfl⟩
    | called => exact hnext h
    | located fd => exact hnext h
    | sought fd => exact hnext h

theorem write_alone (p : CString) (off : Nat) (d : Bytes) :
    localStorageWriteSync env w p off d = ioAlone env (.writeSync p off d) 3 (w, .called) := by
  unfold localStorageWriteSync
  simp only [ioAlone, ioStep, ioLocate]
  by_cases hd : d.length = 0
  · rw [if_pos hd, if_pos hd]
    rfl
  · rw [if_neg hd, if_neg hd]
    cases createParents w.fs (buildFilePath w.priv.basePath p maxPathLen) with
    | none => rfl
    | some fs1 =>
      simp only [Option.bind_some]
      cases getFileDescriptor env (w.withFs fs1) (buildFilePath w.priv.basePath p maxPathLen) ⟨.wronly, true, false⟩ with
      | none => rfl
      | some r =>
        obtain ⟨w1, _ | fd⟩ := r
        · rfl
        · simp only [Option.map_some, Option.bind_some, ioLocated, ioAlone, ioStep, ioSeek]
          cases seekTo w1.fs fd off with
          | none => rfl
          | some fs =>
            simp only [Option.bind_some, ioAlone, ioStep, ioTransfer, LocalWorld.withFs]
            cases fs.write fd d with
            | error e =>
              dsimp only
              split <;> rfl
            | ok fs' => rfl

theorem read_alone (p : CString) (off n : Nat) :
    localStorageReadSync env w p off n = ioAlone env (.readSync p off n) 3 (w, .called) := by
  unfold localStorageReadSync
  simp only [ioAlone, ioStep, ioLocate]
  by_cases hn : n = 0
  · rw [if_pos hn, if_pos hn]
    rfl
  · rw [if_neg hn, if_neg hn]
    cases getFileDescriptor env w (buildFilePath w.priv.basePath p maxPathLen) ⟨.rdonly, false, false⟩ with
    | none => rfl
    | some r =>
      obtain ⟨w1, _ | fd⟩ := r
      · rfl
      · simp only [Option.map_some, Option.bind_some, ioLocated, ioAlone, ioStep, ioSeek]
        cases seekTo w1.fs fd off with
        | none => rfl
        | some fs =>
          simp only [Option.bind_some, ioAlone, ioStep, ioTransfer, LocalWorld.withFs]
          cases fs.read fd n with
          | error e =>
            dsimp only
            split <;> rfl
          | ok r =>
            obtain ⟨fs', bytes⟩ := r
            dsimp only
            split <;> rfl

/-- A call whose steps come one after the other does what it does in one. -/
theorem transfers_alone (hop : Transfers op) (h : localExec env w op = some (w', reply)) :
    ∃ k outs, ioMachine.run ⟨w, [⟨env, op, .called⟩]⟩ (List.replicate k 0) =
      some (⟨w', [⟨env, op, .returned reply⟩]⟩, outs) := by
  apply ioAlone_runs (n := 3)
  rcases hop with ⟨p, off, d, rfl⟩ | ⟨p, off, n, rfl⟩
  · rw [← write_alone]
    exact h
  · rw [← read_alone]
    exact h

end

/-! ## Writes on one file -/

/-- What a write writes, and where. -/
def StorageOp.written : StorageOp → Option (Nat × Bytes)
  | .writeSync _ off d => some (off, d)
  | _ => none

/-- What a call has returned. -/
def IoPhase.code : IoPhase → Option XdeviceError
  | .returned reply => some reply.code
  | _ => none

/-- What a call has written so far. -/
def IoThread.landed (t : IoThread) : Option (Nat × Bytes) := if t.phase.code = some .ok then t.op.written else none

/-- The descriptor of a call that is about to read or write. -/
def IoPhase.transfers : IoPhase → Option Nat
  | .sought fd => some fd
  | _ => none

/-- A call that is about to write finds the offset where it has set it, and is not of the last
size; to the last offset it cannot set it, and so much it cannot write. -/
def AtOwnOffset (s : IoWorld) (i : Nat) : Prop :=
  ∀ t ∈ s.threads[i]?, ∀ write ∈ t.op.written, ∀ fd ∈ t.phase.transfers, ∀ f ∈ s.world.fs.fds fd,
    write.1 < 2 ^ 63 ∧ f.offset = write.1 ∧ write.2.length ≠ 2 ^ 64 - 1

instance (s : IoWorld) (i : Nat) : Decidable (AtOwnOffset s i) :=
  inferInstanceAs (Decidable (∀ t ∈ s.threads[i]?, ∀ write ∈ t.op.written, ∀ fd ∈ t.phase.transfers,
    ∀ f ∈ s.world.fs.fds fd, write.1 < 2 ^ 63 ∧ f.offset = write.1 ∧ write.2.length ≠ 2 ^ 64 - 1))

/-- A write that can be carried out, at an offset and of a size below 2⁶³. -/
def InRange (write : Nat × Bytes) : Prop := write.1 < 2 ^ 63 ∧ write.2.length < 2 ^ 63

/-- The path has a cached descriptor, onto the inode `ino` for writing. -/
def CachedForWriting (w : LocalWorld) (ino : Nat) (path : CString) : Prop :=
  ∃ fd offset, cachedFd w path = some fd ∧ w.fs.fds fd = some ⟨ino, .wronly, offset⟩

/-- From `w` to `w'` the cached descriptors lead to the same files, though not to the same
offsets. -/
structure SameDescriptors (w w' : LocalWorld) : Prop where
  basePath : w'.priv.basePath = w.priv.basePath
  files : w'.fs.files = w.fs.files
  cached : ∀ path, cachedFd w' path = cachedFd w path
  fds : ∀ fd f, w.fs.fds fd = some f → ∃ offset, w'.fs.fds fd = some { f with offset := offset }

/-- A call that comes as far as its descriptor. -/
def ReachesFile (w : LocalWorld) (op : StorageOp) : Prop :=
  ∀ write ∈ op.written, write.2.length ≠ 0 ∧ (createParents w.fs (fullPath w op.path)).isSome

section
variable {w w' w'' : LocalWorld} {env : CallEnv} {op : StorageOp} {phase : IoPhase} {fd ino : Nat}

theorem SameDescriptors.refl (w : LocalWorld) : SameDescriptors w w := ⟨rfl, rfl, fun _ => rfl, fun _ f hf => ⟨f.offset, hf⟩⟩

theorem SameDescriptors.trans (h : SameDescriptors w w') (h' : SameDescriptors w' w'') : SameDescriptors w w'' where
  basePath := h'.basePath.trans h.basePath
  files := h'.files.trans h.files
  cached path := (h'.cached path).trans (h.cached path)
  fds fd f hf := by
    obtain ⟨offset, hf⟩ := h.fds fd f hf
    obtain ⟨offset', hf⟩ := h'.fds fd _ hf
    exact ⟨offset', hf⟩

theorem SameDescriptors.fullPath (h : SameDescriptors w w') (p : CString) : fullPath w' p = fullPath w p := by
  unfold XDevice.fullPath
  rw [h.basePath]

theorem CachedForWriting.same (h : SameDescriptors w w') {path : CString} (hc : CachedForWriting w ino path) :
    CachedForWriting w' ino path := by
  obtain ⟨fd, offset, hc, hf⟩ := hc
  obtain ⟨offset', hf⟩ := h.fds fd _ hf
  exact ⟨fd, offset', (h.cached path).trans hc, hf⟩

/-- Whether the parents can be made depends on the path alone. -/
theorem createParents_isSome (fs fs' : Fs) (path : CString) :
    (createParents fs path).isSome = (createParents fs' path).isSome := by
  unfold createParents createDirectories
  split
  · rfl
  · split
    · rfl
    · dsimp only
      split <;> rfl

theorem SameDescriptors.reachesFile (h : SameDescriptors w w') : ReachesFile w' op ↔ ReachesFile w op := by
  unfold ReachesFile
  rw [h.fullPath, createParents_isSome w'.fs w.fs]

theorem sameDescriptors_parents {fs : Fs} {path : CString} (hp : createParents w.fs path = some fs) :
    SameDescriptors w (w.withFs fs) ∧ fs.inodes = w.fs.inodes := by
  obtain ⟨isDir, rfl⟩ := createParents_dirs hp
  exact ⟨⟨rfl, rfl, fun _ => rfl, fun _ f hf => ⟨f.offset, hf⟩⟩, rfl⟩

theorem sameDescriptors_setOffset {f : OpenFile} (hf : w.fs.fds fd = some f) (offset : Nat) :
    SameDescriptors w (w.withFs (w.fs.setOffset fd f offset)) := by
  refine ⟨rfl, rfl, fun _ => rfl, fun fd' f' hf' => ?_⟩
  unfold LocalWorld.withFs Fs.setOffset
  dsimp only
  split
  · rename_i he
    rw [he, hf] at hf'
    cases hf'
    exact ⟨offset, rfl⟩
  · exact ⟨f'.offset, hf'⟩

/-- What a call does to get a descriptor that is cached. -/
theorem sameDescriptors_cached (env : CallEnv) {path : CString} (hc : cachedFd w path = some fd) (flags : OpenFlags) :
    ∃ w1, getFileDescriptor env w path flags = some (w1, some fd) ∧ SameDescriptors w w1 ∧ w1.fs = w.fs := by
  obtain ⟨cache, hget, hsame⟩ := getFileDescriptor_cached env hc flags
  exact ⟨_, hget, ⟨rfl, rfl, hsame, fun _ f hf => ⟨f.offset, hf⟩⟩, rfl⟩

/-! ### Steps -/

theorem ioLocate_cases (hc : cachedFd w (fullPath w op.path) = some fd) (hs : ioLocate env w op = some (w', phase)) :
    SameDescriptors w w' ∧ w'.fs.inodes = w.fs.inodes ∧
      (phase = .returned (.ofCode .invalidParam) ∨ phase = .located fd ∧ ReachesFile w op) := by
  cases op with
  | writeSync p off d =>
    unfold ioLocate at hs
    dsimp only at hs
    split at hs
    · cases hs
      exact ⟨.refl w, rfl, .inl rfl⟩
    · rename_i hd
      obtain ⟨fs, hparents, hs⟩ := Option.bind_eq_some_iff.1 hs
      obtain ⟨hmade, hinodes⟩ := sameDescriptors_parents hparents
      obtain ⟨w1, hget, hgot, hfs⟩ := sameDescriptors_cached env ((hmade.cached _).trans hc) ⟨.wronly, true, false⟩
      have hget : getFileDescriptor env (w.withFs fs) (buildFilePath w.priv.basePath p maxPathLen) _ = _ := hget
      rw [hget] at hs
      cases hs
      refine ⟨hmade.trans hgot, (congrArg Fs.inodes hfs).trans hinodes, .inr ⟨rfl, fun write hwrite => ?_⟩⟩
      cases hwrite
      exact ⟨hd, Option.isSome_of_eq_some hparents⟩
  | readSync p off n =>
    unfold ioLocate at hs
    dsimp only at hs
    split at hs
    · cases hs
      exact ⟨.refl w, rfl, .inl rfl⟩
    · obtain ⟨w1, hget, hgot, hfs⟩ := sameDescriptors_cached env hc ⟨.rdonly, false, false⟩
      unfold fullPath StorageOp.path at hget
      rw [hget] at hs
      cases hs
      refine ⟨hgot, congrArg Fs.inodes hfs, .inr ⟨rfl, fun write hwrite => ?_⟩⟩
      cases hwrite
  | createFile p n => cases hs
  | deleteFile p => cases hs
  | getFileInfo p => cases hs
  | fsync p => cases hs

theorem seekTo_same {fs : Fs} {f : OpenFile} {off : Nat} (hf : w.fs.fds fd = some f)
    (hseek : seekTo w.fs fd off = some fs) : SameDescriptors w (w.withFs fs) ∧ fs.inodes = w.fs.inodes := by
  rw [seekTo_eq hf] at hseek
  obtain ⟨start, -, rfl⟩ := Option.map_eq_some_iff.1 hseek
  exact ⟨sameDescriptors_setOffset hf start, rfl⟩

theorem ioSeek_cases {f : OpenFile} (hf : w.fs.fds fd = some f) (hs : ioSeek w fd op = some (w', phase)) :
    SameDescriptors w w' ∧ w'.fs.inodes = w.fs.inodes ∧ (phase = .returned (.ofCode .io) ∨ phase = .sought fd) := by
  have hany : ∀ off, (match seekTo w.fs fd off with
      | none => some (w, IoPhase.returned (.ofCode .io))
      | some fs => some (w.withFs fs, .sought fd)) = some (w', phase) →
      SameDescriptors w w' ∧ w'.fs.inodes = w.fs.inodes ∧ (phase = .returned (.ofCode .io) ∨ phase = .sought fd) := by
    intro off hs
    split at hs
    · cases hs
      exact ⟨.refl w, rfl, .inl rfl⟩
    · rename_i fs hseek
      cases hs
      obtain ⟨hsame, hinodes⟩ := seekTo_same hf hseek
      exact ⟨hsame, hinodes, .inr rfl⟩
  -- a write and a read set the offset in the same way
  cases op with
  | writeSync p off d => exact hany off hs
  | readSync p off n => exact hany off hs
  | createFile p n => cases hs
  | deleteFile p => cases hs
  | getFileInfo p => cases hs
  | fsync p => cases hs

/-- Through a descriptor for writing a write succeeds, where the offset is, or fails, which is
noticed but for the last size; a read fails. -/
theorem ioTransfer_cases {start : Nat} (hf : w.fs.fds fd = some ⟨ino, .wronly, start⟩)
    (hs : ioTransfer env w fd op = some (w', phase)) :
    SameDescriptors w w' ∧ ∃ reply, phase = .returned reply ∧
      (w'.fs.inodes ino = w.fs.inodes ino ∧ (∀ write ∈ op.written, reply.code = .ok → write.2.length = 2 ^ 64 - 1) ∨
        ∃ off d, op.written = some (off, d) ∧ d.length < 2 ^ 63 ∧ reply = .ofCode .ok ∧
          w'.fs.inodes ino = writeAt 0 (w.fs.inodes ino) start d) := by
  cases op with
  | writeSync p off d =>
    by_cases hsize : d.length < 2 ^ 63
    · unfold ioTransfer at hs
      dsimp only at hs
      rw [Fs.write_open hf rfl hsize] at hs
      cases hs
      refine ⟨?_, _, rfl, .inr ⟨off, d, rfl, hsize, rfl, if_pos rfl⟩⟩
      have hput : SameDescriptors w (w.withFs (w.fs.setInode ino (writeAt 0 (w.fs.inodes ino) start d))) :=
        ⟨rfl, rfl, fun _ => rfl, fun _ f hf => ⟨f.offset, hf⟩⟩
      have hf' : (w.withFs (w.fs.setInode ino (writeAt 0 (w.fs.inodes ino) start d))).fs.fds fd = some _ := hf
      have hmoved := hput.trans (sameDescriptors_setOffset hf' (start + d.length))
      exact ⟨rfl, rfl, fun _ => rfl, hmoved.fds⟩
    · obtain ⟨e, hwrite⟩ := Fs.write_fails (d := d) hf fun h => hsize h.2
      unfold ioTransfer at hs
      dsimp only at hs
      rw [hwrite] at hs
      dsimp only at hs
      split at hs
      · rename_i hlast
        cases hs
        refine ⟨⟨rfl, rfl, fun _ => rfl, fun _ f hf => ⟨f.offset, hf⟩⟩, _, rfl, .inl ⟨rfl, fun write hw _ => ?_⟩⟩
        cases hw
        exact hlast
      · cases hs
        exact ⟨.refl w, _, rfl, .inl ⟨rfl, fun write hw hok => by cases hok⟩⟩
  | readSync p off n =>
    obtain ⟨e, hread⟩ := Fs.read_fails (n := n) hf fun h => by cases h.1
    unfold ioTransfer at hs
    dsimp only at hs
    rw [hread] at hs
    dsimp only at hs
    split at hs
    · cases hs
      exact ⟨⟨rfl, rfl, fun _ => rfl, fun _ f hf => ⟨f.offset, hf⟩⟩, _, rfl, .inl ⟨rfl, nofun⟩⟩
    · cases hs
      exact ⟨.refl w, _, rfl, .inl ⟨rfl, nofun⟩⟩
  | createFile p n => cases hs
  | deleteFile p => cases hs
  | getFileInfo p => cases hs
  | fsync p => cases hs

/-- A whole write that is alone does the same, at its own offset. -/
theorem localWrite_cached {p : CString} {off : Nat} {d : Bytes} (hc : CachedForWriting w ino (fullPath w p))
    (hreach : ReachesFile w (.writeSync p off d)) (hrange : InRange (off, d)) :
    ∃ w' reply, localStorageWriteSync env w p off d = some (w', reply) ∧ SameDescriptors w w' ∧
      w'.fs.inodes ino = writeAt 0 (w.fs.inodes ino) off d := by
  obtain ⟨fd, offset, hc, hf⟩ := hc
  obtain ⟨hd, hparents⟩ := hreach _ rfl
  obtain ⟨fs, hparents⟩ := Option.isSome_iff_exists.1 hparents
  obtain ⟨hmade, hinodes⟩ := sameDescriptors_parents hparents
  obtain ⟨w1, hget, hgot, hfs⟩ := sameDescriptors_cached env ((hmade.cached _).trans hc) ⟨.wronly, true, false⟩
  have hgot := hmade.trans hgot
  obtain ⟨start, hf1⟩ : ∃ start, w1.fs.fds fd = some ⟨ino, .wronly, start⟩ := hgot.fds fd _ hf
  -- its three steps
  have hfirst : ioLocate env w (.writeSync p off d) = some (w1, .located fd) := by
    have hparents : createParents w.fs (buildFilePath w.priv.basePath p maxPathLen) = some fs := hparents
    have hget : getFileDescriptor env (w.withFs fs) (buildFilePath w.priv.basePath p maxPathLen) _ = _ := hget
    dsimp only [ioLocate]
    rw [if_neg hd, hparents, Option.bind_some, hget]
    rfl
  have hsecond : ioSeek w1 fd (.writeSync p off d) =
      some (w1.withFs (w1.fs.setOffset fd ⟨ino, .wronly, start⟩ off), .sought fd) := by
    dsimp only [ioSeek]
    rw [seekTo_eq hf1, seekStart, if_pos hrange.1]
    rfl
  have hfd := setOffset_self w1.fs fd ⟨ino, .wronly, start⟩ off
  obtain ⟨w', hthird⟩ : ∃ w', ioTransfer env (w1.withFs (w1.fs.setOffset fd ⟨ino, .wronly, start⟩ off)) fd
      (.writeSync p off d) = some (w', .returned (.ofCode .ok)) := by
    unfold ioTransfer LocalWorld.withFs
    dsimp only
    rw [Fs.write_open hfd rfl hrange.2]
    exact ⟨_, rfl⟩
  have hcall : localStorageWriteSync env w p off d = some (w', .ofCode .ok) := by
    rw [write_alone]
    simp only [ioAlone, ioStep, hfirst, hsecond, hthird, Option.bind_some]
  obtain ⟨hdone, reply, hreply, ⟨-, hfull⟩ | ⟨_, _, he, -, -, hput⟩⟩ := ioTransfer_cases hfd hthird
  · cases hreply
    have hlast : d.length = 2 ^ 64 - 1 := hfull _ rfl rfl
    have hsize := hrange.2
    dsimp only at hsize
    omega
  · cases he
    refine ⟨_, _, hcall, (hgot.trans (sameDescriptors_setOffset hf1 off)).trans hdone, ?_⟩
    rw [hput, ← hinodes]
    exact congrArg (fun fs => writeAt 0 (fs.inodes ino) off d) hfs

/-- A read fails, and leaves the file alone. -/
theorem localRead_cached {p : CString} {off n : Nat} (hc : CachedForWriting w ino (fullPath w p)) :
    ∃ w' reply, localStorageReadSync env w p off n = some (w', reply) ∧ SameDescriptors w w' ∧
      w'.fs.inodes ino = w.fs.inodes ino := by
  obtain ⟨fd, offset, hc, hf⟩ := hc
  obtain ⟨w1, hget, hgot, hfs⟩ := sameDescriptors_cached env hc ⟨.rdonly, false, false⟩
  have hf1 : w1.fs.fds fd = some ⟨ino, .wronly, offset⟩ := hfs ▸ hf
  by_cases hn : n = 0
  · exact ⟨w, _, if_pos hn, .refl w, rfl⟩
  · have hfirst : ioLocate env w (.readSync p off n) = some (w1, .located fd) := by
      have hget : getFileDescriptor env w (buildFilePath w.priv.basePath p maxPathLen) _ = _ := hget
      dsimp only [ioLocate]
      rw [if_neg hn, hget]
      rfl
    cases hseek : seekTo w1.fs fd off with
    | none =>
      refine ⟨w1, .ofCode .io, ?_, hgot, by rw [hfs]⟩
      rw [read_alone]
      simp only [ioAlone, ioStep, hfirst, ioSeek, hseek, Option.bind_some]
    | some fs =>
      obtain ⟨hsought, hinodes⟩ := seekTo_same hf1 hseek
      obtain ⟨start, hfd⟩ : ∃ start, fs.fds fd = some ⟨ino, .wronly, start⟩ := hsought.fds fd _ hf1
      obtain ⟨w2, reply, hlast, hsame, hinodes2⟩ : ∃ w2 reply, ioTransfer env (w1.withFs fs) fd (.readSync p off n) =
          some (w2, .returned reply) ∧ SameDescriptors (w1.withFs fs) w2 ∧ w2.fs.inodes ino = fs.inodes ino := by
        obtain ⟨e, hread⟩ := Fs.read_fails (n := n) hfd fun h => by cases h.1
        unfold ioTransfer LocalWorld.withFs
        simp only [hread]
        split
        · exact ⟨_, _, rfl, ⟨rfl, rfl, fun _ => rfl, fun _ f hf => ⟨f.offset, hf⟩⟩, rfl⟩
        · exact ⟨_, _, rfl, .refl _, rfl⟩
      refine ⟨w2, reply, ?_, (hgot.trans hsought).trans hsame, ?_⟩
      · rw [read_alone]
        simp only [ioAlone, ioStep, hfirst, ioSeek, hseek, hlast, Option.bind_some]
      · rw [hinodes2, ← hfs]
        exact congrFun hinodes ino

theorem localExec_cached (env : CallEnv) (hop : Transfers op) (hc : CachedForWriting w ino (fullPath w op.path))
    (hreach : ReachesFile w op) (hrange : ∀ write ∈ op.written, InRange write) :
    ∃ w' reply, localExec env w op = some (w', reply) ∧ SameDescriptors w w' ∧
      w'.fs.inodes ino = writeAll 0 (w.fs.inodes ino) op.written.toList := by
  rcases hop with ⟨p, off, d, rfl⟩ | ⟨p, off, n, rfl⟩
  · exact localWrite_cached hc hreach (hrange _ rfl)
  · exact localRead_cached hc

/-- One call after the other. -/
theorem localRun_cached {calls : List (CallEnv × StorageOp)}
    (hcalls : ∀ a ∈ calls, Transfers a.2 ∧ CachedForWriting w ino (fullPath w a.2.path) ∧ ReachesFile w a.2 ∧
      ∀ write ∈ a.2.written, InRange write) :
    ∃ w' replies, localMachine.run w calls = some (w', replies) ∧ SameDescriptors w w' ∧
      w'.fs.inodes ino = writeAll 0 (w.fs.inodes ino) (calls.filterMap fun a => a.2.written) := by
  induction calls generalizing w with
  | nil => exact ⟨w, [], rfl, .refl w, rfl⟩
  | cons a calls ih =>
    obtain ⟨hop, hc, hreach, hoff⟩ := hcalls a List.mem_cons_self
    obtain ⟨w1, reply, hcall, hsame, hput⟩ := localExec_cached a.1 hop hc hreach hoff
    have hrest : ∀ a ∈ calls, Transfers a.2 ∧ CachedForWriting w1 ino (fullPath w1 a.2.path) ∧ ReachesFile w1 a.2 ∧
        ∀ write ∈ a.2.written, InRange write := by
      intro a' ha'
      obtain ⟨hop, hc, hreach, hoff⟩ := hcalls a' (List.mem_cons_of_mem _ ha')
      rw [hsame.fullPath]
      exact ⟨hop, hc.same hsame, hsame.reachesFile.2 hreach, hoff⟩
    obtain ⟨w2, replies, hrun, hsame2, hput2⟩ := ih hrest
    refine ⟨w2, reply :: replies, Machine.run_cons_eq_some.2 ⟨w1, reply, replies, hcall, hrun, rfl⟩,
      hsame.trans hsame2, ?_⟩
    rw [hput2, hput, List.filterMap_cons]
    cases a.2.written <;> rfl

end

/-! ### Runs -/

/-- What a call in its phase has found out. -/
def IoThread.Ok (w : LocalWorld) (t : IoThread) : Prop :=
  match t.phase with
  | .called => True
  | .located fd | .sought fd => cachedFd w (fullPath w t.op.path) = some fd ∧ ReachesFile w t.op
  | .returned reply => reply.code = .ok → ReachesFile w t.op ∧ ∀ write ∈ t.op.written, InRange write

/-- Calls that began in `w`, where the inode `ino` had the bytes `c`. -/
structure IoOk (w : LocalWorld) (ino : Nat) (calls : List (CallEnv × StorageOp)) (c : Bytes) (s : IoWorld) : Prop where
  world : SameDescriptors w s.world
  calls : s.threads.map IoThread.call = calls
  threads : ∀ t ∈ s.threads, t.Ok w
  bytes : s.world.fs.inodes ino = writeAll 0 c (s.threads.filterMap IoThread.landed)

section
variable {w w' : LocalWorld} {ino : Nat} {calls : List (CallEnv × StorageOp)} {c : Bytes} {s s' : IoWorld} {i : Nat}
  {t t' : IoThread}

theorem landed_of_returned (h : t.op.written ≠ none → t.phase.code = some .ok) : t.landed = t.op.written := by
  unfold IoThread.landed
  split
  · rfl
  · rename_i hno
    by_contra hne
    exact hno (h fun he => hne he.symm)

theorem IoThread.Ok.of_returned (h : t.Ok w) (hcode : t.phase.code = some .ok) :
    ReachesFile w t.op ∧ ∀ write ∈ t.op.written, InRange write := by
  unfold IoThread.Ok at h
  cases hphase : t.phase with
  | called =>
    rw [hphase] at hcode
    cases hcode
  | located fd =>
    rw [hphase] at hcode
    cases hcode
  | sought fd =>
    rw [hphase] at hcode
    cases hcode
  | returned reply =>
    rw [hphase] at h hcode
    exact h (Option.some.inj hcode)

/-- What has been written is among what is to be written. -/
theorem landed_sublist (threads : List IoThread) :
    (threads.filterMap IoThread.landed).Sublist ((threads.map IoThread.call).filterMap fun a => a.2.written) := by
  induction threads with
  | nil => exact .slnil
  | cons t threads ih =>
    rw [List.map_cons, List.filterMap_cons, List.filterMap_cons]
    dsimp only [IoThread.landed, IoThread.call]
    cases t.op.written with
    | none =>
      rw [ite_self]
      exact ih
    | some write =>
      by_cases hok : t.phase.code = some .ok
      · rw [if_pos hok]
        exact ih.cons_cons write
      · rw [if_neg hok]
        exact ih.cons write

theorem filterMap_set_perm {α β : Type} {f : α → Option β} {l : List α} {i : Nat} {x y : α} (hi : l[i]? = some x)
    (hx : f x = none) : ((l.set i y).filterMap f).Perm (l.filterMap f ++ (f y).toList) := by
  obtain ⟨hlt, rfl⟩ := List.getElem?_eq_some_iff.1 hi
  have hold := (List.getElem_cons_eraseIdx_perm hlt).filterMap f
  rw [List.filterMap_cons_none hx] at hold
  apply ((List.set_perm_cons_eraseIdx hlt y).filterMap f).trans
  cases hy : f y with
  | none =>
    rw [List.filterMap_cons_none hy, Option.toList_none, List.append_nil]
    exact hold
  | some b =>
    rw [List.filterMap_cons_some hy, Option.toList_some]
    exact (hold.cons b).trans (List.perm_append_singleton b _).symm

/-- A call that has not returned takes a step. -/
theorem IoOk.set (happart : (calls.filterMap fun a => a.2.written).Pairwise Apart) (h : IoOk w ino calls c s)
    (ht : s.threads[i]? = some t) (hwas : t.landed = none) (hcall : t'.call = t.call) (hok : t'.Ok w)
    (hsame : SameDescriptors s.world w')
    (hbytes : w'.fs.inodes ino = writeAll 0 (s.world.fs.inodes ino) t'.landed.toList) :
    IoOk w ino calls c ⟨w', s.threads.set i t'⟩ := by
  have hcalls : (s.threads.set i t').map IoThread.call = calls := by
    obtain ⟨hlt, rfl⟩ := List.getElem?_eq_some_iff.1 ht
    rw [List.map_set, hcall, ← List.getElem_map IoThread.call, List.set_getElem_self, h.calls]
    rwa [List.length_map]
  refine ⟨h.world.trans hsame, hcalls, fun t1 ht1 => ?_, ?_⟩
  · rcases List.mem_or_eq_of_mem_set ht1 with hmem | rfl
    · exact h.threads t1 hmem
    · exact hok
  -- the data of this call comes last, in whatever place of the list the call is
  · have hperm := filterMap_set_perm (y := t') ht hwas
    have hlanded : ((s.threads.set i t').filterMap IoThread.landed).Pairwise Apart := by
      rw [← hcalls] at happart
      exact List.Pairwise.sublist (landed_sublist _) happart
    dsimp only
    rw [writeAll_perm 0 hperm hlanded, hbytes, h.bytes]
    unfold writeAll
    rw [List.foldl_append]

/-- A step at the call's own offset. -/
theorem IoOk.step (hcalls : ∀ a ∈ calls, CachedForWriting w ino (fullPath w a.2.path))
    (happart : (calls.filterMap fun a => a.2.written).Pairwise Apart) (h : IoOk w ino calls c s)
    (hown : AtOwnOffset s i) {out : Unit} (hs : ioMachine.step s i = some (s', out)) : IoOk w ino calls c s' := by
  obtain ⟨t, ht, hs⟩ := Option.bind_eq_some_iff.1 hs
  obtain ⟨⟨w', phase⟩, hstep, he⟩ := Option.map_eq_some_iff.1 hs
  cases he
  have hmem := List.mem_of_getElem? ht
  have hok := h.threads t hmem
  obtain ⟨fd, offset, hc, hf⟩ : CachedForWriting w ino (fullPath w t.op.path) := by
    refine hcalls t.call ?_
    rw [← h.calls]
    exact List.mem_map_of_mem hmem
  obtain ⟨start, hfd⟩ : ∃ start, s.world.fs.fds fd = some ⟨ino, .wronly, start⟩ := h.world.fds fd _ hf
  have hcached : cachedFd s.world (fullPath s.world t.op.path) = some fd := by
    rw [h.world.fullPath, h.world.cached, hc]
  obtain ⟨env, op, phase0⟩ := t
  -- a failure leaves the file as it is
  have hfails : ∀ code ≠ .ok, (⟨env, op, .returned (.ofCode code)⟩ : IoThread).landed = none ∧
      (⟨env, op, .returned (.ofCode code)⟩ : IoThread).Ok w :=
    fun code hne => ⟨if_neg fun he => hne (Option.some.inj he), fun he => absurd he hne⟩
  cases phase0 with
  | called =>
    obtain ⟨hsame, hinodes, rfl | ⟨rfl, hreach⟩⟩ := ioLocate_cases hcached hstep
    · obtain ⟨hnone, hok'⟩ := hfails .invalidParam nofun
      exact h.set happart ht rfl rfl hok' hsame (by rw [hnone, hinodes]; rfl)
    · refine h.set happart ht rfl rfl ⟨hc, h.world.reachesFile.1 hreach⟩ hsame ?_
      rw [hinodes]
      rfl
  | located fd' =>
    obtain ⟨hfd', hreach⟩ : cachedFd w (fullPath w op.path) = some fd' ∧ ReachesFile w op := hok
    rw [hc] at hfd'
    cases hfd'
    obtain ⟨hsame, hinodes, rfl | rfl⟩ := ioSeek_cases hfd hstep
    · obtain ⟨hnone, hok'⟩ := hfails .io nofun
      exact h.set happart ht rfl rfl hok' hsame (by rw [hnone, hinodes]; rfl)
    · refine h.set happart ht rfl rfl ⟨hc, hreach⟩ hsame ?_
      rw [hinodes]
      rfl
  | sought fd' =>
    obtain ⟨hfd', hreach⟩ : cachedFd w (fullPath w op.path) = some fd' ∧ ReachesFile w op := hok
    rw [hc] at hfd'
    cases hfd'
    obtain ⟨hsame, reply, rfl, ⟨hinodes, hunnoticed⟩ | ⟨off, d, hwritten, hsize, rfl, hput⟩⟩ := ioTransfer_cases hfd hstep
    · -- the file is as it was, and the failure has been noticed
      have hnot : ∀ write ∈ op.written, reply.code ≠ .ok := by
        intro write hw hcode
        exact (hown _ ht _ hw _ rfl _ hfd).2.2 (hunnoticed write hw hcode)
      have hnone : (⟨env, op, .returned reply⟩ : IoThread).landed = none := by
        unfold IoThread.landed
        split
        · rename_i hcode
          refine Option.eq_none_iff_forall_not_mem.2 fun write hw => hnot write hw (Option.some.inj hcode)
        · rfl
      refine h.set happart ht rfl rfl (fun hcode => ⟨hreach, fun write hw => absurd hcode (hnot write hw)⟩) hsame ?_
      rw [hnone, hinodes]
      rfl
    · -- the offset is the call's own
      obtain ⟨hoff, hstart, -⟩ := hown _ ht _ hwritten _ rfl _ hfd
      have hlanded : (⟨env, op, .returned (.ofCode .ok)⟩ : IoThread).landed = some (off, d) := hwritten
      refine h.set happart ht rfl rfl (fun _ => ⟨hreach, fun write hw => ?_⟩) hsame ?_
      · have hw : op.written = some write := hw
        rw [hwritten] at hw
        cases hw
        exact ⟨hoff, hsize⟩
      · rw [hlanded, hput]
        dsimp only at hstart
        rw [hstart]
        rfl
  | returned reply => cases hstep

theorem ioOk_start (hc : w.fs.inodes ino = c) : IoOk w ino calls c ⟨w, calls.map IoThread.start⟩ := by
  refine ⟨.refl w, ?_, fun t ht => ?_, ?_⟩
  · rw [List.map_map]
    exact List.map_id _
  · obtain ⟨a, -, rfl⟩ := List.mem_map.1 ht
    trivial
  · have hnone : (calls.map IoThread.start).filterMap IoThread.landed = [] := by
      rw [List.filterMap_eq_nil_iff]
      intro t ht
      obtain ⟨a, -, rfl⟩ := List.mem_map.1 ht
      rfl
    dsimp only
    rw [hnone]
    exact hc

end

/-- Any reads and writes through descriptors that are cached for writing onto one file, with
the ranges of the writes apart and the steps in any order: if every write finds the offset
where it has set it, and all of them succeed, the file has the data of each, and is as if
the calls had come one after the other. -/
theorem concurrent_writes_land {w : LocalWorld} {q : Place} {ino : Nat} {calls : List (CallEnv × StorageOp)}
    {schedule : List Nat} {s : IoWorld} {outs : List Unit} (hfile : w.fs.files q = some ino)
    (hcalls : ∀ a ∈ calls, Transfers a.2 ∧ CachedForWriting w ino (fullPath w a.2.path))
    (happart : (calls.filterMap fun a => a.2.written).Pairwise Apart)
    (hrun : ioMachine.run ⟨w, calls.map IoThread.start⟩ schedule = some (s, outs))
    (hown : ioMachine.Along AtOwnOffset ⟨w, calls.map IoThread.start⟩ schedule)
    (hok : ∀ t ∈ s.threads, t.op.written ≠ none → t.phase.code = some .ok) :
    ∃ c, s.world.fs.contentAt q = some c ∧
      (∀ write ∈ calls.filterMap fun a => a.2.written, (c.drop write.1).take write.2.length = write.2) ∧
      ∃ w' replies, localMachine.run w calls = some (w', replies) ∧ w'.fs.contentAt q = some c := by
  have h : IoOk w ino calls (w.fs.inodes ino) s := by
    refine Machine.run_inv_along (fun s i s' out h hown hs => ?_) (ioOk_start rfl) hown hrun
    exact h.step (fun a ha => (hcalls a ha).2) happart hown hs
  -- all have returned, so that what has been written is all there was to write
  have hlanded : s.threads.filterMap IoThread.landed = calls.filterMap fun a => a.2.written := by
    rw [← h.calls, List.filterMap_map]
    exact List.filterMap_congr fun t ht => landed_of_returned (hok t ht)
  have hbytes := h.bytes
  rw [hlanded] at hbytes
  have hcontent : ∀ w', SameDescriptors w w' → w'.fs.contentAt q = some (w'.fs.inodes ino) := by
    intro w' hsame
    unfold Fs.contentAt
    rw [hsame.files, hfile]
    rfl
  refine ⟨s.world.fs.inodes ino, hcontent _ h.world, fun write hwrite => ?_, ?_⟩
  · rw [hbytes]
    exact writeAll_holds 0 happart hwrite _
  -- what the calls have found out is what the calls in a row need
  · have hdone : ∀ a ∈ calls, Transfers a.2 ∧ CachedForWriting w ino (fullPath w a.2.path) ∧ ReachesFile w a.2 ∧
        ∀ write ∈ a.2.written, InRange write := by
      intro a ha
      obtain ⟨hop, hc⟩ := hcalls a ha
      rw [← h.calls] at ha
      obtain ⟨t, ht, rfl⟩ := List.mem_map.1 ha
      have hreturned : ∀ write ∈ t.op.written, ReachesFile w t.op ∧ InRange write := by
        intro write hwrite
        have hcode := hok t ht (Option.ne_none_iff_exists'.2 ⟨write, hwrite⟩)
        obtain ⟨hreach, hoff⟩ := (h.threads t ht).of_returned hcode
        exact ⟨hreach, hoff write hwrite⟩
      exact ⟨hop, hc, fun write hw => (hreturned write hw).1 write hw, fun write hw => (hreturned write hw).2⟩
    obtain ⟨w', replies, hseq, hsame, hput⟩ := localRun_cached hdone
    exact ⟨w', replies, hseq, by rw [hcontent w' hsame, hput, hbytes]⟩

/-- A backend on which `a` has been written, so that its descriptor is cached. -/
def writtenLocal : LocalWorld :=
  ((localExec .calm freshLocal (.writeSync (cstr "a") 0 [9, 9, 9, 9])).map fun r => r.1).getD freshLocal

def twoWrites : List (CallEnv × StorageOp) :=
  calmly [.writeSync (cstr "a") 0 [1, 2], .writeSync (cstr "a") 2 [3, 4]]

theorem twoWrites_cached :
    ∀ a ∈ twoWrites, Transfers a.2 ∧ CachedForWriting writtenLocal 0 (fullPath writtenLocal a.2.path) := by
  have hcached : CachedForWriting writtenLocal 0 (fullPath writtenLocal (cstr "a")) := ⟨_, _, rfl, rfl⟩
  intro a ha
  rcases List.mem_cons.1 ha with rfl | ha
  · exact ⟨.inl ⟨_, _, _, rfl⟩, hcached⟩
  · rw [List.mem_singleton.1 ha]
    exact ⟨.inl ⟨_, _, _, rfl⟩, hcached⟩

/-- Both have looked up the descriptor before one of them goes on. -/
theorem writes_in_turn_land :
    ∃ s outs, ioMachine.run ⟨writtenLocal, twoWrites.map IoThread.start⟩ [0, 1, 0, 0, 1, 1] = some (s, outs) ∧
      ∃ c, s.world.fs.contentAt (placeAt writtenLocal (cstr "a")) = some c ∧
        (∀ write ∈ twoWrites.filterMap fun a => a.2.written, (c.drop write.1).take write.2.length = write.2) ∧
        ∃ w' replies, localMachine.run writtenLocal twoWrites = some (w', replies) ∧
          w'.fs.contentAt (placeAt writtenLocal (cstr "a")) = some c := by
  have hfile : writtenLocal.fs.files (placeAt writtenLocal (cstr "a")) = some 0 := rfl
  have hrun : ioMachine.run ⟨writtenLocal, twoWrites.map IoThread.start⟩ [0, 1, 0, 0, 1, 1] = some _ := rfl
  exact ⟨_, _, hrun, concurrent_writes_land hfile twoWrites_cached (by decide) hrun (by decide) (by decide)⟩

/-- Both have set the offset before one of them writes: what the first was to write is where
the second belongs, and both succeed. -/
theorem concurrent_write_misplaced :
    localStorageInit emptyDisk none = some (freshLocal.fs, .ok freshLocal.priv) ∧
    (localMachine.run freshLocal (calmly [.writeSync (cstr "a") 0 [9, 9, 9, 9]])) = some (writtenLocal, [.ofCode .ok]) ∧
    (writtenLocal.fs.files (placeAt writtenLocal (cstr "a")) = some 0 ∧
      ∀ a ∈ twoWrites, Transfers a.2 ∧ CachedForWriting writtenLocal 0 (fullPath writtenLocal a.2.path)) ∧
    (twoWrites.filterMap fun a => a.2.written).Pairwise Apart ∧
    ∃ s outs, ioMachine.run ⟨writtenLocal, twoWrites.map IoThread.start⟩ [0, 1, 0, 1, 0, 1] = some (s, outs) ∧
      (∀ t ∈ s.threads, t.op.written ≠ none → t.phase.code = some .ok) ∧
      s.world.fs.contentAt (placeAt writtenLocal (cstr "a")) = some [9, 9, 1, 2, 3, 4] ∧
      ¬ ∃ c, s.world.fs.contentAt (placeAt writtenLocal (cstr "a")) = some c ∧
        ∀ write ∈ twoWrites.filterMap fun a => a.2.written, (c.drop write.1).take write.2.length = write.2 := by
  refine ⟨freshLocal_init, rfl, ⟨rfl, twoWrites_cached⟩, by decide, _, _, rfl, by decide, rfl, ?_⟩
  rintro ⟨c, hc, hall⟩
  cases hc
  exact absurd hall (by decide)

end XDevice
