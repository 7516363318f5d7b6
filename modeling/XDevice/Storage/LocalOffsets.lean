import XDevice.Storage.OpenDescriptors
/-!
# Where bytes land

A call seeks to its offset and compares what `lseek` gives with the offset as an `off_t`.
Offsets from 2⁶³ on are negative there and `lseek` fails with -1, which is the last offset
itself: for that one the failure goes unnoticed, and the call goes on at the position the
descriptor has. What `read` and `write` give is compared with the size as an `ssize_t` in
the same way, and the last size is -1 there.
-/
open Lib Lib.Posix

namespace XDevice

/-! ## The file of a call -/

/-- The inode that a path leads to in calls: that of its cached descriptor, or of the name. -/
def inodeFor (w : LocalWorld) (path : CString) : Option Nat :=
  match cachedFd w path with
  | some fd => (w.fs.fds fd).map OpenFile.ino
  | none => w.fs.files (Fs.placeOf w.fs.cwd path)

/-- Its bytes, none if there is no file. -/
def bytesFor (w : LocalWorld) (path : CString) : Bytes := ((inodeFor w path).map w.fs.inodes).getD []

def StorageOp.offset : StorageOp → Nat
  | .readSync _ off _ | .writeSync _ off _ => off
  | _ => 0

def StorageOp.size : StorageOp → Nat
  | .readSync _ _ n => n
  | .writeSync _ _ d => d.length
  | _ => 0

section
variable {w w1 w' : LocalWorld} {fs : Fs} {env : CallEnv} {path : CString} {flags : OpenFlags} {fd : Nat} {f : OpenFile}

/-- A descriptor through which a call reaches the file of its path. -/
structure Reaches (w w1 : LocalWorld) (path : CString) (fd : Nat) (f : OpenFile) : Prop where
  isOpen : w1.fs.fds fd = some f
  leads : cachedFd w1 path = some fd ∨ cachedFd w1 path = none ∧ w1.fs.files (Fs.placeOf w1.fs.cwd path) = some f.ino
  bytes : w1.fs.inodes f.ino = bytesFor w path
  others : ∀ i ≠ f.ino, w1.fs.inodes i = w.fs.inodes i
  same : ∀ i ∈ inodeFor w path, i = f.ino
  basePath : w1.priv.basePath = w.priv.basePath

/-- With the descriptor moved and its inode written the path leads to the same inode. -/
theorem Reaches.inodeFor {f' : OpenFile} (h : Reaches w w1 path fd f) (hcache : w'.priv.fdCache = w1.priv.fdCache)
    (hfd : w'.fs.fds fd = some f') (hino : f'.ino = f.ino) (hcwd : w'.fs.cwd = w1.fs.cwd)
    (hfiles : w'.fs.files = w1.fs.files) : inodeFor w' path = some f.ino := by
  have hcached : cachedFd w' path = cachedFd w1 path := by rw [cachedFd, hcache, cachedFd]
  unfold XDevice.inodeFor
  rcases h.leads with hc | ⟨hc, hname⟩
  · rw [hcached, hc]
    dsimp only
    rw [hfd, Option.map_some, hino]
  · rw [hcached, hc]
    dsimp only
    rw [hcwd, hfiles, hname]

/-- What a write through the descriptor makes of the file. -/
theorem Reaches.written {start pos : Nat} {d : Bytes} {stats : StorageStats} (h : Reaches w w1 path fd f)
    (he : w' =
      (w1.withFs ((w1.fs.setInode f.ino (writeAt 0 (w1.fs.inodes f.ino) start d)).setOffset fd f pos)).withStats stats) :
    XDevice.inodeFor w' path = some f.ino ∧ bytesFor w' path = writeAt 0 (bytesFor w path) start d ∧
      ∀ i ≠ f.ino, w'.fs.inodes i = w.fs.inodes i := by
  have hfd : w'.fs.fds fd = some { f with offset := pos } := by
    rw [he]
    exact setOffset_self _ fd f pos
  have hinodes : w'.fs.inodes = (w1.fs.setInode f.ino (writeAt 0 (w1.fs.inodes f.ino) start d)).inodes := by
    rw [he]
    rfl
  have hino := h.inodeFor (by rw [he]; rfl) hfd rfl (by rw [he]; rfl) (by rw [he]; rfl)
  refine ⟨hino, ?_, fun i hne => ?_⟩
  · rw [bytesFor, hino, ← h.bytes, Option.map_some, Option.getD_some, hinodes]
    exact if_pos rfl
  · rw [hinodes]
    exact (if_neg hne).trans (h.others i hne)

end

/-! ## Reading and writing -/

section
variable {w w1 w' : LocalWorld} {fs : Fs} {env : CallEnv} {p : CString} {off n fd : Nat} {d : Bytes} {f : OpenFile}
  {reply : StorageReply}

end

/-! ## Main theorem -/

section
variable {w : LocalWorld} {env : CallEnv} {p : CString} {off n : Nat} {d : Bytes}

end

end XDevice
