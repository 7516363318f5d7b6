import XDevice.Storage.Interface
import XDevice.Lib.Posix
import XDevice.Lib.Keyed
/-!
# The Local backend

`local_storage.c` over a file system without faults. Its path buffers hold
`MAX_PATH_LEN` bytes and are filled by `strncpy`, which leaves one without a
terminator when the text is too long; reading on is undefined. Direct and
synchronous I/O and the cache of mappings are never switched on.
-/
open Lib.Posix

namespace XDevice

/-- An entry of `fd_cache`. -/
structure FdCacheEntry where
  path : CString
  fd : Nat
  lastAccess : Nat

/-- `local_storage_private_t`; `fd_cache_size` is the length of `fdCache`. -/
structure LocalStoragePrivate where
  basePath : CString
  maxOpenFiles : Nat
  fdCache : List FdCacheEntry
  stats : StorageStats

/-- The backend and the file system it works on. -/
structure LocalWorld where
  fs : Fs
  priv : LocalStoragePrivate

namespace LocalWorld

def withFs (w : LocalWorld) (fs : Fs) : LocalWorld := { w with fs := fs }

def withStats (w : LocalWorld) (st : StorageStats) : LocalWorld := { w with priv := { w.priv with stats := st } }

def withCache (w : LocalWorld) (cache : List FdCacheEntry) : LocalWorld :=
  { w with priv := { w.priv with fdCache := cache } }

end LocalWorld

/-! ## Paths -/

def buildFilePath (basePath path : CString) (pathSize : Nat) : CString :=
  if path.head? = some slash then strncpy path (pathSize - 1) else snprintf pathSize (basePath ++ slash :: path)

/-- The paths `create_directories` makes: one for each slash but a leading one,
then the whole. -/
def directoryPrefixes (tempPath : CString) : List CString :=
  ((List.range tempPath.length).filter fun i => 0 < i ∧ tempPath[i]? = some slash).map (fun i => tempPath.take i) ++
    [tempPath]

def makeDirectories (fs : Fs) : List CString → Fs × XdeviceError
  | [] => (fs, .ok)
  | path :: paths =>
    match fs.mkdir path with
    | .ok fs => makeDirectories fs paths
    | .error .exist => makeDirectories fs paths
    | .error _ => (fs, .io)

/-- Undefined for the empty path, whose last character it looks at. -/
def createDirectories (fs : Fs) (path : CString) : Option (Fs × XdeviceError) :=
  let tempPath := strncpy path (maxPathLen - 1)
  if tempPath = [] then none
  else
    let tempPath := if tempPath.getLast? = some slash then tempPath.dropLast else tempPath
    some (makeDirectories fs (directoryPrefixes tempPath))

/-- What is before the last slash. -/
def beforeLastSlash (path : CString) : Option CString :=
  if slash ∈ path then some ((path.reverse.dropWhile (· ≠ slash)).drop 1).reverse else none

/-- The directories above `fullPath`, whatever comes of it. -/
def createParents (fs : Fs) (fullPath : CString) : Option Fs :=
  if maxPathLen - 1 ≤ fullPath.length then none
  else
    match beforeLastSlash fullPath with
    | none => some fs
    | some dirPath => (createDirectories fs dirPath).map fun r => r.1

/-! ## The descriptor cache -/

/-- A cached descriptor whatever it was opened for, else a new one, cached while
there is room; `some (_, none)` is -1. -/
def getFileDescriptor (env : CallEnv) (w : LocalWorld) (path : CString) (flags : OpenFlags) :
    Option (LocalWorld × Option Nat) :=
  match (Lib.indexOf FdCacheEntry.path w.priv.fdCache path).bind fun i => (w.priv.fdCache[i]?).map fun e => (i, e) with
  | some (i, e) => some (w.withCache (w.priv.fdCache.set i { e with lastAccess := env.now }), some e.fd)
  | none =>
    match w.fs.openFile path flags with
    | .error _ => some (w, none)
    | .ok (fs, fd) =>
      if w.priv.fdCache.length < w.priv.maxOpenFiles then
        if maxPathLen - 1 ≤ path.length then none
        else some ((w.withFs fs).withCache (w.priv.fdCache ++ [⟨path, fd, env.now⟩]), some fd)
      else some (w.withFs fs, some fd)

/-! ## Initialisation -/

/-- `local_storage_init` with its allocations; `config` is the base path. -/
def localStorageInit (fs : Fs) (config : Option CString) : Option (Fs × Except XdeviceError LocalStoragePrivate) :=
  let basePath := match config with
    | some config => strncpy config (maxPathLen - 1)
    | none => cstr "/tmp/xdevice"
  (createDirectories fs basePath).map fun (fs, ret) =>
    if ret ≠ .ok then (fs, .error .io) else (fs, .ok ⟨basePath, 100, [], .zero⟩)

/-- The base directory is there. -/
def localStorageHealthCheck (w : LocalWorld) : XdeviceError :=
  match w.fs.stat w.priv.basePath with
  | .error _ => .io
  | .ok _ => .ok

/-! ## Calls -/

/-- Whether `lseek(fd, offset, SEEK_SET) != (off_t)offset` fails to hold: the
failure -1 is itself `(off_t)offset` for the last offset. -/
def seekTo (fs : Fs) (fd offset : Nat) : Option Fs :=
  match fs.lseek fd offset with
  | .ok fs => some fs
  | .error _ => if offset = 2 ^ 64 - 1 then some fs else none

def localStorageReadSync (env : CallEnv) (w : LocalWorld) (path : CString) (offset size : Nat) :
    Option (LocalWorld × StorageReply) :=
  if size = 0 then some (w, .ofCode .invalidParam)
  else
    (getFileDescriptor env w (buildFilePath w.priv.basePath path maxPathLen) ⟨.rdonly, false, false⟩).map fun
      | (w, none) => (w, .ofCode .io)
      | (w, some fd) =>
        match seekTo w.fs fd offset with
        | none => (w, .ofCode .io)
        | some fs =>
          match fs.read fd size with
          -- the failure -1 is itself `(ssize_t)size` for the last size
          | .error _ =>
            if size = 2 ^ 64 - 1 then ((w.withFs fs).withStats (w.priv.stats.countRead size env.latencyNs), .ofCode .ok)
            else (w.withFs fs, .ofCode .io)
          | .ok (fs, bytes) =>
            if bytes.length ≠ size then (w.withFs fs, .ofCode .notFound)
            else ((w.withFs fs).withStats (w.priv.stats.countRead size env.latencyNs), ⟨.ok, bytes, 0⟩)

def localStorageWriteSync (env : CallEnv) (w : LocalWorld) (path : CString) (offset : Nat) (data : Bytes) :
    Option (LocalWorld × StorageReply) :=
  if data.length = 0 then some (w, .ofCode .invalidParam)
  else
    let fullPath := buildFilePath w.priv.basePath path maxPathLen
    (createParents w.fs fullPath).bind fun fs =>
      (getFileDescriptor env (w.withFs fs) fullPath ⟨.wronly, true, false⟩).map fun
        | (w, none) => (w, .ofCode .io)
        | (w, some fd) =>
          match seekTo w.fs fd offset with
          | none => (w, .ofCode .io)
          | some fs =>
            match fs.write fd data with
            -- as in a read
            | .error _ =>
              if data.length = 2 ^ 64 - 1 then
                ((w.withFs fs).withStats (w.priv.stats.countWrite data.length env.latencyNs), .ofCode .ok)
              else (w.withFs fs, .ofCode .io)
            | .ok fs =>
              ((w.withFs fs).withStats (w.priv.stats.countWrite data.length env.latencyNs), .ofCode .ok)

def localStorageFsync (env : CallEnv) (w : LocalWorld) (path : CString) : Option (LocalWorld × StorageReply) :=
  (getFileDescriptor env w (buildFilePath w.priv.basePath path maxPathLen) ⟨.wronly, false, false⟩).map fun
    | (w, none) => (w, .ofCode .io)
    | (w, some fd) =>
      match w.fs.fsync fd with
      | .error _ => (w, .ofCode .io)
      | .ok _ => (w, .ofCode .ok)

def localStorageCreateFile (w : LocalWorld) (path : CString) (initialSize : Nat) :
    Option (LocalWorld × StorageReply) :=
  let fullPath := buildFilePath w.priv.basePath path maxPathLen
  (createParents w.fs fullPath).map fun fs =>
    match fs.openFile fullPath ⟨.wronly, true, true⟩ with
    | .error e => (w.withFs fs, .ofCode (if e = .exist then .exists else .io))
    | .ok (fs, fd) =>
      if 0 < initialSize then
        match fs.ftruncate fd initialSize with
        | .ok fs => (w.withFs (fs.close fd), .ofCode .ok)
        | .error _ =>
          let fs := fs.close fd
          match fs.unlink fullPath with
          | .ok fs => (w.withFs fs, .ofCode .io)
          | .error _ => (w.withFs fs, .ofCode .io)
      else (w.withFs (fs.close fd), .ofCode .ok)

def localStorageDeleteFile (w : LocalWorld) (path : CString) : LocalWorld × StorageReply :=
  match w.fs.unlink (buildFilePath w.priv.basePath path maxPathLen) with
  | .ok fs => (w.withFs fs, .ofCode .ok)
  | .error e => (w, .ofCode (if e = .noent then .notFound else .io))

/-- A directory has a size of its own, which is not modelled. -/
def localStorageGetFileInfo (w : LocalWorld) (path : CString) : StorageReply :=
  match w.fs.stat (buildFilePath w.priv.basePath path maxPathLen) with
  | .ok size => ⟨.ok, [], size.getD 0⟩
  | .error e => .ofCode (if e = .noent then .notFound else .io)

/-- A call on the Local backend. -/
def localExec (env : CallEnv) (w : LocalWorld) : StorageOp → Option (LocalWorld × StorageReply)
  | .createFile p n => localStorageCreateFile w p n
  | .writeSync p off d => localStorageWriteSync env w p off d
  | .readSync p off n => localStorageReadSync env w p off n
  | .deleteFile p => some (localStorageDeleteFile w p)
  | .getFileInfo p => some (w, localStorageGetFileInfo w p)
  | .fsync p => localStorageFsync env w p

def localMachine : Lib.Machine LocalWorld (CallEnv × StorageOp) StorageReply where
  step w a := localExec a.1 w a.2

end XDevice
