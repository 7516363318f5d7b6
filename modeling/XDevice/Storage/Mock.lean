import XDevice.Storage.Interface
import XDevice.Lib.Keyed
/-!
# The Mock backend

`mock_storage.c`. A file pointer is a position in the file list, whose head is
the file created last. Delays have no effect on the state and are left out.
-/

namespace XDevice

/-- `mock_file_t`: `data` is the block as allocated, `size` the part in use. -/
structure MockFile where
  path : CString
  data : Bytes
  size : Nat
  capacity : Nat
  createdTime : Nat
  modifiedTime : Nat

/-- The block was freed by a `realloc` to size 0 and `data` still points to it. A null pointer
has capacity 0. -/
abbrev MockFile.Dangling (file : MockFile) : Prop := file.data = [] ∧ file.capacity ≠ 0

/-- `mock_storage_private_t`. -/
structure MockStoragePrivate where
  files : List MockFile
  maxFileSize : Nat
  maxFiles : Nat
  fileCount : Nat
  injectReadErrors : Bool
  injectWriteErrors : Bool
  errorRatePercent : Nat
  stats : StorageStats

namespace MockStoragePrivate

/-- `file` linked at the head of the list. -/
def link (priv : MockStoragePrivate) (file : MockFile) : MockStoragePrivate :=
  { priv with files := file :: priv.files, fileCount := priv.fileCount + 1 }

/-- The file at position `i` changed through its pointer. -/
def setFile (priv : MockStoragePrivate) (i : Nat) (file : MockFile) : MockStoragePrivate :=
  { priv with files := priv.files.set i file }

def withStats (priv : MockStoragePrivate) (stats : StorageStats) : MockStoragePrivate :=
  { priv with stats := stats }

end MockStoragePrivate

/-- `mock_storage_init`; its configuration string is ignored. -/
def mockStorageInit : MockStoragePrivate where
  files := []
  maxFileSize := 1024 * 1024 * 1024
  maxFiles := 1000
  fileCount := 0
  injectReadErrors := false
  injectWriteErrors := false
  errorRatePercent := 0
  stats := .zero

/-- `mock_storage_set_error_injection`. -/
def mockStorageSetErrorInjection (priv : MockStoragePrivate) (injectReadErrors injectWriteErrors : Bool)
    (errorRatePercent : Nat) : MockStoragePrivate :=
  { priv with
    injectReadErrors := injectReadErrors
    injectWriteErrors := injectWriteErrors
    errorRatePercent := errorRatePercent }

/-- `mock_storage_health_check`, for a backend that has not been cleaned up. -/
def mockStorageHealthCheck (_ : MockStoragePrivate) : XdeviceError := .ok

def findFile (priv : MockStoragePrivate) (path : CString) : Option Nat :=
  Lib.indexOf MockFile.path priv.files path

/-- The new file goes to the head of the list; `some none` is a null pointer. -/
def createNewFile (env : CallEnv) (priv : MockStoragePrivate) (path : CString) (initialSize : Nat) :
    Option (Option MockStoragePrivate) :=
  if priv.maxFiles ≤ priv.fileCount then some none
  else if ¬ env.mallocFile then some none
  else
    let file : MockFile := ⟨strncpy path (maxPathLen - 1), [], 0, 0, env.now, env.now⟩
    if 0 < initialSize then
      match malloc (env.mallocData initialSize) env.junk initialSize with
      | none => some none
      | some block =>
        (memset block 0 initialSize).map fun data =>
          some (priv.link { file with capacity := initialSize, data := data, size := initialSize })
    else some (some (priv.link file))

/-- Freeing the block of a file that has lost it is undefined. -/
def removeFile (priv : MockStoragePrivate) (path : CString) : Option (MockStoragePrivate × XdeviceError) :=
  match Lib.lookup MockFile.path priv.files path with
  | none => some (priv, .notFound)
  | some toDelete =>
    if toDelete.Dangling then none
    else
      some ({ priv with
        files := priv.files.eraseP fun f => f.path = path
        fileCount := priv.fileCount - 1 }, .ok)

/-- A `realloc` that returns null leaves the file's fields as they are, but size 0 frees the block. -/
def expandFile (env : CallEnv) (file : MockFile) (newSize : Nat) : Option (MockFile × XdeviceError) :=
  if newSize ≤ file.capacity then
    if file.size < newSize then
      (memset file.data file.size (newSize - file.size)).map fun data =>
        ({ file with data := data, size := newSize }, .ok)
    else some (file, .ok)
  else if file.Dangling then none
  else
    let newCapacity := mul64 newSize 2
    match realloc (env.mallocData newCapacity) env.junk file.data newCapacity with
    | none => some ({ file with data := reallocLeft file.data newCapacity }, .outOfMemory)
    | some newData =>
      (memset newData file.size (sub64 newCapacity file.size)).map fun data =>
        ({ file with data := data, capacity := newCapacity, size := newSize }, .ok)

def shouldInjectError (env : CallEnv) (priv : MockStoragePrivate) : Bool :=
  priv.errorRatePercent ≠ 0 && env.rand % 100 < priv.errorRatePercent

/-- `mock_storage_read_sync` from the file pointer on. -/
def readFile (env : CallEnv) (priv : MockStoragePrivate) (file : MockFile) (offset size : Nat) :
    Option (MockStoragePrivate × StorageReply) :=
  if file.size ≤ offset then some (priv, .ofCode .notFound)
  else
    let readSize := if file.size < add64 offset size then file.size - offset else size
    (memcpyFrom file.data offset readSize).map fun bytes =>
      (priv.withStats (priv.stats.countRead readSize env.latencyNs),
        ⟨.ok, bytes ++ List.replicate (size - readSize) 0, 0⟩)

def mockStorageReadSync (env : CallEnv) (priv : MockStoragePrivate) (path : CString) (offset size : Nat) :
    Option (MockStoragePrivate × StorageReply) :=
  if size = 0 then some (priv, .ofCode .invalidParam)
  else if priv.injectReadErrors && shouldInjectError env priv then
    some (priv.withStats priv.stats.countError, .ofCode .io)
  else
    match findFile priv path with
    | none => some (priv, .ofCode .notFound)
    | some i => (priv.files[i]?).bind fun file => readFile env priv file offset size

/-- `mock_storage_write_sync` from the file pointer `i` on: grow the file, check
its size against the limit, copy. What growing wrote stays when the check fails. -/
def writeFile (env : CallEnv) (priv : MockStoragePrivate) (i : Nat) (file : MockFile) (offset : Nat)
    (data : Bytes) : Option (MockStoragePrivate × StorageReply) :=
  let newSize := add64 offset data.length
  let grown := if file.size < newSize then expandFile env file newSize else some (file, .ok)
  grown.bind fun (file, ret) =>
    if ret ≠ .ok then some (priv.setFile i file, .ofCode .outOfMemory)
    else if priv.maxFileSize < file.size then
      some (priv.setFile i file, .ofCode .noSpace)
    else
      (memcpy file.data offset data).map fun block =>
        ((priv.setFile i { file with data := block, modifiedTime := env.now }).withStats
          (priv.stats.countWrite data.length env.latencyNs), .ofCode .ok)

def mockStorageWriteSync (env : CallEnv) (priv : MockStoragePrivate) (path : CString) (offset : Nat)
    (data : Bytes) : Option (MockStoragePrivate × StorageReply) :=
  if data.length = 0 then some (priv, .ofCode .invalidParam)
  else if priv.injectWriteErrors && shouldInjectError env priv then
    some (priv.withStats priv.stats.countError, .ofCode .io)
  else
    match findFile priv path with
    | some i => (priv.files[i]?).bind fun file => writeFile env priv i file offset data
    | none =>
      (createNewFile env priv path (add64 offset data.length)).bind fun
        | none => some (priv, .ofCode .outOfMemory)
        | some priv => priv.files.head?.bind fun file => writeFile env priv 0 file offset data

def mockStorageFsync (priv : MockStoragePrivate) (_ : CString) : MockStoragePrivate × StorageReply :=
  (priv, .ofCode .ok)

def mockStorageCreateFile (env : CallEnv) (priv : MockStoragePrivate) (path : CString) (initialSize : Nat) :
    Option (MockStoragePrivate × StorageReply) :=
  match findFile priv path with
  | some _ => some (priv, .ofCode .exists)
  | none =>
    (createNewFile env priv path initialSize).map fun
      | none => (priv, .ofCode .outOfMemory)
      | some priv => (priv, .ofCode .ok)

def mockStorageDeleteFile (priv : MockStoragePrivate) (path : CString) : Option (MockStoragePrivate × StorageReply) :=
  (removeFile priv path).map fun (priv, ret) => (priv, .ofCode ret)

def mockStorageGetFileInfo (priv : MockStoragePrivate) (path : CString) : XdeviceError × Option StorageFileInfo :=
  match (findFile priv path).bind fun i => priv.files[i]? with
  | none => (.notFound, none)
  | some file => (.ok, some ⟨file.size, file.createdTime, file.modifiedTime, 0o644, false⟩)

/-- A call on the Mock backend. -/
def mockExec (env : CallEnv) (priv : MockStoragePrivate) : StorageOp → Option (MockStoragePrivate × StorageReply)
  | .createFile p n => mockStorageCreateFile env priv p n
  | .writeSync p off d => mockStorageWriteSync env priv p off d
  | .readSync p off n => mockStorageReadSync env priv p off n
  | .deleteFile p => mockStorageDeleteFile priv p
  | .getFileInfo p =>
    let (ret, info) := mockStorageGetFileInfo priv p
    some (priv, ⟨ret, [], (info.map (·.size)).getD 0⟩)
  | .fsync p => some (mockStorageFsync priv p)

def mockMachine : Lib.Machine MockStoragePrivate (CallEnv × StorageOp) StorageReply where
  step priv a := mockExec a.1 priv a.2

end XDevice
