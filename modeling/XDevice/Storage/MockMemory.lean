import XDevice.Lib.LinkedList
import XDevice.Storage.MockFailures
/-!
# The Mock backend in memory

The file list of `mock_storage.c` with its pointers: nodes and data blocks are allocated and
freed, and the list is searched and cut through links. It does what the list of files
does and leaks nothing, and it frees nothing twice unless a `realloc` to size 0 has left a
node with a pointer to a freed block.
-/
open Lib

namespace XDevice

/-! ## The file list with its pointers -/

/-- `mock_file_t` without its link; `data` is a pointer. -/
structure MockFileNode where
  path : CString
  data : Option Nat
  size : Nat
  capacity : Nat
  createdTime : Nat
  modifiedTime : Nat

/-- `mock_storage_private_t`, with the memory its pointers lead to. -/
structure MockMemory where
  files : LinkedList MockFileNode
  blocks : Heap Bytes
  maxFileSize : Nat
  maxFiles : Nat
  fileCount : Nat
  injectReadErrors : Bool
  injectWriteErrors : Bool
  errorRatePercent : Nat
  stats : StorageStats

namespace MockMemory

def init : MockMemory where
  files := .empty
  blocks := .empty
  maxFileSize := 1024 * 1024 * 1024
  maxFiles := 1000
  fileCount := 0
  injectReadErrors := false
  injectWriteErrors := false
  errorRatePercent := 0
  stats := .zero

/-- The settings that `mock_storage_set_error_injection` changes. -/
def setErrorInjection (s : MockMemory) (injectReadErrors injectWriteErrors : Bool) (errorRatePercent : Nat) :
    MockMemory :=
  { s with
    injectReadErrors := injectReadErrors
    injectWriteErrors := injectWriteErrors
    errorRatePercent := errorRatePercent }

def node (s : MockMemory) (file : Nat) : Option MockFileNode := (s.files.heap.get file).map Link.val

def setNode (s : MockMemory) (file : Nat) (f : MockFileNode) : Option MockMemory :=
  (s.files.setVal file f).map fun files => { s with files := files }

/-- What a data pointer leads to; a null pointer leads nowhere. -/
def deref (s : MockMemory) (data : Option Nat) : Option Bytes := data.bind s.blocks.get

def setBlock (s : MockMemory) (data : Option Nat) (block : Bytes) : Option MockMemory :=
  data.bind fun b => (s.blocks.set b block).map fun blocks => { s with blocks := blocks }

/-- `if (data) free(data)`. -/
def freeData (blocks : Heap Bytes) (data : Option Nat) : Option (Heap Bytes) :=
  match data with
  | none => some blocks
  | some b => blocks.free b

def findFile (s : MockMemory) (path : CString) : Option (Option Nat) := s.files.find fun f => f.path = path

/-- The node is linked once it is filled, and freed if there is no memory for its data. -/
def createNewFile (env : CallEnv) (s : MockMemory) (path : CString) (initialSize : Nat) :
    Option (MockMemory × Option Nat) :=
  if s.maxFiles ≤ s.fileCount then some (s, none)
  else if ¬ env.mallocFile then some (s, none)
  else
    let file : MockFileNode := ⟨strncpy path (maxPathLen - 1), none, 0, 0, env.now, env.now⟩
    let link := fun (s : MockMemory) (file : MockFileNode) =>
      ({ s with files := s.files.push file, fileCount := s.fileCount + 1 }, some s.files.heap.next)
    if 0 < initialSize then
      match malloc (env.mallocData initialSize) env.junk initialSize with
      | none =>
        let (heap, a) := s.files.heap.alloc ⟨{ file with capacity := initialSize }, none⟩
        (heap.free a).map fun heap => ({ s with files := { s.files with heap := heap } }, none)
      | some block =>
        (memset block 0 initialSize).map fun block =>
          let (blocks, data) := s.blocks.alloc block
          link { s with blocks := blocks }
            { file with capacity := initialSize, data := some data, size := initialSize }
    else some (link s file)

def removeFile (s : MockMemory) (path : CString) : Option (MockMemory × XdeviceError) :=
  (s.files.unlink fun f => f.path = path).bind fun
    | (_, none) => some (s, .notFound)
    | (files, some toDelete) =>
      (files.heap.get toDelete).bind fun n =>
        (freeData s.blocks n.val.data).bind fun blocks =>
          (files.heap.free toDelete).map fun heap =>
            ({ s with files := { files with heap := heap }, blocks := blocks, fileCount := s.fileCount - 1 }, .ok)

/-- `realloc`, with the pointer that it returns: a null pointer is allocated afresh, a block that
is there is freed at size 0, and kept when it cannot be moved. -/
def reallocData (env : CallEnv) (s : MockMemory) (data : Option Nat) (size : Nat) :
    Option (MockMemory × Option Nat) :=
  match data with
  | none =>
    match malloc (env.mallocData size) env.junk size with
    | none => some (s, none)
    | some newBlock =>
      let (blocks, newData) := s.blocks.alloc newBlock
      some ({ s with blocks := blocks }, some newData)
  | some b =>
    (s.blocks.get b).bind fun block =>
      if size = 0 then (s.blocks.free b).map fun blocks => ({ s with blocks := blocks }, none)
      else
        match realloc (env.mallocData size) env.junk block size with
        | none => some (s, none)
        | some newBlock =>
          (s.blocks.free b).map fun blocks =>
            let (blocks, newData) := blocks.alloc newBlock
            ({ s with blocks := blocks }, some newData)

/-- When `realloc` returns null the node keeps the pointer that it has. -/
def expandFile (env : CallEnv) (s : MockMemory) (file newSize : Nat) : Option (MockMemory × XdeviceError) :=
  (s.node file).bind fun f =>
    if newSize ≤ f.capacity then
      if f.size < newSize then
        (s.deref f.data).bind fun block =>
          (memset block f.size (newSize - f.size)).bind fun block =>
            (s.setBlock f.data block).bind fun s =>
              (s.setNode file { f with size := newSize }).map fun s => (s, .ok)
      else some (s, .ok)
    else
      let newCapacity := mul64 newSize 2
      (s.reallocData env f.data newCapacity).bind fun
        | (s, none) => some (s, .outOfMemory)
        | (s, some newData) =>
          (s.deref (some newData)).bind fun block =>
            (memset block f.size (sub64 newCapacity f.size)).bind fun block =>
              (s.setBlock (some newData) block).bind fun s =>
                (s.setNode file { f with data := some newData, capacity := newCapacity, size := newSize }).map
                  fun s => (s, .ok)

def withStats (s : MockMemory) (stats : StorageStats) : MockMemory := { s with stats := stats }

def shouldInjectError (env : CallEnv) (s : MockMemory) : Bool :=
  s.errorRatePercent ≠ 0 && env.rand % 100 < s.errorRatePercent

def mockStorageReadSync (env : CallEnv) (s : MockMemory) (path : CString) (offset size : Nat) :
    Option (MockMemory × StorageReply) :=
  if size = 0 then some (s, .ofCode .invalidParam)
  else if s.injectReadErrors && s.shouldInjectError env then some (s.withStats s.stats.countError, .ofCode .io)
  else
    (s.findFile path).bind fun
      | none => some (s, .ofCode .notFound)
      | some file =>
        (s.node file).bind fun f =>
          if f.size ≤ offset then some (s, .ofCode .notFound)
          else
            let readSize := if f.size < add64 offset size then f.size - offset else size
            (s.deref f.data).bind fun block =>
              (memcpyFrom block offset readSize).map fun bytes =>
                (s.withStats (s.stats.countRead readSize env.latencyNs),
                  ⟨.ok, bytes ++ List.replicate (size - readSize) 0, 0⟩)

/-- `mock_storage_write_sync` from the file pointer on. -/
def writeFile (env : CallEnv) (s : MockMemory) (file offset : Nat) (data : Bytes) :
    Option (MockMemory × StorageReply) :=
  let newSize := add64 offset data.length
  (s.node file).bind fun f =>
    (if f.size < newSize then s.expandFile env file newSize else some (s, .ok)).bind fun (s, code) =>
      if code ≠ .ok then some (s, .ofCode .outOfMemory)
      else
        (s.node file).bind fun f =>
          if s.maxFileSize < f.size then some (s, .ofCode .noSpace)
          else
            (s.deref f.data).bind fun block =>
              (memcpy block offset data).bind fun block =>
                (s.setBlock f.data block).bind fun s =>
                  (s.setNode file { f with modifiedTime := env.now }).map fun s =>
                    (s.withStats (s.stats.countWrite data.length env.latencyNs), .ofCode .ok)

def mockStorageWriteSync (env : CallEnv) (s : MockMemory) (path : CString) (offset : Nat) (data : Bytes) :
    Option (MockMemory × StorageReply) :=
  if data.length = 0 then some (s, .ofCode .invalidParam)
  else if s.injectWriteErrors && s.shouldInjectError env then some (s.withStats s.stats.countError, .ofCode .io)
  else
    (s.findFile path).bind fun
      | some file => s.writeFile env file offset data
      | none =>
        (s.createNewFile env path (add64 offset data.length)).bind fun
          | (s, none) => some (s, .ofCode .outOfMemory)
          | (s, some file) => s.writeFile env file offset data

def mockStorageCreateFile (env : CallEnv) (s : MockMemory) (path : CString) (initialSize : Nat) :
    Option (MockMemory × StorageReply) :=
  (s.findFile path).bind fun
    | some _ => some (s, .ofCode .exists)
    | none =>
      (s.createNewFile env path initialSize).map fun
        | (s, none) => (s, .ofCode .outOfMemory)
        | (s, some _) => (s, .ofCode .ok)

def mockStorageDeleteFile (s : MockMemory) (path : CString) : Option (MockMemory × StorageReply) :=
  (s.removeFile path).map fun (s, ret) => (s, .ofCode ret)

def mockStorageGetFileInfo (s : MockMemory) (path : CString) : Option (XdeviceError × Option StorageFileInfo) :=
  (s.findFile path).bind fun
    | none => some (.notFound, none)
    | some file => (s.node file).map fun f => (.ok, some ⟨f.size, f.createdTime, f.modifiedTime, 0o644, false⟩)

def exec (env : CallEnv) (s : MockMemory) : StorageOp → Option (MockMemory × StorageReply)
  | .createFile p n => s.mockStorageCreateFile env p n
  | .writeSync p off d => s.mockStorageWriteSync env p off d
  | .readSync p off n => s.mockStorageReadSync env p off n
  | .deleteFile p => s.mockStorageDeleteFile p
  | .getFileInfo p =>
    (s.mockStorageGetFileInfo p).map fun (ret, info) => (s, ⟨ret, [], (info.map (·.size)).getD 0⟩)
  | .fsync _ => some (s, .ofCode .ok)

def store : Machine MockMemory MockCall StorageReply where
  step s
    | .op env op => s.exec env op
    | .setErrorInjection readErrors writeErrors percent =>
      some (s.setErrorInjection readErrors writeErrors percent, .ofCode .ok)

/-- The loop of `mock_storage_cleanup`: the link is read before its node is freed. -/
def freeFiles (s : MockMemory) : Nat → Option Nat → Option MockMemory
  | _, none => some s
  | 0, some _ => none
  | fuel + 1, some file =>
    (s.files.heap.get file).bind fun n =>
      (freeData s.blocks n.val.data).bind fun blocks =>
        (s.files.heap.free file).bind fun heap =>
          freeFiles { s with files := { s.files with heap := heap }, blocks := blocks } fuel n.next

/-- What `mock_storage_cleanup` leaves in memory. -/
def cleanup (s : MockMemory) : Option MockMemory := s.freeFiles s.files.heap.next s.files.head

end MockMemory

end XDevice
