import XDevice.Common
import XDevice.Lib.Machine
/-!
# The storage interface

What every backend of `storage_interface.h` is asked and what it answers, and
the reference store the backends are measured against: a map from paths to byte
strings.
-/

namespace XDevice

/-- What the world outside answers during one call: the clock, `rand`, and
whether and with what contents the allocator hands out memory. -/
structure CallEnv where
  now : Nat
  latencyNs : Nat
  rand : Nat
  mallocFile : Bool
  mallocData : Nat → Bool
  junk : Nat → Byte

/-- No allocation fails. -/
def CallEnv.AllocOk (env : CallEnv) : Prop := env.mallocFile = true ∧ ∀ n, env.mallocData n = true

/-- A call at time zero with memory to spare. -/
def CallEnv.calm : CallEnv := ⟨0, 0, 0, true, fun _ => true, fun _ => 0⟩

/-! ## Statistics -/

/-- `storage_stats_t`, the counters some operation updates. -/
structure StorageStats where
  readOps : Nat
  writeOps : Nat
  readBytes : Nat
  writeBytes : Nat
  readLatencyAvgNs : Nat
  writeLatencyAvgNs : Nat
  errorCount : Nat

namespace StorageStats

def zero : StorageStats := ⟨0, 0, 0, 0, 0, 0, 0⟩

def countRead (st : StorageStats) (bytes latency : Nat) : StorageStats :=
  { st with
    readOps := add64 st.readOps 1
    readBytes := add64 st.readBytes bytes
    readLatencyAvgNs := add64 st.readLatencyAvgNs latency / 2 }

def countWrite (st : StorageStats) (bytes latency : Nat) : StorageStats :=
  { st with
    writeOps := add64 st.writeOps 1
    writeBytes := add64 st.writeBytes bytes
    writeLatencyAvgNs := add64 st.writeLatencyAvgNs latency / 2 }

def countError (st : StorageStats) : StorageStats := { st with errorCount := add64 st.errorCount 1 }

end StorageStats

/-! ## Calls and replies -/

/-- `storage_file_info_t`. -/
structure StorageFileInfo where
  size : Nat
  createdTime : Nat
  modifiedTime : Nat
  permissions : Nat
  isDirectory : Bool
  deriving DecidableEq, Repr

/-- A call through the interface, its data with its length. -/
inductive StorageOp where
  | createFile (path : CString) (initialSize : Nat)
  | writeSync (path : CString) (offset : Nat) (data : Bytes)
  | readSync (path : CString) (offset size : Nat)
  | deleteFile (path : CString)
  | getFileInfo (path : CString)
  | fsync (path : CString)
  deriving DecidableEq, Repr

namespace StorageOp

def path : StorageOp → CString
  | .createFile p _ | .writeSync p _ _ | .readSync p _ _ | .deleteFile p | .getFileInfo p | .fsync p => p

/-- The end of the range a call asks for. -/
def extent : StorageOp → Nat
  | .createFile _ n => n
  | .writeSync _ off d => off + d.length
  | .readSync _ off n => off + n
  | _ => 0

/-- Calls that add a file when its path is missing. -/
def adds : StorageOp → Bool
  | .createFile _ _ | .writeSync _ _ _ => true
  | _ => false

end StorageOp

/-- Calls with time standing still. -/
def calmly (ops : List StorageOp) : List (CallEnv × StorageOp) := ops.map fun op => (.calm, op)

/-- What a caller sees of a call: its code, the bytes a successful read put in
the buffer, the size a successful `get_file_info` reported. -/
structure StorageReply where
  code : XdeviceError
  data : Bytes
  size : Nat
  deriving DecidableEq, Repr

/-- A reply that is a code only. -/
def StorageReply.ofCode (code : XdeviceError) : StorageReply := ⟨code, [], 0⟩

/-! ## The reference store -/

/-- The contents of each path that exists. -/
abbrev FileMap := CString → Option Bytes

namespace FileMap

def empty : FileMap := fun _ => none

def set (m : FileMap) (path : CString) (c : Option Bytes) : FileMap := fun p => if p = path then c else m p

/-- A new file of zeros, unless the path exists. -/
def createFile (m : FileMap) (path : CString) (initialSize : Nat) : FileMap × StorageReply :=
  match m path with
  | some _ => (m, .ofCode .exists)
  | none => (m.set path (some (List.replicate initialSize 0)), .ofCode .ok)

/-- `data` over `[offset, offset + size)` of the file, which is created if it
is missing and filled with zeros up to `offset` if it is shorter. -/
def writeSync (m : FileMap) (path : CString) (offset : Nat) (data : Bytes) : FileMap × StorageReply :=
  if data.length = 0 then (m, .ofCode .invalidParam)
  else (m.set path (some (Lib.writeAt 0 ((m path).getD []) offset data)), .ofCode .ok)

/-- The stored bytes from `offset` on, padded with zeros to `size`. -/
def readSync (m : FileMap) (path : CString) (offset size : Nat) : StorageReply :=
  if size = 0 then .ofCode .invalidParam
  else match m path with
    | none => .ofCode .notFound
    | some c => if offset < c.length then ⟨.ok, Lib.readAt 0 c offset size, 0⟩ else .ofCode .notFound

def deleteFile (m : FileMap) (path : CString) : FileMap × StorageReply :=
  match m path with
  | some _ => (m.set path none, .ofCode .ok)
  | none => (m, .ofCode .notFound)

def getFileInfo (m : FileMap) (path : CString) : StorageReply :=
  match m path with
  | some c => ⟨.ok, [], c.length⟩
  | none => .ofCode .notFound

def exec (m : FileMap) : StorageOp → FileMap × StorageReply
  | .createFile p n => m.createFile p n
  | .writeSync p off d => m.writeSync p off d
  | .readSync p off n => (m, m.readSync p off n)
  | .deleteFile p => m.deleteFile p
  | .getFileInfo p => (m, m.getFileInfo p)
  | .fsync _ => (m, .ofCode .ok)

@[simp] theorem set_self (m : FileMap) (p : CString) (c : Option Bytes) : m.set p c p = c := by simp [set]

theorem set_other (m : FileMap) {p q : CString} (c : Option Bytes) (h : q ≠ p) : m.set p c q = m q := by
  simp [set, h]

/-- The reference store as a machine; the world outside plays no part in it. -/
def machine : Lib.Machine FileMap (CallEnv × StorageOp) StorageReply where
  step m a := some (m.exec a.2)

end FileMap

end XDevice
