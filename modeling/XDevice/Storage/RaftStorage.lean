import XDevice.Storage.Manager
/-!
# The Raft storage adapter

The adapter of `storage_manager.c`: Raft's log entries, state and snapshots as
files of a storage manager, each under a path made of the device prefix, a
prefix for its kind and its key.
-/

namespace XDevice

/-- `raft_storage_adapter_t`, the fields some function reads. -/
structure RaftStorageAdapter where
  devicePrefix : CString
  logPrefix : CString
  statePrefix : CString
  snapshotPrefix : CString

def raftStorageAdapterInit (devicePrefix : CString) : RaftStorageAdapter where
  devicePrefix := strncpy devicePrefix 63
  logPrefix := cstr "log_"
  statePrefix := cstr "state_"
  snapshotPrefix := cstr "snap_"

def buildFullPath (adapter : RaftStorageAdapter) ( kindPrefix key : CString) (pathSize : Nat) : CString :=
  snprintf pathSize (adapter.devicePrefix ++ kindPrefix ++ key)

/-- `"%lu"`. -/
def decimal (n : Nat) : CString := (Nat.toDigits 10 n).map fun c => c.toNat.toUInt8

section
variable {σ : Type} (adapter : RaftStorageAdapter) (w : StorageWorld σ) (env : CallEnv)

/-- What the three save functions share, once they have their key. -/
def raftSave (kindPrefix key : CString) (data : Bytes) : Option (StorageWorld σ × StorageReply) :=
  if data.length = 0 then some (w, .ofCode .invalidParam)
  else storageManagerWrite w env (buildFullPath adapter kindPrefix key maxPathLen) 0 data

/-- What the three load functions share. `*size` goes in and is never set. -/
def raftLoad (kindPrefix key : CString) (size : Nat) : Option (StorageWorld σ × StorageReply) :=
  storageManagerRead w env (buildFullPath adapter kindPrefix key maxPathLen) 0 size

def raftStorageAppendLog (logIndex : UInt64) (entryData : Bytes) : Option (StorageWorld σ × StorageReply) :=
  raftSave adapter w env adapter.logPrefix (snprintf 64 (decimal logIndex.toNat)) entryData

def raftStorageReadLog (logIndex : UInt64) (size : Nat) : Option (StorageWorld σ × StorageReply) :=
  raftLoad adapter w env adapter.logPrefix (snprintf 64 (decimal logIndex.toNat)) size

def raftStorageSaveState (stateKey : CString) (stateData : Bytes) : Option (StorageWorld σ × StorageReply) :=
  raftSave adapter w env adapter.statePrefix stateKey stateData

def raftStorageLoadState (stateKey : CString) (size : Nat) : Option (StorageWorld σ × StorageReply) :=
  raftLoad adapter w env adapter.statePrefix stateKey size

def raftStorageSaveSnapshot (snapshotIndex : UInt64) (snapshotData : Bytes) :
    Option (StorageWorld σ × StorageReply) :=
  raftSave adapter w env adapter.snapshotPrefix (snprintf 64 (decimal snapshotIndex.toNat)) snapshotData

def raftStorageLoadSnapshot (snapshotIndex : UInt64) (size : Nat) : Option (StorageWorld σ × StorageReply) :=
  raftLoad adapter w env adapter.snapshotPrefix (snprintf 64 (decimal snapshotIndex.toNat)) size

end

/-! ## Keys -/

/-- What a value is saved under. -/
inductive RaftKey where
  | log (index : UInt64)
  | state (key : CString)
  | snapshot (index : UInt64)
  deriving DecidableEq

/-- A save with its key and its value, in the environment it meets. -/
structure RaftSave where
  env : CallEnv
  key : RaftKey
  value : Bytes

section
variable {σ : Type} (adapter : RaftStorageAdapter)

def RaftStorageAdapter.save (w : StorageWorld σ) (s : RaftSave) : Option (StorageWorld σ × StorageReply) :=
  match s.key with
  | .log index => raftStorageAppendLog adapter w s.env index s.value
  | .state key => raftStorageSaveState adapter w s.env key s.value
  | .snapshot index => raftStorageSaveSnapshot adapter w s.env index s.value

/-- The load that matches a save under `key`. -/
def RaftStorageAdapter.load (w : StorageWorld σ) (env : CallEnv) (key : RaftKey) (size : Nat) :
    Option (StorageWorld σ × StorageReply) :=
  match key with
  | .log index => raftStorageReadLog adapter w env index size
  | .state key => raftStorageLoadState adapter w env key size
  | .snapshot index => raftStorageLoadSnapshot adapter w env index size

def RaftStorageAdapter.saveMachine : Lib.Machine (StorageWorld σ) RaftSave StorageReply where
  step := adapter.save

/-- The text a key's path is cut from. -/
def RaftStorageAdapter.pathText : RaftKey → CString
  | .log index => adapter.devicePrefix ++ adapter.logPrefix ++ decimal index.toNat
  | .state key => adapter.devicePrefix ++ adapter.statePrefix ++ key
  | .snapshot index => adapter.devicePrefix ++ adapter.snapshotPrefix ++ decimal index.toNat

/-- What an adapter puts behind its device prefix. -/
def RaftKey.text : RaftKey → CString
  | .log index => cstr "log_" ++ decimal index.toNat
  | .state key => cstr "state_" ++ key
  | .snapshot index => cstr "snap_" ++ decimal index.toNat

/-- The path a key is kept at. -/
def RaftStorageAdapter.path (key : RaftKey) : CString := snprintf maxPathLen (adapter.pathText key)

end

/-! ## Decimal numbers -/

theorem decimal_length {n : Nat} (h : n < 2 ^ 64) : (decimal n).length ≤ 20 := by
  rw [decimal, List.length_map, Nat.length_toDigits_le_iff (by omega) (by omega)]
  omega

theorem toNat_toDigits {n : Nat} {c : Char} (hc : c ∈ Nat.toDigits 10 n) : c.toNat ≤ 57 := by
  have hdigit := Nat.isDigit_of_mem_toDigits (by omega) (Nat.le_refl 10) hc
  simp only [Char.isDigit, Bool.and_eq_true, decide_eq_true_eq, UInt32.le_iff_toNat_le] at hdigit
  exact hdigit.2

/-- The digits can be read off the bytes. -/
theorem decimal_chars (n : Nat) : (decimal n).map (fun b => Char.ofNat b.toNat) = Nat.toDigits 10 n := by
  rw [decimal, List.map_map]
  refine (List.map_congr_left fun c hc => ?_).trans (List.map_id _)
  -- a digit's code fits a byte
  have hlt : c.toNat < 256 := by
    have := toNat_toDigits hc
    omega
  simp only [Function.comp_apply, Nat.toUInt8_eq, UInt8.toNat_ofNat', Nat.mod_eq_of_lt hlt, Char.ofNat_toNat, id]

theorem decimal_inj {m n : Nat} (h : decimal m = decimal n) : m = n := by
  have hdigits : Nat.toDigits 10 m = Nat.toDigits 10 n := by rw [← decimal_chars, h, decimal_chars]
  have := congrArg (fun l => Nat.ofDigitChars 10 l 0) hdigits
  simpa only [Nat.ofDigitChars_ten_toDigits] using this

/-! ## One path for each key -/

section
variable {σ : Type} (adapter : RaftStorageAdapter) (w : StorageWorld σ)

theorem snprintf_decimal (i : UInt64) : snprintf 64 (decimal i.toNat) = decimal i.toNat :=
  snprintf_eq (by have := decimal_length i.toNat_lt; omega)

/-- Every save is a write at the start of its key's file. -/
theorem save_eq (s : RaftSave) (hs : s.value.length ≠ 0) :
    adapter.save w s = storageManagerWrite w s.env (adapter.path s.key) 0 s.value := by
  obtain ⟨env, key, value⟩ := s
  cases key <;>
    simp only [RaftStorageAdapter.save, raftStorageAppendLog, raftStorageSaveState, raftStorageSaveSnapshot, raftSave,
      if_neg hs, buildFullPath, RaftStorageAdapter.path, RaftStorageAdapter.pathText, snprintf_decimal]

/-- Every load is a read from the start of its key's file. -/
theorem load_eq (env : CallEnv) (key : RaftKey) (size : Nat) :
    adapter.load w env key size = storageManagerRead w env (adapter.path key) 0 size := by
  cases key <;>
    simp only [RaftStorageAdapter.load, raftStorageReadLog, raftStorageLoadState, raftStorageLoadSnapshot, raftLoad,
      buildFullPath, RaftStorageAdapter.path, RaftStorageAdapter.pathText, snprintf_decimal]

end

theorem pathText_eq {p : CString} (hp : p.length < 64) (key : RaftKey) :
    (raftStorageAdapterInit p).pathText key = p ++ key.text := by
  have hcopy : strncpy p 63 = p := strncpy_eq (by omega)
  cases key <;> simp [RaftStorageAdapter.pathText, raftStorageAdapterInit, RaftKey.text, hcopy]

/-- Paths that are not cut short tell their keys apart. -/
theorem path_inj {devicePrefix : CString} {k k' : RaftKey}
    (hk : ((raftStorageAdapterInit devicePrefix).pathText k).length < maxPathLen)
    (hk' : ((raftStorageAdapterInit devicePrefix).pathText k').length < maxPathLen)
    (h : (raftStorageAdapterInit devicePrefix).path k = (raftStorageAdapterInit devicePrefix).path k') : k = k' := by
  rw [RaftStorageAdapter.path, RaftStorageAdapter.path, snprintf_eq hk, snprintf_eq hk'] at h
  cases k <;> cases k' <;>
    simp only [RaftStorageAdapter.pathText, raftStorageAdapterInit, List.append_assoc, List.append_cancel_left_eq] at h
  case log.log i j => rw [UInt64.toNat_inj.1 (decimal_inj h)]
  case state.state s t => rw [h]
  case snapshot.snapshot i j => rw [UInt64.toNat_inj.1 (decimal_inj h)]
  all_goals simp [cstr] at h

end XDevice
