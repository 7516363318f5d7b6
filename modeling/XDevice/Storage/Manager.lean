import XDevice.Storage.Mock
/-!
# The storage manager

`storage_manager.c` up to the Raft adapter. Backends are objects on a heap, and
the manager's slots hold pointers to them, so one object can be registered,
replaced and cleaned up through any slot. Dereferencing an empty slot is
undefined. Load balancing and caching are configured but never consulted.
-/

namespace XDevice

/-- `storage_interface_t` for private data of type `σ`. An entry the C code
tests against `NULL` before calling it is an `Option`. -/
structure StorageInterface (σ : Type) where
  type : StorageBackendType
  privateData : σ
  cleanup : Option (σ → σ × XdeviceError)
  healthCheck : Option (σ → XdeviceError)
  readSync : CallEnv → σ → CString → Nat → Nat → Option (σ × StorageReply)
  writeSync : CallEnv → σ → CString → Nat → Bytes → Option (σ × StorageReply)
  fsync : Option (CallEnv → σ → CString → Option (σ × StorageReply))

/-- A backend that has a `health_check`, which says `XDEVICE_OK`. -/
def StorageInterface.healthy {σ : Type} (b : StorageInterface σ) : Bool :=
  match b.healthCheck with
  | none => false
  | some check => check b.privateData = .ok

/-- `routing_policy`, the fields some function reads. -/
structure RoutingPolicy where
  primaryBackend : StorageBackendType
  fallbackBackend : StorageBackendType
  autoFailover : Bool
  deriving DecidableEq, Repr

/-- `storage_manager_t`. -/
structure StorageManager where
  backends : List (Option Nat)
  backendCount : Nat
  routingPolicy : RoutingPolicy
  globalStats : StorageStats

/-- A manager and the heap its slots point into. -/
structure StorageWorld (σ : Type) where
  manager : StorageManager
  heap : Nat → StorageInterface σ

def storageManagerInit : StorageManager where
  backends := List.replicate maxStorageBackends none
  backendCount := 0
  routingPolicy := ⟨.local, .mock, true⟩
  globalStats := .zero

namespace StorageWorld

variable {σ : Type} (w : StorageWorld σ)

/-- The private data of the object at `ptr` changed by a call on it. -/
def setData (ptr : Nat) (data : σ) : StorageWorld σ :=
  { w with heap := fun p => if p = ptr then { w.heap p with privateData := data } else w.heap p }

def withStats (st : StorageStats) : StorageWorld σ := { w with manager := { w.manager with globalStats := st } }

/-- `cleanup`, when the object has one. -/
def cleanup (ptr : Nat) : StorageWorld σ :=
  match (w.heap ptr).cleanup with
  | none => w
  | some f => w.setData ptr (f (w.heap ptr).privateData).1

/-- The slots below `backend_count`. -/
def slots : List (Option Nat) := w.manager.backends.take w.manager.backendCount

/-- The first slot in `slots` that points to a wanted and healthy backend. -/
def firstHealthy (wanted : StorageBackendType → Bool) : List (Option Nat) → Option (Option Nat)
  | [] => some none
  | none :: _ => none
  | some ptr :: slots =>
    if wanted (w.heap ptr).type && (w.heap ptr).healthy then some (some ptr) else firstHealthy wanted slots

/-- The position of the first slot in `slots` that points to a backend of `type`. -/
def findType (type : StorageBackendType) : List (Option Nat) → Option (Option Nat)
  | [] => some none
  | none :: _ => none
  | some ptr :: slots => if (w.heap ptr).type = type then some (some 0) else (findType type slots).map (·.map (· + 1))

end StorageWorld

section
variable {σ : Type} (w : StorageWorld σ)

theorem setData_heap (ptr : Nat) (data : σ) (q : Nat) :
    (w.setData ptr data).heap q =
      if q = ptr then { w.heap q with privateData := data } else w.heap q := rfl

/-- `some none` is a null pointer: no usable backend. -/
def selectBackend : Option (Option Nat) :=
  let policy := w.manager.routingPolicy
  if w.manager.backendCount = 0 then some none
  else
    (w.firstHealthy (· = policy.primaryBackend) w.slots).bind fun
      | some ptr => some (some ptr)
      | none =>
        (if policy.autoFailover then w.firstHealthy (· = policy.fallbackBackend) w.slots else some none).bind fun
          | some ptr => some (some ptr)
          | none => w.firstHealthy (fun _ => true) w.slots

def storageManagerRegisterBackend (backend : Nat) : Option (StorageWorld σ × XdeviceError) :=
  if maxStorageBackends ≤ w.manager.backendCount then some (w, .error)
  else
    (w.findType (w.heap backend).type w.slots).bind fun
      | some i =>
        ((w.manager.backends[i]?).bind id).map fun old =>
          let w := w.cleanup old
          ({ w with manager := { w.manager with backends := w.manager.backends.set i (some backend) } }, .ok)
      | none =>
        some ({ w with manager := { w.manager with
          backends := w.manager.backends.set w.manager.backendCount (some backend)
          backendCount := w.manager.backendCount + 1 } }, .ok)

def storageManagerUnregisterBackend (type : StorageBackendType) : Option (StorageWorld σ × XdeviceError) :=
  (w.findType type w.slots).bind fun
    | some i =>
      ((w.manager.backends[i]?).bind id).map fun old =>
        let w := w.cleanup old
        let count := w.manager.backendCount - 1
        ({ w with manager := { w.manager with
          backends := (w.slots.eraseIdx i) ++ [none] ++ w.manager.backends.drop w.manager.backendCount
          backendCount := count } }, .ok)
    | none => some (w, .notFound)

def storageManagerCleanup : StorageWorld σ :=
  let w' := w.slots.foldl (fun w slot => slot.elim w w.cleanup) w
  { w' with manager := { w'.manager with
    backends := List.replicate w.manager.backendCount none ++ w.manager.backends.drop w.manager.backendCount
    backendCount := 0 } }

/-- `update_stats`, and the error counter the callers bump on a failed call. -/
def updateStats (isRead : Bool) (size latency : Nat) (code : XdeviceError) : StorageWorld σ :=
  let st := w.manager.globalStats
  w.withStats <|
    if code = .ok then (if isRead then st.countRead size latency else st.countWrite size latency)
    else st.countError

def storageManagerRead (env : CallEnv) (path : CString) (offset size : Nat) :
    Option (StorageWorld σ × StorageReply) :=
  if size = 0 then some (w, .ofCode .invalidParam)
  else
    (selectBackend w).bind fun
      | none => some (w, .ofCode .error)
      | some ptr =>
        ((w.heap ptr).readSync env (w.heap ptr).privateData path offset size).map fun (data, reply) =>
          (updateStats (w.setData ptr data) true size env.latencyNs reply.code, reply)

def storageManagerWrite (env : CallEnv) (path : CString) (offset : Nat) (data : Bytes) :
    Option (StorageWorld σ × StorageReply) :=
  if data.length = 0 then some (w, .ofCode .invalidParam)
  else
    (selectBackend w).bind fun
      | none => some (w, .ofCode .error)
      | some ptr =>
        ((w.heap ptr).writeSync env (w.heap ptr).privateData path offset data).map fun (priv, reply) =>
          (updateStats (w.setData ptr priv) false data.length env.latencyNs reply.code, reply)

def storageManagerSync (env : CallEnv) (path : CString) : Option (StorageWorld σ × StorageReply) :=
  (selectBackend w).bind fun
    | none => some (w, .ofCode .error)
    | some ptr =>
      match (w.heap ptr).fsync with
      | none => some (w, .ofCode .ok)
      | some f => (f env (w.heap ptr).privateData path).map fun (priv, reply) => (w.setData ptr priv, reply)

end

/-! ## The Mock backend behind the interface -/

/-- A call on private data that `cleanup` may have released. -/
def onLive {ρ : Type} (data : Option ρ) (f : ρ → Option (ρ × StorageReply)) : Option (Option ρ × StorageReply) :=
  match data with
  | none => some (none, .ofCode .invalidParam)
  | some priv => (f priv).map fun (priv, reply) => (some priv, reply)

/-- `create_mock_storage_interface`, then `init`. -/
def createMockStorageInterface : StorageInterface (Option MockStoragePrivate) where
  type := .mock
  privateData := some mockStorageInit
  cleanup := some fun data => (none, if data.isSome then .ok else .invalidParam)
  healthCheck := some fun data => data.elim .invalidParam mockStorageHealthCheck
  readSync env data path offset size := onLive data fun priv => mockStorageReadSync env priv path offset size
  writeSync env data path offset bytes := onLive data fun priv => mockStorageWriteSync env priv path offset bytes
  fsync := some fun _ data path => onLive data fun priv => some (mockStorageFsync priv path)

end XDevice
