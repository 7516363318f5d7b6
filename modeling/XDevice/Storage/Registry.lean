import XDevice.Storage.Manager
/-!
# The registry of backends

The manager keeps the pointers it was given at the front of its slots, one for each type.
A pointer that leaves has its `cleanup` called, by whichever of the three calls it leaves.
Registering an object over itself calls it as well, and the object stays.
-/
open Lib

namespace XDevice

variable {σ : Type}

/-! ## Calls and what they should leave -/

/-- The backend with a count of the calls of its `cleanup` beside its private data. -/
def counted (b : StorageInterface σ) : StorageInterface (σ × Nat) where
  type := b.type
  privateData := (b.privateData, 0)
  cleanup := b.cleanup.map fun f data => (((f data.1).1, data.2 + 1), (f data.1).2)
  healthCheck := b.healthCheck.map fun check data => check data.1
  readSync env data path offset size :=
    (b.readSync env data.1 path offset size).map fun (priv, reply) => ((priv, data.2), reply)
  writeSync env data path offset bytes :=
    (b.writeSync env data.1 path offset bytes).map fun (priv, reply) => ((priv, data.2), reply)
  fsync := b.fsync.map fun f env data path => (f env data.1 path).map fun (priv, reply) => ((priv, data.2), reply)

inductive RegistryCall where
  | register (backend : Nat)
  | unregister (type : StorageBackendType)
  | cleanup
  deriving DecidableEq, Repr

def registry : Machine (StorageWorld σ) RegistryCall XdeviceError where
  step w
    | .register backend => storageManagerRegisterBackend w backend
    | .unregister type => storageManagerUnregisterBackend w type
    | .cleanup => some (storageManagerCleanup w, .ok)

/-- A new manager beside the objects of a program, none of them cleaned up. -/
def newRegistry (objects : Nat → StorageInterface σ) : StorageWorld (σ × Nat) :=
  ⟨storageManagerInit, fun ptr => counted (objects ptr)⟩

namespace StorageWorld

/-- The registered backends in order. -/
def registered (w : StorageWorld σ) : List Nat := w.slots.filterMap id

/-- How often the object's `cleanup` was called. -/
def cleanups (w : StorageWorld (σ × Nat)) (ptr : Nat) : Nat := (w.heap ptr).privateData.2

end StorageWorld

/-- The registered backends are at the front of the slots, the rest is `NULL`, and no two
have one type. -/
structure RegistryOk (w : StorageWorld σ) : Prop where
  backends : w.manager.backends = w.registered.map some ++ List.replicate (maxStorageBackends - w.manager.backendCount) none
  count : w.registered.length = w.manager.backendCount
  room : w.manager.backendCount ≤ maxStorageBackends
  types : (w.registered.map fun ptr => (w.heap ptr).type).Nodup

/-- The slots are in order, and no registered backend was cleaned up. -/
structure RegistryLive (w : StorageWorld (σ × Nat)) : Prop where
  ok : RegistryOk w
  live : ∀ ptr ∈ w.registered, w.cleanups ptr = 0

/-- The backends that stay keep their order, and `cleanup` is called once for each backend
that leaves and for no other. -/
structure CleansUp (w w' : StorageWorld (σ × Nat)) : Prop where
  order : w.registered.filter (· ∈ w'.registered) = w'.registered.filter (· ∈ w.registered)
  calls : ∀ ptr, (w.heap ptr).cleanup ≠ none →
    w'.cleanups ptr = w.cleanups ptr + if ptr ∈ w.registered ∧ ptr ∉ w'.registered then 1 else 0

def LeavesCleaned (w : StorageWorld (σ × Nat)) (c : RegistryCall) : Prop :=
  ∀ w' code, registry.step w c = some (w', code) → CleansUp w w'

/-- A backend that is registered, while there is room, has no `cleanup`, or is not
registered already and was not cleaned up. -/
def RegistersLive (w : StorageWorld (σ × Nat)) : RegistryCall → Prop
  | .register backend =>
    w.manager.backendCount < maxStorageBackends → (w.heap backend).cleanup ≠ none →
      backend ∉ w.registered ∧ w.cleanups backend = 0
  | _ => True

/-! ## The slots as a list of pointers -/

section
variable {w w' : StorageWorld σ} {ptrs : List Nat}

theorem slots_eq {k : Nat} (hb : w.manager.backends = ptrs.map some ++ List.replicate k none)
    (hc : w.manager.backendCount = ptrs.length) : w.slots = ptrs.map some := by
  rw [StorageWorld.slots, hb, hc]
  exact List.take_left' (List.length_map _)

theorem registered_eq {k : Nat} (hb : w.manager.backends = ptrs.map some ++ List.replicate k none)
    (hc : w.manager.backendCount = ptrs.length) : w.registered = ptrs := by
  rw [StorageWorld.registered, slots_eq hb hc, List.filterMap_map]
  exact List.filterMap_some

theorem RegistryOk.slots (h : RegistryOk w) : w.slots = w.registered.map some := slots_eq h.backends h.count.symm

theorem RegistryOk.of (ptrs : List Nat)
    (hb : w.manager.backends = ptrs.map some ++ List.replicate (maxStorageBackends - ptrs.length) none)
    (hc : w.manager.backendCount = ptrs.length) (hroom : ptrs.length ≤ maxStorageBackends)
    (ht : (ptrs.map fun ptr => (w.heap ptr).type).Nodup) : w.registered = ptrs ∧ RegistryOk w := by
  have hptrs := registered_eq hb hc
  refine ⟨hptrs, ?_, ?_, hc ▸ hroom, ?_⟩
  · rw [hptrs, hc]
    exact hb
  · rw [hptrs, hc]
  · rw [hptrs]
    exact ht

theorem findType_map (w : StorageWorld σ) (type : StorageBackendType) (ptrs : List Nat) :
    w.findType type (ptrs.map some) = some (indexOf (fun ptr => (w.heap ptr).type) ptrs type) := by
  induction ptrs with
  | nil => rfl
  | cons ptr ptrs ih =>
    rw [List.map_cons, StorageWorld.findType, indexOf_cons]
    split
    · rfl
    · rw [ih]
      rfl

theorem cleanup_type (w : StorageWorld σ) (old ptr : Nat) : ((w.cleanup old).heap ptr).type = (w.heap ptr).type := by
  unfold StorageWorld.cleanup
  split
  · rfl
  · simp only [StorageWorld.setData]
    split <;> rfl

theorem cleanup_cleanup (w : StorageWorld σ) (old ptr : Nat) :
    ((w.cleanup old).heap ptr).cleanup = (w.heap ptr).cleanup := by
  unfold StorageWorld.cleanup
  split
  · rfl
  · simp only [StorageWorld.setData]
    split <;> rfl

theorem cleanup_manager (w : StorageWorld σ) (old : Nat) : (w.cleanup old).manager = w.manager := by
  unfold StorageWorld.cleanup
  split <;> rfl

theorem RegistryOk.nodup (h : RegistryOk w) : w.registered.Nodup := h.types.of_map _

/-- A slot found by its type is somewhere among the registered backends. -/
theorem RegistryOk.split (h : RegistryOk w) {type : StorageBackendType} {i : Nat}
    (hi : indexOf (fun ptr => (w.heap ptr).type) w.registered type = some i) :
    ∃ l₁ old l₂, w.registered = l₁ ++ old :: l₂ ∧ l₁.length = i ∧ (w.heap old).type = type ∧
      (w.manager.backends[i]?).bind id = some old := by
  obtain ⟨l₁, old, l₂, hl, rfl, htype⟩ := indexOf_split _ hi
  refine ⟨l₁, old, l₂, hl, rfl, htype, ?_⟩
  rw [h.backends, hl]
  simp

/-- What registering does: nothing in a full registry, or the backend takes the place of
one of its type, or the next slot. -/
theorem register_cases (h : RegistryOk w) (backend : Nat) :
    (maxStorageBackends ≤ w.manager.backendCount ∧ storageManagerRegisterBackend w backend = some (w, .error)) ∨
    (w.manager.backendCount < maxStorageBackends ∧
      ((∃ l₁ old l₂ w', w.registered = l₁ ++ old :: l₂ ∧ (w.heap old).type = (w.heap backend).type ∧
          storageManagerRegisterBackend w backend = some (w', .ok) ∧ w'.registered = l₁ ++ backend :: l₂ ∧
          RegistryOk w' ∧ w'.heap = (w.cleanup old).heap) ∨
        (backend ∉ w.registered ∧ ∃ w', storageManagerRegisterBackend w backend = some (w', .ok) ∧
          w'.registered = w.registered ++ [backend] ∧ RegistryOk w' ∧ w'.heap = w.heap))) := by
  unfold storageManagerRegisterBackend
  by_cases hfull : maxStorageBackends ≤ w.manager.backendCount
  · exact .inl ⟨hfull, if_pos hfull⟩
  have hcount := h.count
  refine .inr ⟨Nat.not_le.1 hfull, ?_⟩
  rw [if_neg hfull, h.slots, findType_map, Option.bind_some]
  cases hfind : indexOf (fun ptr => (w.heap ptr).type) w.registered (w.heap backend).type with
  | some i =>
    obtain ⟨l₁, old, l₂, hl, rfl, htype, hslot⟩ := h.split hfind
    refine .inl ⟨l₁, old, l₂, _, hl, htype, by dsimp only; rw [hslot]; rfl, ?_⟩
    -- the slot of the old backend is overwritten after its `cleanup`
    have hlen : (l₁ ++ backend :: l₂).length = w.manager.backendCount := by
      rw [← hcount, hl]
      simp
    have hspec := RegistryOk.of (w := { w.cleanup old with manager := { (w.cleanup old).manager with
      backends := (w.cleanup old).manager.backends.set l₁.length (some backend) } }) (l₁ ++ backend :: l₂)
      ?_ ?_ ?_ ?_
    · exact ⟨hspec.1, hspec.2, rfl⟩
    · simp only [cleanup_manager, h.backends, hl, hlen]
      simp
    · rw [hlen]
      simp only [cleanup_manager]
    · rw [hlen]
      exact h.room
    · have htypes := h.types
      simp only [cleanup_type]
      rw [hl] at htypes
      simpa [htype] using htypes
  | none =>
    have hnew := (lookup_eq_none _).1 ((indexOf_eq_none _).1 hfind)
    refine .inr ⟨fun hmem => hnew (List.mem_map_of_mem hmem), _, rfl, ?_⟩
    have hlen : (w.registered ++ [backend]).length = w.manager.backendCount + 1 := by
      rw [List.length_append, hcount, List.length_singleton]
    have hspec := RegistryOk.of (w := { w with manager := { w.manager with
      backends := w.manager.backends.set w.manager.backendCount (some backend)
      backendCount := w.manager.backendCount + 1 } }) (w.registered ++ [backend]) ?_ ?_ ?_ ?_
    · exact ⟨hspec.1, hspec.2, rfl⟩
    · obtain ⟨k, hk⟩ := Nat.exists_eq_add_of_lt (Nat.not_le.1 hfull)
      simp only [h.backends, hlen, List.map_append, List.append_assoc]
      rw [← hcount, List.set_append_right _ _ (by simp), List.length_map, Nat.sub_self, hcount,
        show maxStorageBackends - w.manager.backendCount = k + 1 by omega,
        show maxStorageBackends - (w.manager.backendCount + 1) = k by omega, List.replicate_succ, List.set_cons_zero]
      rfl
    · exact hlen.symm
    · rw [hlen]
      omega
    · rw [List.map_append, List.nodup_append]
      refine ⟨h.types, List.nodup_singleton _, ?_⟩
      rintro x hx y hy rfl
      obtain rfl := List.mem_singleton.1 hy
      exact hnew hx

/-- What unregistering does: nothing, or the backend of the type leaves. -/
theorem unregister_cases (h : RegistryOk w) (type : StorageBackendType) :
    storageManagerUnregisterBackend w type = some (w, .notFound) ∨
    ∃ l₁ old l₂ w', w.registered = l₁ ++ old :: l₂ ∧ storageManagerUnregisterBackend w type = some (w', .ok) ∧
      w'.registered = l₁ ++ l₂ ∧ RegistryOk w' ∧ w'.heap = (w.cleanup old).heap := by
  unfold storageManagerUnregisterBackend
  rw [h.slots, findType_map, Option.bind_some]
  cases hfind : indexOf (fun ptr => (w.heap ptr).type) w.registered type with
  | none => exact .inl rfl
  | some i =>
    obtain ⟨l₁, old, l₂, hl, rfl, -, hslot⟩ := h.split hfind
    refine .inr ⟨l₁, old, l₂, _, hl, by dsimp only; rw [hslot]; rfl, ?_⟩
    have hcount := h.count
    have hroom := h.room
    have hlen : (l₁ ++ l₂).length + 1 = w.manager.backendCount := by
      rw [← hcount, hl]
      simp
      omega
    have hmanager : (w.cleanup old).manager = w.manager := cleanup_manager w old
    have hspec := RegistryOk.of (w := { w.cleanup old with manager := { (w.cleanup old).manager with
      backends := (w.cleanup old).slots.eraseIdx l₁.length ++ [none] ++
        (w.cleanup old).manager.backends.drop (w.cleanup old).manager.backendCount
      backendCount := (w.cleanup old).manager.backendCount - 1 } }) (l₁ ++ l₂) ?_ ?_ ?_ ?_
    · exact ⟨hspec.1, hspec.2, rfl⟩
    · have hslots : (w.cleanup old).slots = w.slots := by rw [StorageWorld.slots, hmanager, StorageWorld.slots]
      have hrest : w.manager.backends.drop w.manager.backendCount =
          List.replicate (maxStorageBackends - w.manager.backendCount) none := by
        rw [h.backends, ← hcount]
        exact List.drop_left' (List.length_map _)
      simp only [hslots, hmanager, hrest, h.slots, hl]
      rw [show maxStorageBackends - (l₁ ++ l₂).length = maxStorageBackends - w.manager.backendCount + 1 by omega,
        List.replicate_succ, List.map_append, List.map_cons, List.eraseIdx_append_of_length_le (by simp)]
      simp
    · simp only [hmanager]
      omega
    · omega
    · have htypes := h.types
      simp only [cleanup_type]
      rw [hl] at htypes
      exact htypes.sublist (((List.sublist_cons_self old l₂).append_left l₁).map _)

/-- Cleaning up calls `cleanup` on every backend and leaves no slot in use. -/
theorem storageManagerCleanup_spec (h : RegistryOk w) :
    (storageManagerCleanup w).registered = [] ∧ RegistryOk (storageManagerCleanup w) ∧
      (storageManagerCleanup w).heap = (w.registered.foldl StorageWorld.cleanup w).heap := by
  have hfold : w.slots.foldl (fun w slot => slot.elim w w.cleanup) w = w.registered.foldl StorageWorld.cleanup w := by
    rw [h.slots, List.foldl_map]
    rfl
  unfold storageManagerCleanup
  rw [hfold]
  have hspec := RegistryOk.of (w := { w.registered.foldl StorageWorld.cleanup w with
    manager := { (w.registered.foldl StorageWorld.cleanup w).manager with
      backends := List.replicate w.manager.backendCount none ++ w.manager.backends.drop w.manager.backendCount
      backendCount := 0 } }) [] ?_ rfl (Nat.zero_le _) List.nodup_nil
  · exact ⟨hspec.1, hspec.2, rfl⟩
  · have hrest : w.manager.backends.drop w.manager.backendCount =
        List.replicate (maxStorageBackends - w.manager.backendCount) none := by
      rw [h.backends, ← h.count]
      exact List.drop_left' (List.length_map _)
    have hroom := h.room
    simp only [hrest, List.replicate_append_replicate]
    rw [Nat.add_sub_cancel' hroom]
    rfl

end

/-! ## How often `cleanup` was called -/

/-- Every object counts the calls of its `cleanup`; one that has none counts none. -/
structure CountsCleanups (w : StorageWorld (σ × Nat)) : Prop where
  counts : ∀ ptr f, (w.heap ptr).cleanup = some f → ∀ data, (f data).1.2 = data.2 + 1
  without : ∀ ptr, (w.heap ptr).cleanup = none → w.cleanups ptr = 0

section
variable {w w' : StorageWorld (σ × Nat)}

theorem countsCleanups_new (objects : Nat → StorageInterface σ) : CountsCleanups (newRegistry objects) where
  counts ptr f hf data := by
    obtain ⟨g, -, rfl⟩ := Option.map_eq_some_iff.1 hf
    rfl
  without _ _ := rfl

theorem cleanups_cleanup (h : CountsCleanups w) (old ptr : Nat) :
    (w.cleanup old).cleanups ptr = w.cleanups ptr + if ptr = old ∧ (w.heap ptr).cleanup ≠ none then 1 else 0 := by
  unfold StorageWorld.cleanup
  split
  · rename_i hnone
    rw [if_neg]
    · rfl
    · rintro ⟨rfl, hsome⟩
      exact hsome hnone
  · rename_i f hf
    simp only [StorageWorld.cleanups, setData_heap]
    by_cases hptr : ptr = old
    · subst hptr
      rw [if_pos rfl, if_pos ⟨rfl, by rw [hf]; nofun⟩]
      exact h.counts ptr f hf _
    · rw [if_neg hptr, if_neg fun hc => hptr hc.1, Nat.add_zero]

theorem CountsCleanups.of_heap (h : CountsCleanups w) (he : w'.heap = w.heap) : CountsCleanups w' where
  counts := by
    rw [he]
    exact h.counts
  without ptr hnone := by
    rw [he] at hnone
    rw [StorageWorld.cleanups, he]
    exact h.without ptr hnone

theorem CountsCleanups.cleanup (h : CountsCleanups w) (old : Nat) : CountsCleanups (w.cleanup old) where
  counts ptr f hf := h.counts ptr f ((cleanup_cleanup w old ptr).symm.trans hf)
  without ptr hnone := by
    rw [cleanup_cleanup] at hnone
    rw [cleanups_cleanup h, h.without ptr hnone, if_neg fun hc => hc.2 hnone]

theorem cleanups_foldl {ptrs : List Nat} (h : CountsCleanups w) (hn : ptrs.Nodup) (ptr : Nat) :
    (ptrs.foldl StorageWorld.cleanup w).cleanups ptr =
      w.cleanups ptr + if ptr ∈ ptrs ∧ (w.heap ptr).cleanup ≠ none then 1 else 0 := by
  induction ptrs generalizing w with
  | nil => simp
  | cons old ptrs ih =>
    obtain ⟨hold, hn⟩ := List.nodup_cons.1 hn
    rw [List.foldl_cons, ih (h.cleanup old) hn, cleanups_cleanup h, cleanup_cleanup]
    by_cases hptr : ptr = old
    · subst hptr
      simp [hold]
    · simp [hptr]

theorem CountsCleanups.foldl (h : CountsCleanups w) (ptrs : List Nat) :
    CountsCleanups (ptrs.foldl StorageWorld.cleanup w) := by
  induction ptrs generalizing w with
  | nil => exact h
  | cons old ptrs ih => exact ih (h.cleanup old)

end

/-! ## Main theorem -/

/-- The backends that stay when one leaves and new ones take its place. -/
theorem survivors {l₁ l₂ mid : List Nat} {old : Nat} (hn : (l₁ ++ old :: l₂).Nodup)
    (hmid : ∀ x ∈ mid, x ∉ l₁ ++ old :: l₂) :
    (l₁ ++ old :: l₂).filter (· ∈ l₁ ++ mid ++ l₂) = (l₁ ++ mid ++ l₂).filter (· ∈ l₁ ++ old :: l₂) ∧
    ∀ ptr, (ptr ∈ l₁ ++ old :: l₂ ∧ ptr ∉ l₁ ++ mid ++ l₂) ↔ ptr = old := by
  have hold : old ∉ l₁ ++ mid ++ l₂ := by
    have hold1 : old ∉ l₁ ∧ old ∉ l₂ := by
      rw [List.nodup_middle, List.nodup_cons, List.mem_append, not_or] at hn
      exact hn.1
    have hold2 : old ∉ mid := fun h => hmid old h (by simp)
    simp [hold1, hold2]
  constructor
  · have hleft : (l₁ ++ old :: l₂).filter (· ∈ l₁ ++ mid ++ l₂) = l₁ ++ l₂ := by
      rw [List.filter_append, List.filter_cons_of_neg (by simpa using hold), List.filter_eq_self.2 (by simp +contextual),
        List.filter_eq_self.2 (by simp +contextual)]
    have hright : (l₁ ++ mid ++ l₂).filter (· ∈ l₁ ++ old :: l₂) = l₁ ++ l₂ := by
      rw [List.filter_append, List.filter_append, List.filter_eq_self.2 (by simp +contextual),
        List.filter_eq_nil_iff.2 (by simpa using hmid), List.filter_eq_self.2 (by simp +contextual), List.append_nil]
    rw [hleft, hright]
  · intro ptr
    constructor
    · rintro ⟨hin, hout⟩
      simp only [List.mem_append, List.mem_cons, not_or] at hin hout
      rcases hin with h | h | h
      · exact absurd h hout.1.1
      · exact h
      · exact absurd h hout.2
    · rintro rfl
      exact ⟨by simp, hold⟩

/-- What every call keeps, also once a backend was cleaned up too early. -/
structure RegistryCounted (w : StorageWorld (σ × Nat)) : Prop where
  ok : RegistryOk w
  counts : CountsCleanups w

/-- A call that leaves the order and the counts, while the registered backends are live
and the condition holds, and otherwise a backend that is not live. -/
def StepsTo (w : StorageWorld (σ × Nat)) (c : RegistryCall) (w' : StorageWorld (σ × Nat)) : Prop :=
  RegistryCounted w' ∧ ((∀ ptr ∈ w.registered, w.cleanups ptr = 0) →
    (RegistersLive w c → CleansUp w w' ∧ ∀ ptr ∈ w'.registered, w'.cleanups ptr = 0) ∧
    (¬ RegistersLive w c → ∃ ptr ∈ w'.registered, w'.cleanups ptr ≠ 0))

section
variable {w w' : StorageWorld (σ × Nat)} {backend : Nat}

theorem CleansUp.of_same (hreg : w'.registered = w.registered) (hheap : w'.heap = w.heap) : CleansUp w w' where
  order := by rw [hreg]
  calls ptr _ := by
    rw [hreg, if_neg fun hc => hc.2 hc.1, StorageWorld.cleanups, hheap]
    rfl

theorem StepsTo.of_same {c : RegistryCall} (h : RegistryCounted w) (hc : RegistersLive w c) : StepsTo w c w :=
  ⟨h, fun hlive => ⟨fun _ => ⟨.of_same rfl rfl, hlive⟩, fun hno => absurd hc hno⟩⟩

/-- One backend leaves, and what takes its place is new. -/
theorem cleansUp_replace (h : RegistryCounted w) {l₁ l₂ : List Nat} (mid : List Nat) {old : Nat}
    (hl : w.registered = l₁ ++ old :: l₂) (hreg : w'.registered = l₁ ++ mid ++ l₂)
    (hmid : ∀ x ∈ mid, x ∉ w.registered) (hheap : w'.heap = (w.cleanup old).heap) :
    CleansUp w w' := by
  have hn := h.ok.nodup
  rw [hl] at hn hmid
  obtain ⟨horder, hleft⟩ := survivors hn hmid
  refine ⟨by rw [hl, hreg, horder], fun ptr hclean => ?_⟩
  rw [hl, hreg, StorageWorld.cleanups, hheap]
  refine (cleanups_cleanup h.counts old ptr).trans ?_
  simp only [hleft, hclean, ne_eq, not_false_eq_true, and_true]

/-- The backends beside the one that leaves stay live. -/
theorem rest_live (h : RegistryCounted w) {l₁ l₂ : List Nat} {old ptr : Nat} (hl : w.registered = l₁ ++ old :: l₂)
    (hheap : w'.heap = (w.cleanup old).heap) (hlive : ∀ ptr ∈ w.registered, w.cleanups ptr = 0)
    (hptr : ptr ∈ l₁ ++ l₂) : w'.cleanups ptr = 0 := by
  have hn := h.ok.nodup
  rw [hl, List.nodup_middle, List.nodup_cons] at hn
  have hold : ptr ≠ old := by
    rintro rfl
    exact hn.1 hptr
  rw [StorageWorld.cleanups, hheap]
  refine (cleanups_cleanup h.counts old ptr).trans ?_
  rw [if_neg fun hc => hold hc.1, Nat.add_zero]
  apply hlive
  rw [hl]
  exact List.mem_append.2 ((List.mem_append.1 hptr).imp_right (List.mem_cons_of_mem old))

/-- A backend that takes the place of one of its type. -/
theorem replaced_stepsTo (h : RegistryCounted w) {l₁ l₂ : List Nat} {old : Nat}
    (hroom : w.manager.backendCount < maxStorageBackends) (hl : w.registered = l₁ ++ old :: l₂)
    (htype : (w.heap old).type = (w.heap backend).type) (hreg : w'.registered = l₁ ++ backend :: l₂)
    (hok : RegistryOk w') (hheap : w'.heap = (w.cleanup old).heap) : StepsTo w (.register backend) w' := by
  have hcalls : w'.cleanups backend =
      w.cleanups backend + if backend = old ∧ (w.heap backend).cleanup ≠ none then 1 else 0 := by
    rw [StorageWorld.cleanups, hheap]
    exact cleanups_cleanup h.counts old backend
  refine ⟨⟨hok, (h.counts.cleanup old).of_heap hheap⟩, fun hlive => ?_⟩
  by_cases hsame : backend = old
  · -- over itself
    subst hsame
    have hmem : backend ∈ w.registered := by simp [hl]
    by_cases hclean : (w.heap backend).cleanup = none
    · have hheap' : w'.heap = w.heap := by
        rw [hheap, StorageWorld.cleanup, hclean]
      refine ⟨fun _ => ⟨.of_same (hreg.trans hl.symm) hheap', fun ptr hptr => ?_⟩, fun hno => ?_⟩
      · rw [hreg, ← hl] at hptr
        rw [StorageWorld.cleanups, hheap']
        exact hlive ptr hptr
      · exact absurd (fun _ hsome => absurd hclean hsome) hno
    · refine ⟨fun hyes => absurd hmem (hyes hroom hclean).1, fun _ => ⟨backend, by simp [hreg], ?_⟩⟩
      rw [hcalls, if_pos ⟨rfl, hclean⟩]
      exact Nat.succ_ne_zero _
  · have hnew : backend ∉ w.registered := by
      intro hmem
      exact hsame (List.inj_on_of_nodup_map h.ok.types hmem (by simp [hl]) htype.symm)
    have hcount : w'.cleanups backend = w.cleanups backend := by
      rw [hcalls, if_neg fun hc => hsame hc.1, Nat.add_zero]
    constructor
    · intro hyes
      refine ⟨cleansUp_replace h [backend] hl (by simp [hreg]) (by simpa using hnew) hheap, fun ptr hptr => ?_⟩
      by_cases hptr' : ptr = backend
      · rw [hptr', hcount]
        by_cases hclean : (w.heap backend).cleanup = none
        · exact h.counts.without backend hclean
        · exact (hyes hroom hclean).2
      · rw [hreg] at hptr
        exact rest_live h hl hheap hlive (by simpa [hptr'] using hptr)
    · intro hno
      refine ⟨backend, by simp [hreg], fun hzero => hno fun _ _ => ⟨hnew, hcount ▸ hzero⟩⟩

/-- A backend of a type that is not registered. -/
theorem added_stepsTo (h : RegistryCounted w) (hroom : w.manager.backendCount < maxStorageBackends)
    (hnew : backend ∉ w.registered) (hreg : w'.registered = w.registered ++ [backend]) (hok : RegistryOk w')
    (hheap : w'.heap = w.heap) : StepsTo w (.register backend) w' := by
  refine ⟨⟨hok, h.counts.of_heap hheap⟩, fun hlive => ?_⟩
  have hcount : ∀ ptr, w'.cleanups ptr = w.cleanups ptr := by
    intro ptr
    rw [StorageWorld.cleanups, hheap]
    rfl
  constructor
  · intro hyes
    refine ⟨⟨?_, fun ptr _ => ?_⟩, fun ptr hptr => ?_⟩
    · rw [hreg, List.filter_append, List.filter_cons_of_neg (by simpa using hnew), List.filter_nil, List.append_nil,
        List.filter_eq_self.2 (by simp +contextual), List.filter_eq_self.2 (by simp)]
    · rw [hcount, hreg, if_neg fun hc => hc.2 (List.mem_append_left _ hc.1), Nat.add_zero]
    · rw [hcount]
      rw [hreg] at hptr
      rcases List.mem_append.1 hptr with hptr | hptr
      · exact hlive ptr hptr
      · obtain rfl := List.mem_singleton.1 hptr
        -- the new one itself
        by_cases hclean : (w.heap ptr).cleanup = none
        · exact h.counts.without ptr hclean
        · exact (hyes hroom hclean).2
  · intro hno
    exact ⟨backend, by simp [hreg], fun hzero => hno fun _ _ => ⟨hnew, hcount backend ▸ hzero⟩⟩

theorem register_stepsTo (h : RegistryCounted w) (backend : Nat) :
    ∃ w' code, storageManagerRegisterBackend w backend = some (w', code) ∧ StepsTo w (.register backend) w' := by
  rcases register_cases h.ok backend with ⟨hfull, hstep⟩ |
    ⟨hroom, ⟨l₁, old, l₂, w', hl, htype, hstep, hreg, hok, hheap⟩ | ⟨hnew, w', hstep, hreg, hok, hheap⟩⟩
  · exact ⟨w, _, hstep, .of_same h fun hroom => absurd hroom (Nat.not_lt.2 hfull)⟩
  · exact ⟨w', _, hstep, replaced_stepsTo h hroom hl htype hreg hok hheap⟩
  · exact ⟨w', _, hstep, added_stepsTo h hroom hnew hreg hok hheap⟩

theorem unregister_stepsTo (h : RegistryCounted w) (type : StorageBackendType) :
    ∃ w' code, storageManagerUnregisterBackend w type = some (w', code) ∧ StepsTo w (.unregister type) w' := by
  rcases unregister_cases h.ok type with hstep | ⟨l₁, old, l₂, w', hl, hstep, hreg, hok, hheap⟩
  · exact ⟨w, _, hstep, .of_same h trivial⟩
  · refine ⟨w', _, hstep, ⟨hok, (h.counts.cleanup old).of_heap hheap⟩, fun hlive => ⟨fun _ => ⟨?_, fun ptr hptr => ?_⟩, ?_⟩⟩
    · exact cleansUp_replace h [] hl (by simp [hreg]) (by simp) hheap
    · exact rest_live h hl hheap hlive (hreg ▸ hptr)
    · exact fun hno => absurd trivial hno

theorem cleanup_stepsTo (h : RegistryCounted w) : StepsTo w .cleanup (storageManagerCleanup w) := by
  obtain ⟨hreg, hok, hheap⟩ := storageManagerCleanup_spec h.ok
  refine ⟨⟨hok, (h.counts.foldl w.registered).of_heap hheap⟩, fun _ => ⟨fun _ => ⟨⟨?_, fun ptr hclean => ?_⟩, ?_⟩, ?_⟩⟩
  · rw [hreg, List.filter_nil, List.filter_eq_nil_iff]
    simp
  · rw [StorageWorld.cleanups, hheap]
    refine (cleanups_foldl h.counts h.ok.nodup ptr).trans ?_
    simp [hreg, hclean]
  · rw [hreg]
    exact fun ptr hptr => absurd hptr List.not_mem_nil
  · exact fun hno => absurd trivial hno

theorem registry_step (h : RegistryCounted w) (c : RegistryCall) :
    ∃ w' code, registry.step w c = some (w', code) ∧ StepsTo w c w' := by
  cases c with
  | register backend => exact register_stepsTo h backend
  | unregister type => exact unregister_stepsTo h type
  | cleanup => exact ⟨_, _, rfl, cleanup_stepsTo h⟩

end

/-- A call under the condition keeps the order and the registered backends live. -/
theorem registry_step_live {w w' : StorageWorld (σ × Nat)} {c : RegistryCall} {code : XdeviceError} (h : RegistryCounted w)
    (hl : RegistryLive w) (hc : RegistersLive w c) (hstep : registry.step w c = some (w', code)) :
    CleansUp w w' ∧ RegistryCounted w' ∧ RegistryLive w' := by
  obtain ⟨w1, code1, hstep1, hcounted, hsteps⟩ := registry_step h c
  obtain ⟨rfl, rfl⟩ := Prod.mk.inj (Option.some.inj (hstep.symm.trans hstep1))
  obtain ⟨hcleans, hlive⟩ := (hsteps hl.live).1 hc
  exact ⟨hcleans, hcounted, hcounted.ok, hlive⟩

theorem registryCounted_new (objects : Nat → StorageInterface σ) : RegistryCounted (newRegistry objects) := by
  have hok := RegistryOk.of (w := newRegistry objects) [] rfl rfl (Nat.zero_le _) List.nodup_nil
  exact ⟨hok.2, countsCleanups_new objects⟩

theorem registry_returns {w : StorageWorld (σ × Nat)} (h : RegistryCounted w) (calls : List RegistryCall) :
    ∃ w' codes, registry.run w calls = some (w', codes) := by
  have hall : registry.Along (fun _ _ => True) w calls := Machine.along_of_forall (fun _ _ => trivial) w
  have hstep : ∀ (w : StorageWorld (σ × Nat)) c, RegistryCounted w → True →
      ∃ w' code, registry.step w c = some (w', code) ∧ RegistryCounted w' := by
    intro w c h _
    obtain ⟨w', code, hstep, hcounted, -⟩ := registry_step h c
    exact ⟨w', code, hstep, hcounted⟩
  obtain ⟨w', codes, hrun, -⟩ := Machine.run_of_along hstep h hall
  exact ⟨w', codes, hrun⟩

/-- Over any run from a new manager, which always returns: every call keeps the order and
calls `cleanup` once for each backend that leaves, and in every state the slots are in
order and the registered backends live, just when no backend that has a `cleanup` is
registered while it is registered already, or after it was cleaned up. -/
theorem registry_integrity_iff (objects : Nat → StorageInterface σ) (calls : List RegistryCall) :
    (∃ w codes, registry.run (newRegistry objects) calls = some (w, codes)) ∧
    ((registry.Along LeavesCleaned (newRegistry objects) calls ∧ registry.Always RegistryLive (newRegistry objects) calls) ↔
      registry.Along RegistersLive (newRegistry objects) calls) := by
  have hnew := registryCounted_new objects
  have hlive : RegistryLive (newRegistry objects) := ⟨hnew.ok, fun _ _ => rfl⟩
  have halways : registry.Always RegistryLive (newRegistry objects) calls ↔
      registry.Along RegistersLive (newRegistry objects) calls := by
    refine Machine.always_iff_along (A := fun _ => True) (fun w c w' code h hl _ hc hstep => (registry_step_live h hl hc hstep).2)
      (fun w c h hl _ hc => ?_) hnew hlive fun _ _ => trivial
    obtain ⟨w', code, hstep, -, hsteps⟩ := registry_step h c
    obtain ⟨ptr, hptr, hdead⟩ := (hsteps hl.live).2 hc
    exact ⟨w', code, hstep, fun hl' => hdead (hl'.live ptr hptr)⟩
  refine ⟨registry_returns hnew calls, ?_⟩
  -- the order and the counts follow from the condition, so that they add nothing to it
  rw [halways]
  refine and_iff_right_of_imp (Machine.Along.imp (I := fun w => RegistryCounted w ∧ RegistryLive w) ?_ ?_ ⟨hnew, hlive⟩)
  · exact fun w c w' code h hc hstep => (registry_step_live h.1 h.2 hc hstep).2
  · exact fun w c h hc w' code hstep => (registry_step_live h.1 h.2 hc hstep).1

/-- The one Mock backend of a program, registered twice: the second call releases it, and
it stays registered. -/
theorem registered_twice_released :
    ((registry.run (newRegistry fun _ => createMockStorageInterface) [.register 0, .register 0]).map fun r =>
      (r.2, r.1.registered, r.1.cleanups 0, ((r.1.heap 0).privateData.1).isSome)) = some ([.ok, .ok], [0], 1, false) ∧
    ¬ (registry.Along LeavesCleaned (newRegistry fun _ => createMockStorageInterface) [.register 0, .register 0] ∧
      registry.Always RegistryLive (newRegistry fun _ => createMockStorageInterface) [.register 0, .register 0]) := by
  refine ⟨rfl, ?_⟩
  rintro ⟨-, -, hlive⟩
  have hend := ((hlive _ _ rfl).2 _ _ rfl).live 0
  exact absurd (hend (by decide)) (by decide)

end XDevice
