import XDevice.Storage.Manager
/-!
# Reading back across failover

The manager sends each call to one backend and copies nothing between them, so
what a write stored can be read back from the backend that stored it and from
no other. Backends are taken at their word here: any store that answers
correctly while its health check says so.
-/
open Lib

namespace XDevice

variable {σ : Type}

/-- Whenever its health check says `XDEVICE_OK`, the backend answers as a store
of the files `content` finds in its private data. A failed write changes
nothing; a read of bytes that are there does not say `XDEVICE_ERROR_NOT_FOUND`. -/
structure CorrectStore (b : StorageInterface σ) (content : σ → FileMap) : Prop where
  write_ok : ∀ env s p off d s' r, { b with privateData := s }.healthy = true →
    b.writeSync env s p off d = some (s', r) → r.code = .ok →
    content s' = (content s).set p (some (writeAt 0 ((content s p).getD []) off d))
  write_fail : ∀ env s p off d s' r, { b with privateData := s }.healthy = true →
    b.writeSync env s p off d = some (s', r) → r.code ≠ .ok → content s' = content s
  read_keeps : ∀ env s p off n s' r, { b with privateData := s }.healthy = true →
    b.readSync env s p off n = some (s', r) → content s' = content s
  read_data : ∀ env s p off n s' r c, { b with privateData := s }.healthy = true →
    b.readSync env s p off n = some (s', r) → content s p = some c → off + n ≤ c.length → r.code = .ok →
    r.data = (c.drop off).take n
  read_found : ∀ env s p off n s' r c, { b with privateData := s }.healthy = true →
    b.readSync env s p off n = some (s', r) → content s p = some c → off + n ≤ c.length → r.code ≠ .notFound

/-- A call through the manager, or a change of the backends' private data from
outside, such as their health. -/
inductive ManagerEvent (σ : Type) where
  | write (env : CallEnv) (path : CString) (offset : Nat) (data : Bytes)
  | read (env : CallEnv) (path : CString) (offset size : Nat)
  | flap (change : Nat → σ → σ)

def managerMachine : Machine (StorageWorld σ) (ManagerEvent σ) StorageReply where
  step w
    | .write env p off d => storageManagerWrite w env p off d
    | .read env p off n => storageManagerRead w env p off n
    | .flap change =>
      some ({ w with heap := fun ptr => { w.heap ptr with privateData := change ptr (w.heap ptr).privateData } },
        .ofCode .ok)

/-! ## What a call does to the world -/

theorem firstHealthy_spec {w : StorageWorld σ} {wanted : StorageBackendType → Bool} {slots : List (Option Nat)}
    {ptr : Nat} (h : w.firstHealthy wanted slots = some (some ptr)) :
    some ptr ∈ slots ∧ (w.heap ptr).healthy = true := by
  induction slots with
  | nil => cases h
  | cons slot slots ih =>
    cases slot with
    | none => cases h
    | some q =>
      simp only [StorageWorld.firstHealthy] at h
      split at h
      · rename_i hq
        cases h
        exact ⟨List.mem_cons_self, (Bool.and_eq_true_iff.1 hq).2⟩
      · exact ⟨List.mem_cons_of_mem _ (ih h).1, (ih h).2⟩

/-- The backend a call goes to is registered and healthy. -/
theorem selectBackend_spec {w : StorageWorld σ} {ptr : Nat} (h : selectBackend w = some (some ptr)) :
    some ptr ∈ w.slots ∧ (w.heap ptr).healthy = true := by
  unfold selectBackend at h
  simp only at h
  split at h
  · cases h
  · obtain ⟨first, h1, h⟩ := Option.bind_eq_some_iff.1 h
    cases first with
    | some q =>
      cases h
      exact firstHealthy_spec h1
    | none =>
      obtain ⟨second, h2, h⟩ := Option.bind_eq_some_iff.1 h
      cases second with
      | some q =>
        cases h
        split at h2
        · exact firstHealthy_spec h2
        · cases h2
      | none => exact firstHealthy_spec h

/-- A write that answers `XDEVICE_OK` was answered by the selected backend. -/
theorem storageManagerWrite_cases {w w' : StorageWorld σ} {env : CallEnv} {p : CString} {off : Nat} {d : Bytes}
    {r : StorageReply} (h : storageManagerWrite w env p off d = some (w', r)) :
    (w' = w ∧ r.code ≠ .ok) ∨
    ∃ ptr s', selectBackend w = some (some ptr) ∧
      (w.heap ptr).writeSync env (w.heap ptr).privateData p off d = some (s', r) ∧
      w'.heap = (w.setData ptr s').heap ∧ w'.slots = w.slots := by
  unfold storageManagerWrite at h
  split at h
  · cases h
    exact .inl ⟨rfl, by simp [StorageReply.ofCode]⟩
  · obtain ⟨sel, hsel, h⟩ := Option.bind_eq_some_iff.1 h
    cases sel with
    | none =>
      cases h
      exact .inl ⟨rfl, by simp [StorageReply.ofCode]⟩
    | some ptr =>
      obtain ⟨⟨s', r'⟩, hc, h⟩ := Option.map_eq_some_iff.1 h
      cases h
      exact .inr ⟨ptr, s', hsel, hc, rfl, rfl⟩

theorem storageManagerRead_cases {w w' : StorageWorld σ} {env : CallEnv} {p : CString} {off n : Nat}
    {r : StorageReply} (h : storageManagerRead w env p off n = some (w', r)) :
    (w' = w ∧ (n = 0 ∨ selectBackend w = some none) ∧ r.code ≠ .ok ∧ r.code ≠ .notFound) ∨
    ∃ ptr s', selectBackend w = some (some ptr) ∧
      (w.heap ptr).readSync env (w.heap ptr).privateData p off n = some (s', r) ∧
      w'.heap = (w.setData ptr s').heap ∧ w'.slots = w.slots := by
  unfold storageManagerRead at h
  split at h
  · rename_i hn
    cases h
    exact .inl ⟨rfl, .inl hn, by simp [StorageReply.ofCode], by simp [StorageReply.ofCode]⟩
  · obtain ⟨sel, hsel, h⟩ := Option.bind_eq_some_iff.1 h
    cases sel with
    | none =>
      cases h
      exact .inl ⟨rfl, .inr hsel, by simp [StorageReply.ofCode], by simp [StorageReply.ofCode]⟩
    | some ptr =>
      obtain ⟨⟨s', r'⟩, hc, h⟩ := Option.map_eq_some_iff.1 h
      cases h
      exact .inr ⟨ptr, s', hsel, hc, rfl, rfl⟩

/-! ## What a backend keeps -/

section
variable (content : Nat → σ → FileMap)

/-- Every registered backend is a correct store, its contents read by `content`. -/
def AllCorrect (w : StorageWorld σ) : Prop := ∀ ptr, some ptr ∈ w.slots → CorrectStore (w.heap ptr) (content ptr)

/-- The backend at `b` has `d` at `off` in its file `p`. -/
def Stored (b : Nat) (p : CString) (off : Nat) (d : Bytes) (w : StorageWorld σ) : Prop :=
  ∃ c, content b (w.heap b).privateData p = some c ∧ off + d.length ≤ c.length ∧ (c.drop off).take d.length = d

/-- The event neither overwrites bytes `[off, off + n)` of `p` on backend `b`, nor,
when it comes from outside, changes what any backend stores. -/
def Undisturbed (b : Nat) (p : CString) (off n : Nat) (w : StorageWorld σ) : ManagerEvent σ → Prop
  | .write env p' off' d' => selectBackend w = some (some b) →
      (∀ w' r, storageManagerWrite w env p' off' d' = some (w', r) → r.code = .ok →
        p' ≠ p ∨ off + n ≤ off' ∨ off' + d'.length ≤ off)
  | .read _ _ _ _ => True
  | .flap change => ∀ ptr s, content ptr (change ptr s) = content ptr s

variable {content}

theorem CorrectStore.of_data {b b' : StorageInterface σ} {f : σ → FileMap} (h : CorrectStore b f)
    (hw : b'.writeSync = b.writeSync) (hr : b'.readSync = b.readSync) (hh : b'.healthCheck = b.healthCheck) :
    CorrectStore b' f := by
  have he : ∀ s, { b' with privateData := s }.healthy = { b with privateData := s }.healthy := fun s => by
    simp only [StorageInterface.healthy, hh]
  constructor
  · intro env s p off d s' r h1; rw [he] at h1; rw [hw]; exact h.write_ok env s p off d s' r h1
  · intro env s p off d s' r h1; rw [he] at h1; rw [hw]; exact h.write_fail env s p off d s' r h1
  · intro env s p off n s' r h1; rw [he] at h1; rw [hr]; exact h.read_keeps env s p off n s' r h1
  · intro env s p off n s' r c h1; rw [he] at h1; rw [hr]; exact h.read_data env s p off n s' r c h1
  · intro env s p off n s' r c h1; rw [he] at h1; rw [hr]; exact h.read_found env s p off n s' r c h1

theorem AllCorrect.setData {w w' : StorageWorld σ} (h : AllCorrect content w) {ptr : Nat} {s : σ}
    (hheap : w'.heap = (w.setData ptr s).heap) (hslots : w'.slots = w.slots) : AllCorrect content w' := by
  intro q hq
  rw [hslots] at hq
  rw [hheap, setData_heap]
  split
  · exact (h q hq).of_data rfl rfl rfl
  · exact h q hq

theorem Stored.of_content {w w' : StorageWorld σ} {b : Nat} {p : CString} {off : Nat} {d : Bytes}
    (h : Stored content b p off d w)
    (he : content b (w'.heap b).privateData p = content b (w.heap b).privateData p) :
    Stored content b p off d w' := by
  obtain ⟨c, hc, hl, hd⟩ := h
  exact ⟨c, he.trans hc, hl, hd⟩

/-- A write answered by `b` leaves its bytes on `b`. -/
theorem stored_of_write {w w' : StorageWorld σ} {env : CallEnv} {b : Nat} {p : CString} {off : Nat} {d : Bytes}
    {r : StorageReply} (hall : AllCorrect content w) (hsel : selectBackend w = some (some b))
    (h : storageManagerWrite w env p off d = some (w', r)) (hr : r.code = .ok) :
    AllCorrect content w' ∧ Stored content b p off d w' := by
  rcases storageManagerWrite_cases h with ⟨-, hne⟩ | ⟨ptr, s', hptr, hc, hheap, hslots⟩
  · exact absurd hr hne
  · obtain rfl : ptr = b := by rw [hsel] at hptr; cases hptr; rfl
    obtain ⟨hmem, hheal⟩ := selectBackend_spec hsel
    have hcon := (hall ptr hmem).write_ok env _ p off d s' r hheal hc hr
    refine ⟨hall.setData hheap hslots, writeAt 0 ((content ptr (w.heap ptr).privateData p).getD []) off d, ?_, ?_, ?_⟩
    · rw [hheap, setData_heap, if_pos rfl, hcon, FileMap.set_self]
    · rw [length_writeAt]
      exact Nat.le_max_right _ _
    · rw [← readAt_inside 0 (by rw [length_writeAt]; exact Nat.le_max_right _ _), readAt_writeAt]

/-- An undisturbing event keeps bytes stored on `b`. -/
theorem stored_step {b : Nat} {p : CString} {off : Nat} {d : Bytes} (w : StorageWorld σ) (e : ManagerEvent σ)
    (w' : StorageWorld σ) (r : StorageReply)
    (h : AllCorrect content w ∧ Stored content b p off d w)
    (hu : Undisturbed content b p off d.length w e) (hs : managerMachine.step w e = some (w', r)) :
    AllCorrect content w' ∧ Stored content b p off d w' := by
  obtain ⟨hall, hst⟩ := h
  cases e with
  | write env p' off' d' =>
    have hs' : storageManagerWrite w env p' off' d' = some (w', r) := hs
    rcases storageManagerWrite_cases hs' with ⟨rfl, -⟩ | ⟨ptr, s', hptr, hc, hheap, hslots⟩
    · exact ⟨hall, hst⟩
    · refine ⟨hall.setData hheap hslots, ?_⟩
      by_cases hb : b = ptr
      · subst hb
        obtain ⟨hmem, hheal⟩ := selectBackend_spec hptr
        have hdata : (w'.heap b).privateData = s' := by rw [hheap, setData_heap, if_pos rfl]
        by_cases hok : r.code = .ok
        · have hcon := (hall b hmem).write_ok env _ p' off' d' s' r hheal hc hok
          rcases hu hptr w' r hs' hok with hp | hdis
          · refine hst.of_content ?_
            rw [hdata, hcon, FileMap.set_other _ _ (Ne.symm hp)]
          · by_cases hp : p' = p
            · subst hp
              obtain ⟨c, hcp, hl, hd⟩ := hst
              refine ⟨writeAt 0 c off' d', ?_, by simp; omega, ?_⟩
              · rw [hdata, hcon, FileMap.set_self, hcp, Option.getD_some]
              · rw [← readAt_inside 0 (by simp; omega), readAt_writeAt_disjoint 0 hdis, readAt_inside 0 hl, hd]
            · refine hst.of_content ?_
              rw [hdata, hcon, FileMap.set_other _ _ (Ne.symm hp)]
        · refine hst.of_content ?_
          rw [hdata, (hall b hmem).write_fail env _ p' off' d' s' r hheal hc hok]
      · refine hst.of_content ?_
        rw [hheap, setData_heap, if_neg hb]
  | read env p' off' n' =>
    have hs' : storageManagerRead w env p' off' n' = some (w', r) := hs
    rcases storageManagerRead_cases hs' with ⟨rfl, -⟩ | ⟨ptr, s', hptr, hc, hheap, hslots⟩
    · exact ⟨hall, hst⟩
    · refine ⟨hall.setData hheap hslots, hst.of_content ?_⟩
      rw [hheap, setData_heap]
      split
      · rename_i hb
        subst hb
        obtain ⟨hmem, hheal⟩ := selectBackend_spec hptr
        rw [(hall b hmem).read_keeps env _ p' off' n' s' r hheal hc]
      · rfl
  | flap change =>
    cases hs
    exact ⟨fun q hq => (hall q hq).of_data rfl rfl rfl, hst.of_content (congrFun (hu b _) p)⟩

end

/-! ## Main theorem -/

/-- A write that returned `XDEVICE_OK` is read back by every later read that goes
to the backend the write went to, as long as no successful write there has
overlapped it: through any other calls, and whatever happens to the backends'
health in between. -/
theorem read_back_from_writer {content : Nat → σ → FileMap} {w w1 w2 w3 : StorageWorld σ} {b : Nat}
    {env env' : CallEnv} {p : CString} {off : Nat} {d : Bytes} {r r' : StorageReply}
    {events : List (ManagerEvent σ)} {replies : List StorageReply}
    (hall : AllCorrect content w) (hsel : selectBackend w = some (some b))
    (hwrite : storageManagerWrite w env p off d = some (w1, r)) (hok : r.code = .ok)
    (hrun : managerMachine.run w1 events = some (w2, replies))
    (hevents : managerMachine.Along (Undisturbed content b p off d.length) w1 events)
    (hsel2 : selectBackend w2 = some (some b))
    (hread : storageManagerRead w2 env' p off d.length = some (w3, r')) :
    r'.code ≠ .notFound ∧ (r'.code = .ok → r'.data = d) := by
  obtain ⟨hall2, c, hc, hl, hd⟩ :=
    Machine.run_inv_along (M := managerMachine) stored_step (stored_of_write hall hsel hwrite hok) hevents hrun
  rcases storageManagerRead_cases hread with ⟨-, -, h1, h2⟩ | ⟨ptr, s', hptr, hcall, -, -⟩
  · exact ⟨h2, fun h => absurd h h1⟩
  · obtain rfl : ptr = b := by rw [hsel2] at hptr; cases hptr; rfl
    obtain ⟨hmem, hheal⟩ := selectBackend_spec hsel2
    refine ⟨(hall2 ptr hmem).read_found env' _ p off d.length s' r' c hheal hcall hc hl, fun h => ?_⟩
    rw [(hall2 ptr hmem).read_data env' _ p off d.length s' r' c hheal hcall hc hl h, hd]

/-! ## Two reference stores -/

/-- A backend that is the reference store, with a switch for its health. -/
def referenceStore (type : StorageBackendType) : StorageInterface (Bool × FileMap) where
  type := type
  privateData := (true, FileMap.empty)
  cleanup := none
  healthCheck := some fun s => if s.1 then .ok else .io
  readSync _ s path offset size := some (s, s.2.readSync path offset size)
  writeSync _ s path offset data :=
    let (m, reply) := s.2.writeSync path offset data
    some ((s.1, m), reply)
  fsync := none

theorem referenceStore_correct (type : StorageBackendType) : CorrectStore (referenceStore type) Prod.snd := by
  refine ⟨?_, ?_, ?_, ?_, ?_⟩
  · intro env s p off d s' r _ h hok
    simp only [referenceStore, Option.some.injEq, Prod.mk.injEq, FileMap.writeSync] at h
    obtain ⟨rfl, rfl⟩ := h
    by_cases h0 : d.length = 0
    · simp [h0, StorageReply.ofCode] at hok
    · simp [h0]
  · intro env s p off d s' r _ h hne
    simp only [referenceStore, Option.some.injEq, Prod.mk.injEq, FileMap.writeSync] at h
    obtain ⟨rfl, rfl⟩ := h
    by_cases h0 : d.length = 0
    · simp [h0]
    · simp [h0, StorageReply.ofCode] at hne
  · intro env s p off n s' r _ h
    simp only [referenceStore, Option.some.injEq, Prod.mk.injEq] at h
    rw [← h.1]
  · intro env s p off n s' r c _ h hc hin hok
    simp only [referenceStore, Option.some.injEq, Prod.mk.injEq, FileMap.readSync, hc] at h
    obtain ⟨-, rfl⟩ := h
    by_cases h0 : n = 0
    · simp [h0, StorageReply.ofCode] at hok
    · rw [if_neg h0, if_pos (by omega)]
      exact readAt_inside 0 hin
  · intro env s p off n s' r c _ h hc hin
    simp only [referenceStore, Option.some.injEq, Prod.mk.injEq, FileMap.readSync, hc] at h
    obtain ⟨-, rfl⟩ := h
    split
    · simp [StorageReply.ofCode]
    · rw [if_pos (by omega)]
      simp

/-- A Local and a Mock backend registered with the default policy. -/
def twoStores : StorageWorld (Bool × FileMap) where
  manager := { storageManagerInit with
    backends := storageManagerInit.backends.set 0 (some 0) |>.set 1 (some 1)
    backendCount := 2 }
  heap ptr := referenceStore (if ptr = 0 then .local else .mock)

example :
    ((storageManagerRegisterBackend { twoStores with manager := storageManagerInit } 0).bind fun r =>
      (storageManagerRegisterBackend r.1 1).map fun r' => r'.1.manager.backends) =
    some twoStores.manager.backends := by decide

theorem twoStores_correct : AllCorrect (fun _ => Prod.snd) twoStores :=
  fun _ _ => referenceStore_correct _

/-- The backend at `ptr` falls ill, every other one is well. -/
def fallsIll (ptr : Nat) : ManagerEvent (Bool × FileMap) := .flap fun q s => (q ≠ ptr, s.2)

/-- With the primary healthy throughout, what it was given is read back while
the fallback falls ill. -/
theorem twoStores_reads_back : ∃ w1 w2 w3 r r' replies,
    storageManagerWrite twoStores .calm (cstr "a") 0 [1, 2] = some (w1, r) ∧
    managerMachine.run w1 [fallsIll 1] = some (w2, replies) ∧
    storageManagerRead w2 .calm (cstr "a") 0 2 = some (w3, r') ∧ r'.code = .ok ∧
    (r'.code ≠ .notFound ∧ (r'.code = .ok → r'.data = [1, 2])) := by
  refine ⟨_, _, _, _, _, _, rfl, rfl, rfl, rfl, ?_⟩
  refine read_back_from_writer twoStores_correct (rfl : selectBackend twoStores = some (some 0))
    (rfl : storageManagerWrite twoStores .calm (cstr "a") 0 [1, 2] = _) rfl
    (rfl : managerMachine.run _ [fallsIll 1] = _) ?_ ?_
    (rfl : storageManagerRead _ .calm (cstr "a") 0 2 = _)
  · exact ⟨fun _ _ => rfl, fun _ _ _ => trivial⟩
  · rfl

/-- A write to the primary, which then falls ill: the read goes to the fallback. -/
theorem failover_loses_write :
    AllCorrect (fun _ => Prod.snd) twoStores ∧ twoStores.manager.routingPolicy.autoFailover = true ∧
    (managerMachine.run twoStores
      [.write .calm (cstr "a") 0 [1, 2], fallsIll 0, .read .calm (cstr "a") 0 2]).map (·.2) =
      some [.ofCode .ok, .ofCode .ok, .ofCode .notFound] :=
  ⟨twoStores_correct, rfl, by decide⟩

end XDevice
