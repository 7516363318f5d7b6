import XDevice.Storage.LockedCalls
import XDevice.Storage.Routing
/-!
# Calls through the manager at the same time

The manager calls its backend without a lock, and counts the call under its own
`stats_lock` when the backend has returned. Two counts are made for one call: that of the
backend, in bytes that were there, and that of the manager, in bytes that were asked for.
No backend is registered or released in the meantime.
-/
open Lib

namespace XDevice

/-! ## Sections -/

/-- An update of the statistics of a backend, or of the manager's. -/
inductive ManagerUpdate where
  | backend (ptr : Nat) (d : StatsUpdate)
  | manager (d : StatsUpdate)

structure ManagerStats where
  backends : Nat → StorageStats
  manager : StorageStats

namespace ManagerStats

def apply (st : ManagerStats) : ManagerUpdate → ManagerStats
  | .backend ptr d => { st with backends := fun p => if p = ptr then (st.backends p).apply d else st.backends p }
  | .manager d => { st with manager := st.manager.apply d }

end ManagerStats

namespace ManagerCall

/-- The call of the backend. -/
def op : ManagerCall → StorageOp
  | .read p off n => .readSync p off n
  | .write p off d => .writeSync p off d
  | .sync p => .fsync p

/-- What is done to `global_stats` when the backend has answered. -/
def updates (c : ManagerCall) (env : CallEnv) (code : XdeviceError) : List StatsUpdate :=
  match c with
  | .read _ _ n => [if code = .ok then .read n env.latencyNs else .error]
  | .write _ _ d => [if code = .ok then .write d.length env.latencyNs else .error]
  | .sync _ => []

end ManagerCall

/-- A section of a Mock call on private data that `cleanup` may have released. -/
def onLiveSection (env : CallEnv) (data : Option MockStoragePrivate) (op : StorageOp) :
    Option (Option MockStoragePrivate × List StatsUpdate × StorageReply) :=
  match data with
  | none => some (none, [], .ofCode .invalidParam)
  | some priv => (mockSection env priv op).map fun (priv, r) => (some priv, r)

/-- A call up to the updates of the statistics. -/
def managerSection (env : CallEnv) (w : StorageWorld (Option MockStoragePrivate)) (c : ManagerCall) :
    Option (StorageWorld (Option MockStoragePrivate) × List ManagerUpdate × StorageReply) :=
  if c.valid = false then some (w, [], .ofCode .invalidParam)
  else
    (selectBackend w).bind fun
      | none => some (w, [], .ofCode .error)
      | some ptr =>
        (onLiveSection env (w.heap ptr).privateData c.op).map fun (data, updates, reply) =>
          (w.setData ptr data, updates.map (.backend ptr) ++ (c.updates env reply.code).map .manager, reply)

def managerSections : Calls (StorageWorld (Option MockStoragePrivate)) ManagerStats (CallEnv × ManagerCall) StorageReply
    ManagerUpdate where
  act w a := managerSection a.1 w a.2
  update := ManagerStats.apply

structure ManagerCounts where
  backends : Nat → StatsCounts
  manager : StatsCounts

namespace ManagerCounts

def count (c : ManagerCounts) : ManagerUpdate → ManagerCounts
  | .backend ptr d => { c with backends := fun p => if p = ptr then (c.backends p).count d else c.backends p }
  | .manager d => { c with manager := c.manager.count d }

end ManagerCounts

def ManagerStats.counts (st : ManagerStats) : ManagerCounts := ⟨fun p => (st.backends p).counts, st.manager.counts⟩

/-- What one call adds to the manager's counters, when some backend can be selected. -/
def managerCounted (t : CallThread (CallEnv × ManagerCall) StorageReply ManagerUpdate) : List StatsUpdate :=
  match t.phase with
  | none => []
  | some (_, reply) => if t.call.2.valid then t.call.2.updates t.call.1 reply.code else []

/-- One call after the other. -/
def managerCalls {σ : Type} : Machine (StorageWorld σ) (CallEnv × ManagerCall) StorageReply where
  step w a := a.2.run a.1 w

namespace StorageWorld

/-- Every object is a Mock backend. -/
def AllMock (w : StorageWorld (Option MockStoragePrivate)) : Prop :=
  ∀ p, w.heap p = { createMockStorageInterface with privateData := (w.heap p).privateData }

/-- The statistics that the locks guard, put back in their places. -/
def withManagerStats (w : StorageWorld (Option MockStoragePrivate)) (st : ManagerStats) :
    StorageWorld (Option MockStoragePrivate) where
  manager := { w.manager with globalStats := st.manager }
  heap p := { w.heap p with privateData := (w.heap p).privateData.map (·.withStats (st.backends p)) }

/-- The statistics as they stand in the world. -/
def managerStats (w : StorageWorld (Option MockStoragePrivate)) : ManagerStats where
  backends p := ((w.heap p).privateData.map (·.stats)).getD .zero
  manager := w.manager.globalStats

end StorageWorld

/-! ## One call -/

section
variable {σ τ : Type}

theorem firstHealthy_congr {w : StorageWorld σ} {w' : StorageWorld τ} (htype : ∀ p, (w'.heap p).type = (w.heap p).type)
    (hhealthy : ∀ p, (w'.heap p).healthy = (w.heap p).healthy) (wanted : StorageBackendType → Bool)
    (slots : List (Option Nat)) : w'.firstHealthy wanted slots = w.firstHealthy wanted slots := by
  induction slots with
  | nil => rfl
  | cons slot slots ih =>
    cases slot with
    | none => rfl
    | some p => rw [StorageWorld.firstHealthy, StorageWorld.firstHealthy, htype, hhealthy, ih]

/-- The backend that is selected depends on what is registered, on types and on health. -/
theorem selectBackend_congr {w : StorageWorld σ} {w' : StorageWorld τ}
    (hslots : w'.manager.backends = w.manager.backends) (hcount : w'.manager.backendCount = w.manager.backendCount)
    (hpolicy : w'.manager.routingPolicy = w.manager.routingPolicy) (htype : ∀ p, (w'.heap p).type = (w.heap p).type)
    (hhealthy : ∀ p, (w'.heap p).healthy = (w.heap p).healthy) : selectBackend w' = selectBackend w := by
  have hall : w'.slots = w.slots := by rw [StorageWorld.slots, StorageWorld.slots, hslots, hcount]
  have hfirst : ∀ wanted, w'.firstHealthy wanted w'.slots = w.firstHealthy wanted w.slots := fun wanted => by
    rw [hall, firstHealthy_congr htype hhealthy]
  unfold selectBackend
  simp only [hcount, hpolicy, hfirst]

/-- A call through the manager: it is checked, the backend called, and the call counted. -/
theorem managerCall_run (c : ManagerCall) (env : CallEnv) (w : StorageWorld σ) :
    c.run env w =
      if c.valid = false then some (w, .ofCode .invalidParam)
      else (selectBackend w).bind fun selected =>
        selected.elim (some (w, .ofCode .error)) fun ptr => (c.on env (w.heap ptr)).map fun r =>
          ((w.setData ptr r.1).withStats ((c.updates env r.2.code).foldl StorageStats.apply w.manager.globalStats),
            r.2) := by
  cases c with
  | read p off n =>
    unfold ManagerCall.run storageManagerRead
    dsimp only
    by_cases hn : n = 0
    · rw [if_pos hn, if_pos (by simp [ManagerCall.valid, hn])]
    · rw [if_neg hn, if_neg (by simp [ManagerCall.valid, hn])]
      refine congrArg _ (funext fun selected => ?_)
      cases selected with
      | none => rfl
      | some ptr =>
        refine congrArg (fun f => Option.map f _) (funext fun r => Prod.ext ?_ rfl)
        dsimp only [ManagerCall.updates, updateStats]
        split <;> rfl
  | write p off d =>
    unfold ManagerCall.run storageManagerWrite
    dsimp only
    by_cases hd : d.length = 0
    · rw [if_pos hd, if_pos (by simp [ManagerCall.valid, hd])]
    · rw [if_neg hd, if_neg (by simp [ManagerCall.valid, hd])]
      refine congrArg _ (funext fun selected => ?_)
      cases selected with
      | none => rfl
      | some ptr =>
        refine congrArg (fun f => Option.map f _) (funext fun r => Prod.ext ?_ rfl)
        dsimp only [ManagerCall.updates, updateStats]
        split <;> rfl
  | sync p =>
    unfold ManagerCall.run storageManagerSync
    dsimp only
    rw [if_neg (by simp [ManagerCall.valid])]
    refine congrArg _ (funext fun selected => ?_)
    cases selected with
    | none => rfl
    | some ptr =>
      rw [Option.elim_some]
      dsimp only [ManagerCall.on]
      cases (w.heap ptr).fsync with
      | none =>
        have hsame : w.setData ptr (w.heap ptr).privateData = w := by
          unfold StorageWorld.setData
          refine congrArg (StorageWorld.mk w.manager) (funext fun q => ?_)
          split
          · rename_i hq
            rw [hq]
          · rfl
        dsimp only [Option.map_some]
        rw [hsame]
        rfl
      | some f => rfl

end

/-! ## Mock backends under the manager -/

section
variable {w : StorageWorld (Option MockStoragePrivate)} {st : ManagerStats} {ptr : Nat}

theorem withManagerStats_heap (w : StorageWorld (Option MockStoragePrivate)) (st : ManagerStats) (p : Nat) :
    (w.withManagerStats st).heap p =
      { w.heap p with privateData := (w.heap p).privateData.map (·.withStats (st.backends p)) } := rfl

theorem healthy_mock (h : w.AllMock) (p : Nat) : (w.heap p).healthy = (w.heap p).privateData.isSome := by
  rw [h p]
  cases (w.heap p).privateData <;> rfl

theorem AllMock.withManagerStats (h : w.AllMock) (st : ManagerStats) : (w.withManagerStats st).AllMock := fun p => by
  rw [withManagerStats_heap, h p]

theorem AllMock.setData (h : w.AllMock) (ptr : Nat) (data : Option MockStoragePrivate) : (w.setData ptr data).AllMock := by
  intro p
  rw [setData_heap]
  split
  · rw [h p]
  · exact h p

/-- The statistics play no part in the selection. -/
theorem selectBackend_withManagerStats (h : w.AllMock) (st : ManagerStats) :
    selectBackend (w.withManagerStats st) = selectBackend w := by
  refine selectBackend_congr rfl rfl rfl (fun p => rfl) fun p => ?_
  rw [healthy_mock (AllMock.withManagerStats h st), healthy_mock h]
  exact Option.isSome_map

/-- A Mock backend answers as its sections do. -/
theorem on_mock (h : w.AllMock) (c : ManagerCall) (env : CallEnv) (p : Nat) :
    c.on env ((w.withManagerStats st).heap p) =
      (onLiveSection env (w.heap p).privateData c.op).map fun (data, updates, reply) =>
        (data.map (·.withStats (updates.foldl StorageStats.apply (st.backends p))), reply) := by
  have hon : c.on env ((w.withManagerStats st).heap p) =
      onLive ((w.heap p).privateData.map (·.withStats (st.backends p))) fun priv => mockExec env priv c.op := by
    rw [withManagerStats_heap, h p]
    cases c <;> rfl
  rw [hon]
  cases (w.heap p).privateData with
  | none => rfl
  | some priv =>
    dsimp only [onLive, onLiveSection, Option.map_some]
    rw [mockExec_sections, Option.map_map, Option.map_map]
    cases mockSection env priv c.op with
    | none => rfl
    | some r => rfl

theorem foldl_backend (st : ManagerStats) (ptr : Nat) (updates : List StatsUpdate) :
    (updates.map (ManagerUpdate.backend ptr)).foldl ManagerStats.apply st =
      { st with backends := fun p =>
          if p = ptr then updates.foldl StorageStats.apply (st.backends p) else st.backends p } := by
  induction updates generalizing st with
  | nil => simp
  | cons d updates ih =>
    rw [List.map_cons, List.foldl_cons, ih]
    unfold ManagerStats.apply
    refine congrArg (fun f => ManagerStats.mk f st.manager) (funext fun p => ?_)
    dsimp only
    split <;> rfl

theorem foldl_manager (st : ManagerStats) (updates : List StatsUpdate) :
    (updates.map ManagerUpdate.manager).foldl ManagerStats.apply st =
      { st with manager := updates.foldl StorageStats.apply st.manager } := by
  induction updates generalizing st with
  | nil => rfl
  | cons d updates ih =>
    rw [List.map_cons, List.foldl_cons, ih]
    rfl

/-- The updates of a call, made at once. -/
theorem withManagerStats_updates (data : Option MockStoragePrivate) (updates counted : List StatsUpdate) :
    ((w.withManagerStats st).setData ptr
        (data.map (·.withStats (updates.foldl StorageStats.apply (st.backends ptr))))).withStats
          (counted.foldl StorageStats.apply st.manager) =
      (w.setData ptr data).withManagerStats
        ((updates.map (ManagerUpdate.backend ptr) ++ counted.map ManagerUpdate.manager).foldl ManagerStats.apply st) := by
  rw [List.foldl_append, foldl_backend, foldl_manager]
  unfold StorageWorld.withManagerStats StorageWorld.withStats StorageWorld.setData
  refine congrArg (StorageWorld.mk _) (funext fun p => ?_)
  dsimp only
  split
  · rename_i hp
    rw [hp]
  · rfl

theorem lockstep_managerSections :
    Machine.Lockstep managerSections.sequential managerCalls fun t w => t.1.AllMock ∧ w = t.1.withManagerStats t.2 := by
  rintro ⟨w, st⟩ _ ⟨env, c⟩ ⟨hmock, rfl⟩
  have hrun := managerCall_run c env (w.withManagerStats st)
  rw [selectBackend_withManagerStats hmock] at hrun
  dsimp only [Calls.sequential, managerSections, managerCalls, managerSection]
  rw [hrun]
  by_cases hvalid : c.valid = false
  · rw [if_pos hvalid, if_pos hvalid]
    exact .inr ⟨_, _, _, rfl, rfl, hmock, rfl⟩
  rw [if_neg hvalid, if_neg hvalid]
  cases selectBackend w with
  | none => exact .inl ⟨rfl, rfl⟩
  | some selected =>
    cases selected with
    | none => exact .inr ⟨_, _, _, rfl, rfl, hmock, rfl⟩
    | some ptr =>
      dsimp only [Option.bind_some]
      rw [Option.elim_some, on_mock hmock]
      cases onLiveSection env (w.heap ptr).privateData c.op with
      | none => exact .inl ⟨rfl, rfl⟩
      | some r =>
        obtain ⟨data, updates, reply⟩ := r
        exact .inr ⟨_, _, _, rfl, rfl, AllMock.setData hmock ptr data, withManagerStats_updates data updates _⟩

/-! ## Counting -/

theorem manager_counts_apply (st : ManagerStats) (d : ManagerUpdate) : (st.apply d).counts = st.counts.count d := by
  cases d with
  | manager d => exact congrArg (ManagerCounts.mk _) (counts_apply st.manager d)
  | backend ptr d =>
    refine congrArg (fun f => ManagerCounts.mk f st.manager.counts) (funext fun p => ?_)
    dsimp only [ManagerStats.apply, ManagerStats.counts]
    split
    · exact counts_apply (st.backends p) d
    · rfl

instance rightCommutative_managerCount : RightCommutative ManagerCounts.count where
  right_comm c d d' := by
    cases d with
    | manager d =>
      cases d' with
      | manager d' => exact congrArg (ManagerCounts.mk c.backends) (count_right_comm c.manager d d')
      | backend ptr' d' => rfl
    | backend ptr d =>
      cases d' with
      | manager d' => rfl
      | backend ptr' d' =>
        refine congrArg (fun f => ManagerCounts.mk f c.manager) (funext fun p => ?_)
        dsimp only [ManagerCounts.count]
        split
        · split
          · exact count_right_comm (c.backends p) d d'
          · rfl
        · rfl

theorem withManagerStats_managerStats (w : StorageWorld (Option MockStoragePrivate)) :
    w.withManagerStats w.managerStats = w := by
  unfold StorageWorld.withManagerStats StorageWorld.managerStats
  refine congrArg (StorageWorld.mk w.manager) (funext fun p => ?_)
  have hdata : (w.heap p).privateData.map (·.withStats (((w.heap p).privateData.map (·.stats)).getD .zero)) =
      (w.heap p).privateData := by
    cases (w.heap p).privateData <;> rfl
  dsimp only
  rw [hdata]

/-- However calls through a manager of Mock backends run at the same time, once all have
returned there is an order of them in which, one after the other, they give the same replies, the
same files and, in every backend and in the manager, the same counts. -/
theorem manager_calls_linearize (hmock : w.AllMock) {calls : List (CallEnv × ManagerCall)} {sched : List Nat}
    {s : CallWorld (StorageWorld (Option MockStoragePrivate)) ManagerStats (CallEnv × ManagerCall) StorageReply ManagerUpdate}
    {outs : List (Option Nat)} (hrun : managerSections.concurrent.run (.start w w.managerStats calls) sched = some (s, outs))
    (hdone : s.Done) :
    outs.reduceOption.Perm (List.range calls.length) ∧
    ∃ w' st replies, managerCalls.run w (outs.reduceOption.filterMap fun i => calls[i]?) = some (w', replies) ∧
      w' = s.main.withManagerStats st ∧ st.counts = s.late.counts ∧ List.Forall₂ s.Replies outs.reduceOption replies := by
  obtain ⟨hperm, ⟨main, late⟩, replies, hseq, rfl, hlate, hreplies⟩ := Calls.linearizes manager_counts_apply hrun hdone
  rcases lockstep_managerSections.run (s := (w, w.managerStats)) (t := w) ⟨hmock, (withManagerStats_managerStats w).symm⟩
      (outs.reduceOption.filterMap fun i => calls[i]?) with ⟨hstuck, -⟩ | ⟨t, w', replies', hseq', hmanager, -, rfl⟩
  · rw [hseq] at hstuck
    cases hstuck
  · rw [hseq] at hseq'
    cases hseq'
    exact ⟨hperm, _, late, replies, hmanager, rfl, hlate, hreplies⟩

/-- A section leaves the selection as it was, and the manager's updates follow from the reply. -/
theorem managerSection_spec {env : CallEnv} {c : ManagerCall} {w' : StorageWorld (Option MockStoragePrivate)}
    {updates : List ManagerUpdate} {reply : StorageReply} (hmock : w.AllMock) (hsel : selectBackend w = some (some ptr))
    (h : managerSection env w c = some (w', updates, reply)) :
    (w'.AllMock ∧ selectBackend w' = some (some ptr)) ∧
      ∃ backend : List StatsUpdate, updates = backend.map (ManagerUpdate.backend ptr) ++
        (if c.valid then c.updates env reply.code else []).map ManagerUpdate.manager := by
  unfold managerSection at h
  by_cases hvalid : c.valid = false
  · rw [if_pos hvalid] at h
    cases h
    rw [hvalid]
    exact ⟨⟨hmock, hsel⟩, [], rfl⟩
  · rw [if_neg hvalid, hsel, Option.bind_some] at h
    obtain ⟨⟨data, backend, reply'⟩, hs, hw⟩ := Option.map_eq_some_iff.1 h
    cases hw
    have hlive : data.isSome = (w.heap ptr).privateData.isSome := by
      unfold onLiveSection at hs
      cases hdata : (w.heap ptr).privateData with
      | none =>
        rw [hdata] at hs
        cases hs
        rfl
      | some priv =>
        rw [hdata] at hs
        obtain ⟨⟨priv', r⟩, -, hr⟩ := Option.map_eq_some_iff.1 hs
        cases hr
        rfl
    refine ⟨⟨AllMock.setData hmock ptr data, ?_⟩, backend, ?_⟩
    · rw [← hsel]
      refine selectBackend_congr rfl rfl rfl (fun p => ?_) fun p => ?_
      · rw [setData_heap]
        split <;> rfl
      · rw [healthy_mock (AllMock.setData hmock ptr data), healthy_mock hmock, setData_heap]
        split
        · rename_i hp
          rw [hp]
          exact hlive
        · rfl
    · rw [Bool.not_eq_false] at hvalid
      rw [hvalid, if_pos rfl]

/-- The manager's counters alone. -/
def countManager (c : StatsCounts) : ManagerUpdate → StatsCounts
  | .backend _ _ => c
  | .manager d => c.count d

instance rightCommutative_countManager : RightCommutative countManager where
  right_comm c d d' := by
    cases d with
    | backend ptr d => rfl
    | manager d =>
      cases d' with
      | backend ptr' d' => rfl
      | manager d' => exact count_right_comm c d d'

theorem foldl_countManager (ptr : Nat) (backend counted : List StatsUpdate) (c : StatsCounts) :
    (backend.map (ManagerUpdate.backend ptr) ++ counted.map ManagerUpdate.manager).foldl countManager c =
      counted.foldl StatsCounts.count c := by
  have hbackend : (backend.map (ManagerUpdate.backend ptr)).foldl countManager c = c := by
    rw [List.foldl_map]
    exact List.foldl_fixed backend
  rw [List.foldl_append, hbackend, List.foldl_map]
  rfl

/-- No count is lost: when all calls have returned, the manager's counters are those of counting
each call once, a success with the bytes it asked for and a failure as an error. -/
theorem manager_counts_each_call (hmock : w.AllMock) (hsel : selectBackend w = some (some ptr))
    {calls : List (CallEnv × ManagerCall)} {sched : List Nat}
    {s : CallWorld (StorageWorld (Option MockStoragePrivate)) ManagerStats (CallEnv × ManagerCall) StorageReply ManagerUpdate}
    {outs : List (Option Nat)} (hrun : managerSections.concurrent.run (.start w w.managerStats calls) sched = some (s, outs))
    (hdone : s.Done) :
    s.late.manager.counts = (s.threads.flatMap managerCounted).foldl StatsCounts.count w.manager.globalStats.counts := by
  have hv : ∀ (st : ManagerStats) d, (st.apply d).manager.counts = countManager st.manager.counts d := by
    intro st d
    cases d with
    | backend ptr d => rfl
    | manager d => exact counts_apply st.manager d
  have hcount := Calls.counted_done (C := managerSections) (v := fun st => st.manager.counts) (u := countManager) hv
    (e := fun a reply => (if a.2.valid then a.2.updates a.1 reply.code else []).map .manager)
    (I := fun w => w.AllMock ∧ selectBackend w = some (some ptr)) ?_ ⟨hmock, hsel⟩ hrun hdone
  · have hthreads : s.threads.flatMap (Calls.acted fun a reply =>
        (if a.2.valid then a.2.updates a.1 reply.code else []).map .manager) =
        (s.threads.flatMap managerCounted).map ManagerUpdate.manager := by
      rw [List.map_flatMap]
      refine congrArg (fun f => s.threads.flatMap f) (funext fun t => ?_)
      unfold Calls.acted managerCounted
      cases t.phase <;> rfl
    rw [hthreads, List.foldl_map] at hcount
    exact hcount
  · rintro w ⟨env, c⟩ w' updates reply ⟨hmock, hsel⟩ hs
    obtain ⟨hkept, backend, rfl⟩ := managerSection_spec hmock hsel hs
    refine ⟨hkept, fun z => ?_⟩
    rw [foldl_countManager, List.foldl_map]
    rfl

end

/-! ## One manager and a Mock backend -/

/-- A new manager with one new Mock backend, which the manager falls back on. -/
def mockManager : StorageWorld (Option MockStoragePrivate) where
  manager := { storageManagerInit with
    backends := (List.replicate maxStorageBackends none).set 0 (some 0), backendCount := 1 }
  heap _ := createMockStorageInterface

/-- The read fails, as it comes before the write. -/
def readAndWrite : List (CallEnv × ManagerCall) :=
  [(.calm, .write (cstr "a") 0 [1, 2]), (.calm, .read (cstr "a") 0 2), (.calm, .sync (cstr "a"))]

theorem manager_calls_linearize_three :
    ∃ s outs, managerSections.concurrent.run (.start mockManager mockManager.managerStats readAndWrite)
        [1, 0, 2, 0, 1, 0] = some (s, outs) ∧ outs.reduceOption = [1, 0, 2] ∧
      ∃ w' st replies, managerCalls.run mockManager (outs.reduceOption.filterMap fun i => readAndWrite[i]?) =
          some (w', replies) ∧ w' = s.main.withManagerStats st ∧ st.counts = s.late.counts ∧
        List.Forall₂ s.Replies outs.reduceOption replies := by
  obtain ⟨⟨s, outs⟩, hrun, hdone, horder⟩ : ∃ r, managerSections.concurrent.run
      (.start mockManager mockManager.managerStats readAndWrite) [1, 0, 2, 0, 1, 0] = some r ∧ r.1.Done ∧
      r.2.reduceOption = [1, 0, 2] := ⟨_, rfl, by decide, rfl⟩
  exact ⟨s, outs, hrun, horder, (manager_calls_linearize (fun _ => rfl) hrun hdone).2⟩

theorem manager_counts_each_call_three :
    ∃ s outs, managerSections.concurrent.run (.start mockManager mockManager.managerStats readAndWrite)
        [1, 0, 2, 0, 1, 0] = some (s, outs) ∧
      s.late.manager.counts = (s.threads.flatMap managerCounted).foldl StatsCounts.count ⟨0, 0, 0, 0, 0⟩ ∧
      s.late.manager.counts = ⟨0, 1, 0, 2, 1⟩ := by
  obtain ⟨⟨s, outs⟩, hrun, hdone, hcounts⟩ : ∃ r, managerSections.concurrent.run
      (.start mockManager mockManager.managerStats readAndWrite) [1, 0, 2, 0, 1, 0] = some r ∧ r.1.Done ∧
      r.1.late.manager.counts = ⟨0, 1, 0, 2, 1⟩ := ⟨_, rfl, by decide, rfl⟩
  have hsel : selectBackend mockManager = some (some 0) := rfl
  exact ⟨s, outs, hrun, manager_counts_each_call (fun _ => rfl) hsel hrun hdone, hcounts⟩

end XDevice
