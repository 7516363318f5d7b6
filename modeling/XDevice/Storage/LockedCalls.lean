import XDevice.Lib.Linearize
import XDevice.Storage.Manager
/-!
# Calls cut at their locks

A Mock call does its work under `files_lock` and counts it under `stats_lock`
afterwards, so other calls come in between. The files and the replies are
those of one call after the other, and no count is lost. Of the average latencies nothing is
said: they depend on the order of the updates.
-/
open Lib

namespace XDevice

/-! ## Statistics -/

/-- What is done to the statistics while their lock is held. -/
inductive StatsUpdate where
  | read (bytes latency : Nat)
  | write (bytes latency : Nat)
  | error

namespace StorageStats

def apply (st : StorageStats) : StatsUpdate → StorageStats
  | .read bytes latency => st.countRead bytes latency
  | .write bytes latency => st.countWrite bytes latency
  | .error => st.countError

end StorageStats

/-- The counters of `storage_stats_t`. -/
structure StatsCounts where
  readOps : Nat
  writeOps : Nat
  readBytes : Nat
  writeBytes : Nat
  errorCount : Nat
  deriving DecidableEq, Repr

namespace StatsCounts

def count (c : StatsCounts) : StatsUpdate → StatsCounts
  | .read bytes _ => { c with readOps := add64 c.readOps 1, readBytes := add64 c.readBytes bytes }
  | .write bytes _ => { c with writeOps := add64 c.writeOps 1, writeBytes := add64 c.writeBytes bytes }
  | .error => { c with errorCount := add64 c.errorCount 1 }

end StatsCounts

def StorageStats.counts (st : StorageStats) : StatsCounts :=
  ⟨st.readOps, st.writeOps, st.readBytes, st.writeBytes, st.errorCount⟩

/-! ## The sections of a Mock call -/

/-- `mock_storage_read_sync` up to `pthread_mutex_unlock(&priv->files_lock)`, with the update
it goes on to. -/
def mockReadSection (env : CallEnv) (priv : MockStoragePrivate) (path : CString) (offset size : Nat) :
    Option (MockStoragePrivate × List StatsUpdate × StorageReply) :=
  if size = 0 then some (priv, [], .ofCode .invalidParam)
  else if priv.injectReadErrors && shouldInjectError env priv then some (priv, [.error], .ofCode .io)
  else
    match findFile priv path with
    | none => some (priv, [], .ofCode .notFound)
    | some i =>
      (priv.files[i]?).bind fun file =>
        if file.size ≤ offset then some (priv, [], .ofCode .notFound)
        else
          let readSize := if file.size < add64 offset size then file.size - offset else size
          (memcpyFrom file.data offset readSize).map fun bytes =>
            (priv, [.read readSize env.latencyNs], ⟨.ok, bytes ++ List.replicate (size - readSize) 0, 0⟩)

def writeFileSection (env : CallEnv) (priv : MockStoragePrivate) (i : Nat) (file : MockFile) (offset : Nat) (data : Bytes) :
    Option (MockStoragePrivate × List StatsUpdate × StorageReply) :=
  let newSize := add64 offset data.length
  (if file.size < newSize then expandFile env file newSize else some (file, .ok)).bind fun (file, ret) =>
    if ret ≠ .ok then some (priv.setFile i file, [], .ofCode .outOfMemory)
    else if priv.maxFileSize < file.size then some (priv.setFile i file, [], .ofCode .noSpace)
    else
      (memcpy file.data offset data).map fun block =>
        (priv.setFile i { file with data := block, modifiedTime := env.now }, [.write data.length env.latencyNs],
          .ofCode .ok)

/-- `mock_storage_write_sync` in the same way. -/
def mockWriteSection (env : CallEnv) (priv : MockStoragePrivate) (path : CString) (offset : Nat) (data : Bytes) :
    Option (MockStoragePrivate × List StatsUpdate × StorageReply) :=
  if data.length = 0 then some (priv, [], .ofCode .invalidParam)
  else if priv.injectWriteErrors && shouldInjectError env priv then some (priv, [.error], .ofCode .io)
  else
    match findFile priv path with
    | some i => (priv.files[i]?).bind fun file => writeFileSection env priv i file offset data
    | none =>
      (createNewFile env priv path (add64 offset data.length)).bind fun
        | none => some (priv, [], .ofCode .outOfMemory)
        | some priv => priv.files.head?.bind fun file => writeFileSection env priv 0 file offset data

/-- The other calls are one section, or none. -/
def mockSection (env : CallEnv) (priv : MockStoragePrivate) :
    StorageOp → Option (MockStoragePrivate × List StatsUpdate × StorageReply)
  | .writeSync p off d => mockWriteSection env priv p off d
  | .readSync p off n => mockReadSection env priv p off n
  | op => (mockExec env priv op).map fun (priv, reply) => (priv, [], reply)

def mockCalls : Calls MockStoragePrivate StorageStats (CallEnv × StorageOp) StorageReply StatsUpdate where
  act priv a := mockSection a.1 priv a.2
  update := StorageStats.apply

/-! ## Counting -/

theorem counts_apply (st : StorageStats) (d : StatsUpdate) : (st.apply d).counts = st.counts.count d := by
  cases d <;> rfl

theorem add64_right_comm (a b c : Nat) : add64 (add64 a b) c = add64 (add64 a c) b := by
  unfold add64
  omega

theorem count_right_comm (c : StatsCounts) (d d' : StatsUpdate) : (c.count d).count d' = (c.count d').count d := by
  unfold StatsCounts.count
  cases d <;> cases d' <;> simp [add64_right_comm]

instance rightCommutative_count : RightCommutative StatsCounts.count := ⟨count_right_comm⟩

/-! ## A call is its sections -/

/-- The files with the statistics put back. -/
def withUpdates (st : StorageStats) :
    MockStoragePrivate × List StatsUpdate × StorageReply → MockStoragePrivate × StorageReply
  | (priv, updates, reply) => (priv.withStats (updates.foldl StorageStats.apply st), reply)

section
variable (env : CallEnv) (priv : MockStoragePrivate) (st : StorageStats)

theorem createNewFile_withStats (path : CString) (n : Nat) : createNewFile env (priv.withStats st) path n =
    (createNewFile env priv path n).map (·.map (·.withStats st)) := by
  unfold createNewFile
  have hmax : (priv.withStats st).maxFiles = priv.maxFiles := rfl
  have hcount : (priv.withStats st).fileCount = priv.fileCount := rfl
  rw [hmax, hcount]
  split
  · rfl
  · split
    · rfl
    · dsimp only
      split
      · cases malloc (env.mallocData n) env.junk n with
        | none => rfl
        | some block =>
          dsimp only
          cases memset block 0 n with
          | none => rfl
          | some data => rfl
      · rfl

theorem readSync_sections (path : CString) (offset size : Nat) :
    mockStorageReadSync env (priv.withStats st) path offset size =
      (mockReadSection env priv path offset size).map (withUpdates st) := by
  unfold mockStorageReadSync mockReadSection
  have hinject : ((priv.withStats st).injectReadErrors && shouldInjectError env (priv.withStats st)) =
      (priv.injectReadErrors && shouldInjectError env priv) := rfl
  have hfind : findFile (priv.withStats st) path = findFile priv path := rfl
  have hfiles : (priv.withStats st).files = priv.files := rfl
  rw [hinject, hfind, hfiles]
  split
  · rfl
  · split
    · rfl
    · cases findFile priv path with
      | none => rfl
      | some i =>
        dsimp only
        cases priv.files[i]? with
        | none => rfl
        | some file =>
          rw [Option.bind_some, Option.bind_some, readFile]
          split
          · rfl
          · dsimp only
            rw [Option.map_map]
            rfl

theorem writeFile_sections (i : Nat) (file : MockFile) (offset : Nat) (data : Bytes) :
    writeFile env (priv.withStats st) i file offset data =
      (writeFileSection env priv i file offset data).map (withUpdates st) := by
  unfold writeFile writeFileSection
  dsimp only
  rw [Option.map_bind]
  refine congrArg _ (funext fun grown => ?_)
  obtain ⟨file, ret⟩ := grown
  have hmax : (priv.withStats st).maxFileSize = priv.maxFileSize := rfl
  dsimp only [Function.comp_apply]
  rw [hmax]
  split
  · rfl
  · split
    · rfl
    · rw [Option.map_map]
      rfl

theorem writeSync_sections (path : CString) (offset : Nat) (data : Bytes) :
    mockStorageWriteSync env (priv.withStats st) path offset data =
      (mockWriteSection env priv path offset data).map (withUpdates st) := by
  unfold mockStorageWriteSync mockWriteSection
  have hinject : ((priv.withStats st).injectWriteErrors && shouldInjectError env (priv.withStats st)) =
      (priv.injectWriteErrors && shouldInjectError env priv) := rfl
  have hfind : findFile (priv.withStats st) path = findFile priv path := rfl
  have hfiles : (priv.withStats st).files = priv.files := rfl
  rw [hinject, hfind, hfiles, createNewFile_withStats]
  split
  · rfl
  · split
    · rfl
    · cases findFile priv path with
      | some i =>
        dsimp only
        cases priv.files[i]? with
        | none => rfl
        | some file => exact writeFile_sections env priv st i file offset data
      | none =>
        dsimp only
        cases createNewFile env priv path (add64 offset data.length) with
        | none => rfl
        | some made =>
          cases made with
          | none => rfl
          | some priv =>
            dsimp only [Option.map_some, Option.bind_some]
            have hhead : (priv.withStats st).files.head? = priv.files.head? := rfl
            rw [hhead]
            cases priv.files.head? with
            | none => rfl
            | some file => exact writeFile_sections env priv st 0 file offset data

/-- A call alone does what its sections do. -/
theorem mockExec_sections (op : StorageOp) :
    mockExec env (priv.withStats st) op = (mockSection env priv op).map (withUpdates st) := by
  cases op with
  | writeSync path offset data => exact writeSync_sections env priv st path offset data
  | readSync path offset size => exact readSync_sections env priv st path offset size
  | createFile path n =>
    unfold mockSection mockExec mockStorageCreateFile
    have hfind : findFile (priv.withStats st) path = findFile priv path := rfl
    dsimp only
    rw [hfind, createNewFile_withStats]
    cases findFile priv path with
    | some i => rfl
    | none =>
      dsimp only
      cases createNewFile env priv path n with
      | none => rfl
      | some made => cases made <;> rfl
  | deleteFile path =>
    unfold mockSection mockExec mockStorageDeleteFile removeFile
    have hfiles : (priv.withStats st).files = priv.files := rfl
    dsimp only
    rw [hfiles]
    split
    · rfl
    · split <;> rfl
  | getFileInfo path => rfl
  | fsync path => rfl

theorem lockstep_mockCalls :
    Machine.Lockstep mockCalls.sequential mockMachine fun t priv => priv = t.1.withStats t.2 := by
  rintro ⟨priv, st⟩ _ ⟨env, op⟩ rfl
  have hexec := mockExec_sections env priv st op
  cases hs : mockSection env priv op with
  | none =>
    rw [hs] at hexec
    refine .inl ⟨?_, hexec⟩
    dsimp only [Calls.sequential, mockCalls]
    rw [hs]
    rfl
  | some r =>
    obtain ⟨priv', updates, reply⟩ := r
    rw [hs] at hexec
    refine .inr ⟨(priv', updates.foldl StorageStats.apply st), _, reply, ?_, hexec, rfl⟩
    dsimp only [Calls.sequential, mockCalls]
    rw [hs]
    rfl

end

/-- However Mock calls run at the same time, once all have returned there is an order of them
in which, one after the other, they give the same replies, the same files and the same counts. -/
theorem mock_calls_linearize (priv : MockStoragePrivate) {calls : List (CallEnv × StorageOp)} {sched : List Nat}
    {s : CallWorld MockStoragePrivate StorageStats (CallEnv × StorageOp) StorageReply StatsUpdate}
    {outs : List (Option Nat)} (hrun : mockCalls.concurrent.run (.start priv priv.stats calls) sched = some (s, outs))
    (hdone : s.Done) :
    outs.reduceOption.Perm (List.range calls.length) ∧
    ∃ priv' replies, mockMachine.run priv (outs.reduceOption.filterMap fun i => calls[i]?) = some (priv', replies) ∧
      priv' = s.main.withStats priv'.stats ∧ priv'.stats.counts = s.late.counts ∧
      List.Forall₂ s.Replies outs.reduceOption replies := by
  obtain ⟨hperm, ⟨main, late⟩, replies, hseq, rfl, hlate, hreplies⟩ := Calls.linearizes counts_apply hrun hdone
  rcases lockstep_mockCalls.run (s := (priv, priv.stats)) (t := priv) rfl
      (outs.reduceOption.filterMap fun i => calls[i]?) with
    ⟨hstuck, -⟩ | ⟨t, priv', replies', hseq', hmock, rfl⟩
  · rw [hseq] at hstuck
    cases hstuck
  · rw [hseq] at hseq'
    cases hseq'
    exact ⟨hperm, _, replies, hmock, rfl, hlate, hreplies⟩

/-- Two writes and a read in between, the first write counted last. -/
def threeCalls : List (CallEnv × StorageOp) :=
  calmly [.writeSync (cstr "a") 0 [1, 2], .readSync (cstr "a") 0 2, .writeSync (cstr "a") 1 [3]]

theorem mock_calls_linearize_three :
    ∃ s outs, mockCalls.concurrent.run (.start mockStorageInit .zero threeCalls) [0, 2, 2, 1, 1, 0] = some (s, outs) ∧
      outs.reduceOption = [0, 2, 1] ∧
      ∃ priv' replies, mockMachine.run mockStorageInit (outs.reduceOption.filterMap fun i => threeCalls[i]?) =
          some (priv', replies) ∧ priv' = s.main.withStats priv'.stats ∧ priv'.stats.counts = s.late.counts ∧
        List.Forall₂ s.Replies outs.reduceOption replies := by
  obtain ⟨⟨s, outs⟩, hrun, hdone, horder⟩ : ∃ r, mockCalls.concurrent.run (.start mockStorageInit .zero threeCalls)
      [0, 2, 2, 1, 1, 0] = some r ∧ r.1.Done ∧ r.2.reduceOption = [0, 2, 1] := ⟨_, rfl, by decide, rfl⟩
  exact ⟨s, outs, hrun, horder, (mock_calls_linearize mockStorageInit hrun hdone).2⟩

end XDevice
