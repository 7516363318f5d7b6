import XDevice.Storage.Sessions
import XDevice.Storage.RaftStorage
/-!
# What a Raft node finds after a restart

The adapter on a manager whose only backend is a Local one, from one start of the process to
the next. A key that is saved is written through a descriptor that cannot read, so it is
loaded in a later session. Kept to that, all the layers together are a map from keys to what
was saved.
-/
open Lib Lib.Posix

namespace XDevice

/-! ## The Local backend behind the interface -/

/-- A call on private data that `cleanup` may have released; the file system stays. -/
def onLocal (data : Fs × Option LocalStoragePrivate) (f : LocalWorld → Option (LocalWorld × StorageReply)) :
    Option ((Fs × Option LocalStoragePrivate) × StorageReply) :=
  match data with
  | (fs, none) => some ((fs, none), .ofCode .invalidParam)
  | (fs, some priv) => (f ⟨fs, priv⟩).map fun (w, reply) => ((w.fs, some w.priv), reply)

/-- `create_local_storage_interface`, after `init`. -/
def createLocalStorageInterface (fs : Fs) (priv : LocalStoragePrivate) :
    StorageInterface (Fs × Option LocalStoragePrivate) where
  type := .local
  privateData := (fs, some priv)
  cleanup := some fun
    | (fs, none) => ((fs, none), .invalidParam)
    | (fs, some priv) => ((localStorageCleanup ⟨fs, priv⟩, none), .ok)
  healthCheck := some fun data => data.2.elim .invalidParam fun priv => localStorageHealthCheck ⟨data.1, priv⟩
  readSync env data path offset size := onLocal data fun w => localStorageReadSync env w path offset size
  writeSync env data path offset bytes := onLocal data fun w => localStorageWriteSync env w path offset bytes
  fsync := some fun env data path => onLocal data fun w => localStorageFsync env w path

/-! ## Calls of the adapter -/

inductive RaftCall where
  | save (s : RaftSave)
  | load (env : CallEnv) (key : RaftKey) (size : Nat)

def RaftCall.key : RaftCall → RaftKey
  | .save s => s.key
  | .load _ key _ => key

/-- How many bytes it saves or asks for. -/
def RaftCall.size : RaftCall → Nat
  | .save s => s.value.length
  | .load _ _ size => size

def RaftCall.saves : RaftCall → Bool
  | .save _ => true
  | .load _ _ _ => false

/-- The call on the backend behind it. -/
def RaftCall.op (adapter : RaftStorageAdapter) : RaftCall → CallEnv × StorageOp
  | .save s => (s.env, .writeSync (adapter.path s.key) 0 s.value)
  | .load env key size => (env, .readSync (adapter.path key) 0 size)

def adapterMachine {σ : Type} (adapter : RaftStorageAdapter) : Machine (StorageWorld σ) RaftCall StorageReply where
  step w
    | .save s => adapter.save w s
    | .load env key size => adapter.load w env key size

/-- A process from its start to its end: the backend, a manager it is registered with, an adapter
on that, the calls, and all cleaned up. -/
def nodeSessions (config : Option CString) (devicePrefix : CString) : Machine Fs (List RaftCall) (List StorageReply) where
  step fs calls :=
    match localStorageInit fs config with
    | some (fs, .ok priv) =>
      (storageManagerRegisterBackend ⟨storageManagerInit, fun _ => createLocalStorageInterface fs priv⟩ 0).bind fun r =>
        ((adapterMachine (raftStorageAdapterInit devicePrefix)).run r.1 calls).map fun r =>
          (((storageManagerCleanup r.1).heap 0).privateData.1, r.2)
    | _ => none

/-- What each key has been saved as. -/
abbrev RaftContents := RaftKey → Option Bytes

/-- A save writes over the start of what the key has; a load is of what is there. -/
def contentsMachine : Machine RaftContents RaftCall StorageReply where
  step m
    | .save s =>
      if s.value.length = 0 then some (m, .ofCode .invalidParam)
      else some (fun key => if key = s.key then some (writeAt 0 ((m key).getD []) 0 s.value) else m key, .ofCode .ok)
    | .load _ key size =>
      some (m, if size = 0 then .ofCode .invalidParam
        else
          match m key with
          | none => .ofCode .io
          | some c => if size ≤ c.length then ⟨.ok, c.take size, 0⟩ else .ofCode .notFound)

/-! ## The layers between -/

/-- A manager with one registered backend: the Local backend, at address zero. -/
structure OnlyLocal (W : StorageWorld (Fs × Option LocalStoragePrivate)) (w : LocalWorld) : Prop where
  slots : W.slots = [some 0]
  backend : W.heap 0 = createLocalStorageInterface w.fs w.priv

section
variable {W : StorageWorld (Fs × Option LocalStoragePrivate)} {w w' : LocalWorld} {adapter : RaftStorageAdapter}
  {reply : StorageReply}

/-- Whatever the policy, the one backend is selected as long as it is healthy. -/
theorem OnlyLocal.selectBackend (h : OnlyLocal W w) (hhealth : localStorageHealthCheck w = .ok) :
    selectBackend W = some (some 0) := by
  have hcount : W.manager.backendCount ≠ 0 := by
    intro h0
    have := h.slots
    simp [StorageWorld.slots, h0] at this
  have hhealthy : (W.heap 0).healthy = true := by
    rw [h.backend]
    exact decide_eq_true hhealth
  have hfirst : ∀ wanted, W.firstHealthy wanted W.slots = if wanted (W.heap 0).type then some (some 0) else some none := by
    intro wanted
    simp [h.slots, StorageWorld.firstHealthy, hhealthy]
  unfold XDevice.selectBackend
  simp only [if_neg hcount, hfirst]
  cases decide ((W.heap 0).type = W.manager.routingPolicy.primaryBackend) <;>
    cases decide ((W.heap 0).type = W.manager.routingPolicy.fallbackBackend) <;>
    cases W.manager.routingPolicy.autoFailover <;> rfl

theorem OnlyLocal.step (h : OnlyLocal W w) (w' : LocalWorld) (isRead : Bool) (n l : Nat) (c : XdeviceError) :
    OnlyLocal (updateStats (W.setData 0 (w'.fs, some w'.priv)) isRead n l c) w' where
  slots := h.slots
  backend := by
    simp [updateStats, StorageWorld.withStats, StorageWorld.setData, h.backend, createLocalStorageInterface]

/-- A call of the adapter is the call on the backend. -/
theorem adapter_call (h : OnlyLocal W w) (hhealth : localStorageHealthCheck w = .ok) {c : RaftCall}
    (hcall : localExec (c.op adapter).1 w (c.op adapter).2 = some (w', reply)) :
    ∃ W', (adapterMachine adapter).step W c = some (W', reply) ∧ OnlyLocal W' w' := by
  cases c with
  | save s =>
    by_cases h0 : s.value.length = 0
    · have hempty : adapter.save W s = some (W, .ofCode .invalidParam) := by
        obtain ⟨env, key, value⟩ := s
        cases key <;> exact if_pos h0
      have hcall' : localExec s.env w (.writeSync (adapter.path s.key) 0 s.value) = some (w, .ofCode .invalidParam) :=
        if_pos h0
      obtain ⟨rfl, rfl⟩ := Prod.mk.inj (Option.some.inj (hcall'.symm.trans hcall))
      exact ⟨W, hempty, h⟩
    · refine ⟨updateStats (W.setData 0 (w'.fs, some w'.priv)) false s.value.length s.env.latencyNs reply.code, ?_,
        h.step w' ..⟩
      have hwrite : localStorageWriteSync s.env w (adapter.path s.key) 0 s.value = some (w', reply) := hcall
      refine (save_eq adapter W s h0).trans ?_
      simp only [storageManagerWrite, if_neg h0, h.selectBackend hhealth, h.backend, createLocalStorageInterface, onLocal,
        hwrite, Option.bind_some, Option.map_some]
  | load env key size =>
    refine ⟨if size = 0 then W else updateStats (W.setData 0 (w'.fs, some w'.priv)) true size env.latencyNs reply.code,
      ?_, ?_⟩
    · refine (load_eq adapter W env key size).trans ?_
      by_cases h0 : size = 0
      · have hcall' : localExec env w (.readSync (adapter.path key) 0 size) = some (w, .ofCode .invalidParam) := if_pos h0
        obtain ⟨-, rfl⟩ := Prod.mk.inj (Option.some.inj (hcall'.symm.trans hcall))
        rw [if_pos h0]
        exact if_pos h0
      · have hread : localStorageReadSync env w (adapter.path key) 0 size = some (w', reply) := hcall
        simp only [storageManagerRead, if_neg h0, h.selectBackend hhealth, h.backend, createLocalStorageInterface, onLocal,
          hread, Option.bind_some, Option.map_some]
    · split
      · rename_i h0
        have hcall' : localExec env w (.readSync (adapter.path key) 0 size) = some (w, .ofCode .invalidParam) := if_pos h0
        obtain ⟨rfl, -⟩ := Prod.mk.inj (Option.some.inj (hcall'.symm.trans hcall))
        exact h
      · exact h.step w' ..

/-- The manager's cleanup is the backend's. -/
theorem OnlyLocal.cleanup (h : OnlyLocal W w) :
    ((storageManagerCleanup W).heap 0).privateData.1 = localStorageCleanup w := by
  simp [storageManagerCleanup, h.slots, StorageWorld.cleanup, h.backend, createLocalStorageInterface, StorageWorld.setData]

end

/-! ## One session -/

/-- Keys whose files are flat and fit, sizes within the range of offsets, and no key that is both
saved and loaded. -/
structure RaftDisciplined (base devicePrefix : CString) (calls : List RaftCall) : Prop where
  paths : ∀ c ∈ calls, FlatPath base ((raftStorageAdapterInit devicePrefix).path c.key)
  sizes : ∀ c ∈ calls, c.size < 2 ^ 63
  oneWay : ∀ c ∈ calls, ∀ c' ∈ calls, c.key = c'.key → c.saves = c'.saves

section
variable {base devicePrefix : CString} {d : Place} {calls : List RaftCall}

/-- A key whose file is short enough for the Local backend is not cut by the adapter. -/
theorem FlatPath.uncut {adapter : RaftStorageAdapter} {key : RaftKey} (h : FlatPath base (adapter.path key)) :
    (adapter.pathText key).length < maxPathLen := by
  have hfits := h.fits
  rw [RaftStorageAdapter.path, snprintf, List.length_take] at hfits
  simp only [maxPathLen] at hfits ⊢
  omega

theorem path_of_key {k k' : RaftKey} (h : FlatPath base ((raftStorageAdapterInit devicePrefix).path k))
    (h' : FlatPath base ((raftStorageAdapterInit devicePrefix).path k'))
    (he : (raftStorageAdapterInit devicePrefix).path k = (raftStorageAdapterInit devicePrefix).path k') : k = k' :=
  path_inj h.uncut h'.uncut he

theorem op_access {adapter : RaftStorageAdapter} {c : RaftCall} {access : Access}
    (h : (c.op adapter).2.access = some access) : access = if c.saves then .wronly else .rdonly := by
  cases c <;> simp only [RaftCall.op, StorageOp.access] at h <;> split at h <;> cases h <;> rfl

/-- The calls on the backend use each file in one way. -/
theorem RaftDisciplined.backend (h : RaftDisciplined base devicePrefix calls) :
    Disciplined base (calls.map (RaftCall.op (raftStorageAdapterInit devicePrefix))) := by
  refine ⟨fun a ha => ?_, fun a ha => ?_, fun a ha b hb hpath x hx y hy => ?_, fun a ha b _ _ hdel => ?_⟩
  · obtain ⟨c, hc, rfl⟩ := List.mem_map.1 ha
    have hflat := h.paths c hc
    cases c <;> exact hflat
  · obtain ⟨c, hc, rfl⟩ := List.mem_map.1 ha
    have hsize := h.sizes c hc
    cases c <;> simpa only [RaftCall.op, RaftCall.size, StorageOp.extent, Nat.zero_add] using hsize
  · obtain ⟨c, hc, rfl⟩ := List.mem_map.1 ha
    obtain ⟨c', hc', rfl⟩ := List.mem_map.1 hb
    have hkey : c.key = c'.key := by
      refine path_of_key (h.paths c hc) (h.paths c' hc') ?_
      cases c <;> cases c' <;> exact hpath
    have hsaves := h.oneWay c hc c' hc' hkey
    rw [op_access hx, op_access hy, hsaves]
  · obtain ⟨c, -, rfl⟩ := List.mem_map.1 ha
    cases c <;> cases hdel

/-- The files as the contents of the keys. -/
def Holds (base devicePrefix : CString) (files : FileMap) (m : RaftContents) : Prop :=
  ∀ key, FlatPath base ((raftStorageAdapterInit devicePrefix).path key) →
    files ((raftStorageAdapterInit devicePrefix).path key) = m key

/-- What a call does to the files, it does to the contents. -/
theorem Holds.step {files : FileMap} {m : RaftContents} (h : Holds base devicePrefix files m) {c : RaftCall}
    (hpath : FlatPath base ((raftStorageAdapterInit devicePrefix).path c.key)) :
    ∃ m', contentsMachine.step m c = some (m', (files.diskExec (c.op (raftStorageAdapterInit devicePrefix)).2).2) ∧
      Holds base devicePrefix (files.diskExec (c.op (raftStorageAdapterInit devicePrefix)).2).1 m' := by
  cases c with
  | save s =>
    by_cases h0 : s.value.length = 0
    · simp only [contentsMachine, RaftCall.op, FileMap.diskExec, FileMap.writeSync, if_pos h0]
      exact ⟨m, rfl, h⟩
    · simp only [contentsMachine, RaftCall.op, FileMap.diskExec, FileMap.writeSync, if_neg h0]
      refine ⟨_, rfl, fun key hkey => ?_⟩
      by_cases hk : key = s.key
      · rw [if_pos hk, hk, FileMap.set_self, h s.key hpath]
      · rw [if_neg hk, FileMap.set_other _ _ fun he => hk (path_of_key hkey hpath he)]
        exact h key hkey
  | load env key size =>
    have hfile := h key hpath
    refine ⟨m, ?_, h⟩
    cases hkey : m key <;> simp [contentsMachine, RaftCall.op, FileMap.diskExec, hfile.trans hkey, hkey]

/-- While its directory is there the backend is healthy. -/
theorem LocalOk.healthy {w : LocalWorld} (h : LocalOk base d w) : localStorageHealthCheck w = .ok := by
  simp [localStorageHealthCheck, Fs.stat, h.path, h.dir.resolves, h.dir.dir]

/-- A session that has begun well goes through, and does to the contents what its calls do. -/
theorem raft_session_run {W : StorageWorld (Fs × Option LocalStoragePrivate)} {w : LocalWorld} {m : RaftContents}
    (hW : OnlyLocal W w) (hdisc : RaftDisciplined base devicePrefix calls)
    (hw : SessionOk base d (calls.map (RaftCall.op (raftStorageAdapterInit devicePrefix))) w)
    (hm : Holds base devicePrefix (localMap d w) m) :
    ∃ W' w' m' replies, (adapterMachine (raftStorageAdapterInit devicePrefix)).run W calls = some (W', replies) ∧
      contentsMachine.run m calls = some (m', replies) ∧ OnlyLocal W' w' ∧ LocalOk base d w' ∧
      Holds base devicePrefix (localMap d w') m' := by
  have hsim : Machine.Sim (adapterMachine (raftStorageAdapterInit devicePrefix)) contentsMachine
      (fun W m => ∃ w, OnlyLocal W w ∧
        SessionOk base d (calls.map (RaftCall.op (raftStorageAdapterInit devicePrefix))) w ∧
        Holds base devicePrefix (localMap d w) m) (fun _ c => c ∈ calls) := by
    rintro W m c ⟨w, hW, hw, hm⟩ hc
    obtain ⟨w', hcall, hw', hmap⟩ := session_call hw hdisc.backend (List.mem_map_of_mem hc)
    obtain ⟨W', hstep, hW'⟩ := adapter_call hW hw.ok.healthy hcall
    obtain ⟨m', hstep', hm'⟩ := hm.step (hdisc.paths c hc)
    exact ⟨W', m', _, hstep, hstep', w', hW', hw', hmap ▸ hm'⟩
  obtain ⟨W', m', replies, hrun, hrun', w', hW', hw', hm'⟩ :=
    hsim.run ⟨w, hW, hw, hm⟩ (Machine.along_of_forall (A := fun c => c ∈ calls) (fun _ hc => hc) W)
  exact ⟨W', w', m', replies, hrun, hrun', hW', hw'.ok, hm'⟩

/-! ## Sessions in turn -/

theorem raft_session_ready {config : Option CString} {fs : Fs} {files : FileMap} {m : RaftContents}
    (h : Ready config base d files fs) (hm : Holds base devicePrefix files m)
    (hdisc : RaftDisciplined base devicePrefix calls) :
    ∃ fs' files' m' replies, (nodeSessions config devicePrefix).step fs calls = some (fs', replies) ∧
      contentsMachine.run m calls = some (m', replies) ∧ Ready config base d files' fs' ∧
      Holds base devicePrefix files' m' := by
  obtain ⟨fs1, priv, hinit, hok, hempty, rfl⟩ := h
  obtain ⟨W, hreg, hW⟩ : ∃ W, storageManagerRegisterBackend
      ⟨storageManagerInit, fun _ => createLocalStorageInterface fs1 priv⟩ 0 = some (W, .ok) ∧ OnlyLocal W ⟨fs1, priv⟩ :=
    ⟨_, rfl, rfl, rfl⟩
  obtain ⟨W', w', m', replies, hrun, hrun', hW', hw', hm'⟩ :=
    raft_session_run hW hdisc (sessionOk_start hok hempty) hm
  refine ⟨localStorageCleanup w', _, m', replies, ?_, hrun', ready_after hinit hok.path hw', hm'⟩
  simp only [nodeSessions, hinit, hreg, Option.bind_some, hrun, Option.map_some, hW'.cleanup]

/-- The value of a save of `key`; one without a value is refused. -/
def RaftCall.savedTo (key : RaftKey) : RaftCall → Option Bytes
  | .save s => if s.key = key ∧ s.value.length ≠ 0 then some s.value else none
  | .load _ _ _ => none

/-- The value that was saved last under a key. -/
def lastSaved (key : RaftKey) (calls : List RaftCall) : Option Bytes := (calls.filterMap (RaftCall.savedTo key)).getLast?

/-- One call leaves what a key has, or puts a value over its start. -/
theorem contents_step {m m' : RaftContents} {c : RaftCall} {reply : StorageReply}
    (h : contentsMachine.step m c = some (m', reply)) (key : RaftKey) :
    c.savedTo key = none ∧ m' key = m key ∨ ∃ v rest, c.savedTo key = some v ∧ m' key = some (v ++ rest) := by
  cases c with
  | save s =>
    simp only [contentsMachine] at h
    split at h
    · rename_i h0
      cases h
      exact .inl ⟨if_neg fun hs => hs.2 h0, rfl⟩
    · rename_i h0
      cases h
      by_cases hk : key = s.key
      · refine .inr ⟨s.value, ((m key).getD []).drop s.value.length, if_pos ⟨hk.symm, h0⟩, ?_⟩
        simp [if_pos hk, writeAt, padTo]
      · exact .inl ⟨if_neg fun hs => hk hs.1.symm, if_neg hk⟩
  | load env k size =>
    cases h
    exact .inl ⟨rfl, rfl⟩

/-- What a key has starts with the value saved last. -/
theorem contents_last {m m' : RaftContents} {calls : List RaftCall} {replies : List StorageReply}
    (h : contentsMachine.run m calls = some (m', replies)) (key : RaftKey) :
    lastSaved key calls = none ∧ m' key = m key ∨ ∃ v rest, lastSaved key calls = some v ∧ m' key = some (v ++ rest) := by
  induction calls generalizing m replies with
  | nil =>
    cases h
    exact .inl ⟨rfl, rfl⟩
  | cons c calls ih =>
    obtain ⟨m1, reply, replies', hs, hr, -⟩ := Machine.run_cons_eq_some.1 h
    have hcons : lastSaved key (c :: calls) = (lastSaved key calls).or (c.savedTo key) := by
      unfold lastSaved
      cases hc : c.savedTo key with
      | none => rw [List.filterMap_cons_none hc, Option.or_none]
      | some v =>
        rw [List.filterMap_cons_some hc, List.getLast?_cons]
        cases (calls.filterMap (RaftCall.savedTo key)).getLast? <;> rfl
    rw [hcons]
    rcases ih hr with ⟨hnone, he⟩ | ⟨v, rest, hsome, he⟩
    · rw [hnone, he, Option.none_or]
      exact contents_step hs key
    · rw [hsome]
      exact .inr ⟨v, rest, rfl, he⟩

/-! ## Main theorem -/

/-- Over any number of restarts, adapter, manager, backend and files together are one map of keys:
every call answers as the map does, and after all of them each key that was saved has a file that
starts with the value saved last. -/
theorem raft_sessions_keep {fs fs' : Fs} {config : Option CString} {priv : LocalStoragePrivate}
    (hfs : fs.Ok) (hinit : localStorageInit fs config = some (fs', .ok priv)) (hb : BaseAt d ⟨fs', priv⟩)
    {sessions : List (List RaftCall)} (hdisc : ∀ calls ∈ sessions, RaftDisciplined priv.basePath devicePrefix calls) :
    ∃ fs'' m replies, (nodeSessions config devicePrefix).run fs sessions = some (fs'', replies) ∧
      contentsMachine.run (fun key => localMap d ⟨fs', priv⟩ ((raftStorageAdapterInit devicePrefix).path key))
        sessions.flatten = some (m, replies.flatten) ∧
      ∀ key v, lastSaved key sessions.flatten = some v → ∃ rest, m key = some (v ++ rest) := by
  obtain ⟨hok, hempty⟩ := localStorageInit_spec hfs hinit hb
  have hready : Ready config priv.basePath d (localMap d ⟨fs', priv⟩) fs := ⟨fs', priv, hinit, hok, hempty, rfl⟩
  have hall : ∀ (sessions : List (List RaftCall)) (fs : Fs) (files : FileMap) (m : RaftContents),
      (∀ calls ∈ sessions, RaftDisciplined priv.basePath devicePrefix calls) →
      Ready config priv.basePath d files fs → Holds priv.basePath devicePrefix files m →
      ∃ fs' m' replies, (nodeSessions config devicePrefix).run fs sessions = some (fs', replies) ∧
        contentsMachine.run m sessions.flatten = some (m', replies.flatten) := by
    intro sessions
    induction sessions with
    | nil => exact fun fs _ m _ _ _ => ⟨fs, m, [], rfl, rfl⟩
    | cons calls sessions ih =>
      intro fs files m hdisc hready hm
      obtain ⟨hfirst, hrest⟩ := List.forall_mem_cons.1 hdisc
      obtain ⟨fs1, files1, m1, replies1, hs, hr, hready1, hm1⟩ := raft_session_ready hready hm hfirst
      obtain ⟨fs2, m2, replies2, hs2, hr2⟩ := ih fs1 files1 m1 hrest hready1 hm1
      exact ⟨fs2, m2, replies1 :: replies2, Machine.run_cons_eq_some.2 ⟨fs1, replies1, replies2, hs, hs2, rfl⟩,
        Machine.run_append hr hr2⟩
  obtain ⟨fs'', m, replies, hrun, hrun'⟩ := hall sessions fs _ _ hdisc hready fun _ _ => rfl
  refine ⟨fs'', m, replies, hrun, hrun', fun key v hv => ?_⟩
  rcases contents_last hrun' key with ⟨hnone, -⟩ | ⟨v', rest, hsome, he⟩
  · rw [hnone] at hv
    cases hv
  · rw [hsome] at hv
    cases hv
    exact ⟨rest, he⟩

end

/-- A vote and a log entry saved, the vote replaced after a restart, and both loaded after another. -/
def threeStarts : List (List RaftCall) :=
  [[.save ⟨.calm, .state (cstr "vote"), cstr "node22"⟩, .save ⟨.calm, .log 1, [7, 8]⟩],
   [.save ⟨.calm, .state (cstr "vote"), cstr "node1"⟩],
   [.load .calm (.state (cstr "vote")) 5, .load .calm (.log 1) 2, .load .calm (.log 2) 1]]

theorem threeStarts_keep : ∃ fs replies, (nodeSessions none (cstr "node1_")).run emptyDisk threeStarts = some (fs, replies) ∧
    replies.flatten = [.ofCode .ok, .ofCode .ok, .ofCode .ok, ⟨.ok, cstr "node1", 0⟩, ⟨.ok, [7, 8], 0⟩, .ofCode .io] := by
  have hdisc : ∀ calls ∈ threeStarts, RaftDisciplined freshLocal.priv.basePath (cstr "node1_") calls := by
    intro calls hcalls
    have hall : (∀ c ∈ calls, FlatPath freshLocal.priv.basePath ((raftStorageAdapterInit (cstr "node1_")).path c.key)) ∧
        (∀ c ∈ calls, c.size < 2 ^ 63) ∧ ∀ c ∈ calls, ∀ c' ∈ calls, c.key = c'.key → c.saves = c'.saves := by
      revert calls
      decide
    exact ⟨hall.1, hall.2.1, hall.2.2⟩
  obtain ⟨fs, m, replies, hrun, hcontents, -⟩ := raft_sessions_keep emptyDisk_ok freshLocal_init freshLocal_base hdisc
  refine ⟨fs, replies, hrun, ?_⟩
  have hempty : (fun key => localMap [cstr "tmp", cstr "xdevice"] ⟨freshLocal.fs, freshLocal.priv⟩
      ((raftStorageAdapterInit (cstr "node1_")).path key)) = fun _ => none := by
    funext key
    exact ite_self _
  rw [hempty] at hcontents
  have hout := congrArg (Option.map Prod.snd) hcontents
  exact (Option.some.inj hout).symm

end XDevice
