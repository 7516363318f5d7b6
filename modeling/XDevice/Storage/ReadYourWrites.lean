import XDevice.Storage.LocalRefinement
/-!
# Reading what was written to the Local backend

The cache keeps one descriptor for each path, opened for whatever the first call
on the path wanted. A call that wants the other access gets it all the same and
fails; every other call does as it should, in any order and however full the
cache is.
-/
open Lib Lib.Posix

namespace XDevice

/-- A backend with the bytes its successful calls should have left. -/
def localHistory : Machine (LocalWorld × FileMap) (CallEnv × StorageOp) StorageReply where
  step s a := (localExec a.1 s.1 a.2).map fun r =>
    ((r.1, if r.2.code = .ok then (s.2.exec a.2).1 else s.2), r.2)

/-- A call other than a deletion, on a flat name and within the range of offsets. -/
structure FlatCall (op : StorageOp) : Prop where
  name : Fs.FlatName op.path
  extent : op.extent < 2 ^ 63
  keeps : op ≠ .deleteFile op.path

instance (op : StorageOp) : Decidable (FlatCall op) :=
  decidable_of_iff (Fs.FlatName op.path ∧ op.extent < 2 ^ 63 ∧ op ≠ .deleteFile op.path)
    ⟨fun ⟨h1, h2, h3⟩ => ⟨h1, h2, h3⟩, fun ⟨h1, h2, h3⟩ => ⟨h1, h2, h3⟩⟩

/-- Writes succeed, so does a sync of a file that is there, and a read inside a file
gives its bytes. -/
def Promised (written : FileMap) (op : StorageOp) (reply : Option StorageReply) : Prop :=
  match op with
  | .writeSync _ _ _ => reply.map StorageReply.code = some .ok
  | .fsync p => written p ≠ none → reply.map StorageReply.code = some .ok
  | .readSync p off n => ∀ c, written p = some c → off + n ≤ c.length → reply = some ⟨.ok, (c.drop off).take n, 0⟩
  | _ => True

def AsPromised (s : LocalWorld × FileMap) (a : CallEnv × StorageOp) : Prop :=
  Promised s.2 a.2 ((localExec a.1 s.1 a.2).map Prod.snd)

/-- A write to a path that fits its buffer, and a read inside a file, ask for some
bytes and find no descriptor in the cache or one with their access. -/
def Permitted (s : LocalWorld × FileMap) (a : CallEnv × StorageOp) : Prop :=
  match a.2 with
  | .writeSync p _ d => s.1.priv.basePath.length + 1 + p.length < maxPathLen - 1 ∧ d.length ≠ 0 ∧
      ∀ r ∈ cachedFile s.1 p, r.2 = .wronly
  | .readSync p off n => ∀ c ∈ s.2 p, off + n ≤ c.length → n ≠ 0 ∧ ∀ r ∈ cachedFile s.1 p, r.2 = .rdonly
  | _ => True

instance : ∀ s a, Decidable (Permitted s a)
  | s, (_, .writeSync p _ d) =>
    inferInstanceAs (Decidable (s.1.priv.basePath.length + 1 + p.length < maxPathLen - 1 ∧ d.length ≠ 0 ∧
      ∀ r ∈ cachedFile s.1 p, r.2 = .wronly))
  | s, (_, .readSync p off n) =>
    inferInstanceAs (Decidable (∀ c ∈ s.2 p, off + n ≤ c.length → n ≠ 0 ∧ ∀ r ∈ cachedFile s.1 p, r.2 = .rdonly))
  | _, (_, .createFile _ _) | _, (_, .deleteFile _) | _, (_, .getFileInfo _) | _, (_, .fsync _) => .isTrue trivial

/-! ## One call -/

/-- The backend in good order, every cached descriptor on the file of its name, and
no file whose path does not fit. -/
structure HistoryOk (base : CString) (d : Place) (w : LocalWorld) : Prop where
  ok : LocalOk base d w
  live : ∀ p, Fs.FlatName p → LiveAt d w p
  short : ∀ p, localMap d w p ≠ none → FlatPath base p

section
variable {base : CString} {d : Place} {w w' : LocalWorld}

/-- Calls other than deletions make no name but their own. -/
theorem FileMap.exec_other (m : FileMap) {op : StorageOp} {q : CString} (hq : q ≠ op.path) :
    (m.exec op).1 q = m q := by
  cases op with
  | createFile p n =>
    simp only [FileMap.exec, FileMap.createFile]
    split
    · rfl
    · exact m.set_other _ hq
  | writeSync p off data =>
    simp only [FileMap.exec, FileMap.writeSync]
    split
    · rfl
    · exact m.set_other _ hq
  | readSync p off n => rfl
  | deleteFile p =>
    simp only [FileMap.exec, FileMap.deleteFile]
    split
    · exact m.set_other _ hq
    · rfl
  | getFileInfo p => rfl
  | fsync p => rfl

theorem HistoryOk.step (h : HistoryOk base d w) {op : StorageOp} (hpath : FlatPath base op.path) {m : FileMap}
    (hm : m = ((localMap d w).exec op).1 ∨ m = localMap d w) (hstep : LocalStep base d w w' m) :
    HistoryOk base d w' where
  ok := hstep.ok
  live p hp := hstep.live p hp (h.live p hp)
  short q hq := by
    by_cases hqp : q = op.path
    · exact hqp ▸ hpath
    · refine h.short q fun hnone => hq ?_
      rw [hstep.map]
      rcases hm with rfl | rfl
      · rw [FileMap.exec_other _ hqp, hnone]
      · exact hnone

/-- A call that keeps the backend in good order, makes the files what they should be, and
keeps its promise just when it is permitted. -/
def LocalCallOk (base : CString) (d : Place) (w : LocalWorld) (env : CallEnv) (op : StorageOp) : Prop :=
  ∃ w' reply, localExec env w op = some (w', reply) ∧
    LocalStep base d w w' (if reply.code = .ok then ((localMap d w).exec op).1 else localMap d w) ∧
    (Promised (localMap d w) op (some reply) ↔ Permitted (w, localMap d w) (env, op))

theorem local_write_call (env : CallEnv) {p : CString} {off : Nat} {data : Bytes} (hok : LocalOk base d w)
    (hlive : LiveAt d w p) (hpath : FlatPath base p) (hext : off + data.length < 2 ^ 63) :
    LocalCallOk base d w env (.writeSync p off data) := by
  by_cases h0 : data.length = 0
  · refine ⟨w, .ofCode .invalidParam, if_pos h0, LocalStep.refl hok, ?_⟩
    constructor
    · intro h
      cases h
    · intro h
      exact absurd h0 h.2.1
  · obtain ⟨w', r, hcall, hspec⟩ := localWrite_spec env hok hpath hlive h0 hext
    refine ⟨w', r, hcall, ?_⟩
    have hperm : Permitted (w, localMap d w) (env, .writeSync p off data) ↔
        ((cachedFile w p).map Prod.snd).getD .wronly = .wronly := by
      rw [cached_access_iff]
      exact (and_iff_right (hok.path ▸ hpath.fits)).trans (and_iff_right h0)
    rw [hperm]
    split at hspec
    · rename_i hr
      obtain ⟨rfl, hstep⟩ := hspec
      refine ⟨hstep, ?_⟩
      constructor
      · intro h
        cases h
      · intro h
        exact absurd h hr
    · rename_i hr
      obtain ⟨rfl, hstep⟩ := hspec
      refine ⟨?_, iff_of_true rfl (not_not.1 hr)⟩
      simpa [FileMap.exec, FileMap.writeSync, h0, StorageReply.ofCode] using hstep

theorem local_read_call (env : CallEnv) {p : CString} {off n : Nat} (hok : LocalOk base d w) (hlive : LiveAt d w p)
    (hpath : FlatPath base p) (hext : off + n < 2 ^ 63) : LocalCallOk base d w env (.readSync p off n) := by
  by_cases h0 : n = 0
  · refine ⟨w, .ofCode .invalidParam, if_pos h0, LocalStep.refl hok, ?_⟩
    apply forall_congr'
    intro c
    apply forall_congr'
    intro hc
    apply forall_congr'
    intro hin
    constructor
    · intro h
      cases h
    · intro h
      exact absurd h0 h.1
  · cases hm : localMap d w p with
    | none =>
      refine ⟨w, .ofCode .io, localRead_missing env hok hpath hlive hm h0, LocalStep.refl hok, ?_⟩
      have hvacuous : ∀ c, localMap d w p ≠ some c := by
        intro c hc
        rw [hm] at hc
        cases hc
      exact iff_of_true (fun c hc => absurd hc (hvacuous c)) (fun c hc => absurd hc (hvacuous c))
    | some c =>
      obtain ⟨w', hcall, hstep⟩ := localRead_found env hok hpath hlive hm h0 hext
      refine ⟨w', _, hcall, by simpa [FileMap.exec] using hstep, ?_⟩
      simp only [Promised, Permitted, hm, Option.mem_def, Option.some.injEq, forall_eq']
      refine forall_congr' fun hin => ?_
      rw [if_pos hin, and_iff_right h0]
      split
      · rename_i hw
        constructor
        · intro h
          cases h
        · intro h
          exact absurd (cached_access_iff.2 h) hw
      · rename_i hw
        exact iff_of_true rfl (cached_access_iff.1 (not_not.1 hw))

/-- Every call on a path that fits is so. -/
theorem local_call (env : CallEnv) {op : StorageOp} (hok : LocalOk base d w)
    (hlive : ∀ p, Fs.FlatName p → LiveAt d w p) (ha : FlatCall op) (hpath : FlatPath base op.path) :
    LocalCallOk base d w env op := by
  obtain ⟨-, hext, hkeeps⟩ := ha
  have hlive' := hlive op.path hpath.name
  cases op with
  | createFile p n =>
    dsimp only [StorageOp.path, StorageOp.extent] at hpath hext hlive'
    obtain ⟨w', hcall, hstep⟩ := localCreate_spec hok hpath hext
    refine ⟨w', _, hcall, ?_, Iff.rfl⟩
    rw [FileMap.exec]
    cases hm : localMap d w p with
    | none => simpa [FileMap.createFile, hm, StorageReply.ofCode] using hstep
    | some c => simpa [FileMap.createFile, hm, StorageReply.ofCode] using hstep
  | writeSync p off data =>
    dsimp only [StorageOp.path, StorageOp.extent] at hpath hext hlive'
    exact local_write_call env hok hlive' hpath hext
  | readSync p off n =>
    dsimp only [StorageOp.path, StorageOp.extent] at hpath hext hlive'
    exact local_read_call env hok hlive' hpath hext
  | deleteFile p => exact absurd rfl hkeeps
  | getFileInfo p => exact ⟨w, _, rfl, by simpa [FileMap.exec] using LocalStep.refl hok, Iff.rfl⟩
  | fsync p =>
    dsimp only [StorageOp.path] at hpath hlive'
    cases hm : localMap d w p with
    | none =>
      refine ⟨w, .ofCode .io, localFsync_missing env hok hpath hlive' hm, LocalStep.refl hok, ?_⟩
      exact iff_of_true (fun hne => absurd hm hne) trivial
    | some c =>
      obtain ⟨w', hcall, hstep⟩ := localFsync_found env hok hpath hlive' hm
      exact ⟨w', _, hcall, hstep, iff_of_true (fun _ => rfl) trivial⟩

/-- A call on a path that does not fit keeps everything, and breaks its promise if it
is a write. -/
theorem long_call (env : CallEnv) {op : StorageOp} (hok : LocalOk base d w) (ha : FlatCall op)
    (hlong : maxPathLen - 1 ≤ base.length + 1 + op.path.length) (hnone : localMap d w op.path = none) :
    (∀ w' reply, localExec env w op = some (w', reply) → LocalStep base d w w' (localMap d w) ∧
      (if reply.code = .ok then ((localMap d w).exec op).1 else localMap d w) = localMap d w) ∧
      (Promised (localMap d w) op ((localExec env w op).map Prod.snd) ↔ Permitted (w, localMap d w) (env, op)) := by
  obtain ⟨hname, hext, hkeeps⟩ := ha
  cases op with
  | createFile p n =>
    dsimp only [StorageOp.path] at hname hlong
    have hcall : localExec env w (.createFile p n) = none := by
      rw [localExec, localStorageCreateFile, hok.path]
      simp only [createParents_long w.fs hname hlong, Option.map_none]
    refine ⟨fun w' reply h => ?_, Iff.rfl⟩
    rw [hcall] at h
    cases h
  | writeSync p off data =>
    dsimp only [StorageOp.path] at hname hlong
    have hcall : localExec env w (.writeSync p off data) = some (w, .ofCode .invalidParam) ∨
        localExec env w (.writeSync p off data) = none := by
      rw [localExec, localStorageWriteSync, hok.path]
      simp only [createParents_long w.fs hname hlong, Option.bind_none]
      split
      · exact .inl rfl
      · exact .inr rfl
    have hperm : ¬ Permitted (w, localMap d w) (env, .writeSync p off data) := by
      intro h
      have := h.1
      rw [hok.path] at this
      exact Nat.not_lt.2 hlong this
    refine ⟨fun w' reply h => ?_, iff_of_false ?_ hperm⟩
    · rcases hcall with hcall | hcall <;> rw [hcall] at h <;> cases h
      exact ⟨LocalStep.refl hok, rfl⟩
    · intro h
      rcases hcall with hcall | hcall <;> rw [hcall] at h <;> cases h
  | readSync p off n =>
    refine ⟨fun w' reply h => ⟨localRead_long env hok hname hlong h, ite_self _⟩, ?_⟩
    have hvacuous : ∀ c, localMap d w p ≠ some c := by
      intro c hc
      rw [StorageOp.path] at hnone
      rw [hnone] at hc
      cases hc
    exact iff_of_true (fun c hc => absurd hc (hvacuous c)) (fun c hc => absurd hc (hvacuous c))
  | deleteFile p => exact absurd rfl hkeeps
  | getFileInfo p =>
    refine ⟨fun w' reply h => ?_, Iff.rfl⟩
    cases h
    exact ⟨LocalStep.refl hok, ite_self _⟩
  | fsync p =>
    refine ⟨fun w' reply h => ⟨localFsync_long env hok hname hlong h, ite_self _⟩, ?_⟩
    exact iff_of_true (fun hne => absurd hnone hne) trivial

/-- One call, on whatever path. -/
theorem history_step {a : CallEnv × StorageOp} (h : HistoryOk base d w) (ha : FlatCall a.2) :
    (∀ s' reply, localHistory.step (w, localMap d w) a = some (s', reply) →
      HistoryOk base d s'.1 ∧ s'.2 = localMap d s'.1) ∧
      (AsPromised (w, localMap d w) a ↔ Permitted (w, localMap d w) a) := by
  obtain ⟨env, op⟩ := a
  have hstep : ∀ s' reply, localHistory.step (w, localMap d w) (env, op) = some (s', reply) →
      localExec env w op = some (s'.1, reply) ∧
        s'.2 = if reply.code = .ok then ((localMap d w).exec op).1 else localMap d w := by
    intro s' reply hs
    obtain ⟨⟨w', r⟩, hcall, he⟩ := Option.map_eq_some_iff.1 hs
    cases he
    exact ⟨hcall, rfl⟩
  by_cases hshort : base.length + 1 + op.path.length < maxPathLen - 1
  · have hpath : FlatPath base op.path := ⟨ha.name, hshort⟩
    obtain ⟨w', r, hcall, hkeep, hpromise⟩ := local_call env h.ok h.live ha hpath
    refine ⟨fun s' reply hs => ?_, ?_⟩
    · obtain ⟨hcall', hmap⟩ := hstep s' reply hs
      rw [hcall] at hcall'
      cases hcall'
      refine ⟨h.step hpath ?_ hkeep, hmap.trans hkeep.map.symm⟩
      split
      · exact .inl rfl
      · exact .inr rfl
    · simpa only [AsPromised, hcall, Option.map_some] using hpromise
  · have hnone : localMap d w op.path = none := by
      by_contra hne
      exact hshort (h.short _ hne).fits
    obtain ⟨hkeep, hpromise⟩ := long_call env h.ok ha (Nat.not_lt.1 hshort) hnone
    refine ⟨fun s' reply hs => ?_, hpromise⟩
    obtain ⟨hcall, hmap⟩ := hstep s' reply hs
    obtain ⟨hkeep, hsame⟩ := hkeep _ _ hcall
    rw [hsame] at hmap
    refine ⟨⟨hkeep.ok, fun p hp => hkeep.live p hp (h.live p hp), ?_⟩, hmap.trans hkeep.map.symm⟩
    rw [hkeep.map]
    exact h.short

end

/-! ## Runs -/

/-- Over any run of a new backend, all promises are kept just when all calls are
permitted. -/
theorem local_read_your_writes_iff {fs fs' : Fs} {config : Option CString} {priv : LocalStoragePrivate} {d : Place}
    {calls : List (CallEnv × StorageOp)} (hfs : fs.Ok) (hinit : localStorageInit fs config = some (fs', .ok priv))
    (hb : BaseAt d ⟨fs', priv⟩)
    (hshort : ∀ p, localMap d ⟨fs', priv⟩ p ≠ none → priv.basePath.length + 1 + p.length < maxPathLen - 1)
    (hcalls : ∀ a ∈ calls, FlatCall a.2) :
    localHistory.Along AsPromised (⟨fs', priv⟩, localMap d ⟨fs', priv⟩) calls ↔
      localHistory.Along Permitted (⟨fs', priv⟩, localMap d ⟨fs', priv⟩) calls := by
  obtain ⟨hok, hempty⟩ := localStorageInit_spec hfs hinit hb
  have hstart : HistoryOk priv.basePath d ⟨fs', priv⟩ := by
    refine ⟨hok, fun p _ ino access hc => ?_, fun p hp => ⟨?_, hshort p hp⟩⟩
    · simp [cachedFile, hempty] at hc
    · by_contra hn
      exact hp (if_neg hn)
  refine Machine.along_iff (I := fun s => HistoryOk priv.basePath d s.1 ∧ s.2 = localMap d s.1) ?_ ?_
    ⟨hstart, rfl⟩ hcalls
  · rintro ⟨w, m⟩ a s' reply ⟨h, hm⟩ ha - hs
    obtain rfl : m = localMap d w := hm
    exact (history_step h ha).1 s' reply hs
  · rintro ⟨w, m⟩ a ⟨h, hm⟩ ha
    obtain rfl : m = localMap d w := hm
    exact (history_step h ha).2

theorem freshLocal_read_your_writes :
    localHistory.Along AsPromised (freshLocal, localMap [cstr "tmp", cstr "xdevice"] freshLocal)
      (calmly [.createFile (cstr "a") 4, .readSync (cstr "a") 1 2, .writeSync (cstr "b") 1 [7], .fsync (cstr "b")]) := by
  refine (local_read_your_writes_iff emptyDisk_ok freshLocal_init freshLocal_base (fun p hp => ?_) (by decide)).2
    (by decide)
  simp [localMap, Fs.contentAt, freshLocal, emptyDisk] at hp

/-- Writing, syncing and reading back. -/
def writeThenRead : List (CallEnv × StorageOp) :=
  calmly [.createFile (cstr "a") 4, .writeSync (cstr "a") 0 [1, 2], .fsync (cstr "a"), .readSync (cstr "a") 0 2]

/-- The descriptor a file was written through is cached, and cannot read. -/
theorem local_written_not_read :
    emptyDisk.Ok ∧ localStorageInit emptyDisk none = some (freshLocal.fs, .ok freshLocal.priv) ∧
    BaseAt [cstr "tmp", cstr "xdevice"] freshLocal ∧ (∀ a ∈ writeThenRead, FlatCall a.2) ∧
    ((localMachine.run freshLocal writeThenRead).map fun r => r.2) =
      some [.ofCode .ok, .ofCode .ok, .ofCode .ok, .ofCode .io] ∧
    ¬ localHistory.Along AsPromised (freshLocal, localMap [cstr "tmp", cstr "xdevice"] freshLocal) writeThenRead := by
  refine ⟨emptyDisk_ok, freshLocal_init, freshLocal_base, by decide, by decide, fun h => ?_⟩
  have hread : AsPromised _ _ := (((h.2 _ _ rfl).2 _ _ rfl).2 _ _ rfl).1
  exact absurd (hread [1, 2, 0, 0] rfl (by decide)) (by decide)

end XDevice
